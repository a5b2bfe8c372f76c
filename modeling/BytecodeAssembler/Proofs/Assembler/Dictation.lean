import BytecodeAssembler.Proofs.Assembler.Annotations

/-!
# Annotations as they are dictated

An annotation is a tree, and directives come one after the other. The elements
of a tree are **dictated** in order: an element by its value, or, if it is an
annotation itself, by a begin, its own elements and an end. The assembler keeps
the annotations that are not yet at their end on a stack, and puts each of them
where it belongs when its end comes.

What comes out is the tree that was dictated. It is added to the list that its
target names, at the innermost declaration, and nothing else of the state
changes, except that there are as many lists of annotations of parameters as the
method has parameters (`Assembler.dictation_appends`). That no annotation inside
of another one is lost at its end needs more than this, since directives can come
in any order: whatever was run, the annotations on the stack are **stacked**, the
outermost one with a target and the others with the name of an element.
-/

namespace BytecodeAssembler

/-! ## Dictating -/

/-- **The directives dictate these elements**, and do nothing else. -/
structure Dictates (ds : List Directive) (es : List (String × ElementValue)) : Prop where
  elements : Elements ds es
  only : ∀ d ∈ ds, d.buildsTree = true

mutual

/-- The directives that dictate one element. An annotation is dictated element by
element, any other value as it is. -/
def ElementValue.dictation (name : String) : ElementValue → List Directive
  | .nested tree => tree.dictation name
  | value => [.element name value]

/-- The directives that dictate an annotation inside of another one. -/
def AnnotationTree.dictation (name : String) : AnnotationTree → List Directive
  | ⟨type, es⟩ => .beginNested name type :: (dictateElements es ++ [.endTree])

/-- **The directives that dictate some elements**, in order. -/
def dictateElements : List (String × ElementValue) → List Directive
  | [] => []
  | (name, value) :: rest => value.dictation name ++ dictateElements rest

end

theorem Dictates.element {ds : List Directive} {es : List (String × ElementValue)}
    (h : Dictates ds es) (name : String) (value : ElementValue) :
    Dictates (.element name value :: ds) ((name, value) :: es) where
  elements := .element name value h.elements
  only := List.forall_mem_cons.2 ⟨rfl, h.only⟩

mutual

theorem ElementValue.dictates_cons (value : ElementValue) (name : String) {ds : List Directive}
    {es : List (String × ElementValue)} (h : Dictates ds es) :
    Dictates (value.dictation name ++ ds) ((name, value) :: es) := by
  cases value with
  | nested tree => exact tree.dictates_cons name h
  | _ => exact h.element name _

theorem AnnotationTree.dictates_cons (tree : AnnotationTree) (name : String)
    {ds : List Directive} {es : List (String × ElementValue)} (h : Dictates ds es) :
    Dictates (tree.dictation name ++ ds) ((name, .nested tree) :: es) := by
  obtain ⟨type, inside⟩ := tree
  have hinside := dictates_dictateElements inside
  have hsame : (AnnotationTree.mk type inside).dictation name ++ ds
      = .beginNested name type :: (dictateElements inside ++ .endTree :: ds) := by
    simp [AnnotationTree.dictation]
  rw [hsame]
  refine ⟨.nested name type hinside.elements h.elements, ?_⟩
  refine List.forall_mem_cons.2 ⟨rfl, List.forall_mem_append.2 ⟨hinside.only, ?_⟩⟩
  exact List.forall_mem_cons.2 ⟨rfl, h.only⟩

/-- **Whatever the elements are, they can be dictated.** -/
theorem dictates_dictateElements (es : List (String × ElementValue)) :
    Dictates (dictateElements es) es := by
  cases es with
  | nil => exact ⟨.nil, List.forall_mem_nil _⟩
  | cons e rest =>
    obtain ⟨name, value⟩ := e
    exact value.dictates_cons name (dictates_dictateElements rest)

end

/-! ## What is left without annotations -/

def CommonAttributes.bare (common : CommonAttributes) : CommonAttributes :=
  { common with visible := #[], invisible := #[] }

def Field.bare (f : Field) : Field := { f with attributes := f.attributes.bare }

/-- **A method without its annotations.** There are still as many lists of those of
its parameters, but they are empty. -/
def Method.bare (m : Method) : Method :=
  { m with
    attributes := m.attributes.bare
    visibleParameters := m.visibleParameters.map fun _ => #[]
    invisibleParameters := m.invisibleParameters.map fun _ => #[] }

def Class.bare (c : Class) : Class :=
  { c with
    attributes := c.attributes.bare
    fields := c.fields.map Field.bare
    methods := c.methods.map Method.bare }

/-- Empty lists behind the others, for there to be at least so many. -/
def padLists (lists : Array (Array AnnotationTree)) (count : Nat) :
    Array (Array AnnotationTree) :=
  lists ++ Array.replicate (count - lists.size) #[]

/-- **A method with a list for each of its parameters**, and for the one that is a
target. -/
def Method.pad (m : Method) : AnnotationTarget → Method
  | .visible | .invisible => m
  | .visibleParameter index => { m with
      visibleParameters :=
        padLists m.visibleParameters (max (Assembler.parameterCount m.descriptor) (index + 1)) }
  | .invisibleParameter index => { m with
      invisibleParameters :=
        padLists m.invisibleParameters (max (Assembler.parameterCount m.descriptor) (index + 1)) }

namespace Assembler

variable {a : Assembler} {t u : OpenTree} {around : List OpenTree} {inner : List Directive}
  {es : List (String × ElementValue)} {target : AnnotationTarget} {type : String}

/-- **The state without the annotations of its declarations.** -/
def bare (a : Assembler) : Assembler :=
  { a with
    classSoFar := a.classSoFar.bare
    field := a.field.map Field.bare
    method := a.method.map fun m => { m with method := m.method.bare } }

/-- The state with all the lists of annotations of parameters that a target asks
for in the open method. -/
def pad (a : Assembler) (target : AnnotationTarget) : Assembler :=
  { a with method := a.method.map fun m => { m with method := m.method.pad target } }

theorem pushParameter_bare (lists : Array (Array AnnotationTree)) (count index : Nat)
    (tree : AnnotationTree) :
    (pushParameter lists count index tree).map (fun _ => (#[] : Array AnnotationTree))
      = (padLists lists (max count (index + 1))).map fun _ => #[] := by
  have hsize : (pushParameter lists count index tree).size
      = (padLists lists (max count (index + 1))).size := by
    simp only [pushParameter, padLists, Array.size_modify, Array.size_append, Array.size_replicate]
    omega
  rw [Array.map_const', Array.map_const', hsize]

theorem bare_modifyAttributes (a : Assembler) (change : CommonAttributes → CommonAttributes)
    (h : ∀ common, (change common).bare = common.bare) :
    (a.modifyAttributes change).bare = a.bare := by
  cases hm : a.method with
  | some m => simp [modifyAttributes, bare, hm, Method.bare, h]
  | none =>
    cases hf : a.field with
    | some f => simp [modifyAttributes, bare, hm, hf, Field.bare, h]
    | none => simp [modifyAttributes, bare, hm, hf, Class.bare, h]

theorem bare_modifyMethod (a : Assembler) {change : Method → Method}
    (h : ∀ m, (change m).bare = (m.pad target).bare) :
    (a.modifyMethod change).bare = (a.pad target).bare := by
  cases hm : a.method <;> simp [modifyMethod, pad, bare, hm, h]

theorem pad_eq_self (a : Assembler) (h : target.isParameter = false) : a.pad target = a := by
  have hpad (m : Method) : m.pad target = m := by
    cases target with
    | visible | invisible => rfl
    | visibleParameter | invisibleParameter => cases h
  simp [pad, hpad]

/-- **Attaching** an annotation changes nothing but annotations, and the number of
lists they are in. -/
theorem bare_attach (a : Assembler) (target : AnnotationTarget) (tree : AnnotationTree) :
    (a.attach target tree).bare = (a.pad target).bare := by
  unfold attach
  cases target with
  | visible | invisible =>
    rw [a.pad_eq_self rfl]
    exact a.bare_modifyAttributes _ fun _ => rfl
  | visibleParameter | invisibleParameter =>
    refine a.bare_modifyMethod fun m => ?_
    simp [Method.bare, Method.pad, pushParameter_bare]

/-! ## Running a dictation -/

/-- **What is dictated inside of an annotation fills it**, and nothing else
happens. -/
theorem runAll_dictates (h : Dictates inner es) (ht : a.trees = t :: around) :
    a.runAll inner = { a with trees := t.fill es :: around } := by
  obtain ⟨helements, honly⟩ := h
  induction helements generalizing a t around with
  | nil =>
    rw [t.fill_nil, ← ht]
    rfl
  | @element ds es name value _ ih =>
    have hrun := run_element ht name value
    have hrest := ih (congrArg trees hrun) (List.forall_mem_cons.1 honly).2
    show (a.run (.element name value)).runAll ds = _
    rw [hrest, hrun, OpenTree.fill_push]
  | @nested inner rest es es' name type _ _ ihinner ihrest =>
    obtain ⟨hinner, hend⟩ := List.forall_mem_append.1 (List.forall_mem_cons.1 honly).2
    have hbegin := run_beginNested ht name type
    -- the annotation inside is filled on top of the one around it
    have hfill := ihinner (congrArg trees hbegin) hinner
    have hput := run_endTree_nested (congrArg trees hfill) rfl
    rw [OpenTree.close_fill] at hput
    have hrest := ihrest (congrArg trees hput) (List.forall_mem_cons.1 hend).2
    show (a.run (.beginNested name type)).runAll (inner ++ .endTree :: rest) = _
    rw [runAll_append]
    show (((a.run (.beginNested name type)).runAll inner).run .endTree).runAll rest = _
    rw [hrest, hput, hfill, hbegin, OpenTree.fill_push]
  | other hd =>
    rw [(List.forall_mem_cons.1 honly).1] at hd
    cases hd

/-- **From its begin to its end**, an annotation that is dictated is attached. -/
theorem runAll_dictated (ht : a.trees = [])
    (hmethod : target.isParameter = true → a.method.isSome = true) (h : Dictates inner es) :
    a.runAll (.beginTree target type :: (inner ++ [.endTree])) = a.attach target ⟨type, es⟩ := by
  have hbegin : a.run (.beginTree target type)
      = { a with trees := [⟨type, #[], .target target⟩] } := by
    show a.beginTree target type = _
    unfold beginTree
    rw [if_neg (by simp [ht]), if_neg (by simpa [Option.isSome_iff_ne_none] using hmethod)]
  have hfill := runAll_dictates h (congrArg trees hbegin)
  show (a.run (.beginTree target type)).runAll (inner ++ [.endTree]) = _
  rw [runAll_append]
  show ((a.run (.beginTree target type)).runAll inner).run .endTree = _
  rw [hfill, hbegin]
  show ({ a with trees := [] } : Assembler).attach target (OpenTree.close _) = _
  rw [OpenTree.close_fill, ← ht]

/-- **The annotation is added**, and nothing else happens. -/
structure Appends (target : AnnotationTarget) (tree : AnnotationTree) (a a' : Assembler) :
    Prop where
  /-- No fault is recorded. -/
  diagnostics : a'.diagnostics = a.diagnostics
  /-- No annotation is open. -/
  trees : a'.trees = []
  /-- The list that the target names at the innermost declaration has one more
  annotation, and no other list of annotations changes. -/
  on : ∀ declaration target', a'.annotations.on declaration target'
    = a.annotations.on declaration target'
      ++ if declaration = a.scope.innermost ∧ target' = target then [tree] else []
  /-- But for annotations, the state is the one before with some empty lists. -/
  rest : a'.bare = (a.pad target).bare

theorem appends_attach {tree : AnnotationTree} (ht : a.trees = [])
    (hmethod : target.isParameter = true → a.method.isSome = true) :
    Appends target tree a (a.attach target tree) where
  diagnostics := by
    show (a.attach target tree).bare.diagnostics = (a.pad target).bare.diagnostics
    rw [bare_attach]
  trees := (a.attaches_attach target tree).trees.trans ht
  on declaration target' := by
    rw [(a.attaches_attach target tree).on, place_innermost hmethod]
    simp only [Option.some.injEq, eq_comm]
  rest := a.bare_attach target tree

/-! ## The stack of open annotations -/

/-- **The annotations stand inside each other**: the outermost one has a target,
and the others have the name of an element. -/
inductive Stacked : List OpenTree → Prop where
  | nil : Stacked []
  | outermost (type : String) (elements : Array (String × ElementValue))
      (target : AnnotationTarget) : Stacked [⟨type, elements, .target target⟩]
  | inside (type : String) (elements : Array (String × ElementValue)) (name : String)
      {t : OpenTree} {around : List OpenTree} (h : Stacked (t :: around)) :
      Stacked (⟨type, elements, .element name⟩ :: t :: around)

/-- Only where they go matters. -/
theorem Stacked.setElements (h : Stacked (t :: around))
    (elements : Array (String × ElementValue)) : Stacked ({ t with elements } :: around) := by
  cases h with
  | outermost type _ target => exact .outermost type elements target
  | inside type _ name h => exact .inside type elements name h

theorem Stacked.tail (h : Stacked (t :: around)) : Stacked around := by
  cases h with
  | outermost => exact .nil
  | inside _ _ _ h => exact h

/-- **An edit keeps the annotations stacked.** -/
theorem TreeChange.stacked {edit : Bool → List OpenTree → Except Fault TreeEdit} {inMethod : Bool}
    {trees : List OpenTree} {edited : TreeEdit} (hd : TreeChange d edit) (h : Stacked trees)
    (hedit : edit inMethod trees = .ok edited) : Stacked edited.trees := by
  cases hd with
  | beginTree target type =>
    unfold OpenTree.begin at hedit
    split at hedit
    next => cases hedit
    next =>
      split at hedit
      next => cases hedit
      next =>
        cases hedit
        exact .outermost type #[] target
  | element name value =>
    cases trees with
    | nil => cases hedit
    | cons t around =>
      cases hedit
      exact h.setElements _
  | beginNested name type =>
    cases trees with
    | nil => cases hedit
    | cons t around =>
      cases hedit
      exact .inside type #[] name h
  | endTree =>
    cases h with
    | nil => cases hedit
    | outermost =>
      cases hedit
      exact .nil
    | inside type elements name h =>
      cases hedit
      exact h.setElements _

theorem Acts.stacked {e : Effect} {s : Surroundings} (hd : a.Acts d e) (h : Stacked s.trees)
    (inMethod : Bool) : Stacked (s.after inMethod e).trees := by
  unfold Surroundings.after
  cases hd with
  | version | beginMethod =>
    dsimp only
    split <;> exact h
  | trees hd =>
    dsimp only
    split
    next => exact h
    next edited hedit => exact hd.stacked h hedit
  | _ => exact h

/-- **A directive keeps the annotations stacked**, whether it records a fault or
not. -/
theorem stacked_run (h : Stacked a.trees) (d : Directive) : Stacked (a.run d).trees := by
  have htrees : (a.run d).trees = (a.surroundings.after a.method.isSome (a.effect d)).trees :=
    congrArg Surroundings.trees (a.surroundings_run d)
  rw [htrees]
  exact (a.acts d).stacked h a.method.isSome

theorem stacked_runAll (h : Stacked a.trees) (ds : List Directive) :
    Stacked (a.runAll ds).trees := by
  induction ds generalizing a with
  | nil => exact h
  | cons d ds ih => exact ih (stacked_run h d)

/-- **What is inside of another annotation has that one around it.** -/
theorem Stacked.exists_around {name : String} (h : Stacked (u :: around))
    (hparent : u.parent = .element name) : ∃ t rest, around = t :: rest := by
  cases h with
  | outermost => cases hparent
  | inside _ _ _ h => exact ⟨_, _, rfl⟩

/-- **Dictating an annotation adds it and does nothing else.** From a state in
which no annotation is open, and inside of a method if the target is a parameter,
the begin, the elements of any tree and the end record no fault, leave none open
and add exactly the tree to the list that the target names at the innermost
declaration. Every tree can be dictated down to its innermost annotations.

In every state of a run, whatever was recorded, the open annotations are stacked.
So the end of one that is an element finds the annotation it belongs to, and puts
it there. -/
theorem dictation_appends (a : Assembler) :
    (a.trees = [] → ∀ target tree inner, (target.isParameter = true → a.method.isSome = true) →
        Dictates inner tree.elements →
        Appends target tree a (a.runAll (.beginTree target tree.type :: (inner ++ [.endTree]))))
      ∧ (∀ tree : AnnotationTree, Dictates (dictateElements tree.elements) tree.elements)
      ∧ ∀ settings ds, a = (start settings).runAll ds → Stacked a.trees
        ∧ ∀ u around name, a.trees = u :: around → u.parent = .element name →
          ∃ t rest, around = t :: rest ∧ a.run .endTree = { a with
            trees := { t with elements := t.elements.push (name, .nested u.close) } :: rest } := by
  refine ⟨fun ht target tree inner hmethod hinner => ?_,
    fun tree => dictates_dictateElements tree.elements, fun settings ds ha => ?_⟩
  · obtain ⟨type, es⟩ := tree
    rw [runAll_dictated ht hmethod hinner]
    exact appends_attach ht hmethod
  · have hstacked : Stacked a.trees := ha ▸ stacked_runAll (a := start settings) .nil ds
    refine ⟨hstacked, fun u around name hu hparent => ?_⟩
    obtain ⟨t, rest, rfl⟩ := (hu ▸ hstacked).exists_around hparent
    exact ⟨t, rest, rfl, run_endTree_nested hu hparent⟩

/-- An annotation with another one inside of it, and a third one inside of that,
next to a list of values. -/
def threefold : AnnotationTree :=
  ⟨"LA;", [("b", .nested ⟨"LB;", [("c", .nested ⟨"LC;", []⟩), ("d", .string "text")]⟩),
    ("e", .array [.nested ⟨"LC;", []⟩])]⟩

/-- **In a method with one parameter** the annotation is added to the second
parameter. The innermost annotation may be dictated or given as a value. And an
annotation inside of another one is put there at its end. -/
theorem dictation_appends_threefold :
    let a := { start .initial with method := some (.begin (.declare .empty "m" "(I)V")) }
    let inner := [.beginNested "b" "LB;", .element "c" (.nested ⟨"LC;", []⟩),
      .element "d" (.string "text"), .endTree, .element "e" (.array [.nested ⟨"LC;", []⟩])]
    (a.runAll (.beginTree (.visibleParameter 1) "LA;" :: (inner ++ [.endTree]))).annotations.on
        (.method 0) (.visibleParameter 1) = [threefold]
      ∧ (a.runAll (.beginTree (.visibleParameter 1) "LA;"
        :: (dictateElements threefold.elements ++ [.endTree]))).annotations.on
        (.method 0) (.visibleParameter 1) = [threefold]
      ∧ (((start .initial).runAll [.beginTree .visible "LA;", .beginNested "b" "LB;"]).run
        .endTree).trees = [⟨"LA;", #[("b", .nested ⟨"LB;", []⟩)], .target .visible⟩] := by
  intro a inner
  obtain ⟨happends, hdictates, -⟩ := dictation_appends a
  obtain ⟨-, -, hstacked⟩ :=
    dictation_appends ((start .initial).runAll [.beginTree .visible "LA;", .beginNested "b" "LB;"])
  have hinner : Dictates inner threefold.elements := by
    refine ⟨.nested _ _ (.element _ _ (.element _ _ .nil)) (.element _ _ .nil), ?_⟩
    simp [inner, Directive.buildsTree]
  refine ⟨?_, ?_, ?_⟩
  · exact (happends rfl (.visibleParameter 1) threefold inner (fun _ => rfl) hinner).on _ _
  · exact (happends rfl (.visibleParameter 1) threefold _ (fun _ => rfl) (hdictates _)).on _ _
  · obtain ⟨t, rest, hrest, hend⟩ := (hstacked .initial _ rfl).2 _ _ "b" rfl rfl
    cases hrest
    exact congrArg trees hend

end Assembler

end BytecodeAssembler
