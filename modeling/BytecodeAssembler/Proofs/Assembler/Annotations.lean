import BytecodeAssembler.Proofs.Assembler.Innermost

/-!
# Where annotations are attached

The directives of a run that records nothing fall into **blocks**, one for
each annotation that is begun outside of any other: from its begin to the end
that matches it, with its elements in between. Other directives can stand
between them too, and these may well close the declaration that was innermost
at the begin, or open another one.

An annotation remembers its target when it begins, but it is only when it ends
that it is attached, to the declaration that is innermost then. If that is the
declaration it began in, the annotation is where it belongs. If not, it goes
elsewhere, and an annotation of a parameter that ends outside of any method is
attached to nothing at all (`Assembler.finish_annotations`).
-/

namespace BytecodeAssembler

/-! ## Attaching -/

/-- **What an annotation is attached to** that ends where this declaration is
innermost. Only methods have parameters. -/
def AnnotationTarget.place : AnnotationTarget → Declaration → Option Declaration
  | .visible, innermost | .invisible, innermost => some innermost
  | _, .method index => some (.method index)
  | _, _ => none

namespace Assembler

variable {a a' : Assembler} {target : AnnotationTarget} {tree : AnnotationTree}

/-- Where an annotation may begin, its target is at the innermost declaration. -/
theorem place_innermost (hmethod : target.isParameter = true → a.method.isSome = true) :
    target.place a.scope.innermost = some a.scope.innermost := by
  cases target with
  | visible | invisible => rfl
  | visibleParameter | invisibleParameter =>
    obtain ⟨m, hm⟩ := Option.isSome_iff_exists.1 (hmethod rfl)
    simp [scope, Scope.innermost, hm, AnnotationTarget.place]

/-- **A step that attaches an annotation** and does nothing else. -/
structure Attaches (target : AnnotationTarget) (tree : AnnotationTree) (a a' : Assembler) :
    Prop where
  trees : a'.trees = a.trees
  scope : a'.scope = a.scope
  on : ∀ declaration target', a'.annotations.on declaration target'
    = a.annotations.on declaration target'
      ++ if target.place a.scope.innermost = some declaration ∧ target = target' then [tree] else []

theorem Adds.attaches (h : Adds (fun target' => if target = target' then [tree] else []) a a')
    (hplace : target.place a.scope.innermost = some a.scope.innermost) :
    Attaches target tree a a' where
  trees := h.trees
  scope := h.scope
  on declaration target' := by
    rw [h.on, hplace]
    by_cases hd : declaration = a.scope.innermost
    · simp [hd]
    · simp [hd, Ne.symm hd]

/-- Empty lists put behind the others change none of them. -/
theorem getD_padded (parameters : Array (Array AnnotationTree)) (n k : Nat) :
    (parameters ++ Array.replicate n #[])[k]?.getD #[] = parameters[k]?.getD #[] := by
  rcases Nat.lt_or_ge k parameters.size with hlt | hge
  · rw [Array.getElem?_append_left hlt]
  · rw [Array.getElem?_append_right hge, Array.getElem?_eq_none hge, Array.getElem?_replicate]
    split <;> rfl

/-- **The list of one parameter grows.** -/
theorem toList_pushParameter (parameters : Array (Array AnnotationTree)) (count index : Nat)
    (tree : AnnotationTree) (k : Nat) :
    ((pushParameter parameters count index tree)[k]?.getD #[]).toList
      = (parameters[k]?.getD #[]).toList ++ if index = k then [tree] else [] := by
  unfold pushParameter
  dsimp only
  generalize hpadded : parameters ++ Array.replicate
    (max (max parameters.size count) (index + 1) - parameters.size) #[] = padded
  have hsame : padded[k]?.getD #[] = parameters[k]?.getD #[] := by
    rw [← hpadded, getD_padded]
  have hbound : index < padded.size := by
    rw [← hpadded, Array.size_append, Array.size_replicate]
    omega
  rw [← hsame, Array.getElem?_modify]
  by_cases hk : index = k
  · subst hk
    simp [hbound]
  · simp [hk]

/-- An annotation of a parameter is attached to the open method, and to
nothing if there is none. -/
theorem attaches_modifyMethod (change : Method → Method) (hparameter : target.isParameter = true)
    (h : ∀ m target', (change m).listed target'
      = m.listed target' ++ if target = target' then [tree] else []) :
    Attaches target tree a (a.modifyMethod change) := by
  cases hm : a.method with
  | none =>
    have heq : a.modifyMethod change = a := by simp [modifyMethod, hm]
    have hplace : target.place a.scope.innermost = none := by
      simp only [scope, Scope.innermost, hm, Option.map_none]
      cases target with
      | visible | invisible => cases hparameter
      | visibleParameter | invisibleParameter => cases a.field <;> rfl
    rw [heq]
    exact ⟨rfl, rfl, fun declaration target' => by simp [hplace]⟩
  | some m =>
    have heq : a.modifyMethod change
        = { a with method := some { m with method := change m.method } } := by
      simp [modifyMethod, hm]
    rw [heq]
    exact (adds_setMethod hm (h m.method)).attaches (place_innermost fun _ => hm ▸ rfl)

/-- **Attaching** puts an annotation at the end of the list that its target
names. -/
theorem attaches_attach (a : Assembler) (target : AnnotationTarget) (tree : AnnotationTree) :
    Attaches target tree a (a.attach target tree) := by
  cases target with
  | visible =>
    refine Adds.attaches (a.adds_modifyAttributes
      (fun common => { common with visible := common.visible.push tree }) ?_) rfl
    intro common target'
    cases target' <;> simp [CommonAttributes.listed]
  | invisible =>
    refine Adds.attaches (a.adds_modifyAttributes
      (fun common => { common with invisible := common.invisible.push tree }) ?_) rfl
    intro common target'
    cases target' <;> simp [CommonAttributes.listed]
  | visibleParameter index =>
    refine attaches_modifyMethod (fun m => { m with
      visibleParameters :=
        pushParameter m.visibleParameters (parameterCount m.descriptor) index tree }) rfl ?_
    intro m target'
    cases target' <;> simp [Method.listed, toList_pushParameter]
  | invisibleParameter index =>
    refine attaches_modifyMethod (fun m => { m with
      invisibleParameters :=
        pushParameter m.invisibleParameters (parameterCount m.descriptor) index tree }) rfl ?_
    intro m target'
    cases target' <;> simp [Method.listed, toList_pushParameter]

end Assembler

/-! ## Blocks -/

/-- **The elements that directives give to an annotation**, up to the end that
matches its begin. An annotation inside of it is one of them. -/
inductive Elements : List Directive → List (String × ElementValue) → Prop where
  | nil : Elements [] []
  | element {ds : List Directive} {es : List (String × ElementValue)} (name : String)
      (value : ElementValue) (h : Elements ds es) :
      Elements (.element name value :: ds) ((name, value) :: es)
  | nested {inner rest : List Directive} {es es' : List (String × ElementValue)}
      (name type : String) (hinner : Elements inner es) (hrest : Elements rest es') :
      Elements (.beginNested name type :: (inner ++ .endTree :: rest))
        ((name, .nested ⟨type, es⟩) :: es')
  | other {d : Directive} {ds : List Directive} {es : List (String × ElementValue)}
      (hd : d.buildsTree = false) (h : Elements ds es) : Elements (d :: ds) es

/-- **An annotation that was begun and ended.** -/
structure Block where
  /-- The declaration that is innermost where it begins. -/
  began : Declaration
  /-- The declaration that is innermost where it ends. -/
  ended : Declaration
  target : AnnotationTarget
  tree : AnnotationTree

/-- The declaration that the annotation is attached to, if there is one. -/
def Block.place (b : Block) : Option Declaration := b.target.place b.ended

/-- **The annotations that directives begin and end**, in order, from a given
scope on. -/
inductive Blocks : Scope → List Directive → List Block → Prop where
  | nil (s : Scope) : Blocks s [] []
  | block {s : Scope} {inner rest : List Directive} {es : List (String × ElementValue)}
      {blocks : List Block} (target : AnnotationTarget) (type : String)
      (hinner : Elements inner es) (hrest : Blocks (s.after inner) rest blocks) :
      Blocks s (.beginTree target type :: (inner ++ .endTree :: rest))
        (⟨s.innermost, (s.after inner).innermost, target, ⟨type, es⟩⟩ :: blocks)
  | other {s : Scope} {d : Directive} {ds : List Directive} {blocks : List Block}
      (hd : d.buildsTree = false) (h : Blocks (s.step d) ds blocks) : Blocks s (d :: ds) blocks

/-- **What blocks attach** to a declaration and a target. -/
def attached (blocks : List Block) (declaration : Declaration) (target : AnnotationTarget) :
    List AnnotationTree :=
  (blocks.filter fun b => b.place = some declaration ∧ b.target = target).map Block.tree

/-- The target of the annotation that a directive begins. -/
def Directive.target? : Directive → Option AnnotationTarget
  | .beginTree target _ => some target
  | _ => none

theorem Directive.target?_of_not_buildsTree {d : Directive} (hd : d.buildsTree = false) :
    d.target? = none := by
  cases d with
  | beginTree => cases hd
  | _ => rfl

theorem Elements.filterMap_target? {ds : List Directive} {es : List (String × ElementValue)}
    (h : Elements ds es) : ds.filterMap Directive.target? = [] := by
  induction h with
  | nil => rfl
  | element _ _ _ ih => exact ih
  | nested _ _ _ _ ihinner ihrest =>
    rw [List.filterMap_cons_none rfl, List.filterMap_append, ihinner,
      List.filterMap_cons_none rfl, ihrest, List.nil_append]
  | other hd _ ih => rw [List.filterMap_cons_none (Directive.target?_of_not_buildsTree hd), ih]

/-- **There is one block for each annotation that is begun.** -/
theorem Blocks.map_target {s : Scope} {ds : List Directive} {blocks : List Block}
    (h : Blocks s ds blocks) : blocks.map Block.target = ds.filterMap Directive.target? := by
  induction h with
  | nil => rfl
  | block target type hinner _ ih =>
    have htarget : (Directive.beginTree target type).target? = some target := rfl
    rw [List.filterMap_cons_some htarget, List.filterMap_append, hinner.filterMap_target?,
      List.filterMap_cons_none rfl, List.map_cons, ih, List.nil_append]
  | other hd _ ih => rw [List.filterMap_cons_none (Directive.target?_of_not_buildsTree hd), ih]

/-! ## Inside an annotation -/

/-- The annotation with more elements. -/
def OpenTree.fill (t : OpenTree) (es : List (String × ElementValue)) : OpenTree :=
  { t with elements := (t.elements.toList ++ es).toArray }

theorem OpenTree.fill_nil (t : OpenTree) : t.fill [] = t := by
  simp [fill]

theorem OpenTree.fill_push (t : OpenTree) (e : String × ElementValue)
    (es : List (String × ElementValue)) :
    { t with elements := t.elements.push e }.fill es = t.fill (e :: es) := by
  simp [fill]

theorem OpenTree.close_fill (type : String) (parent : AnnotationParent)
    (es : List (String × ElementValue)) :
    ((⟨type, #[], parent⟩ : OpenTree).fill es).close = ⟨type, es⟩ := by
  simp [fill, close]

theorem Scope.after_append (s : Scope) (ds ds' : List Directive) :
    s.after (ds ++ ds') = (s.after ds).after ds' :=
  List.foldl_append

namespace Assembler

variable {a : Assembler} {t u : OpenTree} {around : List OpenTree} {inner ds : List Directive}
  {es : List (String × ElementValue)} {target : AnnotationTarget} {type : String}

/-- **A run inside of an annotation** fills it, and attaches nothing. -/
structure Fills (a : Assembler) (t : OpenTree) (around : List OpenTree)
    (inner : List Directive) (es : List (String × ElementValue)) : Prop where
  elements : Elements inner es
  trees : (a.runAll inner).trees = t.fill es :: around
  scope : (a.runAll inner).scope = a.scope.after inner
  on : (a.runAll inner).annotations.on = a.annotations.on

/-- What comes first puts some elements into the annotation, and the rest is
filled in later. -/
theorem Fills.after {es' : List (String × ElementValue)} (first : List Directive)
    (h : Fills (a.runAll first) u around inner es)
    (hscope : (a.runAll first).scope = a.scope.after first)
    (hon : (a.runAll first).annotations.on = a.annotations.on)
    (hfill : u.fill es = t.fill es') (helements : Elements (first ++ inner) es') :
    Fills a t around (first ++ inner) es' where
  elements := helements
  trees := by rw [runAll_append, h.trees, hfill]
  scope := by rw [runAll_append, h.scope, hscope, Scope.after_append]
  on := by rw [runAll_append, h.on, hon]

theorem run_element (ht : a.trees = t :: around) (name : String) (value : ElementValue) :
    a.run (.element name value)
      = { a with trees := { t with elements := t.elements.push (name, value) } :: around } := by
  simp [run, addElement, ht]

theorem run_beginNested (ht : a.trees = t :: around) (name type : String) :
    a.run (.beginNested name type)
      = { a with trees := ⟨type, #[], .element name⟩ :: t :: around } := by
  simp [run, beginNested, ht]

/-- **An annotation inside of another one** becomes an element of it. -/
theorem run_endTree_nested {name : String} (ht : a.trees = u :: t :: around)
    (hparent : u.parent = .element name) :
    a.run .endTree = { a with
      trees := { t with elements := t.elements.push (name, .nested u.close) } :: around } := by
  simp [run, endTree, ht, hparent, addElement]

theorem Fills.nested {rest : List Directive} {es' : List (String × ElementValue)}
    {name type : String} (ht : a.trees = t :: around)
    (hinner : Fills (a.run (.beginNested name type)) ⟨type, #[], .element name⟩ (t :: around)
      inner es)
    (hrest : Fills (((a.run (.beginNested name type)).runAll inner).run .endTree)
      { t with elements := t.elements.push (name, .nested ⟨type, es⟩) } around rest es') :
    Fills a t around (.beginNested name type :: (inner ++ .endTree :: rest))
      ((name, .nested ⟨type, es⟩) :: es') := by
  have hbegin := run_beginNested ht name type
  have hend := run_endTree_nested hinner.trees rfl
  have hfirst : a.runAll (.beginNested name type :: (inner ++ [.endTree]))
      = ((a.run (.beginNested name type)).runAll inner).run .endTree :=
    runAll_append _ inner [.endTree]
  have helements := Elements.nested name type hinner.elements hrest.elements
  rw [← List.singleton_append (l := rest), ← List.append_assoc, ← List.cons_append] at helements ⊢
  refine Fills.after (.beginNested name type :: (inner ++ [.endTree])) ?_ ?_ ?_
    (t.fill_push _ es') helements
  · rw [hfirst]
    exact hrest
  · rw [hfirst, hend]
    show ((a.run (.beginNested name type)).runAll inner).scope = _
    rw [hinner.scope, hbegin]
    exact (Scope.after_append _ inner [.endTree]).symm
  · rw [hfirst, hend]
    show ((a.run (.beginNested name type)).runAll inner).annotations.on = _
    rw [hinner.on, hbegin]
    rfl

/-- **An annotation that is begun is ended**, in a run that leaves none open.
Until then its elements are given. -/
theorem exists_fills (ht : a.trees = t :: around) (hlast : (a.runAll ds).trees = [])
    (hclean : (a.runAll ds).diagnostics = a.diagnostics) :
    ∃ inner rest es, ds = inner ++ .endTree :: rest ∧ Fills a t around inner es := by
  -- an annotation inside leaves the rest of the run to be split once more, so the
  -- induction is on the length
  induction hn : ds.length using Nat.strongRecOn generalizing a t around ds with
  | ind n ih =>
    cases ds with
    -- the run is over and the annotation is still open
    | nil =>
      rw [show a.runAll [] = a from rfl, ht] at hlast
      cases hlast
    | cons d ds =>
      obtain ⟨hfirst, hrest⟩ := run_clean_of_runAll hclean
      have hshort : ds.length < n := by
        rw [← hn]
        exact Nat.lt_succ_self _
      cases hd : d.buildsTree with
      | false =>
        have hpasses := passes_run hd hfirst
        obtain ⟨inner, rest, es, rfl, hfills⟩ :=
          ih _ hshort (hpasses.trees.trans ht) hlast hrest rfl
        exact ⟨d :: inner, rest, es, rfl,
          hfills.after [d] hpasses.scope hpasses.on rfl (.other hd hfills.elements)⟩
      | true =>
        cases d with
        | endTree =>
          refine ⟨[], ds, [], rfl, .nil, ?_, rfl, rfl⟩
          rw [t.fill_nil]
          exact ht
        | element name value =>
          have hrun := run_element ht name value
          obtain ⟨inner, rest, es, rfl, hfills⟩ :=
            ih _ hshort (congrArg trees hrun) hlast hrest rfl
          refine ⟨.element name value :: inner, rest, (name, value) :: es, rfl, ?_⟩
          refine hfills.after [.element name value] ?_ ?_ (t.fill_push _ es)
            (.element name value hfills.elements)
          · exact (congrArg Assembler.scope hrun).trans rfl
          · exact congrArg (·.annotations.on) hrun
        | beginNested name type =>
          have hrun := run_beginNested ht name type
          -- the one inside comes first, up to its own end; then the one around it goes on
          obtain ⟨inner, rest, es, rfl, hfills⟩ :=
            ih _ hshort (congrArg trees hrun) hlast hrest rfl
          have hend := run_endTree_nested hfills.trees rfl
          obtain ⟨-, hafter⟩ := runAll_clean_of_append hrest
          obtain ⟨-, hclean'⟩ := run_clean_of_runAll hafter
          rw [show a.runAll (.beginNested name type :: (inner ++ .endTree :: rest))
            = (((a.run (.beginNested name type)).runAll inner).run .endTree).runAll rest from
              runAll_append _ inner _] at hlast
          have hshorter : rest.length < n := by
            rw [← hn]
            simp
            omega
          have htrees := congrArg trees hend
          rw [OpenTree.close_fill] at htrees
          obtain ⟨inner', rest', es', rfl, hfills'⟩ := ih _ hshorter htrees hlast hclean' rfl
          refine ⟨_, rest', _, ?_, hfills.nested ht hfills'⟩
          simp
        -- one that is not inside another cannot begin here
        | beginTree target type =>
          refine absurd hfirst ?_
          show (a.beginTree target type).diagnostics ≠ a.diagnostics
          unfold beginTree
          rw [if_pos (by simp [ht])]
          exact a.diagnostics_report_ne _
        | _ => cases hd

/-! ## Whole runs -/

/-- A parameter has to be inside of a method. -/
theorem run_beginTree (hclean : (a.run (.beginTree target type)).diagnostics = a.diagnostics) :
    target.place a.scope.innermost = some a.scope.innermost
      ∧ a.run (.beginTree target type) = { a with trees := [⟨type, #[], .target target⟩] } := by
  change (a.beginTree target type).diagnostics = a.diagnostics at hclean
  show _ ∧ a.beginTree target type = _
  unfold beginTree at hclean ⊢
  split at hclean
  next => exact absurd hclean (a.diagnostics_report_ne _)
  next htrees =>
    rw [if_neg htrees]
    split at hclean
    next => exact absurd hclean (a.diagnostics_report_ne _)
    next hmethod =>
      rw [if_neg hmethod]
      exact ⟨place_innermost (by simpa [Option.isSome_iff_ne_none] using hmethod), rfl⟩

/-- **From its begin to its end**, a block attaches its annotation to the
declaration that is innermost at the end. -/
structure Completes (target : AnnotationTarget) (tree : AnnotationTree)
    (inner : List Directive) (a a' : Assembler) : Prop where
  trees : a'.trees = []
  scope : a'.scope = a.scope.after inner
  on : ∀ declaration target', a'.annotations.on declaration target'
    = a.annotations.on declaration target'
      ++ if target.place (a.scope.after inner).innermost = some declaration ∧ target = target'
        then [tree] else []

theorem Fills.completes (h : Fills (a.run (.beginTree target type))
      ⟨type, #[], .target target⟩ [] inner es)
    (hrun : a.run (.beginTree target type) = { a with trees := [⟨type, #[], .target target⟩] }) :
    Completes target ⟨type, es⟩ inner a
      (((a.run (.beginTree target type)).runAll inner).run .endTree) := by
  obtain ⟨-, htrees, hscope, hon⟩ := h
  generalize (a.run (.beginTree target type)).runAll inner = b at htrees hscope hon ⊢
  rw [hrun] at hscope hon
  have hend : b.run .endTree = { b with trees := [] }.attach target ⟨type, es⟩ := by
    have hclose := OpenTree.close_fill type (.target target) es
    simp only [run, endTree, htrees, hclose]
    rfl
  have hattaches := attaches_attach { b with trees := [] } target ⟨type, es⟩
  have hsame : ({ b with trees := [] } : Assembler).scope = a.scope.after inner := hscope
  rw [hend]
  refine ⟨hattaches.trees, hattaches.scope.trans hsame, fun declaration target' => ?_⟩
  rw [hattaches.on, hsame]
  exact congrArg (· declaration target' ++ _) hon

theorem attached_cons (b : Block) (blocks : List Block) (declaration : Declaration)
    (target : AnnotationTarget) :
    attached (b :: blocks) declaration target
      = (if b.place = some declaration ∧ b.target = target then [b.tree] else [])
        ++ attached blocks declaration target := by
  unfold attached
  by_cases h : b.place = some declaration ∧ b.target = target <;> simp [h]

/-- **A run that leaves no annotation open** is made of blocks, and what it
attaches is what they attach. -/
theorem exists_blocks (ht : a.trees = []) (hlast : (a.runAll ds).trees = [])
    (hclean : (a.runAll ds).diagnostics = a.diagnostics) :
    ∃ blocks, Blocks a.scope ds blocks
      ∧ (∀ b ∈ blocks, b.ended = b.began → b.place = some b.began)
      ∧ ∀ declaration target, (a.runAll ds).annotations.on declaration target
        = a.annotations.on declaration target ++ attached blocks declaration target := by
  -- a block takes many directives at once, so the induction is on the length here too
  induction hn : ds.length using Nat.strongRecOn generalizing a ds with
  | ind n ih =>
    cases ds with
    | nil => exact ⟨[], .nil _, nofun, fun _ _ => (List.append_nil _).symm⟩
    | cons d ds =>
      obtain ⟨hfirst, hrest⟩ := run_clean_of_runAll hclean
      have hshort : ds.length < n := by
        rw [← hn]
        exact Nat.lt_succ_self _
      cases hd : d.buildsTree with
      | false =>
        have hpasses := passes_run hd hfirst
        obtain ⟨blocks, hblocks, hplaces, hon⟩ :=
          ih _ hshort (hpasses.trees.trans ht) hlast hrest rfl
        rw [hpasses.scope] at hblocks
        rw [hpasses.on] at hon
        exact ⟨blocks, .other hd hblocks, hplaces, hon⟩
      | true =>
        cases d with
        | beginTree target type =>
          -- the block goes up to the end that matches, and the rest starts with nothing open
          obtain ⟨hplace, hrun⟩ := run_beginTree hfirst
          obtain ⟨inner, rest, es, rfl, hfills⟩ :=
            exists_fills (congrArg trees hrun) hlast hrest
          obtain ⟨-, hafter⟩ := runAll_clean_of_append hrest
          obtain ⟨-, hclean'⟩ := run_clean_of_runAll hafter
          have hcompletes := hfills.completes hrun
          rw [show a.runAll (.beginTree target type :: (inner ++ .endTree :: rest))
            = (((a.run (.beginTree target type)).runAll inner).run .endTree).runAll rest from
              runAll_append _ inner _] at hlast ⊢
          have hshorter : rest.length < n := by
            rw [← hn]
            simp
            omega
          obtain ⟨blocks, hblocks, hplaces, hon⟩ :=
            ih _ hshorter hcompletes.trees hlast hclean' rfl
          rw [hcompletes.scope] at hblocks
          refine ⟨_ :: blocks, .block target type hfills.elements hblocks, ?_, ?_⟩
          · refine List.forall_mem_cons.2 ⟨fun hsame => ?_, hplaces⟩
            exact (congrArg target.place hsame).trans hplace
          · intro declaration target'
            rw [hon, hcompletes.on, attached_cons, ← List.append_assoc]
            rfl
        -- with nothing open these are faults, and the run has none
        | element | beginNested | endTree =>
          refine absurd hfirst ?_
          simp only [run, addElement, beginNested, endTree, ht]
          exact a.diagnostics_report_ne _
        | _ => cases hd

/-! ## The end of a run -/

/-- **A run gives a class** exactly if it recorded nothing and its class can be
encoded. -/
theorem finish_eq_ok_iff {file : ClassFile} :
    a.finish = .ok file
      ↔ a.checkEnd.diagnostics = #[] ∧ a.checkEnd.finalClass.encode = .ok file := by
  unfold finish
  dsimp only
  by_cases hclean : a.checkEnd.diagnostics = #[]
  · cases a.checkEnd.finalClass.encode <;> simp [hclean]
  · simp [hclean]

/-- **A clean end leaves nothing open.** -/
theorem closed_of_checkEnd (hclean : a.checkEnd.diagnostics = #[]) :
    a.checkEnd = a.endField ∧ a.method = none ∧ a.trees = [] := by
  -- four tests one after the other; a clean end passed the last one, so it passed the others
  obtain ⟨b₁, b₂, b₃, hb₁, hb₂, hb₃, hend⟩ : ∃ b₁ b₂ b₃ : Assembler,
      b₁ = (if a.endField.method.isSome then a.endField.report .methodOpenAtEnd else a.endField)
        ∧ b₂ = (if b₁.trees.isEmpty then b₁ else b₁.report .annotationOpenAtEnd)
        ∧ b₃ = (if b₂.className?.isNone then b₂.report .missingClass else b₂)
        ∧ a.checkEnd = (if b₃.classSoFar.superClass.isNone && b₃.className? != some Class.rootName
          then b₃.report .missingSuper else b₃) := ⟨_, _, _, rfl, rfl, rfl, rfl⟩
  rw [hend] at hclean ⊢
  obtain ⟨-, hsuper⟩ := reportIf_clean hclean
  rw [hsuper, hb₃] at hclean
  obtain ⟨-, hclass⟩ := reportIf_clean hclean
  rw [hclass, hb₂] at hclean
  by_cases htrees : b₁.trees.isEmpty = true
  · rw [if_pos htrees] at hb₂ hclean
    rw [hb₁] at hclean
    obtain ⟨hmethod, hsame⟩ := reportIf_clean hclean
    rw [hsuper, hb₃, hclass, hb₂]
    rw [hb₁, hsame] at htrees ⊢
    rw [endField_eq] at hmethod htrees
    exact ⟨rfl, by simpa using hmethod, List.isEmpty_iff.1 htrees⟩
  · rw [if_neg htrees] at hclean
    exact absurd hclean Array.push_ne_empty

theorem annotations_finalClass (hclean : a.checkEnd.diagnostics = #[]) :
    a.checkEnd.finalClass.annotations = a.annotations := by
  obtain ⟨hend, hmethod, -⟩ := closed_of_checkEnd hclean
  rw [← a.annotations_endField, hend, endField_eq]
  simp [annotations, finalClass, Class.annotations, hmethod]

/-- **An annotation is attached where it ends.** In a run that gives a class,
every annotation that is begun makes one block, and the lists of the class hold
the annotations of the blocks in order, and nothing else. A block that ends in
the declaration it began in is attached to that declaration. Any other is
attached to the declaration that is innermost at its end, except that an
annotation of a parameter that does not end in a method is attached to
nothing. -/
theorem finish_annotations (settings : Settings) (ds : List Directive) (file : ClassFile)
    (h : ((start settings).runAll ds).finish = .ok file) :
    ((start settings).runAll ds).checkEnd.finalClass.encode = .ok file
      ∧ ∃ blocks, Blocks .initial ds blocks
        ∧ blocks.map Block.target = ds.filterMap Directive.target?
        ∧ (∀ b ∈ blocks, b.ended = b.began → b.place = some b.began)
        ∧ ∀ declaration target,
          ((start settings).runAll ds).checkEnd.finalClass.annotations.on declaration target
            = attached blocks declaration target := by
  obtain ⟨hclean, hencode⟩ := finish_eq_ok_iff.1 h
  obtain ⟨-, -, htrees⟩ := closed_of_checkEnd hclean
  have hrun : ((start settings).runAll ds).diagnostics = (start settings).diagnostics :=
    (keeps_checkEnd _).clean hclean
  obtain ⟨blocks, hblocks, hplaces, hon⟩ :=
    exists_blocks (a := start settings) rfl htrees hrun
  refine ⟨hencode, blocks, hblocks, hblocks.map_target, hplaces, fun declaration target => ?_⟩
  rw [annotations_finalClass hclean, hon]
  cases declaration <;> cases target <;> rfl

end Assembler

/-- The descriptor of a method that takes an `int` and returns nothing. -/
theorem MethodDescriptor.read_int : read "(I)V" = .ok ⟨[.base .int], none⟩ := by
  have hint : FieldType.readFrom ['I', ')', 'V'] = .ok (.base .int, [')', 'V']) := by decide
  have hparameters : readParameters ['I', ')', 'V'] [] = .ok ([.base .int], ['V']) := by
    rw [readParameters]
    · split
      next fault hfault =>
        rw [hint] at hfault
        cases hfault
      next type rest htype =>
        rw [hint] at htype
        cases htype
        rw [readParameters]
        rfl
    · decide
    · simp
  simp only [read, readWhole, readFrom, String.reduceToList, hparameters]
  rfl

namespace Assembler

/-- An abstract method of the root class with two annotations of its
parameter. The second one ends after the method. -/
def lateEndRun : List Directive :=
  [.classHeader .empty Class.rootName, .beginMethod ⟨0x0400⟩ "m" "(I)V",
    .beginTree (.visibleParameter 0) "LA;", .endTree,
    .beginTree (.visibleParameter 0) "LB;", .endMethod, .endTree]

/-- Its method. -/
def lateEndMethod : Method :=
  { Method.declare ⟨0x0400⟩ "m" "(I)V" with visibleParameters := #[#[⟨"LA;", []⟩]] }

/-- Its class. -/
def lateEndClass : Class :=
  { Class.empty with thisClass := some Class.rootName, methods := #[lateEndMethod] }

/-- What the class names. The type of the second annotation is not among
it. -/
def lateEndConstants : List Constant :=
  [.classRef Class.rootName, .utf8 Class.rootName, .utf8 "m", .utf8 "(I)V",
    .utf8 "RuntimeVisibleParameterAnnotations", .utf8 "LA;"]

/-- The pool of the class. -/
def lateEndPool : ConstantPool := .ofEntries lateEndConstants

theorem lists_lateEnd :
    ConstantPool.Lists (lateEndClass.constants Class.rootName .legacy) lateEndConstants :=
  ⟨by decide, by decide⟩

/-- Its class file. -/
def lateEndFile : ClassFile where
  version := .initial
  poolCount := 7
  constants := [.classRef 2, .utf8 (Text.modifiedUtf8 Class.rootName), .utf8 [109],
    .utf8 [40, 73, 41, 86], .utf8 (Text.modifiedUtf8 "RuntimeVisibleParameterAnnotations"),
    .utf8 [76, 65, 59]]
  flags := .empty
  thisClass := 1
  superClass := 0
  interfaces := []
  fields := []
  methods := [⟨⟨0x0400⟩, 3, 4, [⟨5, [1, 0, 1, 0, 6, 0, 0]⟩]⟩]
  attributes := []

theorem lower_lateEndClass :
    lateEndClass.lower Class.rootName .legacy lateEndPool = .ok lateEndFile := by
  have hthis : lateEndPool.classIndex Class.rootName = .ok 1 := lists_lateEnd.indexOf 0 rfl rfl
  have hroot : lateEndPool.utf8Index "java/lang/Object" = .ok 2 := lists_lateEnd.indexOf 1 rfl rfl
  have hname : lateEndPool.utf8Index "m" = .ok 3 := lists_lateEnd.indexOf 2 rfl rfl
  have hdescriptor : lateEndPool.utf8Index "(I)V" = .ok 4 := lists_lateEnd.indexOf 3 rfl rfl
  have hlist : lateEndPool.utf8Index "RuntimeVisibleParameterAnnotations" = .ok 5 :=
    lists_lateEnd.indexOf 4 rfl rfl
  have htype : lateEndPool.utf8Index "LA;" = .ok 6 := lists_lateEnd.indexOf 5 rfl rfl
  have hentries : lateEndPool.poolEntries = .ok lateEndFile.constants := by
    show lateEndConstants.mapM lateEndPool.resolve = _
    simp [lateEndConstants, lateEndFile, ConstantPool.resolve, hroot, Class.rootName,
      Text.modifiedUtf8, Text.utf16Units, Text.unitBytes, bind, Except.bind, pure, Except.pure]
  have htree : (⟨"LA;", []⟩ : AnnotationTree).encode lateEndPool = .ok [0, 6, 0, 0] := by
    simp [AnnotationTree.encode, encodeElements, htype, checkCount, bind, Except.bind, pure,
      Except.pure]
    decide
  have hparameters : Method.encodeParameters "RuntimeVisibleParameterAnnotations"
      #[#[⟨"LA;", []⟩]] lateEndPool = .ok [⟨5, [1, 0, 1, 0, 6, 0, 0]⟩] := by
    simp [Method.encodeParameters, encodeAnnotations, htree, hlist, checkCount,
      ConstantPool.makeAttribute, Attribute.make, Except.map, bind, Except.bind, pure, Except.pure]
    decide
  have hmethod : lateEndMethod.encode lateEndPool Class.rootName .legacy
      = .ok ⟨⟨0x0400⟩, 3, 4, [⟨5, [1, 0, 1, 0, 6, 0, 0]⟩]⟩ := by
    unfold Method.encode lateEndMethod
    dsimp only
    rw [hparameters]
    simp [Method.declare, Method.encodeParameters, CommonAttributes.empty,
      CommonAttributes.encode, CommonAttributes.encodeList, hname, hdescriptor, checkCount, bind,
      Except.bind, pure, Except.pure]
  have hmethods : lateEndClass.methods.toList.mapM
      (·.encode lateEndPool Class.rootName .legacy) = .ok lateEndFile.methods :=
    mapM_eq_ok_iff.2 (.cons hmethod .nil)
  unfold Class.lower
  rw [hthis, hmethods, hentries]
  rfl

theorem checkEnd_lateEndRun :
    ((start .initial).runAll lateEndRun).checkEnd
      = { start .initial with
          classSoFar := lateEndClass
          form := some Version.initial.stackMapForm } := by
  have hbegin : (start .initial).runAll (lateEndRun.take 2)
      = { start .initial with
          classSoFar := { lateEndClass with methods := #[] }
          form := some Version.initial.stackMapForm
          method := some (.begin (.declare ⟨0x0400⟩ "m" "(I)V")) } := by
    show ((start .initial).setClass .empty Class.rootName).beginMethod ⟨0x0400⟩ "m" "(I)V" = _
    unfold beginMethod
    rw [MethodDescriptor.read_int]
    rfl
  have hpush : pushParameter #[] (parameterCount "(I)V") 0 ⟨"LA;", []⟩ = #[#[⟨"LA;", []⟩]] := by
    unfold parameterCount
    rw [MethodDescriptor.read_int]
    rfl
  rw [← lateEndRun.take_append_drop 2, runAll_append, hbegin]
  unfold lateEndClass lateEndMethod
  rw [← hpush]
  rfl

theorem finish_lateEndRun : ((start .initial).runAll lateEndRun).finish = .ok lateEndFile := by
  have hencode : lateEndClass.encode = .ok lateEndFile :=
    (Class.encode_eq_lower rfl lists_lateEnd).trans lower_lateEndClass
  refine finish_eq_ok_iff.2 ?_
  rw [checkEnd_lateEndRun]
  exact ⟨rfl, hencode⟩

/-- **The annotation that ends in time is attached.** The other one begins in
the method too, and is not. -/
theorem finish_annotations_inTime :
    ((start .initial).runAll lateEndRun).finish = .ok lateEndFile
      ∧ ∃ blocks, Blocks .initial lateEndRun blocks
        ∧ blocks.map Block.target = [.visibleParameter 0, .visibleParameter 0]
        ∧ attached blocks (.method 0) (.visibleParameter 0) = [⟨"LA;", []⟩] := by
  obtain ⟨-, blocks, hblocks, htargets, -, hon⟩ :=
    finish_annotations .initial lateEndRun lateEndFile finish_lateEndRun
  refine ⟨finish_lateEndRun, blocks, hblocks, htargets, ?_⟩
  rw [← hon, checkEnd_lateEndRun]
  rfl

/-- **An annotation of a parameter that ends after its method is lost**, though
nothing is recorded. -/
theorem finish_annotations_lateEnd :
    ((start .initial).runAll lateEndRun).finish = .ok lateEndFile
      ∧ Blocks .initial lateEndRun
        [⟨.method 0, .method 0, .visibleParameter 0, ⟨"LA;", []⟩⟩,
          ⟨.method 0, .theClass, .visibleParameter 0, ⟨"LB;", []⟩⟩]
      ∧ ((start .initial).runAll lateEndRun).checkEnd.finalClass.annotations.on (.method 0)
        (.visibleParameter 0) = [⟨"LA;", []⟩] := by
  have hmethod : Elements [.endMethod] [] := .other rfl .nil
  refine ⟨finish_lateEndRun, ?_, ?_⟩
  · exact .other rfl (.other rfl (.block _ _ .nil (.block _ _ hmethod (.nil _))))
  · rw [checkEnd_lateEndRun]
    rfl

end Assembler

end BytecodeAssembler
