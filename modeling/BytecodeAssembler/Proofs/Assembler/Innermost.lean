import BytecodeAssembler.Proofs.Assembler.Steps
import Mathlib.Data.List.GetD

/-!
# The innermost declaration

An annotation belongs to the class, to one of its fields or to one of its
methods. Which of them is **innermost** at some point of a run can be told from
the directives before that point alone: fields and methods are numbered in the
order in which they are opened, and only opening and closing them moves the
`Scope`.

The annotations of a class are read off it as one list for each declaration
and each target. This module says that directives that do not build an
annotation leave all these lists alone, whatever else they do to the
declarations that carry them.
-/

namespace BytecodeAssembler

/-! ## Declarations and their annotations -/

/-- **What can be annotated**: the class, or one of its fields or methods by
its number. -/
inductive Declaration where
  | theClass
  | field (index : Nat)
  | method (index : Nat)
  deriving DecidableEq

/-- The annotations of a declaration without parameters. -/
def CommonAttributes.listed (a : CommonAttributes) : AnnotationTarget → List AnnotationTree
  | .visible => a.visible.toList
  | .invisible => a.invisible.toList
  | .visibleParameter _ | .invisibleParameter _ => []

/-- The annotations of a method and of its parameters. -/
def Method.listed (m : Method) : AnnotationTarget → List AnnotationTree
  | .visible => m.attributes.visible.toList
  | .invisible => m.attributes.invisible.toList
  | .visibleParameter index => (m.visibleParameters[index]?.getD #[]).toList
  | .invisibleParameter index => (m.invisibleParameters[index]?.getD #[]).toList

/-- **All the annotations of a class**, in one list for each target. -/
structure AnnotationLists where
  theClass : AnnotationTarget → List AnnotationTree
  fields : List (AnnotationTarget → List AnnotationTree)
  methods : List (AnnotationTarget → List AnnotationTree)

/-- The annotations of one declaration; none if there is no such
declaration. -/
def AnnotationLists.on (lists : AnnotationLists) :
    Declaration → AnnotationTarget → List AnnotationTree
  | .theClass => lists.theClass
  | .field index => lists.fields.getD index fun _ => []
  | .method index => lists.methods.getD index fun _ => []

def Class.annotations (c : Class) : AnnotationLists where
  theClass := c.attributes.listed
  fields := c.fields.toList.map (·.attributes.listed)
  methods := c.methods.toList.map Method.listed

/-- What is appended to a list is found at its end. -/
theorem getD_concat {α : Type} (xs : List α) (x y : α) (k : Nat) :
    (xs ++ [x]).getD k y = if k = xs.length then x else xs.getD k y := by
  rcases Nat.lt_trichotomy k xs.length with hlt | rfl | hgt
  · rw [if_neg (Nat.ne_of_lt hlt), List.getD_append _ _ _ _ hlt]
  · simp
  · rw [if_neg (Nat.ne_of_gt hgt), List.getD_eq_default _ _ (by simp; omega),
      List.getD_eq_default _ _ (Nat.le_of_lt hgt)]

/-- A declaration without annotations adds none. -/
theorem getD_concat_default {α : Type} (xs : List α) (y : α) (k : Nat) :
    (xs ++ [y]).getD k y = xs.getD k y := by
  rw [getD_concat]
  split
  next h => rw [List.getD_eq_default _ _ (Nat.le_of_eq h.symm)]
  next => rfl

/-! ## Scopes -/

/-- **Where a run is**: how many fields and methods were opened, and the
numbers of the field and the method that are open. -/
structure Scope where
  fields : Nat
  methods : Nat
  field : Option Nat
  method : Option Nat

namespace Scope

/-- Nothing is open but the class. -/
def initial : Scope := ⟨0, 0, none, none⟩

/-- **The innermost declaration**: the open method, else the open field, else
the class. -/
def innermost (s : Scope) : Declaration :=
  match s.method, s.field with
  | some index, _ => .method index
  | none, some index => .field index
  | none, none => .theClass

/-- **Where a run is after one more directive.** -/
def step (s : Scope) : Directive → Scope
  | .beginField _ _ _ _ => { s with fields := s.fields + 1, field := some s.fields }
  | .endField => { s with field := none }
  | .beginMethod _ _ _ =>
    { s with methods := s.methods + 1, field := none, method := some s.methods }
  | .endMethod => { s with method := none }
  | _ => s

/-- Where a run is after some directives. -/
def after (s : Scope) (ds : List Directive) : Scope := ds.foldl step s

end Scope

/-! ## States -/

namespace Assembler

variable {a a' : Assembler} {m m' : OpenMethod} {d : Directive}

/-- The annotations of the class, with those of the members that are open. -/
def annotations (a : Assembler) : AnnotationLists where
  theClass := a.classSoFar.annotations.theClass
  fields := a.classSoFar.annotations.fields ++ (a.field.map (·.attributes.listed)).toList
  methods := a.classSoFar.annotations.methods ++ (a.method.map (·.method.listed)).toList

/-- Where the run is. -/
def scope (a : Assembler) : Scope where
  fields := a.annotations.fields.length
  methods := a.annotations.methods.length
  field := a.field.map fun _ => a.classSoFar.fields.size
  method := a.method.map fun _ => a.classSoFar.methods.size

/-- **A step past a directive that builds no annotation.** -/
structure Passes (d : Directive) (a a' : Assembler) : Prop where
  trees : a'.trees = a.trees
  scope : a'.scope = a.scope.step d
  on : a'.annotations.on = a.annotations.on

/-- **A step that opens and closes nothing**, and leaves the annotations
alone. -/
structure Stays (a a' : Assembler) : Prop where
  trees : a'.trees = a.trees
  scope : a'.scope = a.scope
  on : a'.annotations.on = a.annotations.on

theorem Stays.passes (h : Stays a a') (hd : a.scope.step d = a.scope) : Passes d a a' where
  trees := h.trees
  scope := h.scope.trans hd.symm
  on := h.on

/-- **A step that annotates the innermost declaration** and does nothing
else. -/
structure Adds (add : AnnotationTarget → List AnnotationTree) (a a' : Assembler) : Prop where
  trees : a'.trees = a.trees
  scope : a'.scope = a.scope
  on : ∀ declaration target, a'.annotations.on declaration target
    = a.annotations.on declaration target
      ++ if declaration = a.scope.innermost then add target else []

theorem Adds.stays (h : Adds (fun _ => []) a a') : Stays a a' where
  trees := h.trees
  scope := h.scope
  on := by
    funext declaration target
    simp [h.on]

variable {add : AnnotationTarget → List AnnotationTree}

theorem adds_setMethod (hm : a.method = some m)
    (h : ∀ target, m'.method.listed target = m.method.listed target ++ add target) :
    Adds add a { a with method := some m' } where
  trees := rfl
  scope := by simp [scope, annotations, hm]
  on declaration target := by
    cases declaration with
    | method k =>
      have hsize : a.classSoFar.annotations.methods.length = a.classSoFar.methods.size := by
        simp [Class.annotations]
      simp only [AnnotationLists.on, annotations, scope, Scope.innermost, hm, Option.map_some,
        Option.toList_some, getD_concat, hsize, Declaration.method.injEq]
      by_cases hk : k = a.classSoFar.methods.size <;> simp [hk, h]
    | theClass | field => simp [AnnotationLists.on, annotations, scope, Scope.innermost, hm]

theorem stays_setMethod (hm : a.method = some m) (h : m'.method.listed = m.method.listed) :
    Stays a { a with method := some m' } :=
  (adds_setMethod hm fun target => by simp [h]).stays

theorem adds_setField {f f' : Field} (hm : a.method = none) (hf : a.field = some f)
    (h : ∀ target, f'.attributes.listed target = f.attributes.listed target ++ add target) :
    Adds add a { a with field := some f' } where
  trees := rfl
  scope := by simp [scope, annotations, hf]
  on declaration target := by
    cases declaration with
    | field k =>
      have hsize : a.classSoFar.annotations.fields.length = a.classSoFar.fields.size := by
        simp [Class.annotations]
      simp only [AnnotationLists.on, annotations, scope, Scope.innermost, hm, hf, Option.map_some,
        Option.map_none, Option.toList_some, getD_concat, hsize, Declaration.field.injEq]
      by_cases hk : k = a.classSoFar.fields.size <;> simp [hk, h]
    | theClass | method => simp [AnnotationLists.on, annotations, scope, Scope.innermost, hm, hf]

/-- **A change to the attributes of the innermost declaration** adds what it
adds to the annotations there. -/
theorem adds_modifyAttributes (a : Assembler) (change : CommonAttributes → CommonAttributes)
    (h : ∀ common target, (change common).listed target = common.listed target ++ add target) :
    Adds add a (a.modifyAttributes change) := by
  cases hm : a.method with
  | some m =>
    let method := { m.method with attributes := change m.method.attributes }
    have heq : a.modifyAttributes change = { a with method := some { m with method } } := by
      simp [modifyAttributes, hm, method]
    rw [heq]
    refine adds_setMethod hm fun target => ?_
    have htarget := h m.method.attributes target
    cases target with
    | visible | invisible => exact htarget
    | visibleParameter | invisibleParameter =>
      -- a parameter is not among the common attributes, so nothing is added for it
      simp only [CommonAttributes.listed, List.nil_append] at htarget
      rw [← htarget]
      exact (List.append_nil _).symm
  | none =>
    cases hf : a.field with
    | some f =>
      have heq : a.modifyAttributes change
          = { a with field := some { f with attributes := change f.attributes } } := by
        simp [modifyAttributes, hm, hf]
      rw [heq]
      exact adds_setField hm hf (h f.attributes)
    | none =>
      have heq : a.modifyAttributes change = { a with
          classSoFar := { a.classSoFar with attributes := change a.classSoFar.attributes } } := by
        simp [modifyAttributes, hm, hf]
      rw [heq]
      refine ⟨rfl, rfl, fun declaration target => ?_⟩
      cases declaration with
      | theClass =>
        simp [AnnotationLists.on, annotations, Class.annotations, scope, Scope.innermost, hm, hf, h]
      | field | method =>
        simp [AnnotationLists.on, annotations, Class.annotations, scope, Scope.innermost, hm, hf]

/-- A change to the attributes of the innermost declaration that is not about
annotations. -/
theorem stays_modifyAttributes (a : Assembler) (change : CommonAttributes → CommonAttributes)
    (hvisible : ∀ common, (change common).visible = common.visible)
    (hinvisible : ∀ common, (change common).invisible = common.invisible) :
    Stays a (a.modifyAttributes change) := by
  refine (a.adds_modifyAttributes change fun common target => ?_).stays
  cases target <;> simp [CommonAttributes.listed, hvisible, hinvisible]

/-! ## Opening and closing -/

/-- A field that is closed has the number it had. -/
theorem annotations_endField (a : Assembler) : a.endField.annotations = a.annotations := by
  simp only [endField_eq, annotations, Class.annotations]
  cases a.field <;> simp

theorem passes_endField (a : Assembler) : Passes .endField a a.endField := by
  refine ⟨?_, ?_, congrArg AnnotationLists.on a.annotations_endField⟩
  · rw [endField_eq]
  · unfold scope
    rw [annotations_endField, endField_eq]
    rfl

theorem eq_of_fieldWithValue {f f' : Field} {value : Literal}
    (h : fieldWithValue f value = .ok f') : ∃ constant, f' = { f with constant } := by
  obtain ⟨c, -, h⟩ := bind_eq_ok_iff.1 h
  obtain ⟨type, -, h⟩ := bind_eq_ok_iff.1 h
  obtain ⟨_, -, h⟩ := bind_eq_ok_iff.1 h
  cases h
  exact ⟨some c, rfl⟩

/-- **A field that is opened** has nothing but its header and perhaps a
value. -/
theorem exists_constant_opened (flags : AccessFlags .fields) (name descriptor : String)
    (value : Option Literal) :
    ∃ constant, (Field.opened flags name descriptor value).1
      = { Field.declare flags name descriptor with constant } := by
  unfold Field.opened
  dsimp only
  split
  next => exact ⟨none, rfl⟩
  next => exact ⟨none, rfl⟩
  next =>
    split
    next => exact ⟨none, rfl⟩
    next f hf => exact eq_of_fieldWithValue hf

theorem passes_beginField (hm : a.method = none) (flags : AccessFlags .fields)
    (name descriptor : String) (value : Option Literal) :
    Passes (.beginField flags name descriptor value) a
      { a.endField with field := some (Field.opened flags name descriptor value).1 } := by
  obtain ⟨constant, hopened⟩ := exists_constant_opened flags name descriptor value
  have hlisted : (Field.declare flags name descriptor).attributes.listed = fun _ => [] := by
    funext target
    cases target <;> rfl
  have hlists : ({ a.endField with
      field := some (Field.opened flags name descriptor value).1 } : Assembler).annotations
      = { a.annotations with fields := a.annotations.fields ++ [fun _ => []] } := by
    simp only [hopened, endField_eq, annotations, Class.annotations]
    cases a.field <;> simp [hlisted]
  refine ⟨by rw [endField_eq], ?_, ?_⟩
  · unfold scope
    rw [hlists, endField_eq]
    cases hfield : a.field <;> simp [Scope.step, annotations, Class.annotations, hm, hfield]
  · rw [hlists]
    funext declaration
    cases declaration with
    | field k => exact getD_concat_default _ _ k
    | _ => rfl

theorem passes_beginMethod (hm : a.method = none) (flags : AccessFlags .methods)
    (name descriptor : String) (form : Option StackMapForm) :
    Passes (.beginMethod flags name descriptor) a
      { a.endField with form, method := some (.begin (.declare flags name descriptor)) } := by
  have hlisted : (Method.declare flags name descriptor).listed = fun _ => [] := by
    funext target
    cases target <;> simp [Method.listed, Method.declare, CommonAttributes.empty]
  have hlists : ({ a.endField with
      form, method := some (.begin (.declare flags name descriptor)) } : Assembler).annotations
      = { a.annotations with methods := a.annotations.methods ++ [fun _ => []] } := by
    simp only [endField_eq, annotations, Class.annotations, hm, OpenMethod.begin]
    cases a.field <;> simp [hlisted]
  refine ⟨by rw [endField_eq], ?_, ?_⟩
  · unfold scope
    rw [hlists, endField_eq]
    simp [Scope.step, annotations, Class.annotations, hm]
  · rw [hlists]
    funext declaration
    cases declaration with
    | method k => exact getD_concat_default _ _ k
    | _ => rfl

/-- **Closing a method** changes its body only. -/
theorem exists_body_close (m : OpenMethod) (autoLines : Bool) :
    ∃ body, (m.close autoLines).1 = { m.method with body } := by
  have hflush := (m.alike_flush autoLines).method
  unfold OpenMethod.close
  dsimp only
  rw [hflush]
  split <;> exact ⟨_, rfl⟩

theorem listed_close (m : OpenMethod) (autoLines : Bool) :
    (m.close autoLines).1.listed = m.method.listed := by
  obtain ⟨body, hclose⟩ := exists_body_close m autoLines
  rw [hclose]
  rfl

theorem passes_endMethod (hm : a.method = some m) :
    Passes .endMethod a { a with
      method := none
      classSoFar := { a.classSoFar with
        methods := a.classSoFar.methods.push (m.close a.settings.autoLines).1 } } := by
  have hlists : ({ a with
      method := none
      classSoFar := { a.classSoFar with
        methods := a.classSoFar.methods.push (m.close a.settings.autoLines).1 } } :
        Assembler).annotations = a.annotations := by
    simp [annotations, Class.annotations, hm, listed_close]
  refine ⟨rfl, ?_, congrArg AnnotationLists.on hlists⟩
  simp only [scope, Scope.step]
  exact congrArg (fun lists : AnnotationLists => Scope.mk lists.fields.length
    lists.methods.length (a.field.map fun _ => a.classSoFar.fields.size) none) hlists

/-- **A directive that builds no annotation** leaves all of them alone, and
moves the scope as it says. -/
theorem Does.passes (h : a.Does d a') (hd : d.buildsTree = false) : Passes d a a' := by
  cases h with
  | line | ignored | version => exact Stays.passes ⟨rfl, rfl, rfl⟩ rfl
  | head _ hd => cases hd <;> exact Stays.passes ⟨rfl, rfl, rfl⟩ rfl
  | attributes hd =>
    cases hd <;> exact Stays.passes (a.stays_modifyAttributes _ (fun _ => rfl) fun _ => rfl) rfl
  | beginField flags name descriptor value hout =>
    exact passes_beginField hout flags name descriptor value
  | endField => exact a.passes_endField
  | beginMethod flags name descriptor hout => exact passes_beginMethod hout flags name descriptor _
  | endMethod m hm => exact passes_endMethod hm
  | body m hd hm =>
    have hsame := congrArg Method.listed (hd.alike m).method
    have hstep : a.scope.step d = a.scope := by cases hd <;> rfl
    exact (stays_setMethod hm hsame).passes hstep
  | declaration m hd hm =>
    cases hd <;> exact Stays.passes (stays_setMethod hm rfl) rfl
  | edit _ htree | attach _ _ _ htree => cases htree <;> cases hd

theorem passes_run (hd : d.buildsTree = false)
    (hclean : (a.run d).diagnostics = a.diagnostics) : Passes d a (a.run d) :=
  (does_run hclean).passes hd

end Assembler

end BytecodeAssembler
