import BytecodeAssembler.Proofs.Assembler.Annotations
import BytecodeAssembler.Proofs.Class.References
import Mathlib.Data.List.Induction

/-!
# The members of a class

A run declares interfaces, fields and methods, and makes remarks on them: a
generic signature, a mark as deprecated, attributes given as they are. A remark
does not say what it is about. It is about the declaration that is innermost
when it is made, and a field that is innermost can be closed in three ways, two
of which are the beginning of something else.

If the run gives a class, then the interfaces, fields and methods of the class
are those that were declared, in order, and the remarks on each of them are
those made while it was innermost (`Assembler.finish_members`). As in
`Innermost`, members are numbered in the order in which they are opened, and
what a state holds includes the members that are still open.
-/

namespace BytecodeAssembler

/-! ## Headers and remarks -/

/-- **What a member is declared with.** -/
structure MemberHeader (c : Carrier) where
  flags : AccessFlags c
  name : String
  descriptor : String

/-- A member of a class file has this header. -/
def MemberHeader.WrittenAs {c : Carrier} (table : PoolTable) (header : MemberHeader c)
    (info : MemberInfo c) : Prop :=
  info.flags = header.flags ∧ table.LeadsTo info.name (.utf8 header.name)
    ∧ table.LeadsTo info.descriptor (.utf8 header.descriptor)

/-- **What is remarked on a declaration**, apart from its annotations. -/
structure Remarks where
  signature : Option String
  deprecated : Bool
  custom : List CustomAttribute

/-- A member with what is remarked on it. -/
structure MemberEntry (c : Carrier) where
  header : MemberHeader c
  remarks : Remarks

/-- Nothing is remarked. -/
def Remarks.none : Remarks := ⟨.none, false, []⟩

def CommonAttributes.remarks (a : CommonAttributes) : Remarks :=
  ⟨a.signature, a.deprecated, a.custom.toList⟩

def Field.entry (f : Field) : MemberEntry .fields :=
  ⟨⟨f.flags, f.name, f.descriptor⟩, f.attributes.remarks⟩

def Method.entry (m : Method) : MemberEntry .methods :=
  ⟨⟨m.flags, m.name, m.descriptor⟩, m.attributes.remarks⟩

/-- **What a class declares**, with what is remarked on it. -/
structure Contents where
  interfaces : List String
  fields : List (MemberEntry .fields)
  methods : List (MemberEntry .methods)
  own : Remarks

namespace Contents

def fieldHeaders (c : Contents) : List (MemberHeader .fields) := c.fields.map (·.header)

def methodHeaders (c : Contents) : List (MemberHeader .methods) := c.methods.map (·.header)

/-- The remarks on one declaration; none if there is no such declaration. -/
def on (c : Contents) : Declaration → Remarks
  | .theClass => c.own
  | .field index => (c.fields.map (·.remarks)).getD index .none
  | .method index => (c.methods.map (·.remarks)).getD index .none

end Contents

def Class.contents (c : Class) : Contents where
  interfaces := c.interfaces.toList
  fields := c.fields.toList.map Field.entry
  methods := c.methods.toList.map Method.entry
  own := c.attributes.remarks

/-! ## What directives declare and remark -/

namespace Directive

def interface? : Directive → Option String
  | .implement name => some name
  | _ => none

def fieldHeader? : Directive → Option (MemberHeader .fields)
  | .beginField flags name descriptor _ => some ⟨flags, name, descriptor⟩
  | _ => none

def methodHeader? : Directive → Option (MemberHeader .methods)
  | .beginMethod flags name descriptor => some ⟨flags, name, descriptor⟩
  | _ => none

def signature? : Directive → Option String
  | .signature text => some text
  | _ => none

def isDeprecated : Directive → Bool
  | .deprecated => true
  | _ => false

def custom? : Directive → Option CustomAttribute
  | .custom entry => some entry
  | _ => none

structure DeclaresNothing (d : Directive) : Prop where
  interface : d.interface? = none
  field : d.fieldHeader? = none
  method : d.methodHeader? = none

end Directive

namespace Remarks

/-- **The remarks that directives make** together: the last signature counts,
and the attributes keep their order. -/
def of (ds : List Directive) : Remarks where
  signature := (ds.filterMap Directive.signature?).getLast?
  deprecated := ds.any Directive.isDeprecated
  custom := ds.filterMap Directive.custom?

/-- **The remarks after one more directive.** -/
def note (r : Remarks) : Directive → Remarks
  | .signature text => { r with signature := some text }
  | .deprecated => { r with deprecated := true }
  | .custom entry => { r with custom := r.custom ++ [entry] }
  | _ => r

theorem of_concat (ds : List Directive) (d : Directive) : of (ds ++ [d]) = (of ds).note d := by
  have hof : of (ds ++ [d]) =
      ⟨(ds.filterMap Directive.signature? ++ d.signature?.toList).getLast?,
        ds.any Directive.isDeprecated || d.isDeprecated,
        ds.filterMap Directive.custom? ++ d.custom?.toList⟩ := by
    simp only [of, List.filterMap_append, List.filterMap_cons, List.any_append, List.any_cons,
      List.any_nil, Bool.or_false]
    cases d.signature? <;> cases d.custom? <;> rfl
  rw [hof]
  cases d with
  | signature text =>
    simp [of, note, Directive.signature?, Directive.isDeprecated, Directive.custom?]
  | deprecated => simp [of, note, Directive.signature?, Directive.isDeprecated, Directive.custom?]
  | custom entry => simp [of, note, Directive.signature?, Directive.isDeprecated, Directive.custom?]
  | _ =>
    simp only [of, note, Directive.signature?, Directive.isDeprecated, Directive.custom?,
      Option.toList_none, List.append_nil, Bool.or_false]

end Remarks

/-- **A directive that neither declares nor remarks anything.** -/
structure Directive.IsSilent (d : Directive) : Prop extends d.DeclaresNothing where
  note : ∀ r : Remarks, r.note d = r

/-- **The directives that are given while a declaration is innermost**, in a
run that starts in this scope. -/
def Scope.heard (declaration : Declaration) : Scope → List Directive → List Directive
  | _, [] => []
  | s, d :: ds =>
    if s.innermost = declaration then d :: heard declaration (s.step d) ds
    else heard declaration (s.step d) ds

theorem Scope.heard_concat (declaration : Declaration) (s : Scope) (ds : List Directive)
    (d : Directive) :
    s.heard declaration (ds ++ [d])
      = s.heard declaration ds ++ if (s.after ds).innermost = declaration then [d] else [] := by
  induction ds generalizing s with
  | nil => rfl
  | cons d' ds ih =>
    simp only [List.cons_append, heard, ih]
    split <;> rfl

/-! ## States -/

namespace Assembler

variable {a a' : Assembler} {m m' : OpenMethod} {d : Directive}

/-- What the class declares so far, with the members that are open. -/
def contents (a : Assembler) : Contents where
  interfaces := a.classSoFar.contents.interfaces
  fields := a.classSoFar.contents.fields ++ (a.field.map Field.entry).toList
  methods := a.classSoFar.contents.methods ++ (a.method.map (·.method.entry)).toList
  own := a.classSoFar.contents.own

/-- **A step that enters what a directive declares**, and notes what it remarks
on the innermost declaration. -/
structure Enters (d : Directive) (a a' : Assembler) : Prop where
  interfaces : a'.contents.interfaces = a.contents.interfaces ++ d.interface?.toList
  fields : a'.contents.fieldHeaders = a.contents.fieldHeaders ++ d.fieldHeader?.toList
  methods : a'.contents.methodHeaders = a.contents.methodHeaders ++ d.methodHeader?.toList
  on : ∀ declaration, a'.contents.on declaration
    = if a.scope.innermost = declaration then (a.contents.on declaration).note d
      else a.contents.on declaration

theorem enters_of_silent (hd : d.IsSilent) (h : a'.contents = a.contents) : Enters d a a' := by
  refine ⟨?_, ?_, ?_, fun declaration => ?_⟩
  · simp [h, hd.interface]
  · simp [h, hd.field]
  · simp [h, hd.method]
  · rw [h, hd.note, ite_self]

theorem TreeChange.isSilent {edit : Bool → List OpenTree → Except Fault TreeEdit}
    (hd : TreeChange d edit) : d.IsSilent := by
  cases hd <;> exact ⟨⟨rfl, rfl, rfl⟩, fun _ => rfl⟩

/-- The open annotations are no part of the contents. -/
theorem Enters.of_trees {trees : List OpenTree} (h : Enters d { a with trees } a') :
    Enters d a a' :=
  ⟨h.interfaces, h.fields, h.methods, h.on⟩

theorem contents_setMethod (hm : a.method = some m) (h : m'.method.entry = m.method.entry) :
    ({ a with method := some m' } : Assembler).contents = a.contents := by
  simp [contents, hm, h]

/-! ## Remarks -/

theorem enters_setMethod (hd : d.DeclaresNothing) (hm : a.method = some m)
    (h : m'.method.entry = ⟨m.method.entry.header, m.method.entry.remarks.note d⟩) :
    Enters d a { a with method := some m' } where
  interfaces := by simp [contents, hd.interface]
  fields := by simp [contents, Contents.fieldHeaders, hd.field]
  methods := by simp [contents, Contents.methodHeaders, hd.method, hm, h]
  on declaration := by
    cases declaration with
    | method k =>
      have hsize : (a.classSoFar.contents.methods.map (·.remarks)).length
          = a.classSoFar.methods.size := by
        simp [Class.contents]
      simp only [Contents.on, contents, scope, Scope.innermost, hm, h, Option.map_some,
        Option.toList_some, List.map_append, List.map_cons, List.map_nil, getD_concat, hsize,
        Declaration.method.injEq]
      by_cases hk : k = a.classSoFar.methods.size
      · simp [hk]
      · simp [hk, Ne.symm hk]
    | theClass | field => simp [Contents.on, contents, scope, Scope.innermost, hm]

theorem enters_setField {f f' : Field} (hd : d.DeclaresNothing) (hm : a.method = none)
    (hf : a.field = some f) (h : f'.entry = ⟨f.entry.header, f.entry.remarks.note d⟩) :
    Enters d a { a with field := some f' } where
  interfaces := by simp [contents, hd.interface]
  fields := by simp [contents, Contents.fieldHeaders, hd.field, hf, h]
  methods := by simp [contents, Contents.methodHeaders, hd.method]
  on declaration := by
    cases declaration with
    | field k =>
      have hsize : (a.classSoFar.contents.fields.map (·.remarks)).length
          = a.classSoFar.fields.size := by
        simp [Class.contents]
      simp only [Contents.on, contents, scope, Scope.innermost, hm, hf, h, Option.map_some,
        Option.map_none, Option.toList_some, List.map_append, List.map_cons, List.map_nil,
        getD_concat, hsize, Declaration.field.injEq]
      by_cases hk : k = a.classSoFar.fields.size
      · simp [hk]
      · simp [hk, Ne.symm hk]
    | theClass | method => simp [Contents.on, contents, scope, Scope.innermost, hm, hf]

/-- **A change to the attributes of the innermost declaration** is noted there,
and nowhere else. -/
theorem enters_modifyAttributes (change : CommonAttributes → CommonAttributes)
    (hd : d.DeclaresNothing) (h : ∀ common, (change common).remarks = common.remarks.note d) :
    Enters d a (a.modifyAttributes change) := by
  cases hm : a.method with
  | some m =>
    let method := { m.method with attributes := change m.method.attributes }
    have heq : a.modifyAttributes change = { a with method := some { m with method } } := by
      simp [modifyAttributes, hm, method]
    have hentry : method.entry = ⟨m.method.entry.header, m.method.entry.remarks.note d⟩ :=
      congrArg (MemberEntry.mk _) (h m.method.attributes)
    rw [heq]
    exact enters_setMethod hd hm hentry
  | none =>
    cases hf : a.field with
    | some f =>
      have heq : a.modifyAttributes change
          = { a with field := some { f with attributes := change f.attributes } } := by
        simp [modifyAttributes, hm, hf]
      rw [heq]
      exact enters_setField hd hm hf (congrArg (MemberEntry.mk _) (h f.attributes))
    | none =>
      have heq : a.modifyAttributes change = { a with
          classSoFar := { a.classSoFar with attributes := change a.classSoFar.attributes } } := by
        simp [modifyAttributes, hm, hf]
      rw [heq]
      -- outside of all members the change is to the class, which is no member
      refine ⟨?_, ?_, ?_, fun declaration => ?_⟩
      · simp [contents, Class.contents, hd.interface]
      · simp [contents, Class.contents, Contents.fieldHeaders, hd.field]
      · simp [contents, Class.contents, Contents.methodHeaders, hd.method]
      · cases declaration with
        | theClass =>
          simp [Contents.on, contents, Class.contents, scope, Scope.innermost, hm, hf, h]
        | field | method =>
          simp [Contents.on, contents, Class.contents, scope, Scope.innermost, hm, hf]

/-! ## Annotations -/

/-- **The scope moves as the directive says.** -/
theorem Does.scope (h : a.Does d a') : a'.scope = a.scope.step d := by
  cases hd : d.buildsTree with
  | false => exact (h.passes hd).scope
  | true =>
    cases h with
    | edit _ htree => cases htree <;> rfl
    | attach trees target tree htree =>
      rw [(attaches_attach { a with trees } target tree).scope]
      cases htree <;> rfl
    | head _ hother | attributes hother | body _ hother | declaration _ hother =>
      cases hother <;> cases hd
    | _ => cases hd

theorem scope_runAll {ds : List Directive}
    (hclean : (a.runAll ds).diagnostics = a.diagnostics) :
    (a.runAll ds).scope = a.scope.after ds := by
  induction ds generalizing a with
  | nil => rfl
  | cons d ds ih =>
    obtain ⟨hfirst, hrest⟩ := run_clean_of_runAll hclean
    show ((a.run d).runAll ds).scope = (a.scope.step d).after ds
    rw [ih hrest, (does_run hfirst).scope]

theorem contents_modifyMethod (change : Method → Method) (h : ∀ m, (change m).entry = m.entry) :
    (a.modifyMethod change).contents = a.contents := by
  cases hm : a.method with
  | none => simp [modifyMethod, hm]
  | some m =>
    have heq : a.modifyMethod change
        = { a with method := some { m with method := change m.method } } := by
      simp [modifyMethod, hm]
    rw [heq]
    exact contents_setMethod hm (h m.method)

theorem enters_attach (hd : d.IsSilent) (target : AnnotationTarget) (tree : AnnotationTree) :
    Enters d a (a.attach target tree) := by
  unfold attach
  cases target with
  | visible | invisible =>
    refine enters_modifyAttributes _ hd.toDeclaresNothing fun common => ?_
    exact (hd.note common.remarks).symm
  | visibleParameter | invisibleParameter =>
    exact enters_of_silent hd (contents_modifyMethod _ fun _ => rfl)

/-! ## Opening and closing -/

/-- A field that is closed is still the last one. -/
theorem contents_endField (a : Assembler) : a.endField.contents = a.contents := by
  simp only [endField_eq, contents, Class.contents]
  cases a.field <;> simp

theorem enters_beginField (flags : AccessFlags .fields) (name descriptor : String)
    (value : Option Literal) :
    Enters (.beginField flags name descriptor value) a
      { a.endField with field := some (Field.opened flags name descriptor value).1 } := by
  obtain ⟨constant, hopened⟩ := exists_constant_opened flags name descriptor value
  have hcontents : ({ a.endField with
      field := some (Field.opened flags name descriptor value).1 } : Assembler).contents
      = { a.contents with
          fields := a.contents.fields ++ [⟨⟨flags, name, descriptor⟩, .none⟩] } := by
    rw [hopened, ← a.contents_endField]
    simp [contents, endField_eq, Field.entry, Field.declare, CommonAttributes.empty,
      CommonAttributes.remarks, Remarks.none]
  refine ⟨?_, ?_, ?_, fun declaration => ?_⟩
  · simp [hcontents, Directive.interface?]
  · simp [hcontents, Contents.fieldHeaders, Directive.fieldHeader?]
  · simp [hcontents, Contents.methodHeaders, Directive.methodHeader?]
  · show _ = if _ then a.contents.on declaration else _
    rw [hcontents, ite_self]
    cases declaration with
    | field k =>
      simp only [Contents.on, List.map_append, List.map_cons, List.map_nil]
      exact getD_concat_default _ _ k
    | _ => rfl

theorem enters_beginMethod (hm : a.method = none) (flags : AccessFlags .methods)
    (name descriptor : String) (form : Option StackMapForm) :
    Enters (.beginMethod flags name descriptor) a
      { a.endField with form, method := some (.begin (.declare flags name descriptor)) } := by
  have hcontents : ({ a.endField with
      form, method := some (.begin (.declare flags name descriptor)) } : Assembler).contents
      = { a.contents with
          methods := a.contents.methods ++ [⟨⟨flags, name, descriptor⟩, .none⟩] } := by
    rw [← a.contents_endField]
    simp [contents, endField_eq, hm, OpenMethod.begin, Method.entry, Method.declare,
      CommonAttributes.empty, CommonAttributes.remarks, Remarks.none]
  refine ⟨?_, ?_, ?_, fun declaration => ?_⟩
  · simp [hcontents, Directive.interface?]
  · simp [hcontents, Contents.fieldHeaders, Directive.fieldHeader?]
  · simp [hcontents, Contents.methodHeaders, Directive.methodHeader?]
  · show _ = if _ then a.contents.on declaration else _
    rw [hcontents, ite_self]
    cases declaration with
    | method k =>
      simp only [Contents.on, List.map_append, List.map_cons, List.map_nil]
      exact getD_concat_default _ _ k
    | _ => rfl

/-- A method that is closed is still the last one. -/
theorem contents_closeMethod (hm : a.method = some m) :
    ({ a with
        method := none
        classSoFar := { a.classSoFar with
          methods := a.classSoFar.methods.push (m.close a.settings.autoLines).1 } } :
      Assembler).contents = a.contents := by
  obtain ⟨body, hclose⟩ := exists_body_close m a.settings.autoLines
  rw [hclose]
  simp [contents, Class.contents, hm, Method.entry]

/-! ## Runs -/

theorem HeadEdit.enters {edit : ClassHead → Except Fault ClassHead} {head : ClassHead}
    (hd : HeadEdit d edit) (h : edit a.classSoFar.head = .ok head) :
    Enters d a { a with classSoFar := a.classSoFar.withHead head } := by
  cases hd with
  | implement name =>
    cases h
    refine ⟨?_, ?_, ?_, fun declaration => ?_⟩
    · simp [contents, Class.contents, Class.withHead, Class.head, Directive.interface?]
    · exact (List.append_nil _).symm
    · exact (List.append_nil _).symm
    · show _ = if _ then a.contents.on declaration else _
      rw [ite_self]
      cases declaration <;> rfl
  | classHeader | superClass =>
    dsimp only at h
    split at h
    next => cases h
    next =>
      cases h
      exact enters_of_silent ⟨⟨rfl, rfl, rfl⟩, fun _ => rfl⟩ rfl
  | source | enclosing | innerClass | debugExtension =>
    cases h
    exact enters_of_silent ⟨⟨rfl, rfl, rfl⟩, fun _ => rfl⟩ rfl

theorem AttributeChange.enters {change : CommonAttributes → CommonAttributes}
    (hd : AttributeChange d change) : Enters d a (a.modifyAttributes change) := by
  cases hd with
  | signature | deprecated => exact enters_modifyAttributes _ ⟨rfl, rfl, rfl⟩ fun _ => rfl
  | custom entry =>
    refine enters_modifyAttributes _ ⟨rfl, rfl, rfl⟩ fun common => ?_
    simp [CommonAttributes.remarks, Remarks.note]

/-- **What one directive declares and remarks** is entered. -/
theorem Does.enters (h : a.Does d a') : Enters d a a' := by
  cases h with
  | line | ignored | version => exact enters_of_silent ⟨⟨rfl, rfl, rfl⟩, fun _ => rfl⟩ rfl
  | head _ hd h => exact hd.enters h
  | attributes hd => exact hd.enters
  | beginField flags name descriptor value => exact enters_beginField flags name descriptor value
  | endField => exact enters_of_silent ⟨⟨rfl, rfl, rfl⟩, fun _ => rfl⟩ a.contents_endField
  | beginMethod flags name descriptor hout =>
    exact enters_beginMethod hout flags name descriptor _
  | endMethod m hm =>
    exact enters_of_silent ⟨⟨rfl, rfl, rfl⟩, fun _ => rfl⟩ (contents_closeMethod hm)
  | body m hd hm =>
    have hsilent : d.IsSilent := by cases hd <;> exact ⟨⟨rfl, rfl, rfl⟩, fun _ => rfl⟩
    have hentry := congrArg Method.entry (hd.alike m).method
    exact enters_of_silent hsilent (contents_setMethod hm hentry)
  | declaration m hd hm =>
    cases hd <;>
      exact enters_of_silent ⟨⟨rfl, rfl, rfl⟩, fun _ => rfl⟩ (contents_setMethod hm rfl)
  | edit _ hd => exact enters_of_silent hd.isSilent rfl
  | attach _ target tree hd => exact (enters_attach hd.isSilent target tree).of_trees

/-- **The contents that directives declare** and make remarks on. -/
structure Declares (ds : List Directive) (c : Contents) : Prop where
  interfaces : c.interfaces = ds.filterMap Directive.interface?
  fields : c.fieldHeaders = ds.filterMap Directive.fieldHeader?
  methods : c.methodHeaders = ds.filterMap Directive.methodHeader?
  on : ∀ declaration, c.on declaration = .of (Scope.initial.heard declaration ds)

theorem declares_nil (settings : Settings) : Declares [] (start settings).contents := by
  refine ⟨rfl, rfl, rfl, fun declaration => ?_⟩
  cases declaration <;> rfl

theorem Declares.concat {ds : List Directive} (h : Declares ds a.contents)
    (hscope : a.scope = Scope.initial.after ds) (henters : Enters d a a') :
    Declares (ds ++ [d]) a'.contents where
  interfaces := by
    rw [henters.interfaces, h.interfaces, List.filterMap_append]
    cases hd : d.interface? <;> simp [hd]
  fields := by
    rw [henters.fields, h.fields, List.filterMap_append]
    cases hd : d.fieldHeader? <;> simp [hd]
  methods := by
    rw [henters.methods, h.methods, List.filterMap_append]
    cases hd : d.methodHeader? <;> simp [hd]
  on declaration := by
    rw [henters.on, hscope, h.on, Scope.heard_concat]
    split
    next => exact (Remarks.of_concat _ d).symm
    next => rw [List.append_nil]

/-- **A run that records nothing** declares what its directives declare. -/
theorem declares_runAll (settings : Settings) (ds : List Directive)
    (hclean : ((start settings).runAll ds).diagnostics = (start settings).diagnostics) :
    Declares ds ((start settings).runAll ds).contents := by
  -- remarks are made on what the directives before have left innermost, so the
  -- induction takes the last directive off
  induction ds using List.reverseRecOn with
  | nil => exact declares_nil settings
  | append_singleton ds d ih =>
    obtain ⟨hfirst, hlast⟩ := runAll_clean_of_append hclean
    rw [runAll_append]
    exact (ih hfirst).concat (scope_runAll hfirst) (does_run hlast).enters

theorem contents_finalClass (hclean : a.checkEnd.diagnostics = #[]) :
    a.checkEnd.finalClass.contents = a.contents := by
  obtain ⟨hend, hmethod, -⟩ := closed_of_checkEnd hclean
  rw [← a.contents_endField, hend, endField_eq]
  simp [contents, finalClass, Class.contents, hmethod]

end Assembler

/-- **The members of a class are written with their headers**, in order. -/
theorem Class.writtenAs_of_encode {c : Class} {file : ClassFile} (h : c.encode = .ok file) :
    List.Forall₂ (fun name i => file.table.LeadsTo i (.classRef name)) c.contents.interfaces
        file.interfaces
      ∧ List.Forall₂ (MemberHeader.WrittenAs file.table) c.contents.fieldHeaders file.fields
      ∧ List.Forall₂ (MemberHeader.WrittenAs file.table) c.contents.methodHeaders
        file.methods := by
  obtain ⟨name, pool, -, hlowers, hcovers⟩ := covers_of_encode h
  refine ⟨?_, ?_, ?_⟩
  · exact (mapM_eq_ok_iff.1 hlowers.interfaces).imp fun _ _ hi => hcovers.leadsTo hi
  · rw [Contents.fieldHeaders, List.forall₂_map_left_iff, contents, List.forall₂_map_left_iff]
    refine (mapM_eq_ok_iff.1 hlowers.fields).imp fun f info hf => ?_
    have hresolves := Field.resolves_of_encode hcovers hf
    exact ⟨hresolves.flags, hresolves.name, hresolves.descriptor⟩
  · rw [Contents.methodHeaders, List.forall₂_map_left_iff, contents, List.forall₂_map_left_iff]
    refine (mapM_eq_ok_iff.1 hlowers.methods).imp fun m info hm => ?_
    have hresolves := Method.resolves_of_encode hcovers hm
    exact ⟨hresolves.flags, hresolves.name, hresolves.descriptor⟩

namespace Assembler

/-- **Members are neither lost nor doubled nor moved.** In a run that gives a
class, the interfaces, fields and methods of the class are those that the
directives declare, in order and with the flags, names and descriptors given,
and so they are written in the class file. What is remarked on the class or on
one of its members is what the directives remark that were given while it was
innermost: the last signature, a mark if there was one, and the attributes in
order. -/
theorem finish_members (settings : Settings) (ds : List Directive) (file : ClassFile)
    (h : ((start settings).runAll ds).finish = .ok file) :
    ∃ c : Class, c = ((start settings).runAll ds).checkEnd.finalClass ∧ c.encode = .ok file
      ∧ c.contents.interfaces = ds.filterMap Directive.interface?
      ∧ c.contents.fieldHeaders = ds.filterMap Directive.fieldHeader?
      ∧ c.contents.methodHeaders = ds.filterMap Directive.methodHeader?
      ∧ (∀ declaration,
        c.contents.on declaration = .of (Scope.initial.heard declaration ds))
      ∧ List.Forall₂ (fun name i => file.table.LeadsTo i (.classRef name))
        (ds.filterMap Directive.interface?) file.interfaces
      ∧ List.Forall₂ (MemberHeader.WrittenAs file.table) (ds.filterMap Directive.fieldHeader?)
        file.fields
      ∧ List.Forall₂ (MemberHeader.WrittenAs file.table) (ds.filterMap Directive.methodHeader?)
        file.methods := by
  obtain ⟨hclean, hencode⟩ := finish_eq_ok_iff.1 h
  have hrun : ((start settings).runAll ds).diagnostics = (start settings).diagnostics :=
    (keeps_checkEnd _).clean hclean
  have hdeclares := declares_runAll settings ds hrun
  rw [← contents_finalClass hclean] at hdeclares
  obtain ⟨hinterfaces, hfields, hmethods⟩ := Class.writtenAs_of_encode hencode
  rw [hdeclares.interfaces] at hinterfaces
  rw [hdeclares.fields] at hfields
  rw [hdeclares.methods] at hmethods
  exact ⟨_, rfl, hencode, hdeclares.interfaces, hdeclares.fields, hdeclares.methods,
    hdeclares.on, hinterfaces, hfields, hmethods⟩

/-- The run of a class with a field and a method. The attribute is given after
the field and before the method, and the method closes the field. -/
def homonymRun : List Directive :=
  [.classHeader .empty "A", .superClass "B",
    .beginField .empty "A" "Ljava/lang/String;" (some (.string "A")), .custom ⟨"A", [7]⟩,
    .beginMethod ⟨0x0400⟩ "A" "()V", .throws "A", .endMethod]

theorem checkEnd_homonymRun :
    ((start .initial).runAll homonymRun).checkEnd
      = { start .initial with
          classSoFar := Class.homonymClass
          form := some Version.initial.stackMapForm } := by
  have hbegin : (start .initial).runAll (homonymRun.take 5)
      = { start .initial with
          classSoFar := { Class.homonymClass with methods := #[] }
          form := some Version.initial.stackMapForm
          method := some (.begin (.declare ⟨0x0400⟩ "A" "()V")) } := by
    show ((start .initial).runAll (homonymRun.take 4)).beginMethod ⟨0x0400⟩ "A" "()V" = _
    unfold beginMethod
    rw [MethodDescriptor.read_unit]
    rfl
  rw [← homonymRun.take_append_drop 5, runAll_append, hbegin]
  rfl

theorem finish_homonymRun :
    ((start .initial).runAll homonymRun).finish = .ok Class.homonymFile := by
  refine finish_eq_ok_iff.2 ?_
  rw [checkEnd_homonymRun]
  exact ⟨rfl, Class.encode_homonymClass⟩

/-- The attribute is a remark on the field only. -/
theorem finish_members_homonym :
    ((start .initial).runAll homonymRun).finish = .ok Class.homonymFile
      ∧ ∃ c : Class, c.encode = .ok Class.homonymFile
        ∧ c.contents.fieldHeaders = [⟨.empty, "A", "Ljava/lang/String;"⟩]
        ∧ c.contents.methodHeaders = [⟨⟨0x0400⟩, "A", "()V"⟩]
        ∧ c.contents.on (.field 0) = ⟨none, false, [⟨"A", [7]⟩]⟩
        ∧ c.contents.on (.method 0) = .none ∧ c.contents.on .theClass = .none := by
  obtain ⟨c, -, hencode, -, hfields, hmethods, hon, -⟩ :=
    finish_members .initial homonymRun Class.homonymFile finish_homonymRun
  exact ⟨finish_homonymRun, c, hencode, hfields, hmethods, hon _, hon _, hon _⟩

end Assembler

end BytecodeAssembler
