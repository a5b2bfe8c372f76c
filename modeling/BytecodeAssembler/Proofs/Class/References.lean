import BytecodeAssembler.Proofs.Class.Faults
import BytecodeAssembler.Proofs.Class.Lowering
import BytecodeAssembler.Proofs.ClassFile.Decoding

/-!
# The references of a class file

Lowering puts an index where the class has a name, and a wrong index would
still be an index of something: the same text can be the name of the class,
of a method and of an attribute, and the text of a string besides. So the
indices are followed here through the constants **of the class file**, as
whoever reads it does, and what they lead to is compared with the class.

Attributes are compared one by one with what they are meant to be, an
`AttributeSpec`: a name, and what the content has to satisfy. The attributes
given as they are come last, each with its own bytes.
-/

namespace BytecodeAssembler

/-! ## Following an index -/

/-- **The constants of a class file by their indices.** -/
def ClassFile.table (file : ClassFile) : PoolTable := numberEntries file.constants 1

namespace PoolTable

variable {table : PoolTable}

/-- **The index leads to the constant.** -/
def LeadsTo (table : PoolTable) (index : PoolIndex) (c : Constant) : Prop :=
  table.constantAt? index.toNat = some c

/-- The index leads to the constant if there is one, and is 0 if there is
none. -/
def LeadsToAny (table : PoolTable) (index : PoolIndex) (c : Option Constant) : Prop :=
  c.elim (index = 0) (table.LeadsTo index)

end PoolTable

/-- No entry has an index before the first one. -/
theorem lookup_numberEntries_of_lt {es : List PoolEntry} {next index : Nat} (h : index < next) :
    (numberEntries es next).lookup index = none := by
  induction es generalizing next with
  | nil => rfl
  | cons e es ih =>
    rw [numberEntries, List.lookup_cons, beq_eq_false_iff_ne.2 (Nat.ne_of_lt h)]
    exact ih (Nat.lt_add_right _ h)

/-- **The index 0 leads nowhere.** -/
theorem ClassFile.not_leadsTo_zero (file : ClassFile) (c : Constant) :
    ¬file.table.LeadsTo 0 c := by
  intro h
  have hnone : file.table.lookup 0 = none := lookup_numberEntries_of_lt Nat.one_pos
  unfold PoolTable.LeadsTo PoolTable.constantAt? at h
  rw [show (0 : PoolIndex).toNat = 0 from rfl, hnone] at h
  cases h

variable {pool : ConstantPool} {table : PoolTable}

namespace ConstantPool.Covers

variable (h : pool.Covers table)
include h

theorem leadsTo {c : Constant} {index : PoolIndex} (hindex : pool.indexOf c = .ok index) :
    table.LeadsTo index c := by
  obtain ⟨e, hlookup, hwrites⟩ := h c index hindex
  exact h.constantAt? hlookup hwrites

/-- What may be absent is looked up if it is there. -/
theorem leadsToAny {α : Type} {o : Option α} {f : α → Constant} {index : PoolIndex}
    (hindex : o.elim (.ok 0) (fun a => pool.indexOf (f a)) = .ok index) :
    table.LeadsToAny index (o.map f) := by
  cases o with
  | none => exact (Except.ok.inj hindex).symm
  | some a => exact h.leadsTo hindex

end ConstantPool.Covers

/-! ## What an attribute is meant to be -/

/-- **What an attribute is meant to be**: its name, and what its content has
to satisfy. -/
structure AttributeSpec where
  /-- The name. -/
  name : String
  /-- What the content satisfies. -/
  content : Bytes → Prop

namespace AttributeSpec

/-- An attribute of which only the name is said. -/
def named (name : String) : AttributeSpec := ⟨name, fun _ => True⟩

/-- An attribute whose content is read to its end, and as what is meant. -/
def reading {α : Type} (name : String) (read : Reader α) (P : α → Prop) : AttributeSpec :=
  ⟨name, fun info => ∃ value, read info = some (value, []) ∧ P value⟩

/-- An attribute that consists of the index of a constant. -/
def index (table : PoolTable) (name : String) (c : Constant) : AttributeSpec :=
  reading name readU2 (table.LeadsTo · c)

/-- An attribute with the very bytes that were given. -/
def ofCustom (entry : CustomAttribute) : AttributeSpec := ⟨entry.name, (· = entry.info)⟩

/-- **The attribute is what it is meant to be.** -/
structure Holds (table : PoolTable) (spec : AttributeSpec) (a : Attribute) : Prop where
  name : table.LeadsTo a.name (.utf8 spec.name)
  content : spec.content a.info
  fits : a.Fits

end AttributeSpec

open AttributeSpec (Holds)

/-- **An attribute that is made has its name**, and the content it was given. -/
theorem ConstantPool.Covers.holds (h : pool.Covers table) {name : String} {info : Bytes}
    {content : Bytes → Prop} {a : Attribute} (ha : pool.makeAttribute name info = .ok a)
    (hcontent : content info) : Holds table ⟨name, content⟩ a := by
  obtain ⟨i, hi, ha⟩ := bind_eq_ok_iff.1 ha
  obtain ⟨rfl, hfits⟩ := Attribute.make_eq_ok_iff.1 ha
  exact ⟨h.leadsTo hi, hcontent, hfits⟩

theorem ConstantPool.Covers.holds_named (h : pool.Covers table) {name : String} {info : Bytes}
    {a : Attribute} (ha : pool.makeAttribute name info = .ok a) : Holds table (.named name) a :=
  h.holds ha trivial

/-- What is made of the bytes of a value is read as the value. -/
theorem ConstantPool.Covers.holds_reading (h : pool.Covers table) {α : Type} {read : Reader α}
    {P : α → Prop} {value : α} {name : String} {info : Bytes} {a : Attribute}
    (ha : pool.makeAttribute name info = .ok a) (hread : Reads read info value) (hP : P value) :
    Holds table (.reading name read P) a := by
  have hall := hread []
  rw [List.append_nil] at hall
  exact h.holds ha ⟨value, hall, hP⟩

/-- An attribute that consists of an index leads where the index does. -/
theorem ConstantPool.Covers.holds_index (h : pool.Covers table) {name : String} {c : Constant}
    {i : PoolIndex} {a : Attribute} (hi : pool.indexOf c = .ok i)
    (ha : pool.makeAttribute name (Bytes.u2 i) = .ok a) : Holds table (.index table name c) a :=
  h.holds_reading ha (reads_u2 i) (h.leadsTo hi)

section Segments

variable {attributes : List Attribute}

/-- What is written if it is there is what it is meant to be. -/
theorem holds_of_elim {α : Type} {o : Option α} {encode : α → Except Fault Attribute}
    {spec : α → AttributeSpec}
    (h : (o.elim (.ok []) fun x => (encode x).map ([·])) = .ok attributes)
    (hencode : ∀ x a, o = some x → encode x = .ok a → Holds table (spec x) a) :
    List.Forall₂ (Holds table) (o.toList.map spec) attributes := by
  cases o with
  | none =>
    cases h
    exact .nil
  | some x =>
    obtain ⟨a, ha, rfl⟩ := map_eq_ok_iff.1 h
    exact .cons (hencode x a rfl ha) .nil

/-- What is written unless it is empty is what it is meant to be. -/
theorem holds_of_ite {c : Prop} [Decidable c] {encoded : Except Fault Attribute}
    {spec : AttributeSpec}
    (h : (if c then .ok [] else encoded.map ([·])) = .ok attributes)
    (hencode : ∀ a, encoded = .ok a → Holds table spec a) :
    List.Forall₂ (Holds table) (if c then [] else [spec]) attributes := by
  split at h
  next hc =>
    cases h
    rw [if_pos hc]
    exact .nil
  next hc =>
    obtain ⟨a, ha, rfl⟩ := map_eq_ok_iff.1 h
    rw [if_neg hc]
    exact .cons (hencode a ha) .nil

/-- The attributes given as they are keep their names, their bytes and their
order. -/
theorem ConstantPool.Covers.holds_custom (h : pool.Covers table) {custom : List CustomAttribute}
    (hcustom : custom.mapM (·.encode pool) = .ok attributes) :
    List.Forall₂ (Holds table) (custom.map .ofCustom) attributes := by
  rw [List.forall₂_map_left_iff]
  refine (mapM_eq_ok_iff.1 hcustom).imp fun entry a ha => ?_
  show Holds table ⟨entry.name, (· = entry.info)⟩ a
  exact h.holds ha rfl

/-- No attribute that is what it is meant to be is too long. -/
theorem fits_of_holds {specs : List AttributeSpec}
    (h : List.Forall₂ (Holds table) specs attributes) : ∀ a ∈ attributes, a.Fits := by
  induction h with
  | nil => exact List.forall_mem_nil _
  | cons ha _ ih => exact List.forall_mem_cons.2 ⟨ha.fits, ih⟩

end Segments

/-! ## Attributes of declarations -/

namespace CommonAttributes

/-- **The attributes that a declaration is meant to have.** -/
def specs (a : CommonAttributes) (table : PoolTable) : List AttributeSpec :=
  a.signature.toList.map (fun signature => .index table "Signature" (.utf8 signature))
    ++ (if a.deprecated then [⟨"Deprecated", (· = [])⟩] else [])
    ++ (if a.visible.isEmpty then [] else [.named "RuntimeVisibleAnnotations"])
    ++ (if a.invisible.isEmpty then [] else [.named "RuntimeInvisibleAnnotations"])
    ++ a.custom.toList.map .ofCustom

variable {a : CommonAttributes} {attributes : List Attribute} (h : pool.Covers table)
include h

theorem holds_encodeSignature (hsignature : a.encodeSignature pool = .ok attributes) :
    List.Forall₂ (Holds table)
      (a.signature.toList.map fun signature => .index table "Signature" (.utf8 signature))
      attributes := by
  unfold encodeSignature at hsignature
  generalize a.signature = o at hsignature ⊢
  cases o with
  | none =>
    cases hsignature
    exact .nil
  | some signature =>
    obtain ⟨i, hi, hsignature⟩ := bind_eq_ok_iff.1 hsignature
    obtain ⟨info, hinfo, hsignature⟩ := bind_eq_ok_iff.1 hsignature
    cases hsignature
    exact .cons (h.holds_index hi hinfo) .nil

theorem holds_encodeMark (hmark : a.encodeMark pool = .ok attributes) :
    List.Forall₂ (Holds table) (if a.deprecated then [⟨"Deprecated", (· = [])⟩] else [])
      attributes := by
  unfold encodeMark at hmark
  split at hmark
  next hmarked =>
    obtain ⟨info, hinfo, rfl⟩ := map_eq_ok_iff.1 hmark
    rw [if_pos hmarked]
    exact .cons (h.holds hinfo rfl) .nil
  next hunmarked =>
    cases hmark
    rw [if_neg hunmarked]
    exact .nil

theorem holds_encodeList {name : String} {trees : Array AnnotationTree}
    (hlist : encodeList name trees pool = .ok attributes) :
    List.Forall₂ (Holds table) (if trees.isEmpty then [] else [.named name]) attributes := by
  unfold encodeList at hlist
  split at hlist
  next hnone =>
    cases hlist
    rw [if_pos hnone]
    exact .nil
  next hsome =>
    obtain ⟨items, -, hlist⟩ := bind_eq_ok_iff.1 hlist
    obtain ⟨info, hinfo, hlist⟩ := bind_eq_ok_iff.1 hlist
    cases hlist
    rw [if_neg hsome]
    exact .cons (h.holds_named hinfo) .nil

/-- **The attributes of a declaration are what they are meant to be.** -/
theorem holds_encode (hencode : a.encode pool = .ok attributes) :
    List.Forall₂ (Holds table) (a.specs table) attributes := by
  rw [encode_eq] at hencode
  obtain ⟨signature, hsignature, hencode⟩ := bind_eq_ok_iff.1 hencode
  obtain ⟨deprecated, hdeprecated, hencode⟩ := bind_eq_ok_iff.1 hencode
  obtain ⟨visible, hvisible, hencode⟩ := bind_eq_ok_iff.1 hencode
  obtain ⟨invisible, hinvisible, hencode⟩ := bind_eq_ok_iff.1 hencode
  obtain ⟨custom, hcustom, hencode⟩ := bind_eq_ok_iff.1 hencode
  cases hencode
  refine List.rel_append (List.rel_append (List.rel_append (List.rel_append ?_ ?_) ?_) ?_) ?_
  · exact holds_encodeSignature h hsignature
  · exact holds_encodeMark h hdeprecated
  · exact holds_encodeList h hvisible
  · exact holds_encodeList h hinvisible
  · exact h.holds_custom hcustom

end CommonAttributes

/-! ## Fields -/

/-- **A field or method of a class file is the one meant**: it has these
flags, and its name, its descriptor and its attributes are what they are
meant to be. -/
structure MemberInfo.Resolves {carrier : Carrier} (info : MemberInfo carrier) (table : PoolTable)
    (flags : AccessFlags carrier) (name descriptor : String) (specs : List AttributeSpec) :
    Prop where
  flags : info.flags = flags
  name : table.LeadsTo info.name (.utf8 name)
  descriptor : table.LeadsTo info.descriptor (.utf8 descriptor)
  attributes : List.Forall₂ (Holds table) specs info.attributes

namespace Field

/-- The attributes that a field is meant to have: its constant value, if it
has one, comes first. -/
def specs (f : Field) (table : PoolTable) : List AttributeSpec :=
  f.constant.toList.map (.index table "ConstantValue") ++ f.attributes.specs table

theorem resolves_of_encode {f : Field} {info : MemberInfo .fields} (h : pool.Covers table)
    (hencode : f.encode pool = .ok info) :
    info.Resolves table f.flags f.name f.descriptor (f.specs table) := by
  obtain ⟨hflags, hname, hdescriptor, value, common, hvalue, hcommon, hattributes⟩ :=
    encodesTo_of_encode hencode
  refine ⟨hflags, h.leadsTo hname, h.leadsTo hdescriptor, ?_⟩
  rw [hattributes]
  refine List.rel_append (holds_of_elim hvalue fun c a _ ha => ?_)
    (CommonAttributes.holds_encode h hcommon)
  obtain ⟨i, hi, ha⟩ := bind_eq_ok_iff.1 ha
  exact h.holds_index hi ha

end Field

/-! ## Bodies -/

/-- The instructions are a part of the code. -/
theorem Code.length_code_le (c : Code) : c.code.length ≤ c.bytes.length := by
  unfold Code.bytes
  simp only [List.length_append]
  omega

namespace Body

/-- The attributes that a body is meant to have: a table for each kind of
entry it has, and last the attributes given as they are. -/
def specs (b : Body) (form : StackMapForm) : List AttributeSpec :=
  (if b.lines.isEmpty then [] else [.named "LineNumberTable"])
    ++ (if b.localVariables.isEmpty then [] else [.named "LocalVariableTable"])
    ++ (if b.localVariables.toList.any (·.signature.isSome)
      then [.named "LocalVariableTypeTable"] else [])
    ++ (if b.frames.isEmpty then [] else [.named form.attributeName])
    ++ b.attributes.toList.map .ofCustom

variable {b : Body} {context : BodyContext} {attributes : List Attribute}

/-- The table of signatures is there exactly if a variable has one. -/
theorem filterMap_snd_eq_nil_iff {vs : List LocalVariable}
    {entries : List (VariableEntry × Option VariableEntry)}
    (h : List.Forall₂ (fun v entry => b.encodeVariable pool v = .ok entry) vs entries) :
    entries.filterMap Prod.snd = [] ↔ vs.any (·.signature.isSome) = false := by
  induction h with
  | nil => exact iff_of_true rfl rfl
  | @cons v entry vs entries hv _ ih =>
    have hsome := isSome_of_encodeVariable hv
    rw [List.any_cons, Bool.or_eq_false_iff, ← ih, ← hsome, List.filterMap_cons]
    cases entry.2 with
    | none => exact (and_iff_right rfl).symm
    | some typed => exact iff_of_false nofun fun hnone => nomatch hnone.1

theorem holds_encodeVariables (h : pool.Covers table)
    (hvariables : b.encodeVariables pool = .ok attributes) :
    List.Forall₂ (Holds table) ([.named "LocalVariableTable"]
      ++ if b.localVariables.toList.any (·.signature.isSome)
        then [.named "LocalVariableTypeTable"] else []) attributes := by
  obtain ⟨entries, hentries, hvariables⟩ := bind_eq_ok_iff.1 hvariables
  obtain ⟨_, -, hvariables⟩ := bind_eq_ok_iff.1 hvariables
  obtain ⟨a, ha, hvariables⟩ := bind_eq_ok_iff.1 hvariables
  have hiff := filterMap_snd_eq_nil_iff (mapM_eq_ok_iff.1 hentries)
  split at hvariables
  next hnone =>
    cases hvariables
    rw [hiff.1 hnone]
    exact .cons (h.holds_named ha) .nil
  next hsome =>
    obtain ⟨typed, htyped, hvariables⟩ := bind_eq_ok_iff.1 hvariables
    cases hvariables
    rw [Bool.of_not_eq_false fun hnone => hsome (hiff.2 hnone)]
    exact .cons (h.holds_named ha) (.cons (h.holds_named htyped) .nil)

theorem holds_encodeFrames (h : pool.Covers table) {a : Attribute}
    (hframes : b.encodeFrames pool context = .ok a) :
    Holds table (.named context.form.attributeName) a := by
  obtain ⟨_, -, hframes⟩ := bind_eq_ok_iff.1 hframes
  cases hform : context.form with
  | compact =>
    rw [hform] at hframes
    obtain ⟨frames, -, hframes⟩ := bind_eq_ok_iff.1 hframes
    obtain ⟨name, hname, hframes⟩ := bind_eq_ok_iff.1 hframes
    obtain ⟨items, -, hframes⟩ := bind_eq_ok_iff.1 hframes
    exact h.holds_named (bind_eq_ok_iff.2 ⟨name, hname, hframes⟩)
  | legacy =>
    rw [hform] at hframes
    obtain ⟨frames, -, hframes⟩ := bind_eq_ok_iff.1 hframes
    exact h.holds_named hframes

/-- **The attributes of a body are what they are meant to be.** -/
theorem holds_encodeAttributes (h : pool.Covers table)
    (hencode : b.encodeAttributes pool context = .ok attributes) :
    List.Forall₂ (Holds table) (b.specs context.form) attributes
      ∧ attributes.length ≤ 65535 := by
  obtain ⟨lines, hlines, hencode⟩ := iteBind_eq_ok_iff.1 hencode
  obtain ⟨locals, hlocals, hencode⟩ := iteBind_eq_ok_iff.1 hencode
  obtain ⟨frames, hframes, hencode⟩ := iteBind_eq_ok_iff.1 hencode
  obtain ⟨custom, hcustom, hencode⟩ := bind_eq_ok_iff.1 hencode
  obtain ⟨_, hcount, hencode⟩ := bind_eq_ok_iff.1 hencode
  cases hencode
  refine ⟨?_, checkCount_eq_ok_iff.1 hcount⟩
  unfold specs
  rw [List.append_assoc (if b.lines.isEmpty then _ else _)]
  -- the same four kinds on both sides, in the same order: lines, variables, frames, custom ones
  refine List.rel_append (List.rel_append (List.rel_append ?_ ?_) ?_) (h.holds_custom hcustom)
  · refine holds_of_ite hlines fun a ha => ?_
    obtain ⟨entries, -, ha⟩ := bind_eq_ok_iff.1 ha
    obtain ⟨_, -, ha⟩ := bind_eq_ok_iff.1 ha
    exact h.holds_named ha
  · split at hlocals
    next hnone =>
      cases hlocals
      rw [if_pos hnone, Array.isEmpty_iff.1 hnone]
      exact .nil
    next hsome =>
      rw [if_neg hsome]
      exact holds_encodeVariables h hlocals
  · exact holds_of_ite hframes fun a ha => holds_encodeFrames h ha

/-- **The code of a body has the attributes it is meant to have**, and its
counts hold if it is not too long altogether. -/
theorem holds_encode (h : pool.Covers table) {code : Code}
    (hencode : (b.encode pool context).2 = .ok code) :
    List.Forall₂ (Holds table) (b.specs context.form) code.attributes
      ∧ (code.bytes.length ≤ 4294967295 → code.Fits) := by
  have hsame : (b.layout pool).1.specs context.form = b.specs context.form := rfl
  obtain ⟨⟨starts, length⟩, -, hencode⟩ := bind_eq_ok_iff.1 hencode
  obtain ⟨bytes, -, hencode⟩ := bind_eq_ok_iff.1 hencode
  obtain ⟨handlers, -, hencode⟩ := bind_eq_ok_iff.1 hencode
  obtain ⟨_, hhandlers, hencode⟩ := bind_eq_ok_iff.1 hencode
  obtain ⟨attributes, hattributes, hencode⟩ := bind_eq_ok_iff.1 hencode
  cases hencode
  obtain ⟨hholds, hcount⟩ := holds_encodeAttributes h hattributes
  refine ⟨hsame ▸ hholds, fun hlength => ?_⟩
  exact ⟨Nat.le_trans (Code.length_code_le _) hlength, checkCount_eq_ok_iff.1 hhandlers, hcount,
    fits_of_holds hholds⟩

end Body

/-! ## Methods -/

namespace Method

/-- What the code of a method is meant to be: it is read to its end, and its
attributes are those of the body. -/
def codeSpec (table : PoolTable) (form : StackMapForm) (body : Body) : AttributeSpec :=
  .reading "Code" Code.read fun code => List.Forall₂ (Holds table) (body.specs form) code.attributes

/-- What the list of the classes thrown is meant to be: their indices, in
order. -/
def exceptionsSpec (table : PoolTable) (exceptions : Array String) : AttributeSpec :=
  .reading "Exceptions" (readCounted readU2) <|
    List.Forall₂ (fun name i => table.LeadsTo i (.classRef name)) exceptions.toList

/-- The attributes that a method is meant to have. -/
def specs (m : Method) (table : PoolTable) (form : StackMapForm) : List AttributeSpec :=
  m.body.toList.map (codeSpec table form)
    ++ (if m.exceptions.isEmpty then [] else [exceptionsSpec table m.exceptions])
    ++ (if m.visibleParameters.isEmpty then [] else [.named "RuntimeVisibleParameterAnnotations"])
    ++ (if m.invisibleParameters.isEmpty then []
      else [.named "RuntimeInvisibleParameterAnnotations"])
    ++ m.defaultValue.toList.map (fun _ => .named "AnnotationDefault")
    ++ m.attributes.specs table

variable {m : Method} {thisClass : String} {form : StackMapForm} {a : Attribute}

theorem holds_encodeBody (h : pool.Covers table) {body : Body}
    (hbody : m.encodeBody pool thisClass form body = .ok a) :
    Holds table (codeSpec table form body) a := by
  unfold encodeBody at hbody
  split at hbody
  next =>
    obtain ⟨context, hcontext, hbody⟩ := bind_eq_ok_iff.1 hbody
    obtain ⟨code, hcode, hbody⟩ := bind_eq_ok_iff.1 hbody
    obtain ⟨hattributes, hfits⟩ := Body.holds_encode h hcode
    rw [(bodyContext_eq_ok hcontext).1] at hattributes
    obtain ⟨i, -, hmake⟩ := bind_eq_ok_iff.1 hbody
    obtain ⟨rfl, hlength⟩ := Attribute.make_eq_ok_iff.1 hmake
    exact h.holds_reading hbody (code.readsIff.reads (hfits hlength)) hattributes
  next => cases hbody

theorem holds_encodeExceptions (h : pool.Covers table) (hencode : m.encodeExceptions pool = .ok a) :
    Holds table (exceptionsSpec table m.exceptions) a := by
  obtain ⟨indices, hindices, hencode⟩ := bind_eq_ok_iff.1 hencode
  obtain ⟨_, hcount, hencode⟩ := bind_eq_ok_iff.1 hencode
  have hread : Reads (readCounted readU2) (Bytes.counted (indices.map Bytes.u2)) indices :=
    (ReadsIff.list (fun i => (reads_u2 i).readsIff) indices).reads
      ⟨checkCount_eq_ok_iff.1 hcount, fun _ _ => trivial⟩
  exact h.holds_reading hencode hread
    ((mapM_eq_ok_iff.1 hindices).imp fun _ _ hi => h.leadsTo hi)

theorem holds_encodeParameters (h : pool.Covers table) {name : String}
    {parameters : Array (Array AnnotationTree)} {attributes : List Attribute}
    (hencode : encodeParameters name parameters pool = .ok attributes) :
    List.Forall₂ (Holds table) (if parameters.isEmpty then [] else [.named name]) attributes := by
  unfold encodeParameters at hencode
  split at hencode
  next hnone =>
    cases hencode
    rw [if_pos hnone]
    exact .nil
  next hsome =>
    split at hencode
    next => cases hencode
    next =>
      obtain ⟨lists, -, hencode⟩ := bind_eq_ok_iff.1 hencode
      obtain ⟨info, hinfo, hencode⟩ := bind_eq_ok_iff.1 hencode
      cases hencode
      rw [if_neg hsome]
      exact .cons (h.holds_named hinfo) .nil

theorem resolves_of_encode {info : MemberInfo .methods} (h : pool.Covers table)
    (hencode : m.encode pool thisClass form = .ok info) :
    info.Resolves table m.flags m.name m.descriptor (m.specs table form) := by
  obtain ⟨hflags, hname, hdescriptor, ⟨code, exceptions, visible, invisible, default, common, hcode,
    hexceptions, hvisible, hinvisible, hdefault, hcommon, hattributes⟩, -⟩ :=
    encodesTo_of_encode hencode
  refine ⟨hflags, h.leadsTo hname, h.leadsTo hdescriptor, ?_⟩
  rw [hattributes]
  refine List.rel_append (List.rel_append (List.rel_append (List.rel_append (List.rel_append
    ?_ ?_) ?_) ?_) ?_) (CommonAttributes.holds_encode h hcommon)
  · exact holds_of_elim hcode fun body a _ ha => holds_encodeBody h ha
  · exact holds_of_ite hexceptions fun a ha => holds_encodeExceptions h ha
  · exact holds_encodeParameters h hvisible
  · exact holds_encodeParameters h hinvisible
  · refine holds_of_elim hdefault fun value a _ ha => ?_
    obtain ⟨bytes, -, ha⟩ := bind_eq_ok_iff.1 ha
    exact h.holds_named ha

end Method

/-! ## Classes -/

/-- What is said of the class and the method that a local class stands in is
meant to lead to them. -/
def Enclosing.spec (table : PoolTable) (e : Enclosing) : AttributeSpec :=
  .reading "EnclosingMethod" (readU2.pair readU2) fun (owner, method) =>
    table.LeadsTo owner (.classRef e.owner)
      ∧ table.LeadsToAny method
        (e.method.map fun (name, descriptor) => .nameAndType name descriptor)

theorem Enclosing.holds_encode (h : pool.Covers table) {e : Enclosing} {a : Attribute}
    (hencode : e.encode pool = .ok a) : Holds table (e.spec table) a := by
  obtain ⟨method, hmethod, hencode⟩ := bind_eq_ok_iff.1 hencode
  obtain ⟨owner, howner, hencode⟩ := bind_eq_ok_iff.1 hencode
  exact h.holds_reading hencode ((reads_u2 owner).pair (reads_u2 method))
    ⟨h.leadsTo howner, h.leadsToAny hmethod⟩

namespace InnerClass

/-- Read an inner class: three indices, and the flags. -/
def read : Reader (PoolIndex × PoolIndex × PoolIndex × UInt16) :=
  readU2.pair (readU2.pair (readU2.pair readU2))

/-- **An inner class as it is written is the one meant.** -/
def Resolves (table : PoolTable) (c : InnerClass) :
    PoolIndex × PoolIndex × PoolIndex × UInt16 → Prop
  | (inner, outer, name, flags) =>
    table.LeadsToAny inner (c.inner.map .classRef) ∧ table.LeadsToAny outer (c.outer.map .classRef)
      ∧ table.LeadsToAny name (c.name.map .utf8) ∧ flags = c.flags.bits

theorem resolves_of_encode (h : pool.Covers table) {c : InnerClass} {bytes : Bytes}
    (hencode : c.encode pool = .ok bytes) :
    ∃ entry, Reads read bytes entry ∧ c.Resolves table entry := by
  obtain ⟨inner, hinner, hencode⟩ := bind_eq_ok_iff.1 hencode
  obtain ⟨outer, houter, hencode⟩ := bind_eq_ok_iff.1 hencode
  obtain ⟨name, hname, hencode⟩ := bind_eq_ok_iff.1 hencode
  cases hencode
  refine ⟨(inner, outer, name, c.flags.bits), ?_, h.leadsToAny hinner, h.leadsToAny houter,
    h.leadsToAny hname, rfl⟩
  have hparts := (reads_u2 inner).pair ((reads_u2 outer).pair ((reads_u2 name).pair
    (reads_u2 c.flags.bits)))
  rw [← List.append_assoc, ← List.append_assoc] at hparts
  exact hparts

theorem exists_entries (h : pool.Covers table) {cs : List InnerClass} {items : List Bytes}
    (hitems : List.Forall₂ (fun c bytes => c.encode pool = .ok bytes) cs items) :
    ∃ entries, List.Forall₂ (fun bytes entry => ReadsIff read bytes entry True) items entries
      ∧ List.Forall₂ (Resolves table) cs entries := by
  induction hitems with
  | nil => exact ⟨[], .nil, .nil⟩
  | cons hitem _ ih =>
    obtain ⟨entry, hread, hentry⟩ := resolves_of_encode h hitem
    obtain ⟨entries, hreads, hresolves⟩ := ih
    exact ⟨entry :: entries, .cons hread.readsIff hreads, .cons hentry hresolves⟩

end InnerClass

namespace Class

/-- What the list of the inner classes is meant to be. -/
def innerSpec (table : PoolTable) (innerClasses : Array InnerClass) : AttributeSpec :=
  .reading "InnerClasses" (readCounted InnerClass.read) <|
    List.Forall₂ (InnerClass.Resolves table) innerClasses.toList

/-- The attributes that a class is meant to have. -/
def specs (c : Class) (table : PoolTable) : List AttributeSpec :=
  c.sourceFile.toList.map (fun file => .index table "SourceFile" (.utf8 file))
    ++ c.enclosing.toList.map (Enclosing.spec table)
    ++ (if c.innerClasses.isEmpty then [] else [innerSpec table c.innerClasses])
    ++ c.debugExtension.toList.map
      (fun text => ⟨"SourceDebugExtension", (· = Text.modifiedUtf8 text)⟩)
    ++ c.attributes.specs table

variable {c : Class} {file : ClassFile}

theorem holds_encodeInnerClasses (h : pool.Covers table) {a : Attribute}
    (hencode : c.encodeInnerClasses pool = .ok a) :
    Holds table (innerSpec table c.innerClasses) a := by
  obtain ⟨items, hitems, hencode⟩ := bind_eq_ok_iff.1 hencode
  obtain ⟨_, hcount, hencode⟩ := bind_eq_ok_iff.1 hencode
  obtain ⟨entries, hreads, hresolves⟩ := InnerClass.exists_entries h (mapM_eq_ok_iff.1 hitems)
  have hlength : entries.length ≤ 65535 := hreads.length_eq ▸ checkCount_eq_ok_iff.1 hcount
  refine h.holds_reading hencode ((ReadsIff.counted hreads).reads ?_) hresolves
  exact ⟨countHolds_iff.2 hlength, fun _ _ => trivial⟩

theorem holds_encodeAttributes (h : pool.Covers table) {attributes : List Attribute}
    (hencode : c.encodeAttributes pool = .ok attributes) :
    List.Forall₂ (Holds table) (c.specs table) attributes := by
  obtain ⟨source, hsource, hencode⟩ := bind_eq_ok_iff.1 hencode
  obtain ⟨enclosing, henclosing, hencode⟩ := bind_eq_ok_iff.1 hencode
  obtain ⟨inner, hinner, hencode⟩ := iteBind_eq_ok_iff.1 hencode
  obtain ⟨debug, hdebug, hencode⟩ := bind_eq_ok_iff.1 hencode
  obtain ⟨common, hcommon, hencode⟩ := bind_eq_ok_iff.1 hencode
  obtain ⟨_, -, hencode⟩ := bind_eq_ok_iff.1 hencode
  cases hencode
  refine List.rel_append (List.rel_append (List.rel_append (List.rel_append ?_ ?_) ?_) ?_)
    (CommonAttributes.holds_encode h hcommon)
  · refine holds_of_elim hsource fun name a _ ha => ?_
    obtain ⟨i, hi, ha⟩ := bind_eq_ok_iff.1 ha
    exact h.holds_index hi ha
  · exact holds_of_elim henclosing fun e a _ ha => Enclosing.holds_encode h ha
  · exact holds_of_ite hinner fun a ha => holds_encodeInnerClasses h ha
  · exact holds_of_elim hdebug fun text a _ ha => h.holds ha rfl

/-- A class has a name, and a class above it unless it is the root. -/
theorem names_of_checkNames {name : String} (h : c.checkNames = .ok name) :
    c.thisClass = some name ∧ (c.superClass = none → name = rootName) := by
  unfold checkNames at h
  split at h
  next => cases h
  next name' hname =>
    split at h
    next hsuper =>
      cases h
      refine ⟨hname, fun hnone => hsuper.resolve_left ?_⟩
      rw [hnone]
      exact Bool.false_ne_true
    next => cases h

/-- The indices of a class file lead where the pool's own indices do. -/
theorem covers_of_encode (h : c.encode = .ok file) :
    ∃ name pool, c.checkNames = .ok name ∧ c.LowersTo name c.version.stackMapForm pool file
      ∧ pool.Covers file.table := by
  obtain ⟨name, opened, pool, hname, hadd, hfinal, hlowers⟩ := lowersTo_of_encode h
  obtain ⟨registered, hok, hreach, -, -⟩ := ConstantPool.addAll_eq_ok _ .empty rfl
  obtain rfl : registered = opened := Except.ok.inj (hok.symm.trans hadd)
  obtain ⟨n, hn⟩ := ConstantPool.exists_numbering_of_finalize hfinal
  have hwrites : List.Forall₂ pool.Writes pool.entries.toList file.constants :=
    (mapM_eq_ok_iff.1 hlowers.constants).imp fun _ _ => ConstantPool.writes_of_resolve
  exact ⟨name, pool, hname, hlowers, ((hreach.finalize hfinal).covers hn hwrites).1⟩

/-- **Every reference of a class file leads to what the class says.** The
class file has the version, the flags, the interfaces and the members of the
class, in their order. Read in the constants of the class file, the index of
each name leads to the name and the index of each class to the class, and the
index of the class above is 0 exactly if there is none, which is so for the
root only. Each attribute has the name and the content it is meant to have,
and the attributes given as they are come last. -/
theorem encode_references (c : Class) (file : ClassFile) (h : c.encode = .ok file) :
    file.version = c.version ∧ file.flags = c.flags
      ∧ (∃ name, c.thisClass = some name ∧ file.table.LeadsTo file.thisClass (.classRef name)
        ∧ (c.superClass = none → name = rootName))
      ∧ file.table.LeadsToAny file.superClass (c.superClass.map .classRef)
      ∧ (file.superClass = 0 ↔ c.superClass = none)
      ∧ List.Forall₂ (fun name i => file.table.LeadsTo i (.classRef name)) c.interfaces.toList
        file.interfaces
      ∧ List.Forall₂ (fun f info => MemberInfo.Resolves info file.table f.flags f.name f.descriptor
        (f.specs file.table)) c.fields.toList file.fields
      ∧ List.Forall₂ (fun m info => MemberInfo.Resolves info file.table m.flags m.name m.descriptor
        (m.specs file.table c.version.stackMapForm)) c.methods.toList file.methods
      ∧ List.Forall₂ (Holds file.table) (c.specs file.table) file.attributes := by
  obtain ⟨name, pool, hname, hlowers, hcovers⟩ := covers_of_encode h
  obtain ⟨hthis, hroot⟩ := names_of_checkNames hname
  have hsuper : file.table.LeadsToAny file.superClass (c.superClass.map .classRef) :=
    hcovers.leadsToAny hlowers.superClass
  refine ⟨hlowers.version, hlowers.flags, ⟨name, hthis, hcovers.leadsTo hlowers.thisClass, hroot⟩,
    hsuper, ?_, ?_, ?_, ?_, holds_encodeAttributes hcovers hlowers.attributes⟩
  · cases habove : c.superClass with
    | none =>
      rw [habove] at hsuper
      exact iff_of_true hsuper rfl
    | some above =>
      rw [habove] at hsuper
      refine iff_of_false (fun hzero => ?_) nofun
      exact file.not_leadsTo_zero _ (hzero ▸ hsuper)
  · exact (mapM_eq_ok_iff.1 hlowers.interfaces).imp fun _ _ hi => hcovers.leadsTo hi
  · exact (mapM_eq_ok_iff.1 hlowers.fields).imp fun _ _ hf => Field.resolves_of_encode hcovers hf
  · exact (mapM_eq_ok_iff.1 hlowers.methods).imp fun _ _ hm => Method.resolves_of_encode hcovers hm

/-! ## One text in many roles -/

/-- A field that is named as its class and holds that name as a string, with
an attribute of the same name. -/
def homonymField : Field :=
  { Field.declare .empty "A" "Ljava/lang/String;" with
    constant := some (.string "A")
    attributes := { CommonAttributes.empty with custom := #[⟨"A", [7]⟩] } }

/-- A method that is named as its class and throws it. -/
def homonymMethod : Method :=
  { Method.declare ⟨0x0400⟩ "A" "()V" with exceptions := #["A"] }

/-- The class of both. -/
def homonymClass : Class :=
  { Class.empty with
    thisClass := some "A"
    superClass := some "B"
    fields := #[homonymField]
    methods := #[homonymMethod] }

/-- What it names. The text of all the names stands there once. -/
def homonymConstants : List Constant :=
  [.classRef "A", .utf8 "A", .classRef "B", .utf8 "B", .utf8 "Ljava/lang/String;",
    .utf8 "ConstantValue", .string "A", .utf8 "()V", .utf8 "Exceptions"]

/-- Its pool. -/
def homonymPool : ConstantPool := .ofEntries homonymConstants

theorem lists_homonym :
    ConstantPool.Lists (homonymClass.constants "A" .legacy) homonymConstants :=
  ⟨by decide, by decide⟩

/-- Its class file. -/
def homonymFile : ClassFile where
  version := .initial
  poolCount := 10
  constants := [.classRef 2, .utf8 [65], .classRef 4, .utf8 [66],
    .utf8 [76, 106, 97, 118, 97, 47, 108, 97, 110, 103, 47, 83, 116, 114, 105, 110, 103, 59],
    .utf8 [67, 111, 110, 115, 116, 97, 110, 116, 86, 97, 108, 117, 101], .string 2,
    .utf8 [40, 41, 86], .utf8 [69, 120, 99, 101, 112, 116, 105, 111, 110, 115]]
  flags := .empty
  thisClass := 1
  superClass := 3
  interfaces := []
  fields := [⟨.empty, 2, 5, [⟨6, [0, 7]⟩, ⟨2, [7]⟩]⟩]
  methods := [⟨⟨0x0400⟩, 2, 8, [⟨9, [0, 1, 0, 1]⟩]⟩]
  attributes := []

theorem lower_homonymClass : homonymClass.lower "A" .legacy homonymPool = .ok homonymFile := by
  -- the indices of all constants that are looked up
  have hthis : homonymPool.classIndex "A" = .ok 1 := lists_homonym.indexOf 0 rfl rfl
  have hname : homonymPool.utf8Index "A" = .ok 2 := lists_homonym.indexOf 1 rfl rfl
  have hsuper : homonymPool.classIndex "B" = .ok 3 := lists_homonym.indexOf 2 rfl rfl
  have habove : homonymPool.utf8Index "B" = .ok 4 := lists_homonym.indexOf 3 rfl rfl
  have htype : homonymPool.utf8Index "Ljava/lang/String;" = .ok 5 :=
    lists_homonym.indexOf 4 rfl rfl
  have hvalue : homonymPool.utf8Index "ConstantValue" = .ok 6 := lists_homonym.indexOf 5 rfl rfl
  have hstring : homonymPool.indexOf (.string "A") = .ok 7 := lists_homonym.indexOf 6 rfl rfl
  have hunit : homonymPool.utf8Index "()V" = .ok 8 := lists_homonym.indexOf 7 rfl rfl
  have hthrown : homonymPool.utf8Index "Exceptions" = .ok 9 := lists_homonym.indexOf 8 rfl rfl
  have hentries : homonymPool.poolEntries = .ok homonymFile.constants := by
    show homonymConstants.mapM homonymPool.resolve = _
    simp [homonymConstants, homonymFile, ConstantPool.resolve, hname, habove, Text.modifiedUtf8,
      Text.utf16Units, Text.unitBytes, bind, Except.bind, pure, Except.pure]
  have hseven : Bytes.u2 7 = [0, 7] := by decide
  have hone : Bytes.u2 1 = [0, 1] := by decide
  have hfield : homonymField.encode homonymPool
      = .ok ⟨.empty, 2, 5, [⟨6, [0, 7]⟩, ⟨2, [7]⟩]⟩ := by
    simp [homonymField, Field.declare, Field.encode, Field.encodeConstant,
      CommonAttributes.empty, CommonAttributes.encode, CommonAttributes.encodeList,
      CustomAttribute.encode, ConstantPool.makeAttribute, hname, htype, hvalue, hstring,
      Attribute.make, hseven, Except.map, bind, Except.bind, pure, Except.pure]
  have hmethod : homonymMethod.encode homonymPool "A" .legacy
      = .ok ⟨⟨0x0400⟩, 2, 8, [⟨9, [0, 1, 0, 1]⟩]⟩ := by
    simp [homonymMethod, Method.declare, Method.encode, Method.encodeExceptions,
      Method.encodeParameters, CommonAttributes.empty, CommonAttributes.encode,
      CommonAttributes.encodeList, ConstantPool.makeAttribute, hname, hunit, hthrown, hthis,
      checkCount, Bytes.counted, Attribute.make, hone, Except.map, bind, Except.bind, pure,
      Except.pure]
  have hfields : homonymClass.fields.toList.mapM (·.encode homonymPool) = .ok homonymFile.fields :=
    mapM_eq_ok_iff.2 (.cons hfield .nil)
  have hmethods : homonymClass.methods.toList.mapM (·.encode homonymPool "A" .legacy)
      = .ok homonymFile.methods :=
    mapM_eq_ok_iff.2 (.cons hmethod .nil)
  -- with the parts known, lowering only puts them together
  unfold lower
  rw [hthis, hfields, hmethods, hentries]
  show (homonymPool.classIndex "B" >>= _) = _
  rw [hsuper]
  rfl

theorem encode_homonymClass : homonymClass.encode = .ok homonymFile :=
  (encode_eq_lower rfl lists_homonym).trans lower_homonymClass

/-- The text stands in the pool once, and each index leads to it in its own
role: 1 to the class, 2 to the name, and 7 to the string. -/
theorem encode_references_homonym :
    homonymClass.encode = .ok homonymFile
      ∧ homonymFile.table.LeadsTo 1 (.classRef "A") ∧ homonymFile.table.LeadsTo 2 (.utf8 "A")
      ∧ homonymFile.table.LeadsTo 7 (.string "A") := by
  obtain ⟨-, -, ⟨name, hname, hthis, -⟩, -, -, -, hfields, -⟩ :=
    encode_references _ _ encode_homonymClass
  obtain rfl : "A" = name := Option.some.inj hname
  obtain ⟨hfield, -⟩ := List.forall₂_cons.1 hfields
  obtain ⟨hvalue, -⟩ := List.forall₂_cons.1 hfield.attributes
  obtain ⟨i, hi, hstring⟩ := hvalue.content
  obtain rfl : 7 = i := (Prod.mk.inj (Option.some.inj hi)).1
  exact ⟨encode_homonymClass, hthis, hfield.name, hstring⟩

end Class

end BytecodeAssembler
