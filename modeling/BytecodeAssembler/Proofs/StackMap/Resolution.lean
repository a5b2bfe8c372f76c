import BytecodeAssembler.Proofs.ConstantPool.Numbering
import BytecodeAssembler.Proofs.Label.Table
import BytecodeAssembler.StackMap.Encoding

/-!
# Resolving frames

A declared frame mentions labels, in its place and in the types of objects
that are not yet constructed, and classes. Resolving replaces the labels by
offsets and fails only at a label that cannot be resolved; encoding replaces
the classes by indices and fails only at a class that has none. Read through
the pool, an encoded type is the resolved type again.
-/

namespace BytecodeAssembler

/-! ## The labels that frames mention -/

/-- The label that a place is given by. -/
def CodeOffset.label? : CodeOffset → Option Label
  | .offset _ => none
  | .label target => some target

/-- The label that a type mentions. -/
def DeclaredType.label? : DeclaredType → Option Label
  | .uninitialized place => place.label?
  | _ => none

/-- **The labels that a frame mentions**, its place first. -/
def Frame.labels (f : Frame) : List Label :=
  f.offset.label?.toList ++ (f.locals.toList ++ f.stack.toList).filterMap DeclaredType.label?

/-- What holds of the labels of a frame holds of the labels of its parts. -/
theorem Frame.forall_mem_labels {f : Frame} {p : Label → Prop} :
    (∀ l ∈ f.labels, p l) ↔ (∀ l, f.offset.label? = some l → p l)
      ∧ (∀ l ∈ f.locals.toList.filterMap DeclaredType.label?, p l)
      ∧ ∀ l ∈ f.stack.toList.filterMap DeclaredType.label?, p l := by
  unfold Frame.labels
  rw [List.forall_mem_append, List.filterMap_append, List.forall_mem_append]
  simp only [Option.mem_toList]

/-- One more type mentions at most one more label. -/
theorem DeclaredType.filterMap_label?_push (types : Array DeclaredType) (type : DeclaredType) :
    (types.push type).toList.filterMap DeclaredType.label?
      = types.toList.filterMap DeclaredType.label? ++ type.label?.toList := by
  rw [Array.toList_push, List.filterMap_append, List.filterMap_cons]
  cases type.label? <;> rfl

theorem Frame.mem_labels_pushLocal {f : Frame} {type : DeclaredType} {l : Label} :
    l ∈ (f.pushLocal type).labels ↔ l ∈ f.labels ∨ l ∈ type.label?.toList := by
  unfold Frame.labels pushLocal
  simp only [List.filterMap_append, DeclaredType.filterMap_label?_push, List.mem_append]
  tauto

theorem Frame.mem_labels_pushStack {f : Frame} {type : DeclaredType} {l : Label} :
    l ∈ (f.pushStack type).labels ↔ l ∈ f.labels ∨ l ∈ type.label?.toList := by
  unfold Frame.labels pushStack
  simp only [List.filterMap_append, DeclaredType.filterMap_label?_push, List.mem_append]
  tauto

variable {P : Fault → Prop} {labels : LabelTable} {pool : ConstantPool}

/-- A label resolves to an offset that fits in two bytes. -/
theorem CodeOffset.resolve_label {label : Label} {p : Nat}
    (h : labels.offset label = .ok p) (hp : p ≤ 65535) :
    (CodeOffset.label label).resolve labels = .ok (UInt16.ofNat p) := by
  simp only [resolve, h, if_pos hp]

/-! ## Resolving -/

/-- A place resolves unless its label does not. -/
theorem CodeOffset.resolve_failsOnly {place : CodeOffset}
    (h : ∀ l, place.label? = some l → FailsOnly P ((CodeOffset.label l).resolve labels)) :
    FailsOnly P (place.resolve labels) := by
  cases place with
  | offset value => exact .ok value
  | label target => exact h target rfl

/-- A type changes its names unless the name of its class or its place
does not change. -/
theorem VerificationType.mapM_failsOnly {α β γ δ : Type} {onClass : α → Except Fault γ}
    {onPlace : β → Except Fault δ} {type : VerificationType α β}
    (hclass : ∀ c, type.class? = some c → FailsOnly P (onClass c))
    (hplace : ∀ place, type = .uninitialized place → FailsOnly P (onPlace place)) :
    FailsOnly P (type.mapM onClass onPlace) := by
  cases type with
  | object c => exact (hclass c rfl).map
  | uninitialized place => exact (hplace place rfl).map
  | _ => exact .ok _

/-- A type resolves unless its label does not. -/
theorem DeclaredType.resolve_failsOnly {type : DeclaredType}
    (h : ∀ l, type.label? = some l → FailsOnly P ((CodeOffset.label l).resolve labels)) :
    FailsOnly P (type.resolve labels) := by
  refine VerificationType.mapM_failsOnly (fun c _ => .ok c) fun place hplace => ?_
  refine CodeOffset.resolve_failsOnly fun l hl => h l ?_
  rw [hplace]
  exact hl

theorem resolveTypes_failsOnly {types : List DeclaredType}
    (h : ∀ l ∈ types.filterMap DeclaredType.label?,
      FailsOnly P ((CodeOffset.label l).resolve labels)) :
    FailsOnly P (resolveTypes types labels) :=
  FailsOnly.mapM fun type htype => DeclaredType.resolve_failsOnly fun l hl =>
    h l (List.mem_filterMap.2 ⟨type, htype, hl⟩)

/-- Resolving keeps the class that a type mentions. -/
theorem DeclaredType.class?_of_resolve {type : DeclaredType} {resolved : ResolvedType}
    (h : type.resolve labels = .ok resolved) : resolved.class? = type.class? := by
  unfold resolve at h
  cases type with
  | uninitialized place =>
    obtain ⟨offset, -, rfl⟩ := map_eq_ok_iff.1 h
    rfl
  | _ =>
    cases h
    rfl

/-- The classes that resolved types mention are those that the declared
types mention. -/
theorem mem_classes_of_resolveTypes {types : List DeclaredType} {resolved : List ResolvedType}
    (h : resolveTypes types labels = .ok resolved) :
    resolved.filterMap VerificationType.class? = types.filterMap VerificationType.class? := by
  have hall := mapM_eq_ok_iff.1 h
  clear h
  induction hall with
  | nil => rfl
  | cons hd _ ih => rw [List.filterMap_cons, List.filterMap_cons, ih,
      DeclaredType.class?_of_resolve hd]

/-! ## Encoding -/

theorem ResolvedType.encode_failsOnly {type : ResolvedType}
    (h : ∀ name, type.class? = some name → FailsOnly P (pool.classIndex name)) :
    FailsOnly P (type.encode pool) :=
  VerificationType.mapM_failsOnly h fun place _ => .ok place

theorem encodeTypes_failsOnly {types : List ResolvedType}
    (h : ∀ name ∈ types.filterMap VerificationType.class?, FailsOnly P (pool.classIndex name)) :
    FailsOnly P (encodeTypes types pool) :=
  FailsOnly.mapM fun type htype => ResolvedType.encode_failsOnly fun name hname =>
    h name (List.mem_filterMap.2 ⟨type, htype, hname⟩)

/-- **An encoded type, read through the pool**: its index stands for a
class again. -/
def EncodedType.read? (pool : ConstantPool) : EncodedType → Option ResolvedType
  | .top => some .top
  | .integer => some .integer
  | .float => some .float
  | .double => some .double
  | .long => some .long
  | .null => some .null
  | .uninitializedThis => some .uninitializedThis
  | .object index => (pool.classAt? index).map .object
  | .uninitialized place => some (.uninitialized place)

/-- **Reading an encoded type gives the type back.** -/
theorem EncodedType.read?_of_encode (hpool : pool.Reachable) {type : ResolvedType}
    {encoded : EncodedType} (h : type.encode pool = .ok encoded) :
    EncodedType.read? pool encoded = some type := by
  unfold ResolvedType.encode at h
  cases type with
  | object name =>
    obtain ⟨index, hindex, rfl⟩ := map_eq_ok_iff.1 h
    show (pool.classAt? index).map _ = _
    rw [hpool.classAt?_of_classIndex hindex]
    rfl
  | _ =>
    cases h
    rfl

/-- Reading encoded types gives the types back. -/
theorem mapM_read?_of_encodeTypes (hpool : pool.Reachable) {types : List ResolvedType}
    {encoded : List EncodedType} (h : encodeTypes types pool = .ok encoded) :
    encoded.mapM (EncodedType.read? pool) = some types := by
  have hall := mapM_eq_ok_iff.1 h
  clear h
  induction hall with
  | nil => rfl
  | cons hd _ ih =>
    rw [List.mapM_cons, EncodedType.read?_of_encode hpool hd, ih]
    rfl

end BytecodeAssembler
