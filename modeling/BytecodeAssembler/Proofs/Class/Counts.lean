import BytecodeAssembler.Proofs.Bytes
import BytecodeAssembler.Proofs.Class.Lowering

/-!
# The counts of the member tables

A class file counts its interfaces, its members and their attributes in two
bytes, and a list that is longer than that can say would be written with a
count that is wrong. Encoding refuses such lists, with one exception: nobody
counts the attributes of a field. How many there are can be read off the
field before it is encoded, which says exactly for which classes every count
holds. A field with too many attributes is the one way to a class file whose
counts are wrong.
-/

namespace BytecodeAssembler

variable {pool : ConstantPool}

/-! ## How many attributes there are -/

/-- What is written if it is there is written once. -/
theorem length_of_elim {α : Type} {o : Option α} {encode : α → Except Fault Attribute}
    {attributes : List Attribute}
    (h : (o.elim (.ok []) fun a => (encode a).map ([·])) = .ok attributes) :
    attributes.length = o.toList.length := by
  cases o with
  | none =>
    cases h
    rfl
  | some a =>
    obtain ⟨info, -, rfl⟩ := map_eq_ok_iff.1 h
    rfl

namespace CommonAttributes

variable {a : CommonAttributes} {attributes : List Attribute}

/-- **The number of attributes of a declaration.** All the annotations of a
kind are one attribute. -/
def count (a : CommonAttributes) : Nat :=
  a.signature.toList.length + (if a.deprecated then 1 else 0)
    + (if a.visible.isEmpty then 0 else 1) + (if a.invisible.isEmpty then 0 else 1)
    + a.custom.size

theorem length_encodeSignature (h : a.encodeSignature pool = .ok attributes) :
    attributes.length = a.signature.toList.length := by
  unfold encodeSignature at h
  cases hsignature : a.signature with
  | none =>
    rw [hsignature] at h
    cases h
    rfl
  | some signature =>
    rw [hsignature] at h
    obtain ⟨index, -, h⟩ := bind_eq_ok_iff.1 h
    obtain ⟨info, -, h⟩ := bind_eq_ok_iff.1 h
    cases h
    rfl

theorem length_encodeMark (h : a.encodeMark pool = .ok attributes) :
    attributes.length = if a.deprecated then 1 else 0 := by
  unfold encodeMark at h
  split at h
  next hmarked =>
    obtain ⟨info, -, rfl⟩ := map_eq_ok_iff.1 h
    rw [if_pos hmarked, List.length_singleton]
  next hunmarked =>
    cases h
    rw [if_neg hunmarked, List.length_nil]

theorem length_encodeList {name : String} {trees : Array AnnotationTree}
    (h : encodeList name trees pool = .ok attributes) :
    attributes.length = if trees.isEmpty then 0 else 1 := by
  unfold encodeList at h
  split at h
  next hnone =>
    cases h
    rw [if_pos hnone, List.length_nil]
  next hsome =>
    obtain ⟨items, -, h⟩ := bind_eq_ok_iff.1 h
    obtain ⟨info, -, h⟩ := bind_eq_ok_iff.1 h
    cases h
    rw [if_neg hsome, List.length_singleton]

theorem length_encode (h : a.encode pool = .ok attributes) : attributes.length = a.count := by
  rw [encode_eq] at h
  obtain ⟨signature, hsignature, h⟩ := bind_eq_ok_iff.1 h
  obtain ⟨deprecated, hdeprecated, h⟩ := bind_eq_ok_iff.1 h
  obtain ⟨visible, hvisible, h⟩ := bind_eq_ok_iff.1 h
  obtain ⟨invisible, hinvisible, h⟩ := bind_eq_ok_iff.1 h
  obtain ⟨custom, hcustom, h⟩ := bind_eq_ok_iff.1 h
  cases h
  simp only [List.length_append, length_encodeSignature hsignature,
    length_encodeMark hdeprecated, length_encodeList hvisible, length_encodeList hinvisible,
    length_of_mapM hcustom, Array.length_toList, count]

end CommonAttributes

namespace Field

/-- **The number of attributes of a field.** -/
def attributeCount (f : Field) : Nat := f.constant.toList.length + f.attributes.count

theorem EncodesTo.length_attributes {f : Field} {info : MemberInfo .fields}
    (h : f.EncodesTo pool info) : info.attributes.length = f.attributeCount := by
  obtain ⟨value, common, hvalue, hcommon, hattributes⟩ := h.attributes
  rw [hattributes, List.length_append, length_of_elim hvalue,
    CommonAttributes.length_encode hcommon, attributeCount]

end Field

/-! ## The counts of a class file -/

namespace Class

variable {c : Class} {name : String} {form : StackMapForm} {file : ClassFile}

/-- The attributes of every method are counted. -/
theorem LowersTo.countHolds_method (h : c.LowersTo name form pool file) :
    ∀ info ∈ file.methods, CountHolds info.attributes := by
  intro info hinfo
  obtain ⟨m, -, hm⟩ := exists_mem_of_mapM h.methods hinfo
  exact countHolds_iff.2 (Method.encodesTo_of_encode hm).attributeCount

/-- The attributes of every field are written as they are. -/
theorem LowersTo.length_fields (h : c.LowersTo name form pool file) :
    List.Forall₂ (fun f info => info.attributes.length = f.attributeCount)
      c.fields.toList file.fields :=
  (mapM_eq_ok_iff.1 h.fields).imp fun _ _ hf => (Field.encodesTo_of_encode hf).length_attributes

/-- All the counts hold exactly if no field has too many attributes. -/
theorem countHolds_iff_of_forall₂ {fields : List Field} {infos : List (MemberInfo .fields)}
    (h : List.Forall₂ (fun f info => info.attributes.length = f.attributeCount) fields infos) :
    (∀ info ∈ infos, CountHolds info.attributes) ↔ ∀ f ∈ fields, f.attributeCount ≤ 65535 := by
  induction h with
  | nil => exact ⟨nofun, nofun⟩
  | cons hf _ ih =>
    rw [List.forall_mem_cons, List.forall_mem_cons, ih, countHolds_iff, hf]

/-- **Every count of a class file holds but those of its fields' attributes.**
The interfaces, the members, and the attributes of the class and of its
methods are no more than two bytes can count. The attributes of a field are
all written, however many they are, and their counts hold exactly if no field
has more than 65535. -/
theorem encode_memberCounts (c : Class) (file : ClassFile) (h : c.encode = .ok file) :
    CountHolds file.interfaces ∧ CountHolds file.fields ∧ CountHolds file.methods
      ∧ CountHolds file.attributes ∧ (∀ info ∈ file.methods, CountHolds info.attributes)
      ∧ List.Forall₂ (fun f info => info.attributes.length = f.attributeCount)
        c.fields.toList file.fields
      ∧ ((∀ info ∈ file.fields, CountHolds info.attributes)
        ↔ ∀ f ∈ c.fields, f.attributeCount ≤ 65535) := by
  obtain ⟨name, opened, pool, -, -, -, hlowers⟩ := lowersTo_of_encode h
  refine ⟨countHolds_iff.2 hlowers.interfaceCount, countHolds_iff.2 hlowers.fieldCount,
    countHolds_iff.2 hlowers.methodCount,
    countHolds_iff.2 (length_encodeAttributes hlowers.attributes), hlowers.countHolds_method,
    hlowers.length_fields, ?_⟩
  rw [countHolds_iff_of_forall₂ hlowers.length_fields]
  simp only [Array.mem_toList_iff]

/-! ## A field with many attributes -/

/-- A field with `n` attributes, all alike. -/
def crowdedField (n : Nat) : Field :=
  { Field.declare .empty "f" "I" with
    attributes := { CommonAttributes.empty with custom := Array.replicate n ⟨"X", []⟩ } }

/-- A class with that field. -/
def crowdedClass (n : Nat) : Class :=
  { Class.empty with
    thisClass := some "T"
    superClass := some rootName
    fields := #[crowdedField n] }

/-- What that class names. The name of the attributes stands there once. -/
def crowdedConstants : List Constant :=
  [.classRef "T", .utf8 "T", .classRef "java/lang/Object", .utf8 "java/lang/Object", .utf8 "f",
    .utf8 "I", .utf8 "X"]

/-- The pool of that class. -/
def crowdedPool : ConstantPool := .ofEntries crowdedConstants

/-- The field as it is written. -/
def crowdedInfo (n : Nat) : MemberInfo .fields := ⟨.empty, 5, 6, List.replicate n ⟨7, []⟩⟩

/-- The class file. -/
def crowdedFile (n : Nat) : ClassFile where
  version := .initial
  poolCount := 8
  constants := [.classRef 2, .utf8 [84], .classRef 4,
    .utf8 [106, 97, 118, 97, 47, 108, 97, 110, 103, 47, 79, 98, 106, 101, 99, 116],
    .utf8 [102], .utf8 [73], .utf8 [88]]
  flags := .empty
  thisClass := 1
  superClass := 3
  interfaces := []
  fields := [crowdedInfo n]
  methods := []
  attributes := []

/-- The name of the attributes is registered once for each of them. -/
theorem constants_crowdedClass (n : Nat) :
    (crowdedClass n).constants "T" .legacy
      = [.classRef "T", .classRef "java/lang/Object", .utf8 "f", .utf8 "I"]
        ++ List.replicate n (.utf8 "X") := by
  have hcustom : (crowdedField n).attributes.custom.toList.map
      (fun entry => Constant.utf8 entry.name) = List.replicate n (.utf8 "X") := by
    show ((Array.replicate n _).toList).map _ = _
    rw [Array.toList_replicate, List.map_replicate]
  have hfield : (crowdedField n).constants
      = [.utf8 "f", .utf8 "I"] ++ List.replicate n (.utf8 "X") := by
    rw [← hcustom]
    rfl
  show .classRef "T" :: ([.classRef "java/lang/Object"] ++ []
    ++ [crowdedField n].flatMap Field.constants ++ [] ++ []) = _
  rw [List.flatMap_cons, List.flatMap_nil, hfield]
  simp only [List.append_nil]
  rfl

theorem lists_crowded {n : Nat} (hn : n ≠ 0) :
    ConstantPool.Lists ((crowdedClass n).constants "T" .legacy) crowdedConstants := by
  obtain ⟨k, rfl⟩ := Nat.exists_eq_succ_of_ne_zero hn
  refine ⟨?_, by decide⟩
  rw [constants_crowdedClass, List.replicate_succ, List.append_cons,
    ConstantPool.entriesOf_append_of_mem]
  · decide
  · intro c hc
    rw [List.eq_of_mem_replicate hc]
    decide

/-- The field is encoded whatever the number of its attributes is. -/
theorem encode_crowdedField (n : Nat) :
    (crowdedField n).encode crowdedPool = .ok (crowdedInfo n) := by
  have hlists := lists_crowded Nat.one_ne_zero
  have hindex : crowdedPool.utf8Index "X" = .ok 7 := hlists.indexOf 6 rfl rfl
  have hname : crowdedPool.utf8Index "f" = .ok 5 := hlists.indexOf 4 rfl rfl
  have hdescriptor : crowdedPool.utf8Index "I" = .ok 6 := hlists.indexOf 5 rfl rfl
  have hentry : CustomAttribute.encode ⟨"X", []⟩ crowdedPool = .ok ⟨7, []⟩ := by
    unfold CustomAttribute.encode ConstantPool.makeAttribute
    rw [hindex]
    rfl
  have hcustom : (crowdedField n).attributes.custom.toList.mapM (·.encode crowdedPool)
      = .ok (List.replicate n ⟨7, []⟩) := by
    show ((Array.replicate n _).toList).mapM _ = _
    rw [Array.toList_replicate]
    exact mapM_replicate (f := fun entry : CustomAttribute => entry.encode crowdedPool) hentry n
  have hattributes : (crowdedField n).attributes.encode crowdedPool
      = .ok (List.replicate n ⟨7, []⟩) := by
    rw [CommonAttributes.encode_eq, hcustom]
    rfl
  unfold Field.encode
  rw [hattributes]
  show (crowdedPool.utf8Index "f" >>= fun name => crowdedPool.utf8Index "I" >>= _) = _
  rw [hname, hdescriptor]
  rfl

theorem encode_crowdedClass {n : Nat} (hn : n ≠ 0) :
    (crowdedClass n).encode = .ok (crowdedFile n) := by
  have hlists := lists_crowded hn
  have hthis : crowdedPool.classIndex "T" = .ok 1 := hlists.indexOf 0 rfl rfl
  have hname : crowdedPool.utf8Index "T" = .ok 2 := hlists.indexOf 1 rfl rfl
  have hsuper : crowdedPool.classIndex rootName = .ok 3 := hlists.indexOf 2 rfl rfl
  have habove : crowdedPool.utf8Index "java/lang/Object" = .ok 4 := hlists.indexOf 3 rfl rfl
  have hfields : (crowdedClass n).fields.toList.mapM (·.encode crowdedPool)
      = .ok [crowdedInfo n] :=
    mapM_eq_ok_iff.2 (.cons (encode_crowdedField n) .nil)
  have hentries : crowdedPool.poolEntries = .ok (crowdedFile n).constants := by
    show crowdedConstants.mapM crowdedPool.resolve = _
    simp [crowdedConstants, crowdedFile, ConstantPool.resolve, hname, habove, Text.modifiedUtf8,
      Text.utf16Units, Text.unitBytes, bind, Except.bind, pure, Except.pure]
  rw [encode_eq_lower rfl hlists]
  show (crowdedClass n).lower "T" .legacy crowdedPool = _
  unfold Class.lower
  rw [hthis, hfields, hentries]
  show (crowdedPool.classIndex rootName >>= _) = _
  rw [hsuper]
  rfl

theorem attributeCount_crowdedField (n : Nat) : (crowdedField n).attributeCount = n := by
  show 0 + (0 + 0 + 0 + 0 + (Array.replicate n _).size) = n
  rw [Array.size_replicate]
  omega

/-- With 65535 attributes the count of the field still holds. -/
theorem encode_memberCounts_full :
    (crowdedClass 65535).encode = .ok (crowdedFile 65535)
      ∧ ∀ info ∈ (crowdedFile 65535).fields, CountHolds info.attributes := by
  have hencode := encode_crowdedClass (n := 65535) (by decide)
  obtain ⟨-, -, -, -, -, -, hfields⟩ := encode_memberCounts _ _ hencode
  refine ⟨hencode, hfields.2 fun f hf => ?_⟩
  obtain rfl : f = crowdedField 65535 := Array.mem_singleton.1 hf
  exact Nat.le_of_eq (attributeCount_crowdedField 65535)

/-- The bytes of the field up to its attributes. -/
theorem take_bytes_crowdedInfo (n : Nat) :
    (crowdedInfo n).bytes.take 8 = [0, 0, 0, 5, 0, 6] ++ Bytes.u2 (UInt16.ofNat n) := by
  have hfront : (AccessFlags.empty : AccessFlags .fields).bytes ++ Bytes.u2 5 ++ Bytes.u2 6
      = [0, 0, 0, 5, 0, 6] := by decide
  have hcount : (crowdedInfo n).attributes.length = n := List.length_replicate
  unfold MemberInfo.bytes Bytes.counted
  rw [List.length_map, hcount, crowdedInfo, hfront]
  rfl

/-- **With one attribute more the count is zero**, and 65536 attributes
follow it. -/
theorem encode_memberCounts_crowded :
    (crowdedClass 65536).encode = .ok (crowdedFile 65536)
      ∧ crowdedInfo 65536 ∈ (crowdedFile 65536).fields
      ∧ (crowdedInfo 65536).attributes.length = 65536
      ∧ (crowdedInfo 65536).bytes.take 8 = [0, 0, 0, 5, 0, 6, 0, 0] := by
  refine ⟨encode_crowdedClass (by decide), List.mem_singleton_self _, List.length_replicate, ?_⟩
  rw [take_bytes_crowdedInfo]
  rfl

end Class

end BytecodeAssembler
