import BytecodeAssembler.Proofs.Class.Attributes
import BytecodeAssembler.Proofs.Class.FieldConstants
import BytecodeAssembler.Proofs.ClassFile.Decoding

/-!
# Annotations are read back

The reader of annotations follows the format of class files: a tag says what a
value is, indices are looked up in the constant pool, and lists have their
number of items in front. A value can have values inside it, and those again,
but each of them is behind a tag of its own, so **the number of bytes bounds
the depth** of what they hold.

What is said of a value is said of all its **parts**: the value itself, the
values directly inside it, its components, and their parts in turn. Every proof
about trees is by induction on components.
-/

namespace BytecodeAssembler

open Number (Binary32 Binary64)

/-! ## Parts of a value -/

namespace ElementValue

/-- **The components of a value**: the values directly inside it. -/
def components : ElementValue → List ElementValue
  | .nested tree => tree.elements.map Prod.snd
  | .array values => values
  | .integer .. | .float _ | .long _ | .double _ | .string _ | .enum .. | .classType _ => []

theorem sizeOf_lt_of_mem_components {value part : ElementValue} (h : part ∈ value.components) :
    sizeOf part < sizeOf value := by
  cases value with
  | nested tree =>
    obtain ⟨type, elements⟩ := tree
    obtain ⟨⟨name, value⟩, helement, rfl⟩ := List.mem_map.1 h
    have hlt := List.sizeOf_lt_of_mem helement
    simp only [Prod.mk.sizeOf_spec] at hlt
    simp only [nested.sizeOf_spec, AnnotationTree.mk.sizeOf_spec]
    omega
  | array values =>
    have hlt : sizeOf part < sizeOf values := List.sizeOf_lt_of_mem h
    rw [array.sizeOf_spec]
    omega
  | integer | float | long | double | string | enum | classType => cases h

/-- **Induction on components**: what holds of a value if it holds of its
components holds of every value. -/
@[elab_as_elim] theorem componentInduction {motive : ElementValue → Prop} (value : ElementValue)
    (step : ∀ value : ElementValue, (∀ part ∈ value.components, motive part) → motive value) :
    motive value :=
  step value fun part _ => componentInduction part step
termination_by sizeOf value
decreasing_by exact sizeOf_lt_of_mem_components ‹_›

end ElementValue

mutual

/-- **The parts of a value**: the value itself and all values inside it, at any
depth. -/
def ElementValue.parts : ElementValue → List ElementValue
  | .nested tree => .nested tree :: tree.innerParts
  | .array values => .array values :: partsOfValues values
  | .integer type value => [.integer type value]
  | .float value => [.float value]
  | .long value => [.long value]
  | .double value => [.double value]
  | .string text => [.string text]
  | .enum type name => [.enum type name]
  | .classType descriptor => [.classType descriptor]

/-- The parts of the elements of an annotation. -/
def AnnotationTree.innerParts : AnnotationTree → List ElementValue
  | ⟨_, elements⟩ => partsOfElements elements

/-- The parts of several values. -/
def partsOfValues : List ElementValue → List ElementValue
  | [] => []
  | value :: rest => value.parts ++ partsOfValues rest

/-- The parts of several elements. -/
def partsOfElements : List (String × ElementValue) → List ElementValue
  | [] => []
  | (_, value) :: rest => value.parts ++ partsOfElements rest

end

theorem partsOfValues_eq (values : List ElementValue) :
    partsOfValues values = values.flatMap ElementValue.parts := by
  induction values with
  | nil => rw [partsOfValues, List.flatMap_nil]
  | cons value rest ih => rw [partsOfValues, ih, List.flatMap_cons]

theorem partsOfElements_eq (elements : List (String × ElementValue)) :
    partsOfElements elements = (elements.map Prod.snd).flatMap ElementValue.parts := by
  induction elements with
  | nil => rw [partsOfElements, List.map_nil, List.flatMap_nil]
  | cons element rest ih => rw [partsOfElements, ih, List.map_cons, List.flatMap_cons]

/-- The parts of a value are the value and the parts of its components. -/
theorem ElementValue.parts_eq (value : ElementValue) :
    value.parts = value :: value.components.flatMap ElementValue.parts := by
  cases value with
  | nested tree =>
    obtain ⟨type, elements⟩ := tree
    rw [parts, AnnotationTree.innerParts, partsOfElements_eq]
    rfl
  | array values =>
    rw [parts, partsOfValues_eq]
    rfl
  | integer | float | long | double | string | enum | classType =>
    unfold parts
    rfl

theorem ElementValue.forall_mem_parts_iff {value : ElementValue} {P : ElementValue → Prop} :
    (∀ part ∈ value.parts, P part)
      ↔ P value ∧ ∀ part ∈ value.components, ∀ part' ∈ part.parts, P part' := by
  rw [parts_eq, List.forall_mem_cons, List.forall_mem_flatMap]

/-- **The parts of an annotation**, of which the annotation itself is the
first. -/
def AnnotationTree.parts (tree : AnnotationTree) : List ElementValue :=
  (ElementValue.nested tree).parts

/-! ## Bytes without an accumulator -/

variable {pool : ConstantPool} {bytes : Bytes}

/-- The bytes of a named element. -/
def encodeElement (pool : ConstantPool) (element : String × ElementValue) :
    Except Fault Bytes := do
  let index ← pool.utf8Index element.1
  let bytes ← element.2.encode pool
  return Bytes.u2 index ++ bytes

theorem encodeElement_eq_ok_iff {element : String × ElementValue} :
    encodeElement pool element = .ok bytes
      ↔ ∃ index, pool.utf8Index element.1 = .ok index
        ∧ ∃ value, element.2.encode pool = .ok value ∧ bytes = Bytes.u2 index ++ value := by
  unfold encodeElement
  rw [bind_eq_ok_iff]
  refine exists_congr fun index => and_congr_right fun _ => ?_
  rw [bind_eq_ok_iff]
  exact exists_congr fun value => and_congr_right fun _ =>
    ⟨fun h => (Except.ok.inj h).symm, fun h => congrArg Except.ok h.symm⟩

/-- The walk over several values encodes one after the other. -/
theorem encodeValues_eq (values : List ElementValue) (rev : List Bytes) :
    encodeValues pool values rev = List.mapM.loop (ElementValue.encode pool) values rev := by
  induction values generalizing rev with
  | nil =>
    unfold encodeValues
    rfl
  | cons value rest ih =>
    rw [encodeValues, List.mapM.loop]
    cases value.encode pool with
    | error fault => rfl
    | ok bytes => exact ih (bytes :: rev)

/-- The walk over several elements encodes one after the other. -/
theorem encodeElements_eq (elements : List (String × ElementValue)) (rev : List Bytes) :
    encodeElements pool elements rev = List.mapM.loop (encodeElement pool) elements rev := by
  induction elements generalizing rev with
  | nil =>
    unfold encodeElements
    rfl
  | cons element rest ih =>
    rw [encodeElements, List.mapM.loop, encodeElement]
    cases pool.utf8Index element.1 with
    | error fault => rfl
    | ok index =>
      cases element.2.encode pool with
      | error fault => rfl
      | ok bytes => exact ih ((Bytes.u2 index ++ bytes) :: rev)

/-- **When an array is written**: its items are, and can be counted. -/
theorem ElementValue.encode_array_eq_ok_iff {values : List ElementValue} :
    (ElementValue.array values).encode pool = .ok bytes
      ↔ values.length ≤ 65535
        ∧ ∃ items, List.Forall₂ (fun value item => value.encode pool = .ok item) values items
          ∧ bytes = 0x5b :: Bytes.counted items := by
  have hwalk : encodeValues pool values [] = values.mapM (ElementValue.encode pool) :=
    encodeValues_eq values []
  rw [ElementValue.encode, hwalk]
  constructor
  · intro h
    obtain ⟨_, hcount, h⟩ := bind_eq_ok_iff.1 h
    obtain ⟨items, hitems, h⟩ := bind_eq_ok_iff.1 h
    exact ⟨checkCount_eq_ok_iff.1 hcount, items, mapM_eq_ok_iff.1 hitems, (Except.ok.inj h).symm⟩
  · rintro ⟨hcount, items, hitems, rfl⟩
    exact bind_eq_ok_iff.2 ⟨(), checkCount_eq_ok_iff.2 hcount,
      bind_eq_ok_iff.2 ⟨items, mapM_eq_ok_iff.2 hitems, rfl⟩⟩

/-- **When an annotation is written**: its elements are, and can be counted. -/
theorem AnnotationTree.encode_eq_ok_iff {tree : AnnotationTree} :
    tree.encode pool = .ok bytes
      ↔ tree.elements.length ≤ 65535 ∧ ∃ type, pool.utf8Index tree.type = .ok type
        ∧ ∃ items, List.Forall₂ (fun element item => encodeElement pool element = .ok item)
            tree.elements items
          ∧ bytes = Bytes.u2 type ++ Bytes.counted items := by
  obtain ⟨type, elements⟩ := tree
  have hwalk : encodeElements pool elements [] = elements.mapM (encodeElement pool) :=
    encodeElements_eq elements []
  rw [AnnotationTree.encode, hwalk]
  constructor
  · intro h
    obtain ⟨items, hitems, h⟩ := bind_eq_ok_iff.1 h
    obtain ⟨_, hcount, h⟩ := bind_eq_ok_iff.1 h
    obtain ⟨index, hindex, h⟩ := bind_eq_ok_iff.1 h
    refine ⟨?_, index, hindex, items, mapM_eq_ok_iff.1 hitems, (Except.ok.inj h).symm⟩
    rw [← length_of_mapM hitems]
    exact checkCount_eq_ok_iff.1 hcount
  · rintro ⟨hcount, index, hindex, items, hitems, rfl⟩
    have hlength : items.length ≤ 65535 := hitems.length_eq ▸ hcount
    exact bind_eq_ok_iff.2 ⟨items, mapM_eq_ok_iff.2 hitems,
      bind_eq_ok_iff.2 ⟨(), checkCount_eq_ok_iff.2 hlength,
        bind_eq_ok_iff.2 ⟨index, hindex, rfl⟩⟩⟩

/-! ## Reading -/

/-- Read an index and look up what it stands for. -/
def readEntry {α : Type} (pool : ConstantPool) (select : Constant → Option α) : Reader α :=
  readU2.bind fun index rest => ((pool.constantAt? index).bind select).map (·, rest)

/-- Read the index of a text. -/
def readText (pool : ConstantPool) : Reader String := readEntry pool fun
  | .utf8 text => some text
  | _ => none

/-- Read the index of a value that is stored as an `int`. -/
def readInteger (pool : ConstantPool) (type : BaseType) : Reader ElementValue :=
  readEntry pool fun
    | .integer value => some (.integer type value)
    | _ => none

/-- Read an annotation: its type, and its counted elements with their names. -/
def AnnotationTree.readWith (pool : ConstantPool) (readValue : Reader ElementValue) :
    Reader AnnotationTree :=
  ((readText pool).pair (readCounted ((readText pool).pair readValue))).map fun parts =>
    ⟨parts.1, parts.2⟩

/-- Read what a tag calls for. -/
def ElementValue.readTagged (pool : ConstantPool) (readValue : Reader ElementValue) :
    Nat → Reader ElementValue
  | 0x42 => readInteger pool .byte
  | 0x43 => readInteger pool .char
  | 0x49 => readInteger pool .int
  | 0x53 => readInteger pool .short
  | 0x5a => readInteger pool .boolean
  | 0x46 => readEntry pool fun
    | .float value => some (.float value)
    | _ => none
  | 0x4a => readEntry pool fun
    | .long value => some (.long value)
    | _ => none
  | 0x44 => readEntry pool fun
    | .double value => some (.double value)
    | _ => none
  | 0x73 => (readText pool).map .string
  | 0x65 => ((readText pool).pair (readText pool)).map fun parts => .enum parts.1 parts.2
  | 0x63 => (readText pool).map .classType
  | 0x40 => (AnnotationTree.readWith pool readValue).map .nested
  | 0x5b => (readCounted readValue).map .array
  | _ => fun _ => none

/-- **Read a value** with no more than this many values around each other: a
tag, and what it calls for. -/
def ElementValue.read (pool : ConstantPool) : Nat → Reader ElementValue
  | 0 => fun _ => none
  | depth + 1 => readU1.bind fun tag => readTagged pool (ElementValue.read pool depth) tag.toNat

/-- **Read an annotation.** No value in it is deeper than there are bytes. -/
def AnnotationTree.read (pool : ConstantPool) : Reader AnnotationTree := fun bytes =>
  AnnotationTree.readWith pool (ElementValue.read pool bytes.length) bytes

/-- A counted list is read back once each of its items is. -/
theorem reads_counted {α : Type} {read : Reader α} {chunks : List Bytes} {values : List α}
    (hcount : values.length ≤ 65535) (h : List.Forall₂ (Reads read) chunks values) :
    Reads (readCounted read) (Bytes.counted chunks) values :=
  (ReadsIff.counted (h.imp fun _ _ hread => hread.readsIff)).reads
    ⟨countHolds_iff.2 hcount, fun _ _ => trivial⟩

/-- An item takes no more bytes than the list. -/
theorem length_le_counted {chunks : List Bytes} {chunk : Bytes} (h : chunk ∈ chunks) :
    chunk.length ≤ (Bytes.counted chunks).length := by
  have hflatten := (List.sublist_flatten_of_mem h).length_le
  rw [Bytes.counted, List.length_append]
  omega

/-- Items that are written one by one are read one by one. -/
theorem forall₂_of_written {α β : Type} {Written : α → β → Prop} {Read : β → α → Prop}
    {values : List α} {items : List β} (h : List.Forall₂ Written values items)
    (hread : ∀ value ∈ values, ∀ item ∈ items, Written value item → Read item value) :
    List.Forall₂ Read items values := by
  induction h with
  | nil => exact .nil
  | @cons value item values items hvalue _ ih =>
    refine .cons (hread value List.mem_cons_self item List.mem_cons_self hvalue) (ih ?_)
    exact fun value hvalue item hitem =>
      hread value (List.mem_cons_of_mem _ hvalue) item (List.mem_cons_of_mem _ hitem)

/-- A tag is followed by what it calls for. -/
theorem ElementValue.reads_of_tag {tag : UInt8} {payload : Bytes} {value : ElementValue}
    {depth : Nat} (hdepth : (tag :: payload).length ≤ depth)
    (h : ∀ depth, payload.length ≤ depth →
      Reads (readTagged pool (ElementValue.read pool depth) tag.toNat) payload value) :
    Reads (ElementValue.read pool depth) (tag :: payload) value := by
  cases depth with
  | zero => exact absurd hdepth (Nat.not_succ_le_zero _)
  | succ depth => exact (reads_u1 tag).bind (h depth (Nat.le_of_succ_le_succ hdepth))

section Reading

variable (hpool : pool.Reachable)
include hpool

theorem reads_entry {α : Type} {select : Constant → Option α} {c : Constant} {index : PoolIndex}
    {value : α} (hindex : pool.indexOf c = .ok index) (hselect : select c = some value) :
    Reads (readEntry pool select) (Bytes.u2 index) value := by
  have hlookup : Reads (fun rest => ((pool.constantAt? index).bind select).map (·, rest)) []
      value := by
    intro rest
    rw [hpool.constantAt?_of_indexOf hindex, Option.bind_some, hselect]
    rfl
  exact (List.append_nil (Bytes.u2 index)) ▸ (reads_u2 index).bind hlookup

theorem reads_utf8Index {text : String} {index : PoolIndex}
    (hindex : pool.utf8Index text = .ok index) :
    Reads (readText pool) (Bytes.u2 index) text :=
  reads_entry hpool hindex rfl

/-- **An annotation is read back** if the values of its elements are. -/
theorem AnnotationTree.reads_of_encode {tree : AnnotationTree} {readValue : Reader ElementValue}
    (h : tree.encode pool = .ok bytes)
    (hvalues : ∀ value ∈ tree.elements.map Prod.snd, ∀ item, value.encode pool = .ok item →
      item.length ≤ bytes.length → Reads readValue item value) :
    Reads (AnnotationTree.readWith pool readValue) bytes tree := by
  obtain ⟨type, elements⟩ := tree
  obtain ⟨hcount, index, hindex, items, hitems, rfl⟩ := encode_eq_ok_iff.1 h
  have hread : List.Forall₂ (Reads ((readText pool).pair readValue)) items elements := by
    refine forall₂_of_written hitems fun element helement item hitem hwritten => ?_
    obtain ⟨name, hname, value, hvalue, rfl⟩ := encodeElement_eq_ok_iff.1 hwritten
    have hlength := length_le_counted hitem
    refine (reads_utf8Index hpool hname).pair ?_
    refine hvalues element.2 (List.mem_map_of_mem helement) value hvalue ?_
    rw [List.length_append] at hlength ⊢
    omega
  exact ((reads_utf8Index hpool hindex).pair (reads_counted hcount hread)).map
    fun parts => AnnotationTree.mk parts.1 parts.2

theorem ElementValue.reads_integer {type : BaseType} {value : Int32} {index : PoolIndex}
    {readValue : Reader ElementValue} (htype : type ∈ BaseType.storedAsInt)
    (hindex : pool.indexOf (.integer value) = .ok index) :
    Reads (readTagged pool readValue (integerTag type).toNat) (Bytes.u2 index)
      (.integer type value) := by
  cases type with
  | byte | char | int | short | boolean => exact reads_entry hpool hindex rfl
  | long | float | double => exact absurd htype (by decide)

/-- **A value is read back**, if there are as many bytes as it can be deep. -/
theorem ElementValue.reads_of_encode (value : ElementValue) :
    ∀ (bytes : Bytes) (depth : Nat),
      (∀ part ∈ value.parts, ∀ type n, part = .integer type n → type ∈ BaseType.storedAsInt) →
      value.encode pool = .ok bytes → bytes.length ≤ depth →
      Reads (ElementValue.read pool depth) bytes value := by
  induction value using ElementValue.componentInduction with
  | step value ih =>
    intro bytes depth htypes hencode hdepth
    -- what is asked of all parts of the value is asked of it and of the parts of its components
    obtain ⟨htype, htypes⟩ := forall_mem_parts_iff.1 htypes
    cases value with
    | integer type n =>
      rw [encode] at hencode
      obtain ⟨index, hindex, rfl⟩ := map_eq_ok_iff.1 hencode
      exact reads_of_tag hdepth fun _ _ => reads_integer hpool (htype type n rfl) hindex
    | float | long | double =>
      rw [encode] at hencode
      obtain ⟨index, hindex, rfl⟩ := map_eq_ok_iff.1 hencode
      exact reads_of_tag hdepth fun _ _ => reads_entry hpool hindex rfl
    | string =>
      rw [encode] at hencode
      obtain ⟨index, hindex, rfl⟩ := map_eq_ok_iff.1 hencode
      exact reads_of_tag hdepth fun _ _ => (reads_utf8Index hpool hindex).map ElementValue.string
    | classType =>
      rw [encode] at hencode
      obtain ⟨index, hindex, rfl⟩ := map_eq_ok_iff.1 hencode
      exact reads_of_tag hdepth fun _ _ =>
        (reads_utf8Index hpool hindex).map ElementValue.classType
    | enum type name =>
      rw [encode] at hencode
      obtain ⟨i, hi, hencode⟩ := bind_eq_ok_iff.1 hencode
      obtain ⟨j, hj, hencode⟩ := bind_eq_ok_iff.1 hencode
      cases hencode
      exact reads_of_tag hdepth fun _ _ =>
        ((reads_utf8Index hpool hi).pair (reads_utf8Index hpool hj)).map
          fun parts => ElementValue.enum parts.1 parts.2
    | nested tree =>
      rw [encode] at hencode
      obtain ⟨inner, hinner, rfl⟩ := map_eq_ok_iff.1 hencode
      refine reads_of_tag hdepth fun depth hdepth => ?_
      -- the tag took one byte, so one level less is enough for what is inside
      refine (AnnotationTree.reads_of_encode hpool hinner ?_).map ElementValue.nested
      exact fun value hvalue item hitem hlength =>
        ih value hvalue item depth (htypes value hvalue) hitem (Nat.le_trans hlength hdepth)
    | array values =>
      obtain ⟨hcount, items, hitems, rfl⟩ := encode_array_eq_ok_iff.1 hencode
      refine reads_of_tag hdepth fun depth hdepth => ?_
      refine (reads_counted hcount (forall₂_of_written hitems ?_)).map ElementValue.array
      exact fun value hvalue item hmem hitem => ih value hvalue item depth (htypes value hvalue)
        hitem (Nat.le_trans (length_le_counted hmem) hdepth)

end Reading

/-! ## Writing -/

theorem ElementValue.constants_nested (tree : AnnotationTree) :
    (ElementValue.nested tree).constants = tree.constants := by
  rw [ElementValue.constants, ElementValue.collect, AnnotationTree.constants]

/-- A tree needs the constants of its type and of each of its elements. -/
theorem AnnotationTree.supplies_iff {tree : AnnotationTree} :
    pool.Supplies tree.constants ↔ (∃ index, pool.utf8Index tree.type = .ok index)
      ∧ ∀ element ∈ tree.elements, (∃ index, pool.utf8Index element.1 = .ok index)
        ∧ pool.Supplies element.2.constants := by
  obtain ⟨type, elements⟩ := tree
  rw [constants_mk, ConstantPool.Supplies.cons_iff]
  refine and_congr_right fun _ => ?_
  rw [ConstantPool.Supplies, List.forall_mem_flatMap]
  exact forall₂_congr fun element _ => ConstantPool.Supplies.cons_iff

/-- A value needs the constants of its components. -/
theorem ElementValue.supplies_of_mem_components {value part : ElementValue}
    (h : pool.Supplies value.constants) (hpart : part ∈ value.components) :
    pool.Supplies part.constants := by
  cases value with
  | nested tree =>
    obtain ⟨element, helement, rfl⟩ := List.mem_map.1 hpart
    rw [constants_nested, AnnotationTree.supplies_iff] at h
    exact (h.2 element helement).2
  | array values =>
    rw [ElementValue.constants_array] at h
    exact h.of_mem_flatMap hpart
  | integer | float | long | double | string | enum | classType => cases hpart

/-- A step can be made for each item exactly if it can for all. -/
theorem exists_forall₂_iff {α β : Type} {R : α → β → Prop} {xs : List α} :
    (∃ ys, List.Forall₂ R xs ys) ↔ ∀ x ∈ xs, ∃ y, R x y := by
  induction xs with
  | nil => exact ⟨fun _ => List.forall_mem_nil _, fun _ => ⟨[], .nil⟩⟩
  | cons x xs ih =>
    rw [List.forall_mem_cons, ← ih]
    constructor
    · rintro ⟨_, _ | ⟨hx, hxs⟩⟩
      exact ⟨⟨_, hx⟩, _, hxs⟩
    · rintro ⟨⟨y, hy⟩, ys, hys⟩
      exact ⟨y :: ys, .cons hy hys⟩

/-- **An annotation whose constants have indices is written** exactly if it has
not too many elements and each of their values is written. -/
theorem AnnotationTree.exists_encode_iff {tree : AnnotationTree}
    (h : pool.Supplies tree.constants) :
    (∃ bytes, tree.encode pool = .ok bytes)
      ↔ tree.elements.length ≤ 65535
        ∧ ∀ value ∈ tree.elements.map Prod.snd, ∃ bytes, value.encode pool = .ok bytes := by
  obtain ⟨⟨type, htype⟩, helements⟩ := supplies_iff.1 h
  rw [List.forall_mem_map]
  constructor
  · rintro ⟨bytes, hbytes⟩
    obtain ⟨hcount, -, -, items, hitems, -⟩ := encode_eq_ok_iff.1 hbytes
    refine ⟨hcount, fun element helement => ?_⟩
    obtain ⟨item, hitem⟩ := exists_forall₂_iff.1 ⟨items, hitems⟩ element helement
    obtain ⟨-, -, value, hvalue, -⟩ := encodeElement_eq_ok_iff.1 hitem
    exact ⟨value, hvalue⟩
  · rintro ⟨hcount, hvalues⟩
    obtain ⟨items, hitems⟩ : ∃ items, List.Forall₂
        (fun element item => encodeElement pool element = .ok item) tree.elements items := by
      refine exists_forall₂_iff.2 fun element helement => ?_
      obtain ⟨index, hindex⟩ := (helements element helement).1
      obtain ⟨value, hvalue⟩ := hvalues element helement
      exact ⟨_, encodeElement_eq_ok_iff.2 ⟨index, hindex, value, hvalue, rfl⟩⟩
    exact ⟨_, encode_eq_ok_iff.2 ⟨hcount, type, htype, items, hitems, rfl⟩⟩

/-- A step that does not fail gives a result. -/
theorem not_exists_error_iff {α : Type} {x : Except Fault α} :
    (¬∃ fault, x = .error fault) ↔ ∃ a, x = .ok a := by
  cases x with
  | error fault => exact iff_of_false (fun h => h ⟨fault, rfl⟩) fun ⟨_, h⟩ => nomatch h
  | ok a => exact iff_of_true (fun ⟨_, h⟩ => nomatch h) ⟨a, rfl⟩

theorem exists_map_eq_ok_iff {α β : Type} {x : Except Fault α} {f : α → β} :
    (∃ b, x.map f = .ok b) ↔ ∃ a, x = .ok a := by
  simp only [map_eq_ok_iff]
  exact ⟨fun ⟨_, a, ha, _⟩ => ⟨a, ha⟩, fun ⟨a, ha⟩ => ⟨f a, a, ha, rfl⟩⟩

/-- **A value whose constants have indices is written exactly if no list in it
is too long.** -/
theorem ElementValue.exists_encode_iff (value : ElementValue) :
    pool.Supplies value.constants →
      ((∃ bytes, value.encode pool = .ok bytes)
        ↔ ∀ part ∈ value.parts, part.components.length ≤ 65535) := by
  induction value using ElementValue.componentInduction with
  | step value ih =>
    intro hsupplies
    -- by induction the lists inside are short exactly if the components are written
    have hcomponents : (∀ part ∈ value.components, ∃ bytes, part.encode pool = .ok bytes)
        ↔ ∀ part ∈ value.components, ∀ part' ∈ part.parts, part'.components.length ≤ 65535 :=
      forall₂_congr fun part hpart => ih part hpart (supplies_of_mem_components hsupplies hpart)
    rw [forall_mem_parts_iff, ← hcomponents]
    cases value with
    | integer | float | long | double | string | classType =>
      refine iff_of_true ?_ ⟨Nat.zero_le _, List.forall_mem_nil _⟩
      rw [constants, collect] at hsupplies
      rw [encode]
      exact exists_map_eq_ok_iff.2 (hsupplies _ List.mem_cons_self)
    | enum type name =>
      refine iff_of_true ?_ ⟨Nat.zero_le _, List.forall_mem_nil _⟩
      rw [constants, collect] at hsupplies
      obtain ⟨i, hi⟩ := hsupplies (.utf8 type) List.mem_cons_self
      obtain ⟨j, hj⟩ := hsupplies (.utf8 name) (List.mem_cons_of_mem _ List.mem_cons_self)
      rw [encode]
      exact ⟨_, bind_eq_ok_iff.2 ⟨i, hi, bind_eq_ok_iff.2 ⟨j, hj, rfl⟩⟩⟩
    | nested tree =>
      rw [constants_nested] at hsupplies
      rw [encode, exists_map_eq_ok_iff, AnnotationTree.exists_encode_iff hsupplies, components,
        List.length_map]
    | array values =>
      rw [components, ← exists_forall₂_iff]
      constructor
      · rintro ⟨bytes, hbytes⟩
        obtain ⟨hcount, items, hitems, -⟩ := encode_array_eq_ok_iff.1 hbytes
        exact ⟨hcount, items, hitems⟩
      · rintro ⟨hcount, items, hitems⟩
        exact ⟨_, encode_array_eq_ok_iff.2 ⟨hcount, items, hitems, rfl⟩⟩

/-- **Annotations are read back from their bytes.** Let an annotation be
registered in a pool, among whatever else, before the pool is finalized. If its
`int` values are of types that are stored so and it is written, then the reader
gives back the annotation and whatever stands behind it. It is written unless
the annotation, or an annotation or array inside it, has more than 65535 items,
and that is a numeric fault. -/
theorem AnnotationTree.encode_decode (tree : AnnotationTree) (earlier later : List Constant)
    (opened pool : ConstantPool)
    (hadd : ConstantPool.empty.addAll (earlier ++ tree.constants ++ later) = .ok opened)
    (hfinal : opened.finalize = .ok pool) :
    ((∀ type value, .integer type value ∈ tree.parts → type ∈ BaseType.storedAsInt) →
        ∀ bytes, tree.encode pool = .ok bytes →
          ∀ suffix, AnnotationTree.read pool (bytes ++ suffix) = some (tree, suffix))
      ∧ (∀ fault, tree.encode pool = .error fault → fault.kind = .numeric)
      ∧ ((∃ fault, tree.encode pool = .error fault)
        ↔ ∃ part ∈ tree.parts, 65535 < part.components.length) := by
  obtain ⟨registered, hok, hreach, -, hmem⟩ :=
    ConstantPool.addAll_eq_ok (earlier ++ tree.constants ++ later) .empty rfl
  obtain rfl : registered = opened := Except.ok.inj (hok.symm.trans hadd)
  have hpool : pool.Reachable := hreach.finalize hfinal
  -- what is added between other constants is registered all the same
  have hsupplies : pool.Supplies tree.constants := by
    intro c hc
    obtain ⟨n, hn⟩ := ConstantPool.exists_numbering_of_finalize hfinal
    refine hpool.wellFormed.exists_indexOf hn ?_
    rw [ConstantPool.entries_of_finalize hfinal, hmem]
    refine .inr ⟨c, ?_, Constant.self_mem_withDependencies c⟩
    exact List.mem_append_left _ (List.mem_append_right _ hc)
  refine ⟨fun htypes bytes hbytes suffix => ?_, fun fault hfault => ?_, ?_⟩
  · have hparts : ∀ part ∈ tree.parts, ∀ type n, part = .integer type n →
        type ∈ BaseType.storedAsInt := by
      rintro _ hpart type n rfl
      exact htypes type n hpart
    obtain ⟨-, hparts⟩ := ElementValue.forall_mem_parts_iff.1 hparts
    refine AnnotationTree.reads_of_encode hpool hbytes ?_ suffix
    intro value hvalue item hitem hlength
    refine value.reads_of_encode hpool item _ (hparts value hvalue) hitem ?_
    exact Nat.le_trans hlength (List.length_append ▸ Nat.le_add_right _ _)
  · exact (tree.encode_failsOnly hsupplies fault hfault).kind_eq
  · -- as a value the annotation is one of its own parts, so its elements are counted too
    have hwritten := (ElementValue.nested tree).exists_encode_iff
      ((ElementValue.constants_nested tree).symm ▸ hsupplies)
    rw [ElementValue.encode, exists_map_eq_ok_iff] at hwritten
    rw [← not_iff_not, not_exists_error_iff, hwritten]
    simp only [not_exists, not_and, Nat.not_lt]
    rfl

namespace AnnotationTree

/-- An annotation with an array of a text and another annotation. -/
def nestedTree : AnnotationTree :=
  ⟨"LOuter;", [("values", .array [.string "a",
    .nested ⟨"LInner;", [("flag", .integer .boolean 1)]⟩])]⟩

/-- What it names. -/
def nestedConstants : List Constant :=
  [.utf8 "LOuter;", .utf8 "values", .utf8 "a", .utf8 "LInner;", .utf8 "flag", .integer 1]

/-- Its pool. -/
def nestedPool : ConstantPool := .ofEntries nestedConstants

theorem lists_nested :
    ConstantPool.Lists ([] ++ nestedTree.constants ++ []) nestedConstants := by
  rw [show nestedTree.constants = nestedConstants from rfl]
  exact ⟨by decide, by decide⟩

/-- Its bytes. -/
def nestedBytes : Bytes :=
  Bytes.u2 1 ++ Bytes.counted [Bytes.u2 2 ++ 0x5b :: Bytes.counted [0x73 :: Bytes.u2 3,
    0x40 :: (Bytes.u2 4 ++ Bytes.counted [Bytes.u2 5 ++ 0x5a :: Bytes.u2 6])]]

theorem encode_nestedTree : nestedTree.encode nestedPool = .ok nestedBytes := by
  have houter : nestedPool.utf8Index "LOuter;" = .ok 1 := lists_nested.indexOf 0 rfl rfl
  have hvalues : nestedPool.utf8Index "values" = .ok 2 := lists_nested.indexOf 1 rfl rfl
  have htext : nestedPool.utf8Index "a" = .ok 3 := lists_nested.indexOf 2 rfl rfl
  have hinner : nestedPool.utf8Index "LInner;" = .ok 4 := lists_nested.indexOf 3 rfl rfl
  have hflag : nestedPool.utf8Index "flag" = .ok 5 := lists_nested.indexOf 4 rfl rfl
  have hone : nestedPool.indexOf (.integer 1) = .ok 6 := lists_nested.indexOf 5 rfl rfl
  simp [nestedTree, nestedBytes, AnnotationTree.encode, ElementValue.encode, encodeElements,
    encodeValues, houter, hvalues, htext, hinner, hflag, hone, checkCount, Except.map, bind,
    Except.bind, pure, Except.pure, ElementValue.integerTag]

/-- The annotation is read back from its bytes, with the one inside it. -/
theorem encode_decode_nested : nestedTree.encode nestedPool = .ok nestedBytes
    ∧ ∀ suffix, AnnotationTree.read nestedPool (nestedBytes ++ suffix)
      = some (nestedTree, suffix) := by
  obtain ⟨hread, -, -⟩ := encode_decode nestedTree [] [] _ _ lists_nested.addAll
    lists_nested.finalize
  refine ⟨encode_nestedTree, hread ?_ nestedBytes encode_nestedTree⟩
  intro type value hpart
  have hparts : nestedTree.parts = [.nested nestedTree, .array [.string "a",
    .nested ⟨"LInner;", [("flag", .integer .boolean 1)]⟩], .string "a",
    .nested ⟨"LInner;", [("flag", .integer .boolean 1)]⟩, .integer .boolean 1] := rfl
  rw [hparts] at hpart
  simp only [List.mem_cons, reduceCtorEq, ElementValue.integer.injEq, List.not_mem_nil, false_or,
    or_false] at hpart
  rw [hpart.1]
  decide

end AnnotationTree

end BytecodeAssembler
