import BytecodeAssembler.Bytes
import Mathlib.Data.List.Forall2

/-!
# Reading bytes back

A reader takes a value off the front of a sequence of bytes and returns the
rest. It **reads** a value from some bytes if it does so whatever follows
them, which is what makes readers compose: the bytes of several values, one
after the other, are read by one reader after the other.
-/

namespace BytecodeAssembler

/-- A reader of values at the front of a sequence of bytes. -/
abbrev Reader (α : Type) := Bytes → Option (α × Bytes)

variable {α β : Type}

namespace Reader

/-- Read nothing and give the value. -/
def pure (value : α) : Reader α := fun bytes => some (value, bytes)

/-- Change the value read. -/
def map (read : Reader α) (f : α → β) : Reader β := fun bytes =>
  (read bytes).map fun (value, rest) => (f value, rest)

/-- Read on in a way that depends on the value read. -/
def bind (read : Reader α) (f : α → Reader β) : Reader β := fun bytes =>
  (read bytes).bind fun (value, rest) => f value rest

/-- Read a number of values, one after the other. -/
def many (read : Reader α) : Nat → Reader (List α)
  | 0 => pure []
  | count + 1 => read.bind fun value => (read.many count).map (value :: ·)

/-- **Read values until no bytes are left.** A reader that takes no bytes
would not come to an end, and is refused. -/
def all (read : Reader α) (bytes : Bytes) : Option (List α) :=
  if bytes = [] then some []
  else
    (read bytes).bind fun (value, rest) =>
      if rest.length < bytes.length then (read.all rest).map (value :: ·) else none
termination_by bytes.length

@[simp] theorem all_nil (read : Reader α) : read.all [] = some [] := by
  rw [all, if_pos rfl]

end Reader

/-- **The reader takes the value off the bytes**, whatever follows them. -/
def Reads (read : Reader α) (bytes : Bytes) (value : α) : Prop :=
  ∀ rest, read (bytes ++ rest) = some (value, rest)

namespace Reads

variable {read : Reader α} {bytes later : Bytes} {value : α}

theorem pure (value : α) : Reads (Reader.pure value) [] value := fun _ => rfl

theorem map (h : Reads read bytes value) (f : α → β) : Reads (read.map f) bytes (f value) := by
  intro rest
  unfold Reader.map
  rw [h rest]
  rfl

/-- **Two values are read off their bytes**, one after the other. -/
theorem bind {f : α → Reader β} {result : β} (h : Reads read bytes value)
    (hf : Reads (f value) later result) : Reads (read.bind f) (bytes ++ later) result := by
  intro rest
  unfold Reader.bind
  rw [List.append_assoc, h (later ++ rest)]
  exact hf rest

/-- The first value is taken off the front, and reading goes on behind it. -/
theorem all_append (h : Reads read bytes value) (hsome : bytes ≠ []) (rest : Bytes) :
    read.all (bytes ++ rest) = (read.all rest).map (value :: ·) := by
  have hlt : rest.length < (bytes ++ rest).length := by
    rw [List.length_append]
    have hpos := List.length_pos_iff.2 hsome
    omega
  rw [Reader.all, if_neg (List.append_ne_nil_of_left_ne_nil hsome rest), h rest]
  show (if rest.length < (bytes ++ rest).length then _ else _) = _
  rw [if_pos hlt]

/-- **Values that are written one after the other are all read back.** -/
theorem all_flatMap {write : α → Bytes} {values : List α}
    (h : ∀ value ∈ values, Reads read (write value) value ∧ write value ≠ []) :
    read.all (values.flatMap write) = some values := by
  induction values with
  | nil => rw [List.flatMap_nil, Reader.all_nil]
  | cons value values ih =>
    obtain ⟨⟨hread, hsome⟩, hrest⟩ := List.forall_mem_cons.1 h
    rw [List.flatMap_cons, hread.all_append hsome, ih hrest]
    rfl

end Reads

/-! ## Words -/

/-- Read a byte. -/
def readU1 : Reader UInt8
  | a :: rest => some (a, rest)
  | _ => none

/-- Read a two-byte word, high byte first. -/
def readU2 : Reader UInt16
  | a :: b :: rest => some (UInt16.ofNat (a.toNat * 256 + b.toNat), rest)
  | _ => none

/-- Read a four-byte word, high byte first. -/
def readU4 : Reader UInt32
  | a :: b :: c :: d :: rest =>
    some (UInt32.ofNat (((a.toNat * 256 + b.toNat) * 256 + c.toNat) * 256 + d.toNat), rest)
  | _ => none

/-- Read an eight-byte word, high byte first. -/
def readU8 : Reader UInt64 := readU4.bind fun high => readU4.map fun low =>
  UInt64.ofNat (high.toNat * 4294967296 + low.toNat)

/-- Read a signed byte. -/
def readS1 : Reader Int8 := readU1.map UInt8.toInt8

/-- Read a signed number of two bytes. -/
def readS2 : Reader Int16 := readU2.map UInt16.toInt16

/-- Read a signed number of four bytes. -/
def readS4 : Reader Int32 := readU4.map UInt32.toInt32

/-- Read a signed number of eight bytes. -/
def readS8 : Reader Int64 := readU8.map UInt64.toInt64

theorem reads_u1 (value : UInt8) : Reads readU1 [value] value := fun _ => rfl

theorem reads_u2 (value : UInt16) : Reads readU2 (Bytes.u2 value) value := by
  intro rest
  have hlt := value.toNat_lt
  have hvalue : UInt16.ofNat ((value >>> 8).toUInt8.toNat * 256 + value.toUInt8.toNat)
      = value := by
    apply UInt16.toNat_inj.1
    rw [UInt16.toNat_ofNat', UInt16.toNat_toUInt8, UInt16.toNat_toUInt8,
      UInt16.toNat_shiftRight, Nat.shiftRight_eq_div_pow]
    show (value.toNat / 256 % 256 * 256 + value.toNat % 256) % 65536 = value.toNat
    omega
  show some (UInt16.ofNat _, rest) = _
  rw [hvalue]

theorem reads_u4 (value : UInt32) : Reads readU4 (Bytes.u4 value) value := by
  intro rest
  have hlt := value.toNat_lt
  have hvalue : UInt32.ofNat ((((value >>> 24).toUInt8.toNat * 256
      + (value >>> 16).toUInt8.toNat) * 256 + (value >>> 8).toUInt8.toNat) * 256
      + value.toUInt8.toNat) = value := by
    apply UInt32.toNat_inj.1
    rw [UInt32.toNat_ofNat', UInt32.toNat_toUInt8, UInt32.toNat_toUInt8, UInt32.toNat_toUInt8,
      UInt32.toNat_toUInt8, UInt32.toNat_shiftRight, UInt32.toNat_shiftRight,
      UInt32.toNat_shiftRight, Nat.shiftRight_eq_div_pow, Nat.shiftRight_eq_div_pow,
      Nat.shiftRight_eq_div_pow]
    show (((value.toNat / 16777216 % 256 * 256 + value.toNat / 65536 % 256) * 256
      + value.toNat / 256 % 256) * 256 + value.toNat % 256) % 4294967296 = value.toNat
    omega
  show some (UInt32.ofNat _, rest) = _
  rw [hvalue]

theorem reads_u8 (value : UInt64) : Reads readU8 (Bytes.u8 value) value := by
  have hlt := value.toNat_lt
  have hvalue : UInt64.ofNat ((value >>> 32).toUInt32.toNat * 4294967296
      + value.toUInt32.toNat) = value := by
    apply UInt64.toNat_inj.1
    rw [UInt64.toNat_ofNat', UInt64.toNat_toUInt32, UInt64.toNat_toUInt32,
      UInt64.toNat_shiftRight, Nat.shiftRight_eq_div_pow]
    show (value.toNat / 4294967296 % 4294967296 * 4294967296 + value.toNat % 4294967296)
      % 18446744073709551616 = value.toNat
    omega
  have hlow : Reads (readU4.map fun low =>
      UInt64.ofNat ((value >>> 32).toUInt32.toNat * 4294967296 + low.toNat))
      (Bytes.u4 value.toUInt32) value := by
    have hread := (reads_u4 value.toUInt32).map fun low =>
      UInt64.ofNat ((value >>> 32).toUInt32.toNat * 4294967296 + low.toNat)
    rwa [hvalue] at hread
  unfold readU8 Bytes.u8
  exact (reads_u4 (value >>> 32).toUInt32).bind hlow

theorem reads_s1 (value : Int8) : Reads readS1 (Bytes.s1 value) value :=
  (reads_u1 value.toUInt8).map UInt8.toInt8

theorem reads_s2 (value : Int16) : Reads readS2 (Bytes.s2 value) value :=
  (reads_u2 value.toUInt16).map UInt16.toInt16

theorem reads_s4 (value : Int32) : Reads readS4 (Bytes.s4 value) value :=
  (reads_u4 value.toUInt32).map UInt32.toInt32

theorem reads_s8 (value : Int64) : Reads readS8 (Bytes.s8 value) value :=
  (reads_u8 value.toUInt64).map UInt64.toInt64

/-- Bytes are read back as they are. -/
theorem reads_bytes (bytes : Bytes) : Reads (readU1.many bytes.length) bytes bytes := by
  induction bytes with
  | nil => exact .pure []
  | cons byte bytes ih => exact (reads_u1 byte).bind (ih.map (byte :: ·))

/-! ## Counted lists -/

/-- **The two bytes that count a list say how long it is.** -/
def CountHolds (items : List α) : Prop := (UInt16.ofNat items.length).toNat = items.length

/-- A count keeps the low sixteen bits, so it holds up to 65535 items. -/
theorem countHolds_iff {items : List α} : CountHolds items ↔ items.length ≤ 65535 := by
  unfold CountHolds
  rw [UInt16.toNat_ofNat']
  omega

/-- Read a list with its count in front. -/
def readCounted (read : Reader α) : Reader (List α) :=
  readU2.bind fun count => read.many count.toNat

theorem Reader.map_eq_some_iff {read : Reader α} {f : α → β} {bytes rest : Bytes} {result : β} :
    read.map f bytes = some (result, rest)
      ↔ ∃ value, read bytes = some (value, rest) ∧ f value = result := by
  unfold Reader.map
  rw [Option.map_eq_some_iff]
  constructor
  · rintro ⟨⟨value, rest'⟩, hread, h⟩
    cases h
    exact ⟨value, hread, rfl⟩
  · rintro ⟨value, hread, rfl⟩
    exact ⟨(value, rest), hread, rfl⟩

theorem Reader.bind_eq_some_iff {read : Reader α} {f : α → Reader β} {bytes rest : Bytes}
    {result : β} :
    read.bind f bytes = some (result, rest)
      ↔ ∃ value later, read bytes = some (value, later) ∧ f value later = some (result, rest) := by
  unfold Reader.bind
  rw [Option.bind_eq_some_iff]
  exact Prod.exists

/-- Reading a number of values gives that number. -/
theorem Reader.length_of_many {read : Reader α} {count : Nat} {bytes rest : Bytes}
    {values : List α} (h : read.many count bytes = some (values, rest)) :
    values.length = count := by
  induction count generalizing bytes values with
  | zero =>
    cases h
    rfl
  | succ count ih =>
    obtain ⟨value, later, -, hrest⟩ := Reader.bind_eq_some_iff.1 h
    obtain ⟨values, hvalues, rfl⟩ := Reader.map_eq_some_iff.1 hrest
    rw [List.length_cons, ih hvalues]

/-- **The bytes are read as the value exactly if something holds.** A list
whose count is wrong is not read back, and this says so of whatever contains
the list. -/
def ReadsIff (read : Reader α) (bytes : Bytes) (value : α) (p : Prop) : Prop :=
  ∀ rest rest', read (bytes ++ rest) = some (value, rest') ↔ p ∧ rest' = rest

theorem Reads.readsIff {read : Reader α} {bytes : Bytes} {value : α}
    (h : Reads read bytes value) : ReadsIff read bytes value True := by
  intro rest rest'
  rw [h rest, Option.some.injEq, Prod.mk.injEq, true_and, eq_self, true_and, eq_comm]

namespace ReadsIff

variable {γ : Type} {read : Reader α} {bytes later : Bytes} {value : α} {p q : Prop}

theorem reads (h : ReadsIff read bytes value p) (hp : p) : Reads read bytes value :=
  fun rest => (h rest rest).2 ⟨hp, rfl⟩

theorem map {f : α → β} (h : ReadsIff read bytes value p) (hf : Function.Injective f) :
    ReadsIff (read.map f) bytes (f value) p := by
  intro rest rest'
  rw [Reader.map_eq_some_iff, ← h rest rest']
  constructor
  · rintro ⟨value', hread, heq⟩
    rwa [hf heq] at hread
  · intro hread
    exact ⟨value, hread, rfl⟩

/-- Behind bytes that are always read, the rest decides. -/
theorem after {read' : α → Reader β} {result : β} (hfirst : Reads read bytes value)
    (h : ReadsIff (read' value) later result p) :
    ReadsIff (read.bind read') (bytes ++ later) result p := by
  intro rest rest'
  unfold Reader.bind
  rw [List.append_assoc, hfirst]
  exact h rest rest'

/-- **Two values are read back exactly if each of them is.** -/
theorem both {read' : Reader β} {value' : β} {f : α → β → γ} (hf : Function.Injective2 f)
    (h : ReadsIff read bytes value p) (h' : ReadsIff read' later value' q) :
    ReadsIff (read.bind fun a => read'.map (f a)) (bytes ++ later) (f value value') (p ∧ q) := by
  intro rest rest'
  rw [Reader.bind_eq_some_iff, List.append_assoc]
  constructor
  · rintro ⟨a, middle, hread, hmap⟩
    obtain ⟨b, hread', heq⟩ := Reader.map_eq_some_iff.1 hmap
    obtain ⟨rfl, rfl⟩ := hf heq
    obtain ⟨hp, rfl⟩ := (h _ _).1 hread
    obtain ⟨hq, rfl⟩ := (h' _ _).1 hread'
    exact ⟨⟨hp, hq⟩, rfl⟩
  · rintro ⟨⟨hp, hq⟩, rfl⟩
    exact ⟨value, _, (h _ _).2 ⟨hp, rfl⟩,
      Reader.map_eq_some_iff.2 ⟨value', (h' _ _).2 ⟨hq, rfl⟩, rfl⟩⟩

/-- Several values are read back exactly if all of them are. -/
theorem many {P : α → Prop} {chunks : List Bytes} {values : List α}
    (h : List.Forall₂ (fun chunk value => ReadsIff read chunk value (P value)) chunks values) :
    ReadsIff (read.many values.length) chunks.flatten values (∀ value ∈ values, P value) := by
  induction h with
  | nil =>
    intro rest rest'
    rw [iff_true_intro (List.forall_mem_nil P)]
    exact (Reads.pure []).readsIff rest rest'
  | cons hvalue _ ih =>
    rw [List.forall_mem_cons]
    exact both (fun _ _ _ _ => List.cons.inj) hvalue ih

/-- **A counted list is read back exactly if its count holds** and its items
are read back. -/
theorem counted {P : α → Prop} {chunks : List Bytes} {values : List α}
    (h : List.Forall₂ (fun chunk value => ReadsIff read chunk value (P value)) chunks values) :
    ReadsIff (readCounted read) (Bytes.counted chunks) values
      (CountHolds values ∧ ∀ value ∈ values, P value) := by
  intro rest rest'
  have hmany := many h
  unfold readCounted Bytes.counted Reader.bind
  rw [List.append_assoc, reads_u2, h.length_eq]
  show read.many (UInt16.ofNat values.length).toNat (chunks.flatten ++ rest)
    = some (values, rest') ↔ _
  constructor
  · intro hread
    have hcount : CountHolds values := (Reader.length_of_many hread).symm
    rw [hcount] at hread
    obtain ⟨hall, heq⟩ := (hmany rest rest').1 hread
    exact ⟨⟨hcount, hall⟩, heq⟩
  · rintro ⟨⟨hcount, hall⟩, heq⟩
    rw [hcount]
    exact (hmany rest rest').2 ⟨hall, heq⟩

end ReadsIff

/-! ## Narrow numbers -/

/-- An index that fits in a byte is written as that byte. -/
theorem toUInt16_toUInt8 {index : UInt16} (h : index.toNat ≤ 255) :
    index.toUInt8.toUInt16 = index := by
  apply UInt16.toNat_inj.1
  rw [UInt8.toNat_toUInt16, UInt16.toNat_toUInt8]
  exact Nat.mod_eq_of_lt (Nat.lt_succ_of_le h)

/-- A number that fits in a signed byte is written as that byte. -/
theorem toInt16_toUInt8 {delta : Int16} (hlow : -128 ≤ delta.toInt) (hhigh : delta.toInt ≤ 127) :
    delta.toUInt16.toUInt8.toInt8.toInt16 = delta := by
  have hbyte : delta.toUInt16.toUInt8.toInt8 = delta.toInt8 := by
    apply Int8.toBitVec_inj.1
    rw [Int16.toBitVec_toInt8, BitVec.signExtend_eq_setWidth_of_le _ (by decide)]
    rfl
  apply Int16.toInt_inj.1
  rw [Int8.toInt_toInt16, hbyte, Int16.toInt_toInt8]
  exact Int.bmod_eq_of_le (by omega) (by omega)

end BytecodeAssembler
