import BytecodeAssembler.Proofs.Bytes
import BytecodeAssembler.Proofs.ConstantPool.Listing
import BytecodeAssembler.Proofs.Text.ModifiedUtf8

/-!
# Constant pools decode to their constants

In a class file the constants stand one after the other, and refer to each
other by index. Reading them back takes two steps. The first one knows the
format only: a tag decides which payload follows, and indices are counted
from 1, two of them for an eight-byte constant (`readEntries`). It gives a
table of entries by index. The second one follows the indices through that
table, and so turns every entry into a constant (`PoolTable.constantAt?`).

Neither step looks at the pool. Still the table has an entry for each index
that the pool gave out, and the entry leads to the constant that has the
index (`poolEntries_decode`).
-/

namespace BytecodeAssembler

open Number (Binary32 Binary64)

/-! ## Reading entries -/

namespace PoolEntry

/-- Read an entry that is made of two indices. -/
def readIndices (make : PoolIndex → PoolIndex → PoolEntry) : Reader PoolEntry :=
  readU2.bind fun first => readU2.map (make first)

/-- Read a text with its length. -/
def readText : Reader PoolEntry :=
  readU2.bind fun length => (readU1.many length.toNat).map .utf8

/-- Read the payload that follows a tag. -/
def readPayload : Nat → Reader PoolEntry
  | 1 => readText
  | 3 => readS4.map .integer
  | 4 => readU4.map fun bits => .float ⟨bits⟩
  | 5 => readS8.map .long
  | 6 => readU8.map fun bits => .double ⟨bits⟩
  | 7 => readU2.map .classRef
  | 8 => readU2.map .string
  | 9 => readIndices .fieldRef
  | 10 => readIndices .methodRef
  | 11 => readIndices .interfaceMethodRef
  | 12 => readIndices .nameAndType
  | _ => fun _ => none

/-- **Read an entry**: a tag, and the payload that it asks for. -/
def read : Reader PoolEntry := readU1.bind fun tag => readPayload tag.toNat

/-- The length of a text fits in two bytes. -/
def TextFits : PoolEntry → Prop
  | .utf8 text => text.length ≤ 65535
  | _ => True

theorem width_pos (e : PoolEntry) : 0 < e.width := by
  cases e <;> exact Nat.succ_pos _

theorem reads_indices (make : PoolIndex → PoolIndex → PoolEntry) (first second : PoolIndex) :
    Reads (readIndices make) (Bytes.u2 first ++ Bytes.u2 second) (make first second) :=
  (reads_u2 first).bind ((reads_u2 second).map (make first))

theorem reads_text {text : Bytes} (h : text.length ≤ 65535) :
    Reads readText (Bytes.u2 (UInt16.ofNat text.length) ++ text) (.utf8 text) := by
  have hlength : CountHolds text := countHolds_iff.2 h
  refine (reads_u2 _).bind ?_
  rw [hlength]
  exact (reads_bytes text).map utf8

theorem reads_of_payload {tag : UInt8} {payload : Bytes} {e : PoolEntry}
    (h : Reads (readPayload tag.toNat) payload e) : Reads read (tag :: payload) e :=
  (reads_u1 tag).bind h

/-- **An entry is read back from its bytes.** -/
theorem TextFits.reads {e : PoolEntry} (h : e.TextFits) : Reads read e.bytes e := by
  cases e with
  | utf8 text => exact reads_of_payload (reads_text h)
  | integer value => exact reads_of_payload ((reads_s4 value).map integer)
  | float value => exact reads_of_payload ((reads_u4 value.bits).map fun bits => float ⟨bits⟩)
  | long value => exact reads_of_payload ((reads_s8 value).map long)
  | double value => exact reads_of_payload ((reads_u8 value.bits).map fun bits => double ⟨bits⟩)
  | classRef name => exact reads_of_payload ((reads_u2 name).map classRef)
  | string text => exact reads_of_payload ((reads_u2 text).map string)
  | fieldRef owner member => exact reads_of_payload (reads_indices fieldRef owner member)
  | methodRef owner member => exact reads_of_payload (reads_indices methodRef owner member)
  | interfaceMethodRef owner member =>
    exact reads_of_payload (reads_indices interfaceMethodRef owner member)
  | nameAndType name descriptor =>
    exact reads_of_payload (reads_indices nameAndType name descriptor)

end PoolEntry

/-- **The entries of a pool by their indices.** -/
abbrev PoolTable := List (Nat × PoolEntry)

/-- **Read the entries of a pool** from the index `next` on, as long as it is
below the count. The index behind the last entry is given too. -/
def readEntries (count next : Nat) (bytes : Bytes) : Option (PoolTable × Nat × Bytes) :=
  if next < count then
    (PoolEntry.read bytes).bind fun (entry, rest) =>
      (readEntries count (next + entry.width) rest).map fun (table, last, rest) =>
        ((next, entry) :: table, last, rest)
  else some ([], next, bytes)
termination_by count - next
decreasing_by
  have hpos := entry.width_pos
  omega

/-- The entries with their indices, counted from `next`. -/
def numberEntries : List PoolEntry → Nat → PoolTable
  | [], _ => []
  | e :: rest, next => (next, e) :: numberEntries rest (next + e.width)

/-- **Entries written one after the other are read back with their
indices**, up to exactly the count. -/
theorem readEntries_flatten {es : List PoolEntry} (hfits : ∀ e ∈ es, e.TextFits) (next : Nat)
    (rest : Bytes) :
    readEntries (next + (es.map PoolEntry.width).sum) next
        ((es.map PoolEntry.bytes).flatten ++ rest)
      = some (numberEntries es next, next + (es.map PoolEntry.width).sum, rest) := by
  induction es generalizing next with
  | nil =>
    rw [List.map_nil, List.sum_nil, Nat.add_zero, readEntries, if_neg (Nat.lt_irrefl next)]
    rfl
  | cons e es ih =>
    obtain ⟨he, hes⟩ := List.forall_mem_cons.1 hfits
    have hpos := e.width_pos
    have hnext := ih hes (next + e.width)
    rw [Nat.add_assoc] at hnext
    rw [List.map_cons, List.map_cons, List.sum_cons, List.flatten_cons, List.append_assoc,
      readEntries, if_pos (by omega), he.reads]
    show (readEntries _ (next + e.width) _).map _ = _
    rw [hnext]
    rfl

theorem le_of_mem_numberEntries {es : List PoolEntry} {next : Nat} {entry : Nat × PoolEntry}
    (h : entry ∈ numberEntries es next) : next ≤ entry.1 := by
  induction es generalizing next with
  | nil => cases h
  | cons e es ih =>
    rcases List.mem_cons.1 h with rfl | h
    · exact Nat.le_refl next
    · exact Nat.le_of_add_right_le (ih h)

/-- Every entry is found at its index. -/
theorem lookup_of_mem_numberEntries {es : List PoolEntry} {next : Nat}
    {entry : Nat × PoolEntry} (h : entry ∈ numberEntries es next) :
    (numberEntries es next).lookup entry.1 = some entry.2 := by
  induction es generalizing next with
  | nil => cases h
  | cons e es ih =>
    rw [numberEntries, List.lookup_cons]
    rcases List.mem_cons.1 h with rfl | h
    · rw [beq_self_eq_true]
    · have hle := le_of_mem_numberEntries h
      have hpos := e.width_pos
      rw [beq_eq_false_iff_ne.2 (by omega)]
      exact ih h

/-! ## From entries to constants -/

namespace PoolTable

/-- The text at an index. -/
def textAt? (table : PoolTable) (index : PoolIndex) : Option String :=
  match table.lookup index.toNat with
  | some (.utf8 bytes) => Text.readModifiedUtf8 bytes
  | _ => none

/-- The name of the class at an index. -/
def classAt? (table : PoolTable) (index : PoolIndex) : Option String :=
  match table.lookup index.toNat with
  | some (.classRef name) => table.textAt? name
  | _ => none

/-- The name and the descriptor at an index. -/
def nameAndTypeAt? (table : PoolTable) (index : PoolIndex) : Option (String × String) :=
  match table.lookup index.toNat with
  | some (.nameAndType name descriptor) => do
    let name ← table.textAt? name
    let descriptor ← table.textAt? descriptor
    return (name, descriptor)
  | _ => none

/-- The member with the class at one index, and the name and descriptor at
another. -/
def memberAt? (table : PoolTable) (owner member : PoolIndex) : Option MemberRef := do
  let owner ← table.classAt? owner
  let (name, descriptor) ← table.nameAndTypeAt? member
  return ⟨owner, name, descriptor⟩

/-- **The constant that an entry stands for**, found by following its
indices. -/
def constantOf? (table : PoolTable) : PoolEntry → Option Constant
  | .utf8 bytes => (Text.readModifiedUtf8 bytes).map .utf8
  | .integer value => some (.integer value)
  | .float value => some (.float value)
  | .long value => some (.long value)
  | .double value => some (.double value)
  | .classRef name => (table.textAt? name).map .classRef
  | .string text => (table.textAt? text).map .string
  | .nameAndType name descriptor => do
    let name ← table.textAt? name
    let descriptor ← table.textAt? descriptor
    return .nameAndType name descriptor
  | .fieldRef owner member => (table.memberAt? owner member).map .fieldRef
  | .methodRef owner member => (table.memberAt? owner member).map .methodRef
  | .interfaceMethodRef owner member => (table.memberAt? owner member).map .interfaceMethodRef

/-- **The constant at an index.** -/
def constantAt? (table : PoolTable) (index : Nat) : Option Constant :=
  (table.lookup index).bind table.constantOf?

/-- A text stands at the index. -/
def HoldsText (table : PoolTable) (index : PoolIndex) : Prop :=
  ∃ bytes, table.lookup index.toNat = some (.utf8 bytes)

/-- A class stands at the index. -/
def HoldsClass (table : PoolTable) (index : PoolIndex) : Prop :=
  ∃ name, table.lookup index.toNat = some (.classRef name)

/-- A name with a descriptor stands at the index. -/
def HoldsNameAndType (table : PoolTable) (index : PoolIndex) : Prop :=
  ∃ name descriptor, table.lookup index.toNat = some (.nameAndType name descriptor)

/-- **What an entry refers to is of the right kind.** -/
def Linked (table : PoolTable) : PoolEntry → Prop
  | .utf8 _ | .integer _ | .float _ | .long _ | .double _ => True
  | .classRef name => table.HoldsText name
  | .string text => table.HoldsText text
  | .nameAndType name descriptor => table.HoldsText name ∧ table.HoldsText descriptor
  | .fieldRef owner member | .methodRef owner member | .interfaceMethodRef owner member =>
    table.HoldsClass owner ∧ table.HoldsNameAndType member

end PoolTable

/-! ## The entry of a constant -/

namespace ConstantPool

variable {pool : ConstantPool} {c : Constant} {e : PoolEntry}

/-- **The entry that a pool writes for a constant.** -/
inductive Writes (pool : ConstantPool) : Constant → PoolEntry → Prop where
  | utf8 {text : String} (h : (Text.modifiedUtf8 text).length ≤ 65535) :
      Writes pool (.utf8 text) (.utf8 (Text.modifiedUtf8 text))
  | integer (value : Int32) : Writes pool (.integer value) (.integer value)
  | float (value : Binary32) : Writes pool (.float value) (.float value)
  | long (value : Int64) : Writes pool (.long value) (.long value)
  | double (value : Binary64) : Writes pool (.double value) (.double value)
  | classRef {name : String} {i : PoolIndex} (h : pool.indexOf (.utf8 name) = .ok i) :
      Writes pool (.classRef name) (.classRef i)
  | string {text : String} {i : PoolIndex} (h : pool.indexOf (.utf8 text) = .ok i) :
      Writes pool (.string text) (.string i)
  | nameAndType {name descriptor : String} {i j : PoolIndex}
      (hname : pool.indexOf (.utf8 name) = .ok i)
      (hdescriptor : pool.indexOf (.utf8 descriptor) = .ok j) :
      Writes pool (.nameAndType name descriptor) (.nameAndType i j)
  | fieldRef {m : MemberRef} {i j : PoolIndex} (h : pool.memberIndices m = .ok (i, j)) :
      Writes pool (.fieldRef m) (.fieldRef i j)
  | methodRef {m : MemberRef} {i j : PoolIndex} (h : pool.memberIndices m = .ok (i, j)) :
      Writes pool (.methodRef m) (.methodRef i j)
  | interfaceMethodRef {m : MemberRef} {i j : PoolIndex}
      (h : pool.memberIndices m = .ok (i, j)) :
      Writes pool (.interfaceMethodRef m) (.interfaceMethodRef i j)

/-- The indices of a member are those of its class and of its name and
descriptor. -/
theorem memberIndices_eq_ok {m : MemberRef} {i j : PoolIndex}
    (h : pool.memberIndices m = .ok (i, j)) :
    pool.indexOf (.classRef m.owner) = .ok i
      ∧ pool.indexOf (.nameAndType m.name m.descriptor) = .ok j := by
  obtain ⟨owner, howner, h⟩ := bind_eq_ok_iff.1 h
  obtain ⟨member, hmember, h⟩ := bind_eq_ok_iff.1 h
  cases h
  exact ⟨howner, hmember⟩

theorem writes_of_resolve (h : pool.resolve c = .ok e) : pool.Writes c e := by
  cases c with
  | utf8 text =>
    unfold resolve at h
    dsimp only at h
    by_cases hlength : (Text.modifiedUtf8 text).length ≤ 65535
    · rw [if_pos hlength] at h
      cases h
      exact .utf8 hlength
    · rw [if_neg hlength] at h
      cases h
  | integer value | float value | long value | double value =>
    cases h
    constructor
  | classRef name | string text =>
    obtain ⟨i, hi, h⟩ := bind_eq_ok_iff.1 h
    cases h
    constructor
    exact hi
  | nameAndType name descriptor =>
    obtain ⟨i, hi, h⟩ := bind_eq_ok_iff.1 h
    obtain ⟨j, hj, h⟩ := bind_eq_ok_iff.1 h
    cases h
    exact .nameAndType hi hj
  | fieldRef m | methodRef m | interfaceMethodRef m =>
    obtain ⟨⟨i, j⟩, hm, h⟩ := bind_eq_ok_iff.1 h
    cases h
    constructor
    exact hm

namespace Writes

/-- An entry takes as many indices as its constant. -/
theorem width_eq (h : pool.Writes c e) : e.width = c.width := by
  cases h <;> rfl

theorem textFits (h : pool.Writes c e) : e.TextFits := by
  cases h with
  | utf8 h => exact h
  | _ => trivial

end Writes

/-- **The table has an entry for every index that the pool gave out**, and
it is the one written for the constant with the index. -/
def Covers (pool : ConstantPool) (table : PoolTable) : Prop :=
  ∀ c index, pool.indexOf c = .ok index →
    ∃ e, table.lookup index.toNat = some e ∧ pool.Writes c e

namespace Covers

variable {table : PoolTable} {index : PoolIndex}

theorem lookup_utf8 (h : pool.Covers table) {text : String}
    (hindex : pool.indexOf (.utf8 text) = .ok index) :
    table.lookup index.toNat = some (.utf8 (Text.modifiedUtf8 text)) := by
  obtain ⟨e, hlookup, hwrites⟩ := h _ _ hindex
  cases hwrites
  exact hlookup

theorem textAt? (h : pool.Covers table) {text : String}
    (hindex : pool.indexOf (.utf8 text) = .ok index) : table.textAt? index = some text := by
  unfold PoolTable.textAt?
  rw [h.lookup_utf8 hindex]
  exact Text.readModifiedUtf8_modifiedUtf8 text

theorem classAt? (h : pool.Covers table) {name : String}
    (hindex : pool.indexOf (.classRef name) = .ok index) : table.classAt? index = some name := by
  obtain ⟨e, hlookup, hwrites⟩ := h _ _ hindex
  cases hwrites with
  | classRef hname =>
    unfold PoolTable.classAt?
    rw [hlookup]
    exact h.textAt? hname

theorem nameAndTypeAt? (h : pool.Covers table) {name descriptor : String}
    (hindex : pool.indexOf (.nameAndType name descriptor) = .ok index) :
    table.nameAndTypeAt? index = some (name, descriptor) := by
  obtain ⟨e, hlookup, hwrites⟩ := h _ _ hindex
  cases hwrites with
  | nameAndType hname hdescriptor =>
    unfold PoolTable.nameAndTypeAt?
    rw [hlookup]
    dsimp only
    rw [h.textAt? hname, h.textAt? hdescriptor]
    rfl

theorem memberAt? (h : pool.Covers table) {m : MemberRef} {i j : PoolIndex}
    (hindices : pool.memberIndices m = .ok (i, j)) : table.memberAt? i j = some m := by
  obtain ⟨howner, hmember⟩ := memberIndices_eq_ok hindices
  unfold PoolTable.memberAt?
  rw [h.classAt? howner, h.nameAndTypeAt? hmember]
  rfl

/-- **An entry leads back to its constant.** -/
theorem constantOf? (h : pool.Covers table) (hwrites : pool.Writes c e) :
    table.constantOf? e = some c := by
  cases hwrites with
  | utf8 =>
    rw [PoolTable.constantOf?, Text.readModifiedUtf8_modifiedUtf8]
    rfl
  | integer | float | long | double => rfl
  | classRef hi | string hi =>
    rw [PoolTable.constantOf?, h.textAt? hi]
    rfl
  | nameAndType hi hj =>
    rw [PoolTable.constantOf?, h.textAt? hi, h.textAt? hj]
    rfl
  | fieldRef hm | methodRef hm | interfaceMethodRef hm =>
    rw [PoolTable.constantOf?, h.memberAt? hm]
    rfl

theorem constantAt? (h : pool.Covers table) {index : Nat} (hlookup : table.lookup index = some e)
    (hwrites : pool.Writes c e) : table.constantAt? index = some c := by
  unfold PoolTable.constantAt?
  rw [hlookup]
  exact h.constantOf? hwrites

/-- **What an entry refers to is of the right kind.** -/
theorem linked (h : pool.Covers table) (hwrites : pool.Writes c e) : table.Linked e := by
  have htext : ∀ {text i}, pool.indexOf (.utf8 text) = .ok i → table.HoldsText i :=
    fun hi => ⟨_, h.lookup_utf8 hi⟩
  have hmember : ∀ {m i j}, pool.memberIndices m = .ok (i, j) →
      table.HoldsClass i ∧ table.HoldsNameAndType j := by
    intro m i j hm
    obtain ⟨hi, hj⟩ := memberIndices_eq_ok hm
    obtain ⟨_, howner, hwrites⟩ := h _ _ hi
    cases hwrites
    obtain ⟨_, hmember, hwrites⟩ := h _ _ hj
    cases hwrites
    exact ⟨⟨_, howner⟩, _, _, hmember⟩
  cases hwrites with
  | utf8 | integer | float | long | double => trivial
  | classRef hi | string hi => exact htext hi
  | nameAndType hi hj => exact ⟨htext hi, htext hj⟩
  | fieldRef hm | methodRef hm | interfaceMethodRef hm => exact hmember hm

end Covers

/-! ## The table of a pool -/

/-- **Counting entries is counting constants**: what stands at an index of
the one list was written for what stands there in the other. -/
theorem lookup_numberEntries {cs : List Constant} {es : List PoolEntry}
    (h : List.Forall₂ pool.Writes cs es) (next index : Nat) :
    Option.Rel pool.Writes (constantFrom cs next index)
      ((numberEntries es next).lookup index) := by
  induction h generalizing next with
  | nil => exact .none
  | @cons c e cs es hce _ ih =>
    rw [numberEntries, List.lookup_cons]
    unfold constantFrom
    by_cases hindex : index = next
    · rw [if_pos hindex, beq_iff_eq.2 hindex]
      exact .some hce
    · rw [if_neg hindex, beq_eq_false_iff_ne.2 hindex, hce.width_eq]
      exact ih (next + c.width)

theorem sum_width_of_writes {cs : List Constant} {es : List PoolEntry}
    (h : List.Forall₂ pool.Writes cs es) : (es.map PoolEntry.width).sum = totalWidth cs := by
  induction h with
  | nil => rfl
  | cons hce _ ih => rw [List.map_cons, List.sum_cons, ih, hce.width_eq, totalWidth_cons]

/-- A constant is at an index exactly if it has the index. -/
theorem Reachable.constantFrom_eq_some_iff (h : pool.Reachable) {n : Numbering}
    (hn : pool.numbering = some n) {index : Nat} :
    constantFrom pool.entries.toList 1 index = some c
      ↔ ∃ i, pool.indexOf c = .ok i ∧ i.toNat = index := by
  rw [BytecodeAssembler.constantFrom_eq_some_iff]
  constructor
  · rintro ⟨k, hk, rfl⟩
    exact h.exists_indexOf_slot hn (Array.getElem?_toList.symm.trans hk)
  · rintro ⟨i, hi, rfl⟩
    obtain ⟨k, hk, heq⟩ := (h.indexOf_eq_ok_iff hn).1 hi
    exact ⟨k, Array.getElem?_toList.trans hk, heq⟩

/-- **The table has exactly the indices that the pool gave out.** -/
theorem Reachable.covers (h : pool.Reachable) {n : Numbering} (hn : pool.numbering = some n)
    {es : List PoolEntry} (hes : List.Forall₂ pool.Writes pool.entries.toList es) :
    pool.Covers (numberEntries es 1)
      ∧ ∀ index e, (numberEntries es 1).lookup index = some e →
        ∃ c i, pool.Writes c e ∧ pool.indexOf c = .ok i ∧ i.toNat = index := by
  constructor
  · intro c index hindex
    have hrel := lookup_numberEntries hes 1 index.toNat
    rw [(h.constantFrom_eq_some_iff hn).2 ⟨index, hindex, rfl⟩] at hrel
    generalize (numberEntries es 1).lookup index.toNat = found at hrel
    cases hrel with
    | some hwrites => exact ⟨_, rfl, hwrites⟩
  · intro index e he
    have hrel := lookup_numberEntries hes 1 index
    rw [he] at hrel
    generalize hfound : constantFrom pool.entries.toList 1 index = found at hrel
    cases hrel with
    | some hwrites =>
      obtain ⟨i, hi, hindex⟩ := (h.constantFrom_eq_some_iff hn).1 hfound
      exact ⟨_, i, hwrites, hi, hindex⟩

/-- **A pool decodes to the constants registered in it.** Reading the bytes
of its entries uses up all of them, and ends at exactly the count. The
constants added and all that they lead to have an index, and nothing else has
one. In the table that is read, each index has the constant that was given the
index, if it was given to one. Every entry stands for a constant, and what it
refers to is of the right kind. -/
theorem poolEntries_decode (added : List Constant) (opened pool : ConstantPool)
    (entries : List PoolEntry) (hadd : empty.addAll added = .ok opened)
    (hfinal : opened.finalize = .ok pool) (hentries : pool.poolEntries = .ok entries) :
    ∃ count table, pool.count = .ok count
      ∧ (∀ rest, readEntries count.toNat 1 ((entries.map PoolEntry.bytes).flatten ++ rest)
        = some (table, count.toNat, rest))
      ∧ (∀ c, (∃ i, pool.indexOf c = .ok i) ↔ Constant.Registered added c)
      ∧ (∀ index c, table.constantAt? index = some c
        ↔ Constant.Registered added c ∧ ∃ i, pool.indexOf c = .ok i ∧ i.toNat = index)
      ∧ ∀ entry ∈ table, table.Linked entry.2 ∧ ∃ c, table.constantAt? entry.1 = some c := by
  have hregistered : ∀ c, (∃ i, pool.indexOf c = .ok i) ↔ Constant.Registered added c :=
    fun _ => exists_indexOf_iff_registered hadd hfinal
  obtain ⟨_, hok, hreach, -⟩ := addAll_empty added
  cases hok.symm.trans hadd
  have hpool : pool.Reachable := hreach.finalize hfinal
  obtain ⟨n, hn⟩ := exists_numbering_of_finalize hfinal
  obtain ⟨count, hcount, htotal, -⟩ := hpool.exists_count hn
  have hwrites : List.Forall₂ pool.Writes pool.entries.toList entries :=
    (mapM_eq_ok_iff.1 hentries).imp fun _ _ => writes_of_resolve
  obtain ⟨hcovers, hindices⟩ := hpool.covers hn hwrites
  refine ⟨count, numberEntries entries 1, hcount, fun rest => ?_, hregistered,
    fun index c => ?_, fun entry hentry => ?_⟩
  · -- the count is the sum of the widths, so reading stops right behind the last entry
    rw [htotal, ← sum_width_of_writes hwrites]
    refine readEntries_flatten (fun e he => ?_) 1 rest
    obtain ⟨c, -, hc⟩ := exists_mem_of_mapM hentries he
    exact (writes_of_resolve hc).textFits
  · constructor
    · intro hc
      obtain ⟨e, he, hce⟩ := Option.bind_eq_some_iff.1 hc
      obtain ⟨d, i, hd, hi, hindex⟩ := hindices index e he
      -- an entry stands for one constant only, so the one that has the index is the one read
      obtain rfl : d = c := Option.some.inj ((hcovers.constantOf? hd).symm.trans hce)
      exact ⟨(hregistered d).1 ⟨i, hi⟩, i, hi, hindex⟩
    · rintro ⟨-, i, hi, rfl⟩
      obtain ⟨e, he, hce⟩ := hcovers c i hi
      exact hcovers.constantAt? he hce
  · have hlookup := lookup_of_mem_numberEntries hentry
    obtain ⟨c, -, hc, -, -⟩ := hindices _ _ hlookup
    exact ⟨hcovers.linked hc, c, hcovers.constantAt? hlookup hc⟩

/-- A field of a class, a `long`, and a string that reads as the class. -/
def sharedConstants : List Constant := [.fieldRef ⟨"A", "f", "J"⟩, .long 5, .string "A"]

/-- With what they lead to. The class and the string share a text. -/
def sharedList : List Constant :=
  [.fieldRef ⟨"A", "f", "J"⟩, .classRef "A", .utf8 "A", .nameAndType "f" "J", .utf8 "f", .utf8 "J",
    .long 5, .string "A"]

/-- Their pool. -/
def sharedPool : ConstantPool := ofEntries sharedList

theorem lists_shared : Lists sharedConstants sharedList := ⟨by decide, by decide⟩

/-- The entries of that pool. -/
def sharedEntries : List PoolEntry :=
  [.fieldRef 2 4, .classRef 3, .utf8 [65], .nameAndType 5 6, .utf8 [102], .utf8 [74], .long 5,
    .string 3]

theorem poolEntries_shared : sharedPool.poolEntries = .ok sharedEntries := by
  have howner : sharedPool.classIndex "A" = .ok 2 := lists_shared.indexOf 1 rfl rfl
  have hmember : sharedPool.indexOf (.nameAndType "f" "J") = .ok 4 := lists_shared.indexOf 3 rfl rfl
  have htext : sharedPool.utf8Index "A" = .ok 3 := lists_shared.indexOf 2 rfl rfl
  have hname : sharedPool.utf8Index "f" = .ok 5 := lists_shared.indexOf 4 rfl rfl
  have htype : sharedPool.utf8Index "J" = .ok 6 := lists_shared.indexOf 5 rfl rfl
  show sharedList.mapM sharedPool.resolve = _
  simp [sharedList, sharedEntries, resolve, memberIndices, howner, hmember, htext, hname, htype,
    Text.modifiedUtf8, Text.utf16Units, Text.unitBytes, bind, Except.bind, pure, Except.pure]

/-- The string is read back from index 9, behind the two indices of the
`long`, and from nowhere else. -/
theorem poolEntries_decode_shared : ∃ table,
    (∀ rest, readEntries 10 1 ((sharedEntries.map PoolEntry.bytes).flatten ++ rest)
      = some (table, 10, rest))
    ∧ ∀ index, table.constantAt? index = some (.string "A") ↔ index = 9 := by
  have hindex : sharedPool.indexOf (.string "A") = .ok 9 := lists_shared.indexOf 7 rfl rfl
  obtain ⟨count, table, hcount, hread, -, hconstants, -⟩ := poolEntries_decode sharedConstants _ _ _
    lists_shared.addAll lists_shared.finalize poolEntries_shared
  obtain rfl : 10 = count := Except.ok.inj hcount
  refine ⟨table, hread, fun index => ?_⟩
  rw [hconstants]
  constructor
  · rintro ⟨-, i, hi, rfl⟩
    exact congrArg UInt16.toNat (Except.ok.inj (hi.symm.trans hindex))
  · rintro rfl
    exact ⟨⟨.string "A", by decide, .refl⟩, 9, hindex, rfl⟩

end ConstantPool

end BytecodeAssembler
