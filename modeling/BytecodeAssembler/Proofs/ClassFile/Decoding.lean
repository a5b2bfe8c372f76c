import BytecodeAssembler.Body.Encoding
import BytecodeAssembler.ClassFile
import BytecodeAssembler.Proofs.ConstantPool.Decoding

/-!
# Class files decode to themselves

A class file is made of parts that say in three different ways how long they
are. A list has its number of items in two bytes, an attribute has its length
in four, and the constant pool has a number of indices, of which an eight-byte
constant takes two. None of them can be told apart from what follows without
its count, so the whole is read back only if every count holds.

That is all it takes: a reader that knows nothing but the format gives the
class file back **exactly if** its counts hold (`bytes_decode`). Each part is
read whatever follows it, which is what makes the parts compose.
-/

namespace BytecodeAssembler

/-! ## Parts one after the other -/

section Parts

variable {α β : Type}

namespace Reader

/-- Read two values, one after the other. -/
def pair (read : Reader α) (read' : Reader β) : Reader (α × β) :=
  read.bind fun a => read'.map (Prod.mk a)

/-- Read a value behind these very bytes. -/
def behind (read : Reader α) (expected : Bytes) : Reader α := fun bytes =>
  if bytes.take expected.length = expected then read (bytes.drop expected.length) else none

end Reader

variable {read : Reader α} {read' : Reader β} {bytes later : Bytes} {value : α} {value' : β}

theorem Reads.pair (h : Reads read bytes value) (h' : Reads read' later value') :
    Reads (read.pair read') (bytes ++ later) (value, value') :=
  Reads.bind (f := fun a => read'.map (Prod.mk a)) h (h'.map (Prod.mk value))

namespace ReadsIff

variable {p q : Prop}

theorem congr (h : ReadsIff read bytes value p) (hpq : p ↔ q) : ReadsIff read bytes value q := by
  intro rest rest'
  rw [h rest rest', hpq]

/-- A pair is read back exactly if both parts are. -/
theorem pair (h : ReadsIff read bytes value p) (h' : ReadsIff read' later value' q) :
    ReadsIff (read.pair read') (bytes ++ later) (value, value') (p ∧ q) :=
  both (fun _ _ _ _ => Prod.mk.inj) h h'

/-- A pair whose first part is always read back. -/
theorem cons (h : Reads read bytes value) (h' : ReadsIff read' later value' q) :
    ReadsIff (read.pair read') (bytes ++ later) (value, value') q :=
  (pair h.readsIff h').congr (and_iff_right trivial)

/-- What stands behind the bytes expected is read as if it stood alone. -/
theorem behind (h : ReadsIff read bytes value p) (expected : Bytes) :
    ReadsIff (read.behind expected) (expected ++ bytes) value p := by
  intro rest rest'
  unfold Reader.behind
  rw [List.append_assoc, List.take_left, List.drop_left, if_pos rfl]
  exact h rest rest'

/-- A counted list is read back exactly if there are not too many items and
each of them is read back. -/
theorem list {write : α → Bytes} {P : α → Prop} (h : ∀ a, ReadsIff read (write a) a (P a))
    (values : List α) :
    ReadsIff (readCounted read) (Bytes.counted (values.map write)) values
      (values.length ≤ 65535 ∧ ∀ a ∈ values, P a) := by
  have hall : List.Forall₂ (fun chunk value => ReadsIff read chunk value (P value))
      (values.map write) values := by
    rw [List.forall₂_map_left_iff, List.forall₂_same]
    exact fun a _ => h a
  exact (counted hall).congr (and_congr_left' countHolds_iff)

end ReadsIff

end Parts

/-- Bytes are read back exactly if there are as many as are read. -/
theorem readsIff_bytes (count : Nat) (bytes : Bytes) :
    ReadsIff (readU1.many count) bytes bytes (count = bytes.length) := by
  intro rest rest'
  constructor
  · intro h
    obtain rfl := Reader.length_of_many h
    exact ⟨rfl, ((reads_bytes bytes).readsIff rest rest').1 h |>.2⟩
  · rintro ⟨rfl, rfl⟩
    exact reads_bytes bytes rest'

/-- Read bytes with their number in front, in four bytes. -/
def readBlock : Reader Bytes := readU4.bind fun length => readU1.many length.toNat

theorem readsIff_block (bytes : Bytes) :
    ReadsIff readBlock (Bytes.u4 (UInt32.ofNat bytes.length) ++ bytes) bytes
      (bytes.length ≤ 4294967295) := by
  refine (ReadsIff.after (reads_u4 _) (readsIff_bytes _ bytes)).congr ?_
  rw [UInt32.toNat_ofNat']
  omega

/-! ## Attributes and members -/

namespace Attribute

/-- Read an attribute: the index of its name, and a block of bytes. -/
def read : Reader Attribute := (readU2.pair readBlock).map fun (name, info) => ⟨name, info⟩

/-- The content is no longer than four bytes can say. -/
def Fits (a : Attribute) : Prop := a.info.length ≤ 4294967295

/-- An attribute is made of what it is given, if that fits. -/
theorem make_eq_ok_iff {name : PoolIndex} {info : Bytes} {a : Attribute} :
    make name info = .ok a ↔ a = ⟨name, info⟩ ∧ a.Fits := by
  unfold make Fits
  split
  next hfits =>
    refine ⟨fun h => ?_, fun h => congrArg Except.ok h.1.symm⟩
    cases h
    exact ⟨rfl, hfits⟩
  next hlong =>
    refine ⟨fun h => ?_, fun ⟨h, hfits⟩ => ?_⟩
    · cases h
    · subst h
      exact absurd hfits hlong

theorem readsIff (a : Attribute) : ReadsIff read a.bytes a a.Fits := by
  have hparts := ReadsIff.cons (reads_u2 a.name) (readsIff_block a.info)
  rw [← List.append_assoc] at hparts
  exact hparts.map (f := fun (name, info) => Attribute.mk name info) fun x y h => by
    cases x; cases y; cases h; rfl

end Attribute

/-- Attributes of something are not too many, and none of them is too long. -/
def AttributesFit (attributes : List Attribute) : Prop :=
  attributes.length ≤ 65535 ∧ ∀ a ∈ attributes, a.Fits

theorem readsIff_attributes (attributes : List Attribute) :
    ReadsIff (readCounted Attribute.read) (Bytes.counted (attributes.map Attribute.bytes))
      attributes (AttributesFit attributes) :=
  .list Attribute.readsIff attributes

namespace MemberInfo

variable {c : Carrier}

/-- Read a field or method. -/
def read : Reader (MemberInfo c) :=
  (readU2.pair (readU2.pair (readU2.pair (readCounted Attribute.read)))).map
    fun (flags, name, descriptor, attributes) => ⟨⟨flags⟩, name, descriptor, attributes⟩

theorem readsIff (m : MemberInfo c) : ReadsIff read m.bytes m (AttributesFit m.attributes) := by
  have hparts := ReadsIff.cons (reads_u2 m.flags.bits) <| .cons (reads_u2 m.name) <|
    .cons (reads_u2 m.descriptor) (readsIff_attributes m.attributes)
  rw [← List.append_assoc, ← List.append_assoc] at hparts
  refine hparts.map (f := fun (flags, name, descriptor, attributes) =>
    MemberInfo.mk ⟨flags⟩ name descriptor attributes) ?_
  rintro ⟨flags, name, descriptor, attributes⟩ ⟨flags', name', descriptor', attributes'⟩ h
  cases h
  rfl

end MemberInfo

/-! ## The constant pool -/

namespace PoolEntry

/-- **An entry is read back exactly if its text fits.** -/
theorem readsIff (e : PoolEntry) : ReadsIff read e.bytes e e.TextFits := by
  cases e with
  | utf8 text =>
    have hlength : ReadsIff readText (Bytes.u2 (UInt16.ofNat text.length) ++ text) (.utf8 text)
        (CountHolds text) :=
      .after (reads_u2 _) ((readsIff_bytes _ text).map fun _ _ => utf8.inj)
    exact (ReadsIff.after (reads_u1 1) hlength).congr countHolds_iff
  | _ =>
    refine (TextFits.reads ?_).readsIff.congr (iff_of_true trivial ?_)
    all_goals exact trivial

end PoolEntry

/-- Reading entries up to the count passes over their indices. -/
theorem last_of_readEntries {count next last : Nat} {bytes rest : Bytes} {table : PoolTable}
    (h : readEntries count next bytes = some (table, last, rest)) :
    last = next + ((table.map Prod.snd).map PoolEntry.width).sum := by
  fun_induction readEntries count next bytes generalizing table with
  | case1 next bytes hlt ih =>
    obtain ⟨⟨e, later⟩, -, h⟩ := Option.bind_eq_some_iff.1 h
    obtain ⟨⟨tail, last', rest'⟩, htail, h⟩ := Option.map_eq_some_iff.1 h
    cases h
    rw [ih e later htail, List.map_cons, List.map_cons, List.sum_cons, Nat.add_assoc]
  | case2 next bytes hge =>
    cases h
    rfl

theorem map_snd_numberEntries (es : List PoolEntry) (next : Nat) :
    (numberEntries es next).map Prod.snd = es := by
  induction es generalizing next with
  | nil => rfl
  | cons e es ih => rw [numberEntries, List.map_cons, ih]

/-- Entries that are read back from their bytes have texts that fit. -/
theorem textFits_of_readEntries {es : List PoolEntry} {count next last : Nat}
    {rest rest' : Bytes} {table : PoolTable}
    (h : readEntries count next ((es.map PoolEntry.bytes).flatten ++ rest)
      = some (table, last, rest')) (hes : table.map Prod.snd = es) :
    (∀ e ∈ es, e.TextFits) ∧ rest' = rest := by
  -- the induction is on the entries written; as many are read as were written, so reading and
  -- writing go one entry at a time together
  induction es generalizing next table with
  | nil =>
    obtain rfl := List.map_eq_nil_iff.1 hes
    rw [readEntries] at h
    split at h
    next =>
      obtain ⟨⟨e, later⟩, -, h⟩ := Option.bind_eq_some_iff.1 h
      obtain ⟨⟨tail, last', rest''⟩, -, h⟩ := Option.map_eq_some_iff.1 h
      cases h
    next =>
      cases h
      exact ⟨List.forall_mem_nil _, rfl⟩
  | cons e es ih =>
    rw [readEntries] at h
    split at h
    next =>
      obtain ⟨⟨e', later⟩, he, h⟩ := Option.bind_eq_some_iff.1 h
      obtain ⟨⟨tail, last', rest''⟩, htail, h⟩ := Option.map_eq_some_iff.1 h
      cases h
      obtain ⟨rfl, hentries⟩ : e' = e ∧ tail.map Prod.snd = es := List.cons.inj hes
      rw [List.map_cons, List.flatten_cons, List.append_assoc] at he
      obtain ⟨hfits, rfl⟩ := (e'.readsIff _ _).1 he
      obtain ⟨hrest, rfl⟩ := ih htail hentries
      exact ⟨List.forall_mem_cons.2 ⟨hfits, hrest⟩, rfl⟩
    next =>
      cases h
      cases hes

/-- **Read a constant pool**: the number of its indices with the unused index
0, and entries that take exactly so many. -/
def readPool : Reader (UInt16 × List PoolEntry) := readU2.bind fun count bytes =>
  (readEntries count.toNat 1 bytes).bind fun (table, last, rest) =>
    if last = count.toNat then some ((count, table.map Prod.snd), rest) else none

/-- **A pool is read back exactly if its count is that of its indices** and
its texts fit. -/
theorem readsIff_pool (count : UInt16) (es : List PoolEntry) :
    ReadsIff readPool (Bytes.u2 count ++ (es.map PoolEntry.bytes).flatten) (count, es)
      (count.toNat = 1 + (es.map PoolEntry.width).sum ∧ ∀ e ∈ es, e.TextFits) := by
  refine ReadsIff.after (reads_u2 count) fun rest rest' => ?_
  constructor
  · intro h
    obtain ⟨⟨table, last, rest''⟩, hread, h⟩ := Option.bind_eq_some_iff.1 h
    dsimp only at h
    split at h
    next hlast =>
      simp only [Option.some.injEq, Prod.mk.injEq, true_and] at h
      obtain ⟨hes, rfl⟩ := h
      obtain ⟨hfits, rfl⟩ := textFits_of_readEntries hread hes
      rw [← hlast, last_of_readEntries hread, hes]
      exact ⟨⟨rfl, hfits⟩, rfl⟩
    next => cases h
  · rintro ⟨⟨hcount, hfits⟩, rfl⟩
    rw [hcount, readEntries_flatten hfits 1 rest', ← hcount]
    simp [map_snd_numberEntries]

/-! ## Class files -/

namespace ClassFile

/-- The parts of a class file behind its first four bytes, one after the
other. -/
abbrev Parts : Type :=
  (UInt16 × UInt16) × (UInt16 × List PoolEntry) × UInt16 × PoolIndex × PoolIndex × List PoolIndex
    × List (MemberInfo .fields) × List (MemberInfo .methods) × List Attribute

/-- The class file of some parts. -/
def ofParts : Parts → ClassFile
  | ((minor, major), (poolCount, constants), flags, thisClass, superClass, interfaces, fields,
      methods, attributes) =>
    ⟨⟨major, minor⟩, poolCount, constants, ⟨flags⟩, thisClass, superClass, interfaces, fields,
      methods, attributes⟩

theorem ofParts_injective : Function.Injective ofParts := by
  rintro ⟨⟨_, _⟩, ⟨_, _⟩, _, _, _, _, _, _, _⟩ ⟨⟨_, _⟩, ⟨_, _⟩, _, _, _, _, _, _, _⟩ h
  cases h
  rfl

/-- Read the parts of a class file. -/
def readParts : Reader Parts :=
  (readU2.pair readU2).pair <| readPool.pair <| readU2.pair <| readU2.pair <| readU2.pair <|
    (readCounted readU2).pair <| (readCounted MemberInfo.read).pair <|
    (readCounted MemberInfo.read).pair <| readCounted Attribute.read

/-- **Read a class file**, which begins with the bytes `CAFEBABE`. -/
def read : Reader ClassFile := (readParts.map ofParts).behind [0xCA, 0xFE, 0xBA, 0xBE]

/-- **Every count of a class file holds.** -/
structure Fits (c : ClassFile) : Prop where
  /-- The pool has as many indices as it says, beside the unused one. -/
  pool : c.poolCount.toNat = 1 + (c.constants.map PoolEntry.width).sum
  /-- No text is too long. -/
  texts : ∀ e ∈ c.constants, e.TextFits
  interfaces : c.interfaces.length ≤ 65535
  fields : c.fields.length ≤ 65535
  fieldAttributes : ∀ m ∈ c.fields, AttributesFit m.attributes
  methods : c.methods.length ≤ 65535
  methodAttributes : ∀ m ∈ c.methods, AttributesFit m.attributes
  attributes : AttributesFit c.attributes

/-- **A class file is read back exactly if its counts hold.** -/
theorem readsIff (c : ClassFile) : ReadsIff read c.bytes c c.Fits := by
  have hindices : ReadsIff (readCounted readU2) (Bytes.counted (c.interfaces.map Bytes.u2))
      c.interfaces (c.interfaces.length ≤ 65535 ∧ ∀ i ∈ c.interfaces, True) :=
    .list (fun i => (reads_u2 i).readsIff) c.interfaces
  have hparts := ReadsIff.cons ((reads_u2 c.version.minor).pair (reads_u2 c.version.major)) <|
    .pair (readsIff_pool c.poolCount c.constants) <| .cons (reads_u2 c.flags.bits) <|
    .cons (reads_u2 c.thisClass) <| .cons (reads_u2 c.superClass) <| .pair hindices <|
    .pair (.list MemberInfo.readsIff c.fields) <| .pair (.list MemberInfo.readsIff c.methods)
    (readsIff_attributes c.attributes)
  have hfile : ReadsIff read (magic ++ _) c _ :=
    (hparts.map ofParts_injective).behind [0xCA, 0xFE, 0xBA, 0xBE]
  unfold bytes Version.bytes AccessFlags.bytes
  simp only [List.append_assoc] at hfile ⊢
  refine hfile.congr ⟨?_, ?_⟩
  · rintro ⟨⟨hpool, htexts⟩, ⟨hinterfaces, -⟩, ⟨hfields, hfield⟩, ⟨hmethods, hmethod⟩, hattributes⟩
    exact ⟨hpool, htexts, hinterfaces, hfields, hfield, hmethods, hmethod, hattributes⟩
  · rintro ⟨hpool, htexts, hinterfaces, hfields, hfield, hmethods, hmethod, hattributes⟩
    exact ⟨⟨hpool, htexts⟩, ⟨hinterfaces, fun _ _ => trivial⟩, ⟨hfields, hfield⟩,
      ⟨hmethods, hmethod⟩, hattributes⟩

end ClassFile

/-! ## The content of a `Code` attribute -/

/-- Read an exception handler. -/
def HandlerEntry.read : Reader HandlerEntry :=
  (readU2.pair (readU2.pair (readU2.pair readU2))).map fun (start, finish, target, catchType) =>
    ⟨start, finish, target, catchType⟩

theorem HandlerEntry.reads (h : HandlerEntry) : Reads HandlerEntry.read h.bytes h := by
  have hparts := (reads_u2 h.start).pair ((reads_u2 h.finish).pair
    ((reads_u2 h.target).pair (reads_u2 h.catchType)))
  rw [← List.append_assoc, ← List.append_assoc] at hparts
  exact hparts.map fun (start, finish, target, catchType) =>
    HandlerEntry.mk start finish target catchType

namespace Code

/-- The code of some parts. -/
def ofParts : UInt16 × UInt16 × Bytes × List HandlerEntry × List Attribute → Code
  | (maxStack, maxLocals, code, handlers, attributes) =>
    ⟨maxStack, maxLocals, code, handlers, attributes⟩

theorem ofParts_injective : Function.Injective ofParts := by
  rintro ⟨_, _, _, _, _⟩ ⟨_, _, _, _, _⟩ h
  cases h
  rfl

/-- **Read the content of a `Code` attribute.** -/
def read : Reader Code :=
  (readU2.pair <| readU2.pair <| readBlock.pair <| (readCounted HandlerEntry.read).pair <|
    readCounted Attribute.read).map ofParts

/-- **Every count of the code holds.** -/
structure Fits (c : Code) : Prop where
  code : c.code.length ≤ 4294967295
  handlers : c.handlers.length ≤ 65535
  attributes : AttributesFit c.attributes

/-- **Code is read back exactly if its counts hold.** -/
theorem readsIff (c : Code) : ReadsIff read c.bytes c c.Fits := by
  have hhandlers : ReadsIff (readCounted HandlerEntry.read)
      (Bytes.counted (c.handlers.map HandlerEntry.bytes)) c.handlers
      (c.handlers.length ≤ 65535 ∧ ∀ h ∈ c.handlers, True) :=
    .list (fun h => h.reads.readsIff) c.handlers
  have hparts := ReadsIff.cons (reads_u2 c.maxStack) <| .cons (reads_u2 c.maxLocals) <|
    .pair (readsIff_block c.code) <| .pair hhandlers (readsIff_attributes c.attributes)
  have hcode : ReadsIff read _ c _ := hparts.map ofParts_injective
  unfold bytes
  simp only [List.append_assoc] at hcode ⊢
  refine hcode.congr ⟨?_, ?_⟩
  · rintro ⟨hlength, ⟨hcount, -⟩, hattributes⟩
    exact ⟨hlength, hcount, hattributes⟩
  · rintro ⟨hlength, hcount, hattributes⟩
    exact ⟨hlength, ⟨hcount, fun _ _ => trivial⟩, hattributes⟩

end Code

/-- **The format is uniquely decodable.** A class file is read back from its
bytes, whatever follows them, exactly if every count in it holds. So is the
content of a `Code` attribute, and the attribute is read back with that
content exactly if four bytes can say how long it is. -/
theorem bytes_decode (file : ClassFile) (code : Code) (name : PoolIndex) :
    ReadsIff ClassFile.read file.bytes file file.Fits
      ∧ ReadsIff Code.read code.bytes code code.Fits
      ∧ ReadsIff Attribute.read (Attribute.bytes ⟨name, code.bytes⟩) ⟨name, code.bytes⟩
        (code.bytes.length ≤ 4294967295) :=
  ⟨file.readsIff, code.readsIff, Attribute.readsIff ⟨name, code.bytes⟩⟩

end BytecodeAssembler
