import BytecodeAssembler.Proofs.Bytes
import BytecodeAssembler.Proofs.Outcome
import BytecodeAssembler.StackMap.Encoding

/-!
# Reading stack maps

The reader of a stack map knows the format only: the ranges of the tags of
compact frames, the tags of types, and the counts in front of lists. It reads
a frame back exactly if the counts in the frame **hold**, that is, if they
say how many types follow. Of the compact forms only the full one has counts;
a legacy frame always has them.
-/

namespace BytecodeAssembler

/-! ## Types -/

/-- Read what follows the tag of a type. -/
def EncodedType.readTagged : Nat → Reader EncodedType
  | 0 => .pure .top
  | 1 => .pure .integer
  | 2 => .pure .float
  | 3 => .pure .double
  | 4 => .pure .long
  | 5 => .pure .null
  | 6 => .pure .uninitializedThis
  | 7 => readU2.map .object
  | 8 => readU2.map .uninitialized
  | _ => fun _ => none

/-- Read a type. -/
def EncodedType.read : Reader EncodedType := readU1.bind fun tag => readTagged tag.toNat

theorem EncodedType.reads (type : EncodedType) : Reads read type.bytes type := by
  cases type with
  | top | integer | float | double | long | null | uninitializedThis =>
    intro rest
    rfl
  | object index =>
    refine (reads_u1 7).bind ?_
    exact (reads_u2 index).map VerificationType.object
  | uninitialized offset =>
    refine (reads_u1 8).bind ?_
    exact (reads_u2 offset).map VerificationType.uninitialized

/-- Each type is read back from its bytes. -/
theorem forall₂_reads (types : List EncodedType) :
    List.Forall₂ (fun chunk type => ReadsIff EncodedType.read chunk type True)
      (types.map EncodedType.bytes) types := by
  rw [List.forall₂_map_left_iff, List.forall₂_same]
  exact fun type _ => type.reads.readsIff

/-- Types without a count are read back by their number. -/
theorem reads_types (types : List EncodedType) :
    Reads (EncodedType.read.many types.length) (types.map EncodedType.bytes).flatten types :=
  (ReadsIff.many (forall₂_reads types)).reads fun _ _ => trivial

/-- **A counted list of types is read back exactly if its count holds.** -/
theorem readsIff_types (types : List EncodedType) :
    ReadsIff (readCounted EncodedType.read) (typesBytes types) types (CountHolds types) := by
  intro rest rest'
  rw [typesBytes, ReadsIff.counted (forall₂_reads types) rest rest']
  simp only [implies_true, and_true]

/-- Read the locals and the stack of a frame. -/
def readSlots : Reader (List EncodedType × List EncodedType) :=
  (readCounted EncodedType.read).bind fun locals =>
    (readCounted EncodedType.read).map (locals, ·)

theorem readsIff_slots (locals stack : List EncodedType) :
    ReadsIff readSlots (typesBytes locals ++ typesBytes stack) (locals, stack)
      (CountHolds locals ∧ CountHolds stack) :=
  .both (fun _ _ _ _ => Prod.mk.inj) (readsIff_types locals) (readsIff_types stack)

/-! ## Compact frames -/

namespace CompactFrame

/-- Read what follows the tag of a frame. -/
def readTagged (tag : Nat) : Reader CompactFrame :=
  if tag ≤ 63 then .pure (.same (UInt16.ofNat tag))
  else if tag ≤ 127 then EncodedType.read.map (.sameOneStack (UInt16.ofNat (tag - 64)))
  else if tag ≤ 246 then fun _ => none
  else if tag = 247 then readU2.bind fun delta => EncodedType.read.map (.sameOneStack delta)
  else if tag ≤ 250 then readU2.map (.chop · (UInt8.ofNat (251 - tag)))
  else if tag = 251 then readU2.map .same
  else if tag ≤ 254 then
    readU2.bind fun delta => (EncodedType.read.many (tag - 251)).map (.append delta)
  else readU2.bind fun delta => readSlots.map fun (locals, stack) => .full delta locals stack

/-- **Read a compact frame.** -/
def read : Reader CompactFrame := readU1.bind fun tag => readTagged tag.toNat

/-- **The counts in a frame hold.** Only a full frame has any. -/
def CountsHold : CompactFrame → Prop
  | .full _ locals stack => CountHolds locals ∧ CountHolds stack
  | _ => True

theorem toNat_toUInt8 {delta : UInt16} (h : delta ≤ 63) :
    delta.toUInt8.toNat = delta.toNat ∧ delta.toNat ≤ 63 := by
  have hle : delta.toNat ≤ 63 := UInt16.le_iff_toNat_le.1 h
  rw [UInt16.toNat_toUInt8]
  omega

theorem reads_same (delta : UInt16) :
    Reads read (if delta ≤ 63 then [delta.toUInt8] else 251 :: Bytes.u2 delta) (.same delta) := by
  split
  next h =>
    obtain ⟨htag, hle⟩ := toNat_toUInt8 h
    refine (reads_u1 delta.toUInt8).bind ?_
    rw [htag, readTagged, if_pos hle, UInt16.ofNat_toNat]
    exact .pure _
  next =>
    refine (reads_u1 251).bind ?_
    exact (reads_u2 delta).map CompactFrame.same

theorem reads_sameOneStack (delta : UInt16) (item : EncodedType) :
    Reads read
      ((if delta ≤ 63 then [delta.toUInt8 + 64] else 247 :: Bytes.u2 delta) ++ item.bytes)
      (.sameOneStack delta item) := by
  split
  next h =>
    obtain ⟨htag, hle⟩ := toNat_toUInt8 h
    have htag : (delta.toUInt8 + 64).toNat = delta.toNat + 64 := by
      rw [UInt8.toNat_add, htag]
      show (delta.toNat + 64) % 256 = _
      omega
    refine (reads_u1 (delta.toUInt8 + 64)).bind ?_
    rw [htag, readTagged, if_neg (by omega), if_pos (by omega), Nat.add_sub_cancel,
      UInt16.ofNat_toNat]
    exact item.reads.map _
  next =>
    have hrest : Reads (readTagged 247) (Bytes.u2 delta ++ item.bytes)
        (.sameOneStack delta item) := by
      rw [show readTagged 247
        = readU2.bind fun delta => EncodedType.read.map (.sameOneStack delta) from rfl]
      exact (reads_u2 delta).bind (item.reads.map _)
    exact (reads_u1 247).bind hrest

theorem reads_chop {delta : UInt16} {count : UInt8} (h : 1 ≤ count ∧ count ≤ 3) :
    Reads read ((251 - count) :: Bytes.u2 delta) (.chop delta count) := by
  have hlow : 1 ≤ count.toNat := UInt8.le_iff_toNat_le.1 h.1
  have hhigh : count.toNat ≤ 3 := UInt8.le_iff_toNat_le.1 h.2
  have htag : (251 - count).toNat = 251 - count.toNat :=
    UInt8.toNat_sub_of_le _ _ (UInt8.le_iff_toNat_le.2 (Nat.le_trans hhigh (by decide)))
  refine (reads_u1 (251 - count)).bind ?_
  rw [htag, readTagged, if_neg (by omega), if_neg (by omega), if_neg (by omega),
    if_neg (by omega), if_pos (by omega), Nat.sub_sub_self (by omega), UInt8.ofNat_toNat]
  exact (reads_u2 delta).map _

theorem reads_append {delta : UInt16} {locals : List EncodedType}
    (h : 1 ≤ locals.length ∧ locals.length ≤ 3) :
    Reads read ((251 + UInt8.ofNat locals.length)
      :: (Bytes.u2 delta ++ (locals.map EncodedType.bytes).flatten)) (.append delta locals) := by
  have htag : (251 + UInt8.ofNat locals.length).toNat = 251 + locals.length := by
    rw [UInt8.toNat_add, UInt8.toNat_ofNat']
    show (251 + locals.length % 256) % 256 = _
    omega
  refine (reads_u1 _).bind ?_
  rw [htag, readTagged, if_neg (by omega), if_neg (by omega), if_neg (by omega),
    if_neg (by omega), if_neg (by omega), if_neg (by omega), if_pos (by omega),
    Nat.add_sub_cancel_left]
  exact (reads_u2 delta).bind ((reads_types locals).map _)

theorem readsIff_full (delta : UInt16) (locals stack : List EncodedType) :
    ReadsIff read (255 :: (Bytes.u2 delta ++ typesBytes locals ++ typesBytes stack))
      (.full delta locals stack) (CountHolds locals ∧ CountHolds stack) := by
  have hrest : ReadsIff (readTagged 255)
      (Bytes.u2 delta ++ (typesBytes locals ++ typesBytes stack))
      (.full delta locals stack) (CountHolds locals ∧ CountHolds stack) := by
    rw [show readTagged 255 = readU2.bind fun delta =>
      readSlots.map fun (locals, stack) => .full delta locals stack from rfl]
    refine .after (reads_u2 delta) ((readsIff_slots locals stack).map fun a b hab => ?_)
    obtain ⟨-, hlocals, hstack⟩ := CompactFrame.full.inj hab
    exact Prod.ext hlocals hstack
  rw [List.append_assoc]
  exact .after (reads_u1 255) hrest

/-- **A frame is read back exactly if its counts hold.** -/
theorem readsIff {f : CompactFrame} {bytes : Bytes} (h : f.bytes = .ok bytes) :
    ReadsIff read bytes f f.CountsHold := by
  cases f with
  | same delta =>
    cases h
    exact (reads_same delta).readsIff
  | sameOneStack delta item =>
    cases h
    exact (reads_sameOneStack delta item).readsIff
  | chop delta count =>
    simp only [CompactFrame.bytes] at h
    split at h
    next hfew =>
      cases h
      exact (reads_chop hfew).readsIff
    next => cases h
  | append delta locals =>
    simp only [CompactFrame.bytes] at h
    split at h
    next hfew =>
      cases h
      exact (reads_append hfew).readsIff
    next => cases h
  -- the other forms have no counts that could fail to hold
  | full delta locals stack =>
    cases h
    exact readsIff_full delta locals stack

end CompactFrame

/-! ## Legacy frames -/

namespace LegacyFrame

/-- **Read a legacy frame.** -/
def read : Reader LegacyFrame :=
  readU2.bind fun offset => readSlots.map fun (locals, stack) => ⟨offset, locals, stack⟩

/-- **The counts in a frame hold.** -/
def CountsHold (f : LegacyFrame) : Prop := CountHolds f.locals ∧ CountHolds f.stack

/-- **A frame is read back exactly if its counts hold.** -/
theorem readsIff (f : LegacyFrame) : ReadsIff read f.bytes f f.CountsHold := by
  unfold LegacyFrame.bytes
  rw [List.append_assoc]
  refine .after (reads_u2 f.offset) ?_
  refine (readsIff_slots f.locals f.stack).map fun a b hab => ?_
  obtain ⟨-, hlocals, hstack⟩ := LegacyFrame.mk.inj hab
  exact Prod.ext hlocals hstack

end LegacyFrame

/-! ## Whole tables -/

/-- **The frames of a stack map**, in the form in which they are written. -/
inductive StackMapTable where
  | compact (frames : List CompactFrame)
  | legacy (frames : List LegacyFrame)
  deriving DecidableEq, Repr

namespace StackMapTable

/-- The number of frames. -/
def length : StackMapTable → Nat
  | .compact frames => frames.length
  | .legacy frames => frames.length

/-- **The bytes of a table**: its frames with their number in front. -/
def bytes : StackMapTable → Except Fault Bytes
  | .compact frames => (frames.mapM CompactFrame.bytes).map Bytes.counted
  | .legacy frames => .ok (Bytes.counted (frames.map LegacyFrame.bytes))

/-- **Every count in a table holds**: the number of frames, and those in each
frame. -/
def CountsHold : StackMapTable → Prop
  | .compact frames => CountHolds frames ∧ ∀ f ∈ frames, f.CountsHold
  | .legacy frames => CountHolds frames ∧ ∀ f ∈ frames, f.CountsHold

/-- **Read a table** of the given form. -/
def read : StackMapForm → Reader StackMapTable
  | .compact => (readCounted CompactFrame.read).map .compact
  | .legacy => (readCounted LegacyFrame.read).map .legacy

/-- The form that a table is in. -/
def form : StackMapTable → StackMapForm
  | .compact _ => .compact
  | .legacy _ => .legacy

/-- **A table is read back exactly if all its counts hold.** -/
theorem readsIff {table : StackMapTable} {bytes : Bytes} (h : table.bytes = .ok bytes) :
    ReadsIff (read table.form) bytes table table.CountsHold := by
  cases table with
  | compact frames =>
    obtain ⟨items, hitems, rfl⟩ := map_eq_ok_iff.1 h
    have hframes := (mapM_eq_ok_iff.1 hitems).flip.imp fun _ _ => CompactFrame.readsIff
    exact (ReadsIff.counted hframes).map fun _ _ => StackMapTable.compact.inj
  | legacy frames =>
    cases h
    have hframes : List.Forall₂ (fun chunk f => ReadsIff LegacyFrame.read chunk f f.CountsHold)
        (frames.map LegacyFrame.bytes) frames := by
      rw [List.forall₂_map_left_iff, List.forall₂_same]
      exact fun f _ => f.readsIff
    exact (ReadsIff.counted hframes).map fun _ _ => StackMapTable.legacy.inj

end StackMapTable

end BytecodeAssembler
