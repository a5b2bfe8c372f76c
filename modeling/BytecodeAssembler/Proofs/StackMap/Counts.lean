import BytecodeAssembler.Body.Encoding
import BytecodeAssembler.Proofs.ClassFile.Decoding
import BytecodeAssembler.Proofs.StackMap.Decoding
import BytecodeAssembler.Proofs.StackMap.Legacy

/-!
# The counts of a stack map

A body does not have more frames than two bytes can count, but nobody counts
the locals and the stack of a frame. Where a frame is **spelled out**, as
every frame of the legacy form is and every frame of the compact form that is
no small change, its lists are written with a count that keeps the low
sixteen bits only. So the counts of a stack map hold exactly if the frames
that are spelled out are not too long, and then, but only then, the attribute
can be read back.
-/

namespace BytecodeAssembler

variable {pool : ConstantPool} {labels : LabelTable}

/-! ## Frames that are spelled out -/

/-- The lists of a frame are no longer than two bytes can count. -/
def ResolvedFrame.Fits (f : ResolvedFrame) : Prop :=
  f.locals.length ≤ 65535 ∧ f.stack.length ≤ 65535

/-- The frames that the compact form spells out, after a frame with the given
locals. -/
def spelledFrom : List ResolvedType → List ResolvedFrame → List ResolvedFrame
  | _, [] => []
  | previous, f :: rest =>
    if IsChange previous f.locals f.stack then spelledFrom f.locals rest
    else f :: spelledFrom f.locals rest

/-- **The frames that are spelled out.** The legacy form knows nothing
else. -/
def spelledOut (form : StackMapForm) (entry : List ResolvedType)
    (frames : List ResolvedFrame) : List ResolvedFrame :=
  match form with
  | .compact => spelledFrom entry frames
  | .legacy => frames

/-- The counts of a frame hold if it is a change, which has none, or if its
lists are not too long. -/
theorem FrameForm.countsHold_iff {delta : UInt16} {previous locals stack : List ResolvedType}
    {f : CompactFrame} (h : FrameForm pool delta previous locals stack f) :
    f.CountsHold
      ↔ IsChange previous locals stack ∨ locals.length ≤ 65535 ∧ stack.length ≤ 65535 := by
  cases h with
  | same => exact iff_of_true trivial (.inl (.inl ⟨rfl, Nat.zero_le 1⟩))
  | sameOneStack => exact iff_of_true trivial (.inl (.inl ⟨rfl, Nat.le_refl 1⟩))
  | @append added _ _ hfew =>
    refine iff_of_true trivial (.inl (.inr ⟨rfl, .inl ⟨List.prefix_append _ _, ?_⟩⟩))
    rw [List.length_append]
    omega
  | @chop _ dropped hprevious hfew =>
    subst hprevious
    refine iff_of_true trivial (.inl (.inr ⟨rfl, .inr ⟨List.prefix_append _ _, ?_⟩⟩))
    rw [List.length_append]
    omega
  | @full _ _ locals' stack' hlocals hstack hnot =>
    rw [or_iff_right hnot]
    show CountHolds locals' ∧ CountHolds stack' ↔ _
    rw [countHolds_iff, countHolds_iff, length_of_mapM hlocals, length_of_mapM hstack]

/-- **The counts of compact frames hold exactly if the frames spelled out
are not too long.** -/
theorem Compacts.countsHold_iff {previous : List ResolvedType} {before : Option UInt16}
    {frames : List ResolvedFrame} {table : List CompactFrame}
    (h : Compacts pool previous before frames table) :
    (∀ f ∈ table, f.CountsHold) ↔ ∀ f ∈ spelledFrom previous frames, f.Fits := by
  induction h with
  | nil => exact iff_of_true nofun nofun
  | @cons previous locals stack _ _ _ _ _ _ _ hform _ ih =>
    rw [List.forall_mem_cons, ih, (frameForm_selectFrame hform).countsHold_iff, spelledFrom]
    by_cases hchange : IsChange previous locals stack
    · rw [if_pos hchange, iff_true_intro (Or.inl hchange), true_and]
    · rw [if_neg hchange, or_iff_right hchange, List.forall_mem_cons]
      rfl

/-- What a legacy frame means, and when its counts hold. -/
theorem Frame.resolve_of_toLegacy {f : Frame} {l : LegacyFrame}
    (h : f.toLegacy pool labels = .ok l) :
    ∃ r, f.resolve labels = .ok r ∧ (l.CountsHold ↔ r.Fits) := by
  obtain ⟨r, hr, -, hlocals, hstack⟩ := Frame.encodes_of_toLegacy h
  refine ⟨r, hr, ?_⟩
  show CountHolds l.locals ∧ CountHolds l.stack ↔ _
  rw [countHolds_iff, countHolds_iff, length_of_mapM hlocals, length_of_mapM hstack]
  rfl

theorem exists_resolve_of_toLegacy {frames : List Frame} {table : List LegacyFrame}
    (h : frames.mapM (·.toLegacy pool labels) = .ok table) :
    ∃ resolved, frames.mapM (·.resolve labels) = .ok resolved
      ∧ ((∀ l ∈ table, l.CountsHold) ↔ ∀ r ∈ resolved, r.Fits) := by
  have hall := mapM_eq_ok_iff.1 h
  clear h
  induction hall with
  | nil => exact ⟨[], rfl, iff_of_true nofun nofun⟩
  | cons hframe _ ih =>
    obtain ⟨r, hr, hfits⟩ := Frame.resolve_of_toLegacy hframe
    obtain ⟨resolved, hresolved, hiff⟩ := ih
    refine ⟨r :: resolved, ?_, ?_⟩
    · rw [List.mapM_cons, hr, hresolved]
      rfl
    · rw [List.forall_mem_cons, List.forall_mem_cons, hfits, hiff]

/-! ## Tables -/

/-- **The frames of a body in the form in which they are written.** -/
def stackMapTable (form : StackMapForm) (frames : List Frame) (initial : List DeclaredType)
    (pool : ConstantPool) (labels : LabelTable) : Except Fault StackMapTable :=
  match form with
  | .compact => (compactFrames frames initial pool labels).map .compact
  | .legacy => (legacyFrames frames pool labels).map .legacy

variable {form : StackMapForm} {frames : List Frame} {initial : List DeclaredType}
  {table : StackMapTable}

theorem form_of_stackMapTable (h : stackMapTable form frames initial pool labels = .ok table) :
    table.form = form := by
  cases form with
  | compact =>
    obtain ⟨compact, -, rfl⟩ := map_eq_ok_iff.1 h
    rfl
  | legacy =>
    obtain ⟨legacy, -, rfl⟩ := map_eq_ok_iff.1 h
    rfl

/-- **The attribute of a stack map holds the bytes of its table.** -/
theorem bytes_of_encodeStackMap {a : Attribute}
    (h : encodeStackMap form frames initial pool labels = .ok a) :
    ∃ table, stackMapTable form frames initial pool labels = .ok table
      ∧ table.bytes = .ok a.info ∧ pool.utf8Index form.attributeName = .ok a.name := by
  cases form with
  | compact =>
    obtain ⟨compact, hcompact, h⟩ := bind_eq_ok_iff.1 h
    obtain ⟨name, hname, h⟩ := bind_eq_ok_iff.1 h
    obtain ⟨items, hitems, h⟩ := bind_eq_ok_iff.1 h
    obtain ⟨rfl, -⟩ := Attribute.make_eq_ok_iff.1 h
    exact ⟨.compact compact, map_eq_ok_iff.2 ⟨compact, hcompact, rfl⟩,
      map_eq_ok_iff.2 ⟨items, hitems, rfl⟩, hname⟩
  | legacy =>
    obtain ⟨legacy, hlegacy, h⟩ := bind_eq_ok_iff.1 h
    obtain ⟨name, hname, h⟩ := bind_eq_ok_iff.1 h
    obtain ⟨rfl, -⟩ := Attribute.make_eq_ok_iff.1 h
    exact ⟨.legacy legacy, map_eq_ok_iff.2 ⟨legacy, hlegacy, rfl⟩, rfl, hname⟩

/-- **The counts of a table hold exactly if there are not too many frames**
and those spelled out are not too long. -/
theorem countsHold_of_stackMapTable
    (h : stackMapTable form frames initial pool labels = .ok table) :
    ∃ entry resolved, (form = .compact → resolveTypes initial labels = .ok entry)
      ∧ frames.mapM (·.resolve labels) = .ok resolved ∧ table.length = frames.length
      ∧ (table.CountsHold
        ↔ frames.length ≤ 65535 ∧ ∀ f ∈ spelledOut form entry resolved, f.Fits) := by
  cases form with
  | compact =>
    obtain ⟨compact, hcompact, rfl⟩ := map_eq_ok_iff.1 h
    obtain ⟨entry, hentry, hcompact⟩ := bind_eq_ok_iff.1 hcompact
    obtain ⟨tail, resolved, htail, hresolved, hcompacts⟩ := compacts_of_compactFrom hcompact
    obtain rfl : compact = tail := htail
    have hlength : compact.length = frames.length :=
      hcompacts.length_eq.trans (length_of_mapM hresolved)
    refine ⟨entry, resolved, fun _ => hentry, hresolved, hlength, ?_⟩
    show CountHolds compact ∧ (∀ f ∈ compact, f.CountsHold) ↔ _
    rw [countHolds_iff, hlength, hcompacts.countsHold_iff]
    rfl
  | legacy =>
    obtain ⟨legacy, hlegacy, rfl⟩ := map_eq_ok_iff.1 h
    obtain ⟨unsorted, hunsorted, hsort⟩ := bind_eq_ok_iff.1 hlegacy
    cases hsort
    -- here all frames are spelled out, and sorting them changes neither counts nor lengths
    obtain ⟨resolved, hresolved, hiff⟩ := exists_resolve_of_toLegacy hunsorted
    have hlength : (unsorted.mergeSort fun a b => a.offset ≤ b.offset).length
        = frames.length := (List.length_mergeSort _).trans (length_of_mapM hunsorted)
    refine ⟨[], resolved, nofun, hresolved, hlength, ?_⟩
    show CountHolds _ ∧ (∀ f ∈ unsorted.mergeSort _, f.CountsHold) ↔ _
    rw [countHolds_iff, hlength]
    simp only [List.mem_mergeSort, hiff]
    rfl

/-! ## The stack map of a body -/

namespace Body

variable {b : Body} {context : BodyContext} {code : Code}

/-- A body with frames has them in one of its attributes, and not more than
two bytes can count. -/
theorem frames_of_encode (h : (b.encode pool context).2 = .ok code) (hframes : b.frames ≠ #[]) :
    b.frames.size ≤ 65535 ∧ ∃ a ∈ code.attributes,
      encodeStackMap context.form b.frames.toList context.initialLocals pool
        (b.encode pool context).1.labels = .ok a := by
  obtain ⟨⟨starts, length⟩, -, h⟩ := bind_eq_ok_iff.1 h
  obtain ⟨bytes, -, h⟩ := bind_eq_ok_iff.1 h
  obtain ⟨handlers, -, h⟩ := bind_eq_ok_iff.1 h
  obtain ⟨-, -, h⟩ := bind_eq_ok_iff.1 h
  obtain ⟨attributes, hattributes, h⟩ := bind_eq_ok_iff.1 h
  cases h
  obtain ⟨lines, -, h⟩ := iteBind_eq_ok_iff.1 hattributes
  obtain ⟨locals, -, h⟩ := iteBind_eq_ok_iff.1 h
  obtain ⟨frames, hencode, h⟩ := iteBind_eq_ok_iff.1 h
  obtain ⟨custom, -, h⟩ := bind_eq_ok_iff.1 h
  obtain ⟨-, -, h⟩ := bind_eq_ok_iff.1 h
  cases h
  rw [if_neg fun hempty => hframes (Array.isEmpty_iff.1 hempty)] at hencode
  obtain ⟨a, ha, rfl⟩ := map_eq_ok_iff.1 hencode
  obtain ⟨_, hcount, ha⟩ := bind_eq_ok_iff.1 ha
  refine ⟨checkCount_eq_ok_iff.1 hcount, a, ?_, ha⟩
  simp only [List.mem_append, List.mem_singleton, true_or, or_true]

/-- **When the counts of a stack map hold.** The frames of a body are written
in one of its attributes, as a table with one entry for each of them, and
there are never more than two bytes can count. Reading the attribute gives
the table back exactly if every count in it holds, and that is so exactly if
no frame that is spelled out has more than 65535 locals or stack items. -/
theorem stackMap_counts (b : Body) (pool : ConstantPool) (context : BodyContext) (code : Code)
    (hframes : b.frames ≠ #[]) (h : (b.encode pool context).2 = .ok code) :
    ∃ table entry resolved, ∃ a ∈ code.attributes,
      pool.utf8Index context.form.attributeName = .ok a.name
      ∧ stackMapTable context.form b.frames.toList context.initialLocals pool
        (b.encode pool context).1.labels = .ok table
      ∧ table.bytes = .ok a.info
      ∧ table.length = b.frames.size ∧ b.frames.size ≤ 65535
      ∧ (context.form = .compact →
        resolveTypes context.initialLocals (b.encode pool context).1.labels = .ok entry)
      ∧ b.frames.toList.mapM (·.resolve (b.encode pool context).1.labels) = .ok resolved
      ∧ (StackMapTable.read context.form a.info = some (table, []) ↔ table.CountsHold)
      ∧ (table.CountsHold ↔ ∀ f ∈ spelledOut context.form entry resolved, f.Fits) := by
  obtain ⟨hcount, a, ha, hencode⟩ := frames_of_encode h hframes
  obtain ⟨table, htable, hbytes, hname⟩ := bytes_of_encodeStackMap hencode
  obtain ⟨entry, resolved, hentry, hresolved, hlength, hcounts⟩ :=
    countsHold_of_stackMapTable htable
  rw [Array.length_toList] at hlength hcounts
  refine ⟨table, entry, resolved, a, ha, hname, htable, hbytes, hlength, hcount, hentry,
    hresolved, ?_, ?_⟩
  · have hread := StackMapTable.readsIff hbytes [] []
    rw [List.append_nil, form_of_stackMapTable htable] at hread
    rw [hread, and_iff_left rfl]
  · rw [hcounts, and_iff_right hcount]

/-! ## A frame with many locals -/

/-- A body that returns at once, with a frame that has `n` locals. -/
def wideBody (n : Nat) : Body :=
  { Body.empty.push ⟨⟨"return", 0xb1, .none⟩, .none⟩ with
    frames := #[⟨.offset 0, Array.replicate n .top, #[]⟩] }

/-- A pool with the name of the attribute. -/
def widePool : ConstantPool := .ofEntries [.utf8 "StackMapTable"]

theorem lists_wide : ConstantPool.Lists [.utf8 "StackMapTable"] [.utf8 "StackMapTable"] :=
  ⟨by decide, by decide⟩

/-- The attribute of that body, with its one frame in full. -/
def wideInfo (n : Nat) : Bytes :=
  Bytes.counted [255 :: (Bytes.u2 0 ++ typesBytes (List.replicate n .top) ++ typesBytes [])]

/-- The code of that body. -/
def wideCode (n : Nat) : Code where
  maxStack := 1
  maxLocals := 0
  code := [0xb1]
  handlers := []
  attributes := [⟨1, wideInfo n⟩]

/-- The bytes of the attribute: the number of frames, the tag, the distance,
the number of locals, a byte for each of them, and the number of stack
items. -/
theorem wideInfo_eq (n : Nat) : wideInfo n
    = [0, 1, 255, 0, 0] ++ (Bytes.u2 (UInt16.ofNat n) ++ (List.replicate n 0 ++ [0, 0])) := by
  have hlocals : typesBytes (List.replicate n .top)
      = Bytes.u2 (UInt16.ofNat n) ++ List.replicate n 0 := by
    unfold typesBytes Bytes.counted
    rw [List.map_replicate, List.length_replicate, show EncodedType.bytes .top = [0] from rfl,
      List.flatten_replicate_singleton]
  have hcount : Bytes.u2 (UInt16.ofNat 1) = [0, 1] := by decide
  have hdelta : Bytes.u2 0 = [0, 0] := by decide
  have hstack : typesBytes [] = [0, 0] := by decide
  unfold wideInfo Bytes.counted
  rw [List.length_singleton, List.flatten_singleton, hlocals, hcount, hdelta, hstack]
  simp only [List.append_assoc, List.cons_append, List.nil_append]

theorem compactFrames_wideBody {n : Nat} (hn : 3 < n) :
    compactFrames (wideBody n).frames.toList [] widePool .empty
      = .ok [.full 0 (List.replicate n .top) []] := by
  have hlocals : resolveTypes (Array.replicate n (.top : DeclaredType)).toList .empty
      = .ok (List.replicate n .top) := by
    rw [Array.toList_replicate]
    exact mapM_replicate (f := fun type : DeclaredType => type.resolve .empty) rfl n
  have htypes : encodeTypes (List.replicate n (.top : ResolvedType)) widePool
      = .ok (List.replicate n .top) :=
    mapM_replicate (f := fun type : ResolvedType => type.encode widePool) rfl n
  have hlength : (List.replicate n (.top : ResolvedType)).length = n := List.length_replicate
  -- too many locals were added for any form but the full one
  have hselect : selectFrame 0 [] (List.replicate n .top) [] widePool
      = .ok (.full 0 (List.replicate n .top) []) := by
    have hne : [] ≠ List.replicate n (.top : ResolvedType) := by
      intro h
      rw [← h, List.length_nil] at hlength
      omega
    have hmany : ¬(List.replicate n (.top : ResolvedType)).length
        - ([] : List ResolvedType).length ≤ 3 := by
      rw [hlength, List.length_nil]
      omega
    unfold selectFrame
    dsimp only
    rw [if_neg hne, if_neg fun h => hmany h.2.1, if_neg fun h => Nat.not_lt_zero _ h.1,
      fullFrame, htypes]
    rfl
  show (resolveTypes (Array.replicate n (.top : DeclaredType)).toList .empty >>= _) = _
  rw [hlocals]
  show (selectFrame 0 [] (List.replicate n .top) [] widePool >>= _) = _
  rw [hselect]
  rfl

theorem encode_wideBody {n : Nat} (hn : 3 < n) (hfits : n ≤ 65536) :
    ((wideBody n).encode widePool ⟨.compact, [], 0⟩).2 = .ok (wideCode n) := by
  have hname : widePool.utf8Index "StackMapTable" = .ok 1 := lists_wide.indexOf 0 rfl rfl
  have hmake : Attribute.make 1 (wideInfo n) = .ok ⟨1, wideInfo n⟩ := by
    refine if_pos ?_
    simp only [wideInfo_eq, List.length_append, List.length_replicate, Bytes.u2, List.length_cons,
      List.length_nil]
    omega
  have hframes : (wideBody n).encodeFrames widePool ⟨.compact, [], 0⟩
      = .ok ⟨1, wideInfo n⟩ := by
    show (compactFrames (wideBody n).frames.toList [] widePool .empty >>= _) = _
    rw [compactFrames_wideBody hn]
    show (widePool.utf8Index "StackMapTable" >>= _) = _
    rw [hname]
    exact hmake
  have hattributes : (wideBody n).encodeAttributes widePool ⟨.compact, [], 0⟩
      = .ok [⟨1, wideInfo n⟩] := by
    show (((wideBody n).encodeFrames widePool ⟨.compact, [], 0⟩).map ([·]) >>= _) = _
    rw [hframes]
    rfl
  show ((wideBody n).encodeAttributes widePool ⟨.compact, [], 0⟩ >>= _) = _
  rw [hattributes]
  rfl

theorem stackMapTable_wideBody {n : Nat} (hn : 3 < n) :
    stackMapTable .compact (wideBody n).frames.toList [] widePool .empty
      = .ok (.compact [.full 0 (List.replicate n .top) []]) :=
  map_eq_ok_iff.2 ⟨_, compactFrames_wideBody hn, rfl⟩

/-- With 65535 locals the frame is read back. -/
theorem stackMap_counts_full :
    ((wideBody 65535).encode widePool ⟨.compact, [], 0⟩).2 = .ok (wideCode 65535)
      ∧ StackMapTable.read .compact (wideInfo 65535)
        = some (.compact [.full 0 (List.replicate 65535 .top) []], []) := by
  have hencode := encode_wideBody (n := 65535) (by decide) (by decide)
  have hframes : (wideBody 65535).frames ≠ #[] := fun h => nomatch congrArg Array.size h
  obtain ⟨table, entry, resolved, a, ha, -, htable, -, -, -, -, -, hread, -⟩ :=
    stackMap_counts _ _ _ _ hframes hencode
  obtain rfl : a = ⟨1, wideInfo 65535⟩ := List.mem_singleton.1 ha
  obtain rfl : StackMapTable.compact [.full 0 (List.replicate 65535 .top) []] = table :=
    Except.ok.inj ((stackMapTable_wideBody (by decide)).symm.trans htable)
  refine ⟨hencode, hread.2 ⟨rfl, List.forall_mem_singleton.2 ⟨?_, rfl⟩⟩⟩
  exact countHolds_iff.2 (Nat.le_of_eq List.length_replicate)

/-- An attribute in which the number of locals is zero is read as a frame
without locals, and two of the bytes behind it are taken for the number of
stack items. -/
theorem read_wideInfo {n : Nat} (hn : UInt16.ofNat n = 0) :
    StackMapTable.read .compact (wideInfo n)
      = some (.compact [.full 0 [] []], List.replicate n 0) := by
  have hempty : (StackMapTable.compact [.full 0 [] []]).bytes
      = .ok [0, 1, 255, 0, 0, 0, 0, 0, 0] := rfl
  have hread : Reads (StackMapTable.read .compact) [0, 1, 255, 0, 0, 0, 0, 0, 0]
      (.compact [.full 0 [] []]) :=
    (StackMapTable.readsIff hempty).reads ⟨rfl, List.forall_mem_singleton.2 ⟨rfl, rfl⟩⟩
  have hzeros : List.replicate n (0 : UInt8) ++ [0, 0] = [0, 0] ++ List.replicate n 0 := by
    show List.replicate n (0 : UInt8) ++ List.replicate 2 0
      = List.replicate 2 0 ++ List.replicate n 0
    rw [List.replicate_append_replicate, List.replicate_append_replicate, Nat.add_comm]
  have hcount : Bytes.u2 0 = [0, 0] := by decide
  rw [wideInfo_eq, hn, hcount, hzeros]
  exact hread (List.replicate n 0)

/-- **With one local more their count is zero.** The attribute is read as a
frame without locals, and behind it 65536 bytes are left over. -/
theorem stackMap_counts_wide :
    ((wideBody 65536).encode widePool ⟨.compact, [], 0⟩).2 = .ok (wideCode 65536)
      ∧ stackMapTable .compact (wideBody 65536).frames.toList [] widePool .empty
        = .ok (.compact [.full 0 (List.replicate 65536 .top) []])
      ∧ StackMapTable.read .compact (wideInfo 65536)
        = some (.compact [.full 0 [] []], List.replicate 65536 0) :=
  ⟨encode_wideBody (by decide) (by decide), stackMapTable_wideBody (by decide),
    read_wideInfo (by decide)⟩

end Body

end BytecodeAssembler
