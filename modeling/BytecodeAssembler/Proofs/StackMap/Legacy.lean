import BytecodeAssembler.Proofs.StackMap.Compaction
import Mathlib.Data.List.Nodup
import Mathlib.Data.List.Perm.Basic

/-!
# Legacy frames

A legacy frame says everything itself: its own offset, all locals and the
whole stack. So frames can be declared in any order, and the table has them
**stably sorted** by offset: the same frames, by ascending offset, and those
at one offset in the order in which they were declared. Where no two frames
have the same offset, the order of declaration makes no difference at all.

The compact form takes frames in ascending order only. There the sorting has
nothing left to do, so that both forms say the same: expanded, a compact table
is the legacy table, frame by frame.
-/

namespace BytecodeAssembler

/-! ## Stable sorting -/

section StableSort

variable {α : Type} {key : α → Nat}

/-- **The items of a list sorted by a key**, where those with the same key
keep their order. -/
structure IsStableSort (key : α → Nat) (items sorted : List α) : Prop where
  /-- Sorting neither drops nor adds anything. -/
  perm : sorted.Perm items
  /-- The keys do not descend. -/
  ascending : (sorted.map key).Pairwise (· ≤ ·)
  /-- The items with one key stand in their old order. -/
  stable : ∀ k, sorted.filter (key · = k) = items.filter (key · = k)

/-- **Merge sort is stable.** -/
theorem isStableSort_mergeSort (key : α → Nat) (items : List α) :
    IsStableSort key items (items.mergeSort fun a b => key a ≤ key b) := by
  have htrans : ∀ a b c : α, decide (key a ≤ key b) → decide (key b ≤ key c) →
      decide (key a ≤ key c) := by
    simp only [decide_eq_true_eq]
    exact fun _ _ _ => Nat.le_trans
  have htotal : ∀ a b : α, decide (key a ≤ key b) || decide (key b ≤ key a) := by
    simp only [Bool.or_eq_true, decide_eq_true_eq]
    exact fun a b => Nat.le_total (key a) (key b)
  have hperm := List.mergeSort_perm items fun a b => key a ≤ key b
  refine ⟨hperm, ?_, fun k => ?_⟩
  · rw [List.pairwise_map]
    exact (List.pairwise_mergeSort htrans htotal items).imp of_decide_eq_true
  · -- the items with key `k` are sorted already, so sorting keeps them in this order
    have hsorted : (items.filter (key · = k)).Pairwise fun a b => decide (key a ≤ key b) := by
      refine List.pairwise_of_forall_mem_list fun a ha b hb => decide_eq_true ?_
      have hkey : ∀ c ∈ items.filter (key · = k), key c = k := fun c hc =>
        of_decide_eq_true (List.mem_filter.1 hc).2
      exact Nat.le_of_eq ((hkey a ha).trans (hkey b hb).symm)
    have hsub := (List.sublist_mergeSort htrans htotal hsorted List.filter_sublist).filter
      (key · = k)
    rw [List.filter_filter] at hsub
    simp only [Bool.and_self] at hsub
    exact (hsub.eq_of_length (hperm.filter (key · = k)).length_eq.symm).symm

/-- **Where no two items have the same key, their order does not matter**:
however they were arranged, sorted they are the same list. -/
theorem IsStableSort.eq_of_nodup {items items' sorted sorted' : List α}
    (h : IsStableSort key items sorted) (h' : IsStableSort key items' sorted')
    (hperm : items.Perm items') (hnodup : (items.map key).Nodup) : sorted = sorted' := by
  have hsame : sorted.Perm sorted' := h.perm.trans (hperm.trans h'.perm.symm)
  refine hsame.eq_of_pairwise (fun a b ha hb hab hba => ?_) (List.pairwise_map.1 h.ascending)
    (List.pairwise_map.1 h'.ascending)
  have hb' : b ∈ items := h.perm.mem_iff.1 (hsame.mem_iff.2 hb)
  exact List.inj_on_of_nodup_map hnodup (h.perm.mem_iff.1 ha) hb' (Nat.le_antisymm hab hba)

end StableSort

/-! ## What legacy frames mean -/

variable {pool : ConstantPool} {labels : LabelTable}

/-- **What a legacy frame means**, with its classes read through the pool. -/
def LegacyFrame.expand? (pool : ConstantPool) (f : LegacyFrame) : Option ResolvedFrame := do
  let locals ← f.locals.mapM (EncodedType.read? pool)
  let stack ← f.stack.mapM (EncodedType.read? pool)
  return ⟨f.offset.toNat, locals, stack⟩

/-- A legacy frame has the offset of the declared frame and encodes its
types. -/
theorem Frame.encodes_of_toLegacy {f : Frame} {l : LegacyFrame}
    (h : f.toLegacy pool labels = .ok l) :
    ∃ r, f.resolve labels = .ok r ∧ l.offset.toNat = r.offset
      ∧ encodeTypes r.locals pool = .ok l.locals ∧ encodeTypes r.stack pool = .ok l.stack := by
  obtain ⟨offset, hoffset, h⟩ := bind_eq_ok_iff.1 h
  obtain ⟨locals, hlocals, h⟩ := bind_eq_ok_iff.1 h
  obtain ⟨locals', hlocals', h⟩ := bind_eq_ok_iff.1 h
  obtain ⟨stack, hstack, h⟩ := bind_eq_ok_iff.1 h
  obtain ⟨stack', hstack', h⟩ := bind_eq_ok_iff.1 h
  cases h
  exact ⟨⟨offset.toNat, locals, stack⟩,
    Frame.resolve_eq_ok_iff.2 ⟨offset, hoffset, locals, hlocals, stack, hstack, rfl⟩, rfl,
    hlocals', hstack'⟩

/-- **A legacy frame means what was declared.** -/
theorem LegacyFrame.expand?_eq_some (hpool : pool.Reachable) {l : LegacyFrame}
    {r : ResolvedFrame} (hoffset : l.offset.toNat = r.offset)
    (hlocals : encodeTypes r.locals pool = .ok l.locals)
    (hstack : encodeTypes r.stack pool = .ok l.stack) : l.expand? pool = some r := by
  rw [expand?, mapM_read?_of_encodeTypes hpool hlocals, mapM_read?_of_encodeTypes hpool hstack,
    hoffset]
  rfl

/-- Legacy frames stand at the offsets of the declared frames and mean what
was declared. -/
theorem resolve_of_mapM_toLegacy {frames : List Frame} {lowered : List LegacyFrame}
    (h : frames.mapM (·.toLegacy pool labels) = .ok lowered) :
    ∃ resolved, frames.mapM (·.resolve labels) = .ok resolved
      ∧ lowered.map (·.offset.toNat) = resolved.map ResolvedFrame.offset
      ∧ (pool.Reachable → lowered.mapM (LegacyFrame.expand? pool) = some resolved) := by
  have hall := mapM_eq_ok_iff.1 h
  clear h
  induction hall with
  | nil => exact ⟨[], rfl, rfl, fun _ => rfl⟩
  | cons hframe _ ih =>
    obtain ⟨r, hr, hoffset, hlocals, hstack⟩ := Frame.encodes_of_toLegacy hframe
    obtain ⟨resolved, hresolved, hoffsets, hmeaning⟩ := ih
    refine ⟨r :: resolved, ?_, ?_, fun hpool => ?_⟩
    · rw [List.mapM_cons, hr, hresolved]
      rfl
    · rw [List.map_cons, List.map_cons, hoffset, hoffsets]
    · rw [List.mapM_cons, LegacyFrame.expand?_eq_some hpool hoffset hlocals hstack,
        hmeaning hpool]
      rfl

/-! ## The table of legacy frames -/

/-- **Legacy frames are the declared frames, stably sorted by offset.** -/
theorem exists_legacyFrames {frames : List Frame} {lowered : List LegacyFrame}
    (h : frames.mapM (·.toLegacy pool labels) = .ok lowered) :
    ∃ table, legacyFrames frames pool labels = .ok table
      ∧ IsStableSort (·.offset.toNat) lowered table := by
  refine ⟨_, bind_eq_ok_iff.2 ⟨lowered, h, rfl⟩, ?_⟩
  simp only [UInt16.le_iff_toNat_le]
  exact isStableSort_mergeSort _ lowered

/-- **Legacy frames are stably sorted and agree with the compact form.** The
legacy table is the list of the declared frames with labels and classes
resolved, stably sorted by offset. If no two frames have the same offset, any
other order of declaration gives the same table. And where the frames can be
compacted too, whatever the locals on entry, expanding the compact table gives
the offsets, locals and stacks of the legacy table, frame by frame. -/
theorem legacyFrames_stableSort (frames : List Frame) (pool : ConstantPool)
    (labels : LabelTable) (table : List LegacyFrame)
    (h : legacyFrames frames pool labels = .ok table) :
    ∃ lowered resolved, frames.mapM (·.toLegacy pool labels) = .ok lowered
      ∧ frames.mapM (·.resolve labels) = .ok resolved
      ∧ IsStableSort (·.offset.toNat) lowered table
      ∧ ((resolved.map ResolvedFrame.offset).Nodup → ∀ frames', frames'.Perm frames →
          legacyFrames frames' pool labels = .ok table)
      ∧ (pool.Reachable → lowered.mapM (LegacyFrame.expand? pool) = some resolved
        ∧ ∀ initial compact, compactFrames frames initial pool labels = .ok compact →
          ∃ entry, resolveTypes initial labels = .ok entry
            ∧ expandFrames pool entry compact = some resolved
            ∧ table.mapM (LegacyFrame.expand? pool) = some resolved) := by
  obtain ⟨lowered, hlowered, -⟩ := bind_eq_ok_iff.1 h
  obtain ⟨table', htable', hsort⟩ := exists_legacyFrames hlowered
  obtain rfl : table = table' := Except.ok.inj (h.symm.trans htable')
  obtain ⟨resolved, hresolved, hoffsets, hmeaning⟩ := resolve_of_mapM_toLegacy hlowered
  refine ⟨lowered, resolved, hlowered, hresolved, hsort, fun hnodup frames' hperm => ?_,
    fun hpool => ⟨hmeaning hpool, fun initial compact hcompact => ?_⟩⟩
  · obtain ⟨lowered', hlowered', hperm'⟩ :=
      List.perm_comp_forall₂ hperm (mapM_eq_ok_iff.1 hlowered)
    obtain ⟨table', htable', hsort'⟩ := exists_legacyFrames (mapM_eq_ok_iff.2 hlowered')
    rw [htable', hsort.eq_of_nodup hsort' hperm'.symm (hoffsets ▸ hnodup)]
  · obtain ⟨entry, hentry, hcompact⟩ := bind_eq_ok_iff.1 hcompact
    obtain ⟨tail, resolved', htail, hresolved', hcompacts⟩ := compacts_of_compactFrom hcompact
    obtain rfl : compact = tail := htail
    obtain rfl : resolved = resolved' := Except.ok.inj (hresolved.symm.trans hresolved')
    -- the offsets ascend strictly, so the frames are sorted as they were declared
    have hasc := ascending_none.1 hcompacts.ascending
    rw [← hoffsets] at hasc
    have hself : IsStableSort (·.offset.toNat) lowered lowered :=
      ⟨List.Perm.refl _, hasc.imp Nat.le_of_lt, fun _ => rfl⟩
    have htable : table = lowered :=
      hsort.eq_of_nodup hself (List.Perm.refl _) (hasc.imp Nat.ne_of_lt)
    exact ⟨entry, hentry, hcompacts.expandFrom hpool, htable ▸ hmeaning hpool⟩

/-- A label at offset 3. -/
def changingLabels : LabelTable := ⟨∅, #[⟨none, true, some 3⟩]⟩

/-- The frames in which locals come and go, declared backwards, are the same
legacy table, and its meaning is that of the compact table. -/
theorem legacyFrames_stableSort_changing :
    ∃ table compact, legacyFrames changingFrames oneClassPool changingLabels = .ok table
      ∧ legacyFrames changingFrames.reverse oneClassPool changingLabels = .ok table
      ∧ compactFrames changingFrames [] oneClassPool changingLabels = .ok compact
      ∧ expandFrames oneClassPool [] compact = table.mapM (LegacyFrame.expand? oneClassPool)
      ∧ table.mapM (LegacyFrame.expand? oneClassPool)
        = some [⟨0, [.integer], []⟩, ⟨3, [.integer, .object "A", .uninitialized 3], []⟩,
          ⟨7, [.integer], []⟩, ⟨9, [.integer], [.object "A"]⟩] := by
  have hindex : oneClassPool.classIndex "A" = .ok 1 :=
    lists_oneClass.indexOf 0 rfl rfl
  have hclass : ResolvedType.encode (.object "A") oneClassPool = .ok (.object 1) :=
    map_eq_ok_iff.2 ⟨1, hindex, rfl⟩
  have hlowered : changingFrames.mapM (·.toLegacy oneClassPool changingLabels)
      = .ok [⟨0, [.integer], []⟩, ⟨3, [.integer, .object 1, .uninitialized 3], []⟩,
        ⟨7, [.integer], []⟩, ⟨9, [.integer], [.object 1]⟩] := by
    refine mapM_eq_ok_iff.2 (.cons rfl (.cons ?_ (.cons rfl (.cons ?_ .nil))))
    · refine bind_eq_ok_iff.2 ⟨3, rfl, bind_eq_ok_iff.2 ⟨_, rfl, bind_eq_ok_iff.2 ⟨_, ?_, rfl⟩⟩⟩
      exact mapM_eq_ok_iff.2 (.cons rfl (.cons hclass (.cons rfl .nil)))
    · refine bind_eq_ok_iff.2 ⟨9, rfl, bind_eq_ok_iff.2 ⟨_, rfl, bind_eq_ok_iff.2 ⟨_, rfl, ?_⟩⟩⟩
      refine bind_eq_ok_iff.2 ⟨_, rfl, bind_eq_ok_iff.2 ⟨_, ?_, rfl⟩⟩
      exact mapM_eq_ok_iff.2 (.cons hclass .nil)
  have hclasses : ∀ f ∈ changingFrames, ∀ name ∈ f.classes,
      ∃ index, oneClassPool.classIndex name = .ok index := by
    have hA : ∀ f ∈ changingFrames, ∀ name ∈ f.classes, name = "A" := by decide
    exact fun f hf name hname => ⟨1, hA f hf name hname ▸ hindex⟩
  -- the offsets ascend and every class has its index, so there is a compact table too
  obtain ⟨compact, hcompact⟩ : ∃ compact,
      compactFrom oneClassPool changingLabels changingFrames [] none [] = .ok compact :=
    exists_compactFrom rfl hclasses (ascending_none.2 (by decide)) [] []
  obtain ⟨table, htable, -⟩ := exists_legacyFrames hlowered
  obtain ⟨lowered, resolved, -, hresolved, -, horder, hmeaning⟩ :=
    legacyFrames_stableSort changingFrames oneClassPool changingLabels table htable
  cases hresolved
  obtain ⟨entry, hentry, hexpand, hlegacy⟩ :=
    (hmeaning lists_oneClass.reachable).2 [] compact hcompact
  cases hentry
  exact ⟨table, compact, htable, horder (by decide) _ (List.reverse_perm _), hcompact,
    hexpand.trans hlegacy.symm, hlegacy⟩

end BytecodeAssembler
