import BytecodeAssembler.Body.Basic
import BytecodeAssembler.Proofs.Label.Table
import Mathlib.Data.List.Nodup

/-!
# Bodies whose books are right

A body keeps books of its labels in a table: which labels there are, what they
are called, and which of them are placed. The stream of the body is another
matter, and nothing checks that the two agree. `Body.Tracked` says that they do:
names stand for labels of the table, no two for the same, and **a label stands in
the stream as often as the table says**, once if it is placed and never if it is
not. Handing out a label and placing one that is not placed keep it that way, and
so does every operation that leaves labels and stream alone.

All else that is asked of the labels of a body is asked on top of this: that
those referred to are of the table (`Body.WellLabelled`), and that the label of
the end is still free (`Body.Tidy`).
-/

namespace BytecodeAssembler

/-- The label of an element, if it is one. -/
def Element.label? : Element → Option Label
  | .instruction _ => none
  | .label target => some target

/-! ## Tables -/

namespace LabelTable

variable {t : LabelTable} {label l : Label} {name : String}

/-- A new label is none that the table had. -/
theorem fresh_ne_of_has (h : t.Has label) : t.fresh.1 ≠ label := by
  rintro rfl
  exact Nat.lt_irrefl _ h

theorem isPlaced_fresh (t : LabelTable) : t.fresh.2.isPlaced t.fresh.1 = false := by
  rw [(samePlaced_fresh t).isPlaced, isPlaced_eq]
  show (t.slots[t.slots.size]?).elim false LabelSlot.placed = false
  rw [Array.getElem?_size]
  rfl

/-- A label that is placed is one of the table. -/
theorem has_of_isPlaced (h : t.isPlaced l = true) : t.Has l := by
  rw [isPlaced_eq] at h
  by_contra hnot
  rw [Array.getElem?_eq_none (Nat.not_lt.1 hnot)] at h
  cases h

/-- A label can be placed exactly if it is not placed. -/
theorem checkNew_eq_ok_iff : t.checkNew label = .ok () ↔ t.isPlaced label = false := by
  unfold checkNew
  cases t.isPlaced label with
  | true => exact iff_of_false nofun nofun
  | false => exact iff_of_true rfl rfl

/-- **No two names stand for the same label.** -/
def Distinct (t : LabelTable) : Prop :=
  ∀ (name name' : String) (l : Label),
    t.names[name]? = some l → t.names[name']? = some l → name = name'

theorem distinct_empty : empty.Distinct := by
  intro name name' l h
  simp [empty] at h

/-- No name stands for a label that is yet to come. -/
theorem Scoped.names_ne_fresh (h : t.Scoped) (name : String) :
    t.names[name]? ≠ some t.fresh.1 :=
  fun hname => fresh_ne_of_has (h name _ hname) rfl

theorem Distinct.mention (h : t.Distinct) (hscoped : t.Scoped) (name : String) :
    (t.mention name).2.Distinct := by
  unfold LabelTable.mention
  cases t.names[name]? with
  | some _ => exact h
  | none =>
    intro first second l hfirst hsecond
    rw [Std.HashMap.getElem?_insert] at hfirst hsecond
    split at hfirst <;> split at hsecond
    next heq heq' => exact (beq_iff_eq.1 heq).symm.trans (beq_iff_eq.1 heq')
    next =>
      cases hfirst
      exact absurd hsecond (hscoped.names_ne_fresh second)
    next =>
      cases hsecond
      exact absurd hfirst (hscoped.names_ne_fresh first)
    next => exact h first second l hfirst hsecond

end LabelTable

/-! ## Streams -/

namespace Body

variable {b b' : Body} {label l : Label}

/-- The labels of the stream, in order. -/
def streamLabels (b : Body) : List Label := b.elements.toList.filterMap Element.label?

/-- How often a label stands in the stream. -/
def occurrences (b : Body) (l : Label) : Nat := b.elements.toList.count (.label l)

theorem occurrences_push (b : Body) (i : Instruction) (l : Label) :
    (b.push i).occurrences l = b.occurrences l := by
  unfold occurrences push
  rw [Array.toList_push, List.count_append]
  rfl

theorem occurrences_placeNew (b : Body) (label l : Label) :
    (b.placeNew label).occurrences l = b.occurrences l + if l = label then 1 else 0 := by
  unfold occurrences placeNew
  rw [Array.toList_push, List.count_append, List.count_singleton]
  refine congrArg _ (if_congr ?_ rfl rfl)
  rw [beq_iff_eq, Element.label.injEq, eq_comm]

/-- That is how often it is among the labels of the stream. -/
theorem count_streamLabels (b : Body) (l : Label) : b.streamLabels.count l = b.occurrences l := by
  unfold streamLabels occurrences
  rw [List.count_filterMap, List.count_eq_countP]
  refine List.countP_congr fun e _ => ?_
  cases e <;> simp [Element.label?]

/-- Placing succeeds exactly for a label that was not placed. -/
theorem place_eq_ok_iff :
    b.place label = .ok b' ↔ b.labels.checkNew label = .ok () ∧ b' = b.placeNew label := by
  unfold place
  rw [map_eq_ok_iff]
  exact ⟨fun ⟨_, h, hb⟩ => ⟨h, hb.symm⟩, fun ⟨h, hb⟩ => ⟨(), h, hb.symm⟩⟩

/-! ## Books that are right -/

/-- **An operation that leaves labels alone**, up to their offsets. -/
structure SameBooks (b b' : Body) : Prop where
  labels : b.labels.SameLabels b'.labels
  names : b'.labels.names = b.labels.names
  occurrences : ∀ l, b'.occurrences l = b.occurrences l

theorem SameBooks.of_eq (hlabels : b'.labels = b.labels)
    (hoccurrences : ∀ l, b'.occurrences l = b.occurrences l) : b.SameBooks b' :=
  ⟨hlabels ▸ .refl _, congrArg _ hlabels, hoccurrences⟩

/-- **A body whose books are right.** -/
structure Tracked (b : Body) : Prop where
  /-- The names of the table stand for labels of the table. -/
  named : b.labels.Scoped
  /-- No two names stand for the same label. -/
  distinct : b.labels.Distinct
  /-- A label stands in the stream as often as the table says. -/
  occurrences : ∀ l, b.occurrences l = if b.labels.isPlaced l then 1 else 0

theorem tracked_empty : empty.Tracked where
  named := LabelTable.scoped_empty
  distinct := LabelTable.distinct_empty
  occurrences _ := rfl

namespace Tracked

/-- Handing out a label leaves the stream alone. -/
theorem setLabels (h : b.Tracked) {t : LabelTable} (hscoped : t.Scoped) (hdistinct : t.Distinct)
    (hsame : b.labels.SamePlaced t) : { b with labels := t }.Tracked where
  named := hscoped
  distinct := hdistinct
  occurrences l := by
    show b.occurrences l = if t.isPlaced l then 1 else 0
    rw [h.occurrences, hsame.isPlaced]

theorem fresh (h : b.Tracked) : b.fresh.2.Tracked :=
  h.setLabels h.named.fresh h.distinct (LabelTable.samePlaced_fresh _)

/-- **Putting a label into the stream** that was not there. -/
theorem placeNew (h : b.Tracked) (hhas : b.labels.Has label)
    (hnew : b.labels.isPlaced label = false) : (b.placeNew label).Tracked where
  named := h.named.markPlaced label
  distinct := h.distinct
  occurrences l := by
    rw [occurrences_placeNew, h.occurrences]
    show _ = if (b.labels.markPlaced label).isPlaced l then 1 else 0
    by_cases heq : l = label
    · subst heq
      rw [hnew, if_pos rfl, if_pos ((LabelTable.isPlaced_markPlaced hhas).2 (.inr rfl))]
      rfl
    · rw [if_neg heq, Nat.add_zero]
      refine if_congr ?_ rfl rfl
      rw [LabelTable.isPlaced_markPlaced hhas, or_iff_left heq]

theorem here (h : b.Tracked) : b.here.2.Tracked :=
  h.fresh.placeNew (LabelTable.has_fresh _) (LabelTable.isPlaced_fresh _)

theorem mention (h : b.Tracked) (name : String) : (b.mention name).2.Tracked :=
  h.setLabels (h.named.mention name) (h.distinct.mention h.named name)
    (LabelTable.samePlaced_mention _ name)

/-- What leaves labels and stream alone leaves the books right. -/
theorem sameBooks (h : b.Tracked) (hsame : b.SameBooks b') : b'.Tracked where
  named name l hname := hsame.labels.has_iff.2 (h.named name l (hsame.names ▸ hname))
  distinct name name' l := by
    rw [hsame.names]
    exact h.distinct name name' l
  occurrences l := by rw [hsame.occurrences, hsame.labels.isPlaced, h.occurrences]

theorem isPlaced_iff_mem (h : b.Tracked) (l : Label) :
    b.labels.isPlaced l = true ↔ .label l ∈ b.elements.toList := by
  have hcount := h.occurrences l
  rw [← List.count_pos_iff]
  show _ ↔ 0 < b.occurrences l
  cases hplaced : b.labels.isPlaced l <;> rw [hplaced] at hcount <;> simp [hcount]

/-- The labels of the stream are placed. -/
theorem placed (h : b.Tracked) (hl : l ∈ b.streamLabels) : b.labels.isPlaced l = true := by
  have hpos := List.count_pos_iff.2 hl
  rw [count_streamLabels, h.occurrences] at hpos
  by_contra hunplaced
  rw [if_neg hunplaced] at hpos
  exact Nat.lt_irrefl 0 hpos

/-- **No label stands in the stream twice.** -/
theorem once (h : b.Tracked) : b.streamLabels.Nodup := by
  refine List.nodup_iff_count_le_one.2 fun l => ?_
  rw [count_streamLabels, h.occurrences]
  split
  next => exact Nat.le_refl 1
  next => exact Nat.zero_le 1

end Tracked

end Body

end BytecodeAssembler
