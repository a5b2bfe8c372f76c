import BytecodeAssembler.Label.Table
import BytecodeAssembler.Proofs.Outcome

/-!
# What label tables keep

A table only ever gains labels: what it has, it has for good, and a label
that is placed stays placed. Mentioning a name or making a label places
nothing, which is `SamePlaced`; placing is a step of its own. Giving offsets
out changes neither the labels nor which of them are placed, which is
`SameLabels`.

The offset of a label can be missing for two reasons, and `offset_failsOnly`
tells them apart: a label that was never placed has none, and neither has a
placed label before the body is laid out.
-/

namespace BytecodeAssembler

namespace LabelTable

variable {t u v : LabelTable} {label l : Label}

/-! ## The labels of a table -/

/-- The table has made the label. -/
def Has (t : LabelTable) (label : Label) : Prop := label.index < t.slots.size

/-- **A table that gained labels and placed none.** -/
structure SamePlaced (t u : LabelTable) : Prop where
  /-- No label is lost. -/
  has : ∀ l, t.Has l → u.Has l
  /-- The same labels are placed. -/
  isPlaced : ∀ l, u.isPlaced l = t.isPlaced l

namespace SamePlaced

theorem refl (t : LabelTable) : t.SamePlaced t := ⟨fun _ => id, fun _ => rfl⟩

theorem trans (h : t.SamePlaced u) (h' : u.SamePlaced v) : t.SamePlaced v :=
  ⟨fun l hl => h'.has l (h.has l hl), fun l => (h'.isPlaced l).trans (h.isPlaced l)⟩

end SamePlaced

/-- A label is placed if its slot says so. -/
theorem isPlaced_eq (t : LabelTable) (l : Label) :
    t.isPlaced l = (t.slots[l.index]?).elim false LabelSlot.placed := by
  unfold isPlaced
  cases t.slots[l.index]? <;> rfl

/-- A new slot is not placed. -/
theorem isPlaced_push (names : Std.HashMap String Label) (slots : Array LabelSlot)
    (name : Option String) (l : Label) :
    isPlaced ⟨names, slots.push ⟨name, false, none⟩⟩ l = isPlaced ⟨names, slots⟩ l := by
  rw [isPlaced_eq, isPlaced_eq]
  show ((slots.push ⟨name, false, none⟩)[l.index]?).elim false _ = (slots[l.index]?).elim false _
  rw [Array.getElem?_push]
  by_cases hl : l.index = slots.size
  · rw [if_pos hl, hl, Array.getElem?_size]
    rfl
  · rw [if_neg hl]

theorem samePlaced_fresh (t : LabelTable) : t.SamePlaced t.fresh.2 where
  has l hl := by
    show l.index < (t.slots.push _).size
    rw [Array.size_push]
    exact Nat.lt_succ_of_lt hl
  isPlaced l := isPlaced_push t.names t.slots none l

theorem has_fresh (t : LabelTable) : t.fresh.2.Has t.fresh.1 := by
  show t.slots.size < (t.slots.push _).size
  rw [Array.size_push]
  exact Nat.lt_succ_self _

theorem samePlaced_mention (t : LabelTable) (name : String) :
    t.SamePlaced (t.mention name).2 := by
  unfold mention
  cases t.names[name]? with
  | some label => exact .refl t
  | none =>
    refine ⟨fun l hl => ?_, fun l => isPlaced_push t.names t.slots (some name) l⟩
    show l.index < (t.slots.push _).size
    rw [Array.size_push]
    exact Nat.lt_succ_of_lt hl

/-- The names that a table knows stand for labels it has. -/
def Scoped (t : LabelTable) : Prop :=
  ∀ (name : String) (label : Label), t.names[name]? = some label → t.Has label

theorem scoped_empty : empty.Scoped := by
  intro name label h
  simp [empty] at h

theorem Scoped.fresh (h : t.Scoped) : t.fresh.2.Scoped :=
  fun name label hname => (samePlaced_fresh t).has label (h name label hname)

/-- **Mentioning a name gives a label of the table.** -/
theorem Scoped.has_mention (h : t.Scoped) (name : String) :
    (t.mention name).2.Has (t.mention name).1 := by
  unfold mention
  cases hname : t.names[name]? with
  | some label => exact h name label hname
  | none =>
    show t.slots.size < (t.slots.push _).size
    rw [Array.size_push]
    exact Nat.lt_succ_self _

theorem Scoped.mention (h : t.Scoped) (name : String) : (t.mention name).2.Scoped := by
  have hhas := h.has_mention name
  have hkeep := samePlaced_mention t name
  unfold LabelTable.mention at hhas hkeep ⊢
  cases hname : t.names[name]? with
  | some label => exact h
  | none =>
    rw [hname] at hhas hkeep
    intro name' label' hname'
    rw [Std.HashMap.getElem?_insert] at hname'
    by_cases heq : (name == name') = true
    · rw [if_pos heq] at hname'
      cases hname'
      exact hhas
    · rw [if_neg heq] at hname'
      exact hkeep.has label' (h name' label' hname')

/-! ## Placing -/

/-- **A label is placed after another one was marked** if it was placed
before or is the one marked. -/
theorem isPlaced_markPlaced (hhas : t.Has label) :
    (t.markPlaced label).isPlaced l = true ↔ t.isPlaced l = true ∨ l = label := by
  rw [isPlaced_eq, isPlaced_eq]
  show ((t.slots.modify label.index _)[l.index]?).elim false _ = true ↔ _
  rw [Array.getElem?_modify]
  by_cases hl : label.index = l.index
  · have hll : l = label := by
      cases l
      cases label
      cases hl
      rfl
    subst hll
    rw [if_pos rfl, Array.getElem?_eq_getElem hhas]
    exact ⟨fun _ => .inr rfl, fun _ => rfl⟩
  · rw [if_neg hl]
    exact ⟨.inl, fun h => h.elim id fun h => absurd (congrArg Label.index h.symm) hl⟩

theorem has_markPlaced : (t.markPlaced label).Has l ↔ t.Has l := by
  show l.index < (t.slots.modify label.index _).size ↔ _
  rw [Array.size_modify]
  exact Iff.rfl

theorem Scoped.markPlaced (h : t.Scoped) (label : Label) : (t.markPlaced label).Scoped :=
  fun name l hname => has_markPlaced.2 (h name l hname)

/-- **Once no label is left over, every label of the table is placed.** -/
theorem isPlaced_of_unplaced_eq_nil (h : t.unplaced = []) (hhas : t.Has label) :
    t.isPlaced label = true := by
  unfold unplaced at h
  rw [List.filterMap_eq_nil_iff] at h
  have hmem : label ∈ (List.range t.slots.size).map Label.mk :=
    List.mem_map.2 ⟨label.index, List.mem_range.2 hhas, rfl⟩
  have hnone := h label hmem
  by_contra hplaced
  rw [if_neg hplaced] at hnone
  cases hnone

theorem unplaced_eq_nil_iff : t.unplaced = [] ↔ ∀ l, t.Has l → t.isPlaced l = true := by
  refine ⟨fun h l => isPlaced_of_unplaced_eq_nil h, fun h => ?_⟩
  refine List.filterMap_eq_nil_iff.2 fun l hl => ?_
  obtain ⟨index, hindex, rfl⟩ := List.mem_map.1 hl
  exact if_pos (h _ (List.mem_range.1 hindex))

/-! ## Offsets -/

/-- **A table with the same labels**, in which only offsets may differ. -/
structure SameLabels (t u : LabelTable) : Prop where
  /-- There are as many labels. -/
  size : u.slots.size = t.slots.size
  /-- The same labels are placed. -/
  isPlaced : ∀ l, u.isPlaced l = t.isPlaced l
  /-- They are called the same. -/
  nameOf : ∀ l, u.nameOf l = t.nameOf l

namespace SameLabels

theorem refl (t : LabelTable) : t.SameLabels t := ⟨rfl, fun _ => rfl, fun _ => rfl⟩

theorem trans (h : t.SameLabels u) (h' : u.SameLabels v) : t.SameLabels v :=
  ⟨h'.size.trans h.size, fun l => (h'.isPlaced l).trans (h.isPlaced l),
    fun l => (h'.nameOf l).trans (h.nameOf l)⟩

theorem has_iff (h : t.SameLabels u) : u.Has l ↔ t.Has l := by
  unfold Has
  rw [h.size]

end SameLabels

theorem sameLabels_setOffset (t : LabelTable) (label : Label) (p : Nat) :
    t.SameLabels (t.setOffset label p) where
  size := Array.size_modify
  isPlaced l := by
    unfold LabelTable.isPlaced setOffset
    rw [Array.getElem?_modify]
    by_cases hl : label.index = l.index
    · rw [if_pos hl]
      cases t.slots[l.index]? <;> rfl
    · rw [if_neg hl]
  nameOf l := by
    unfold LabelTable.nameOf setOffset
    rw [Array.getElem?_modify]
    by_cases hl : label.index = l.index
    · rw [if_pos hl]
      cases hslot : t.slots[l.index]? with
      | none => rfl
      | some slot =>
        obtain ⟨name, placed, offset⟩ := slot
        cases name <;> rfl
    · rw [if_neg hl]

/-- A label has an offset exactly if its slot has one. -/
theorem offset_eq_ok_iff {p : Nat} :
    t.offset label = .ok p ↔ (t.slots[label.index]?).bind LabelSlot.offset = some p := by
  unfold offset
  cases t.slots[label.index]? with
  | none => simp
  | some slot =>
    obtain ⟨name, placed, offset⟩ := slot
    cases offset with
    | some q => simp
    | none => cases placed <;> simp

/-- A label with an offset is one of the table. -/
theorem has_of_offset {p : Nat} (h : t.offset label = .ok p) : t.Has label := by
  rw [offset_eq_ok_iff] at h
  by_contra hnot
  rw [Array.getElem?_eq_none (Nat.not_lt.1 hnot)] at h
  cases h

/-- A new slot has no offset. -/
theorem offset_push {names names' : Std.HashMap String Label} {slots : Array LabelSlot}
    {name : Option String} {p : Nat} :
    offset ⟨names', slots.push ⟨name, false, none⟩⟩ l = .ok p
      ↔ offset ⟨names, slots⟩ l = .ok p := by
  rw [offset_eq_ok_iff, offset_eq_ok_iff]
  show ((slots.push ⟨name, false, none⟩)[l.index]?).bind _ = _ ↔ (slots[l.index]?).bind _ = _
  rw [Array.getElem?_push]
  by_cases hl : l.index = slots.size
  · rw [if_pos hl, hl, Array.getElem?_size]
    exact Iff.rfl
  · rw [if_neg hl]

theorem offset_mention {name : String} {p : Nat} :
    (t.mention name).2.offset l = .ok p ↔ t.offset l = .ok p := by
  unfold mention
  cases t.names[name]? with
  | some label => exact Iff.rfl
  | none => exact offset_push

/-- Placing gives no offset out. -/
theorem offset_markPlaced {p : Nat} :
    (t.markPlaced label).offset l = .ok p ↔ t.offset l = .ok p := by
  rw [offset_eq_ok_iff, offset_eq_ok_iff]
  show ((t.slots.modify label.index _)[l.index]?).bind _ = _ ↔ _
  rw [Array.getElem?_modify]
  by_cases hl : label.index = l.index
  · rw [if_pos hl]
    cases t.slots[l.index]? <;> exact Iff.rfl
  · rw [if_neg hl]

/-- The label just passed has the offset it was given. -/
theorem offset_setOffset_self (h : t.Has label) (p : Nat) :
    (t.setOffset label p).offset label = .ok p := by
  rw [offset_eq_ok_iff]
  show ((t.slots.modify label.index _)[label.index]?).bind _ = _
  rw [Array.getElem?_modify, if_pos rfl, Array.getElem?_eq_getElem h]
  rfl

/-- Any other label keeps its offset. -/
theorem offset_setOffset_of_ne (hne : l ≠ label) {p q : Nat} :
    (t.setOffset label p).offset l = .ok q ↔ t.offset l = .ok q := by
  have hindex : label.index ≠ l.index := by
    intro hindex
    cases l
    cases label
    cases hindex
    exact hne rfl
  rw [offset_eq_ok_iff, offset_eq_ok_iff]
  show ((t.slots.modify label.index _)[l.index]?).bind _ = _ ↔ _
  rw [Array.getElem?_modify, if_neg hindex]

/-- **Why a label has no offset**, in a table that knows the offset of every
label placed: it was never placed. -/
theorem offset_failsOnly (h : t.isPlaced label = true → ∃ p, t.offset label = .ok p) :
    FailsOnly (fun fault => fault = .undefinedLabel (t.nameOf label)
      ∧ t.isPlaced label = false) (t.offset label) := by
  intro fault hfault
  cases hplaced : t.isPlaced label with
  | true =>
    obtain ⟨p, hp⟩ := h hplaced
    rw [hp] at hfault
    cases hfault
  | false =>
    refine ⟨?_, rfl⟩
    unfold offset at hfault
    unfold isPlaced at hplaced
    cases hslot : t.slots[label.index]? with
    | none =>
      rw [hslot] at hfault
      cases hfault
      rfl
    | some slot =>
      obtain ⟨name, placed, offset⟩ := slot
      rw [hslot] at hfault hplaced
      cases hplaced
      cases offset <;> cases hfault
      rfl

end LabelTable

end BytecodeAssembler
