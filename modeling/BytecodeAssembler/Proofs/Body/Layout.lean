import BytecodeAssembler.Body.Layout
import BytecodeAssembler.Proofs.Body.Construction

/-!
# What laying out a body gives

Laying out walks the stream once. `Laid` says what the walk finds out about
the instructions, without the walk: each one starts where the one before it
ends, and its size is the one it has at that start. About labels the walk
finds out that each label of the stream has an offset within the code, and it
leaves everything else about them as it was.
-/

namespace BytecodeAssembler

/-- **Instructions laid out one after the other**, from the first offset to
the last. -/
inductive Laid (pool : ConstantPool) : Nat → List Instruction → List Nat → Nat → Prop where
  | nil (offset : Nat) : Laid pool offset [] [] offset
  | cons {offset size finish : Nat} {i : Instruction} {is : List Instruction}
      {starts : List Nat} (hsize : i.size offset pool = .ok size)
      (rest : Laid pool (offset + size) is starts finish) :
      Laid pool offset (i :: is) (offset :: starts) finish

theorem Laid.length_starts {pool : ConstantPool} {first finish : Nat} {is : List Instruction}
    {starts : List Nat} (h : Laid pool first is starts finish) :
    starts.length = is.length := by
  induction h with
  | nil => rfl
  | cons _ _ ih => rw [List.length_cons, List.length_cons, ih]

theorem Laid.le {pool : ConstantPool} {first finish : Nat} {is : List Instruction}
    {starts : List Nat} (h : Laid pool first is starts finish) : first ≤ finish := by
  induction h with
  | nil => exact Nat.le_refl _
  | cons _ _ ih => exact Nat.le_of_add_right_le ih

/-- What is laid out first starts at the first offset; with nothing to lay
out, that is the last offset too. -/
theorem Laid.first_eq {pool : ConstantPool} {first finish : Nat} {is : List Instruction}
    {starts : List Nat} (h : Laid pool first is starts finish) :
    (starts ++ [finish])[0]? = some first := by
  cases h <;> rfl

/-- An instruction has a size unless its constant has no index. -/
theorem Instruction.size_failsOnly {P : Fault → Prop} {pool : ConstantPool} {i : Instruction}
    {offset : Nat} (h : ∀ c, i.constant? = some c → FailsOnly P (pool.indexOf c)) :
    FailsOnly P (i.size offset pool) := by
  unfold size
  unfold constant? at h
  cases hoperand : i.operand with
  | constant c =>
    rw [hoperand] at h
    exact FailsOnly.ite (fun _ => (h c rfl).map) fun _ => .ok _
  | _ => exact .ok _

namespace Layout

variable {pool : ConstantPool}

/-- **What a walk does at an instruction**: it stops there if the instruction
has no size, and goes on behind it if it has one. -/
theorem walk_instruction {i : Instruction} {elements : List Element} {before after : Layout}
    {fault? : Option Fault}
    (h : walk pool (.instruction i :: elements) before = (after, fault?)) :
    (∃ fault, i.size before.length pool = .error fault ∧ after = before
        ∧ fault? = some fault)
      ∨ ∃ size, i.size before.length pool = .ok size
        ∧ walk pool elements (before.passInstruction size) = (after, fault?) := by
  unfold walk at h
  cases hsize : i.size before.length pool with
  | error fault =>
    rw [hsize] at h
    cases h
    exact .inl ⟨fault, rfl, rfl, rfl⟩
  | ok size =>
    rw [hsize] at h
    exact .inr ⟨size, rfl, h⟩

/-- **What a walk to the end finds out** about the instructions passed: they
are laid out from where the walk began. -/
theorem laid_of_walk {elements : List Element} {before after : Layout}
    (h : walk pool elements before = (after, none)) :
    ∃ starts, after.starts.toList = before.starts.toList ++ starts
      ∧ Laid pool before.length (elements.filterMap Element.instruction?) starts
        after.length := by
  induction elements generalizing before with
  | nil =>
    cases h
    exact ⟨[], (List.append_nil _).symm, .nil _⟩
  | cons element elements ih =>
    cases element with
    | label label => exact @ih (before.passLabel label) h
    | instruction i =>
      obtain ⟨_, _, _, hnone⟩ | ⟨size, hsize, h⟩ := walk_instruction h
      · cases hnone
      · obtain ⟨starts, hstarts, hlaid⟩ := ih h
        refine ⟨before.length :: starts, ?_, .cons hsize hlaid⟩
        rw [hstarts, passInstruction, Array.toList_push, List.append_assoc]
        rfl

/-- A walk that stops does so at an instruction without a size. -/
theorem exists_size_of_walk {elements : List Element} {before after : Layout} {fault : Fault}
    (h : walk pool elements before = (after, some fault)) :
    ∃ i offset, .instruction i ∈ elements ∧ i.size offset pool = .error fault := by
  induction elements generalizing before with
  | nil => cases h
  | cons element elements ih =>
    cases element with
    | label label =>
      obtain ⟨i, offset, hi, hfault⟩ := @ih (before.passLabel label) h
      exact ⟨i, offset, List.mem_cons_of_mem _ hi, hfault⟩
    | instruction i =>
      obtain ⟨_, hsize, _, hfault⟩ | ⟨size, _, h⟩ := walk_instruction h
      · cases hfault
        exact ⟨i, before.length, List.mem_cons_self, hsize⟩
      · obtain ⟨i', offset, hi', hfault⟩ := ih h
        exact ⟨i', offset, List.mem_cons_of_mem _ hi', hfault⟩

/-- A walk over instructions that all have a size comes to the end. -/
theorem exists_walk {elements : List Element}
    (h : ∀ i offset, .instruction i ∈ elements → ∃ size, i.size offset pool = .ok size)
    (before : Layout) : ∃ after, walk pool elements before = (after, none) := by
  cases hwalk : walk pool elements before with
  | mk after fault? =>
    cases fault? with
    | none => exact ⟨after, rfl⟩
    | some fault =>
      obtain ⟨i, offset, hi, hfault⟩ := exists_size_of_walk hwalk
      obtain ⟨size, hsize⟩ := h i offset hi
      rw [hsize] at hfault
      cases hfault

/-- The walk changes offsets only. -/
theorem sameLabels_walk {elements : List Element} {before after : Layout}
    {fault? : Option Fault} (h : walk pool elements before = (after, fault?)) :
    before.labels.SameLabels after.labels := by
  induction elements generalizing before with
  | nil =>
    cases h
    exact .refl _
  | cons element elements ih =>
    cases element with
    | label label => exact (LabelTable.sameLabels_setOffset _ _ _).trans (ih h)
    | instruction i =>
      obtain ⟨_, _, rfl, _⟩ | ⟨size, _, h⟩ := walk_instruction h
      · exact .refl _
      · exact @ih (before.passInstruction size) h

/-- The walk leaves names alone. -/
theorem names_walk (elements : List Element) (before : Layout) :
    (walk pool elements before).1.labels.names = before.labels.names := by
  induction elements generalizing before with
  | nil => rfl
  | cons element elements ih =>
    cases element with
    | label label => exact ih (before.passLabel label)
    | instruction i =>
      unfold walk
      cases i.size before.length pool with
      | error fault => rfl
      | ok size => exact ih (before.passInstruction size)

/-- **A label of the stream has an offset within the code.** The invariant
of the walk is that this holds of the labels passed already. -/
theorem exists_offset_of_walk {elements : List Element} {before after : Layout}
    (h : walk pool elements before = (after, none)) {l : Label} (hl : before.labels.Has l)
    (hpassed : .label l ∈ elements ∨ ∃ p ≤ before.length, before.labels.offset l = .ok p) :
    ∃ p ≤ after.length, after.labels.offset l = .ok p := by
  induction elements generalizing before with
  | nil =>
    cases h
    exact hpassed.resolve_left List.not_mem_nil
  | cons element elements ih =>
    cases element with
    | label label =>
      refine ih h ((LabelTable.sameLabels_setOffset _ _ _).has_iff.2 hl) ?_
      -- this label is passed now; another one was passed before or is still to come
      by_cases heq : l = label
      · subst heq
        exact .inr ⟨before.length, Nat.le_refl _, LabelTable.offset_setOffset_self hl _⟩
      · rcases hpassed with hpassed | ⟨p, hp, hoffset⟩
        · rcases List.mem_cons.1 hpassed with hpassed | hpassed
          · exact absurd (Element.label.inj hpassed) heq
          · exact .inl hpassed
        · exact .inr ⟨p, hp, (LabelTable.offset_setOffset_of_ne heq).2 hoffset⟩
    | instruction i =>
      obtain ⟨_, _, _, hnone⟩ | ⟨size, _, h⟩ := walk_instruction h
      · cases hnone
      · refine @ih (before.passInstruction size) h hl ?_
        rcases hpassed with hpassed | ⟨p, hp, hoffset⟩
        · rcases List.mem_cons.1 hpassed with hpassed | hpassed
          · cases hpassed
          · exact .inl hpassed
        · exact .inr ⟨p, Nat.le_trans hp (Nat.le_add_right _ _), hoffset⟩

/-- A walk over two streams, one after the other. -/
theorem walk_append {front back : List Element} {before after : Layout}
    (h : walk pool (front ++ back) before = (after, none)) :
    ∃ middle, walk pool front before = (middle, none)
      ∧ walk pool back middle = (after, none) := by
  induction front generalizing before with
  | nil => exact ⟨before, rfl, h⟩
  | cons element front ih =>
    cases element with
    | label label => exact @ih (before.passLabel label) h
    | instruction i =>
      obtain ⟨_, _, _, hnone⟩ | ⟨size, hsize, h⟩ := walk_instruction h
      · cases hnone
      · obtain ⟨middle, hfront, hback⟩ := ih h
        refine ⟨middle, ?_, hback⟩
        unfold walk
        rw [hsize]
        exact hfront

/-- A label that the walk does not pass keeps its offset. -/
theorem offset_of_walk_of_not_mem {elements : List Element} {before after : Layout}
    (h : walk pool elements before = (after, none)) {l : Label} (hl : .label l ∉ elements)
    {p : Nat} : after.labels.offset l = .ok p ↔ before.labels.offset l = .ok p := by
  induction elements generalizing before with
  | nil =>
    cases h
    exact Iff.rfl
  | cons element elements ih =>
    have hne : .label l ≠ element := List.ne_of_not_mem_cons hl
    have hrest : .label l ∉ elements := List.not_mem_of_not_mem_cons hl
    cases element with
    | label label =>
      refine (@ih (before.passLabel label) h hrest).trans ?_
      exact LabelTable.offset_setOffset_of_ne fun heq => hne (congrArg Element.label heq)
    | instruction i =>
      obtain ⟨_, _, _, hnone⟩ | ⟨size, _, h⟩ := walk_instruction h
      · cases hnone
      · exact @ih (before.passInstruction size) h hrest

/-- **A label stands where the next instruction starts**, or at the end of
the code if none follows. -/
theorem offset_of_walk {labels : LabelTable} {front back : List Element} {l : Label}
    {after : Layout} (h : walk pool (front ++ .label l :: back) ⟨#[], 0, labels⟩ = (after, none))
    (hlast : .label l ∉ back) (hl : labels.Has l) :
    ∃ p, after.labels.offset l = .ok p
      ∧ (after.starts.toList ++ [after.length])[(front.filterMap Element.instruction?).length]?
        = some p := by
  obtain ⟨middle, hfront, hback⟩ := walk_append h
  have hback : walk pool back (middle.passLabel l) = (after, none) := hback
  obtain ⟨starts, hstarts, hlaid⟩ := laid_of_walk hfront
  obtain ⟨starts', hstarts', hlaid'⟩ := laid_of_walk hback
  have hhas : middle.labels.Has l := (sameLabels_walk hfront).has_iff.2 hl
  refine ⟨middle.length, ?_, ?_⟩
  · exact (offset_of_walk_of_not_mem hback hlast).2 (LabelTable.offset_setOffset_self hhas _)
  · have hall : after.starts.toList = starts ++ starts' := by
      rw [hstarts', show (middle.passLabel l).starts = middle.starts from rfl, hstarts]
      rfl
    rw [hall, List.append_assoc, ← hlaid.length_starts,
      List.getElem?_append_right (Nat.le_refl _), Nat.sub_self]
    exact hlaid'.first_eq

end Layout

namespace Body

variable {b : Body} {pool : ConstantPool}

/-- Laying out changes offsets only. -/
theorem sameLabels_layout (b : Body) (pool : ConstantPool) :
    b.labels.SameLabels (b.layout pool).1.labels := by
  have hwalk : Layout.walk pool b.elements.toList ⟨#[], 0, b.labels⟩ = (_, _) := rfl
  exact Layout.sameLabels_walk hwalk

theorem names_layout (b : Body) (pool : ConstantPool) :
    (b.layout pool).1.labels.names = b.labels.names :=
  Layout.names_walk b.elements.toList ⟨#[], 0, b.labels⟩

/-- What a layout is made of, if the walk comes to the end. -/
theorem layout_of_walk {after : Layout}
    (h : Layout.walk pool b.elements.toList ⟨#[], 0, b.labels⟩ = (after, none)) :
    b.layout pool = ({ b with labels := after.labels },
      if after.length ≤ maxCodeLength then .ok (after.starts.toList, after.length)
      else .error (.codeTooLong after.length maxCodeLength)) := by
  unfold layout
  rw [h]

/-- **A layout succeeds by a walk to the end** that does not get too far. -/
theorem walk_of_layout {starts : List Nat} {length : Nat}
    (h : (b.layout pool).2 = .ok (starts, length)) :
    ∃ after, Layout.walk pool b.elements.toList ⟨#[], 0, b.labels⟩ = (after, none)
      ∧ (b.layout pool).1.labels = after.labels ∧ after.starts.toList = starts
      ∧ after.length = length ∧ length ≤ 65535 := by
  cases hwalk : Layout.walk pool b.elements.toList ⟨#[], 0, b.labels⟩ with
  | mk after fault? =>
    cases fault? with
    | some fault =>
      unfold layout at h
      rw [hwalk] at h
      cases h
    | none =>
      have hlayout := layout_of_walk hwalk
      rw [hlayout] at h
      obtain ⟨hlength, heq⟩ := okIf_eq_ok_iff.1 h
      cases heq
      exact ⟨after, rfl, congrArg (·.1.labels) hlayout, rfl, rfl, hlength⟩

/-- **What a layout gives**: the instructions laid out from the start of the
code to its end, which is not too far, and offsets for the labels of the
stream. -/
theorem layout_eq_ok {starts : List Nat} {length : Nat}
    (h : (b.layout pool).2 = .ok (starts, length)) :
    Laid pool 0 b.instructions starts length ∧ length ≤ 65535
      ∧ ∀ l, b.labels.Has l → .label l ∈ b.elements.toList →
        ∃ p ≤ length, (b.layout pool).1.labels.offset l = .ok p := by
  obtain ⟨after, hwalk, hlabels, rfl, rfl, hlength⟩ := walk_of_layout h
  obtain ⟨starts, hstarts, hlaid⟩ := Layout.laid_of_walk hwalk
  refine ⟨?_, hlength, fun l hl hmem => ?_⟩
  · rw [hstarts]
    exact hlaid
  · rw [hlabels]
    exact Layout.exists_offset_of_walk hwalk hl (.inl hmem)

/-- **A label stands where the next instruction starts**, or at the end of
the code if none follows. -/
theorem offset_of_label {starts : List Nat} {length : Nat}
    (h : (b.layout pool).2 = .ok (starts, length)) {front back : List Element} {l : Label}
    (hsplit : b.elements.toList = front ++ .label l :: back) (hlast : .label l ∉ back)
    (hl : b.labels.Has l) :
    ∃ p, (b.layout pool).1.labels.offset l = .ok p
      ∧ (starts ++ [length])[(front.filterMap Element.instruction?).length]? = some p := by
  obtain ⟨after, hwalk, hlabels, rfl, rfl, -⟩ := walk_of_layout h
  rw [hsplit] at hwalk
  rw [hlabels]
  exact Layout.offset_of_walk hwalk hlast hl

/-- **A body is laid out** once its constants have indices, unless its code
is too long. -/
theorem layout_failsOnly
    (h : ∀ i c, .instruction i ∈ b.elements.toList → i.constant? = some c →
      ∃ index, pool.indexOf c = .ok index) :
    FailsOnly Fault.IsNumeric (b.layout pool).2 := by
  unfold layout
  cases hwalk : Layout.walk pool b.elements.toList ⟨#[], 0, b.labels⟩ with
  | mk after fault? =>
    cases fault? with
    | some fault =>
      obtain ⟨i, offset, hi, hfault⟩ := Layout.exists_size_of_walk hwalk
      refine FailsOnly.error ?_
      exact Instruction.size_failsOnly (fun c hc => .of_eq_ok (h i c hi hc)) fault hfault
    | none => exact FailsOnly.ite (fun _ => .ok _) fun _ => .error rfl

end Body

end BytecodeAssembler
