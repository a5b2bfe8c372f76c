import BytecodeAssembler.Proofs.Body.Construction
import BytecodeAssembler.Proofs.Label.Resolution

/-!
# Places in a body

A body only ever grows at its end, so a label that stands in the stream has
the same instructions before it for good (`Body.Stands.mono`). What has to be
taken care of is that no label stands there twice, which follows from its books
being right. A body is **tidy** if they are and the label of the end is kept
free all the while: it has no name, so no directive can place it.
-/

namespace BytecodeAssembler

/-! ## Labels that are free -/

namespace LabelTable

variable {t u : LabelTable} {label l : Label}

/-- **A label that can still be placed, and only by who holds it**: the table
has it, it is not placed, and no name stands for it. -/
structure Free (t : LabelTable) (label : Label) : Prop where
  has : t.Has label
  unplaced : t.isPlaced label = false
  unnamed : ∀ name : String, t.names[name]? ≠ some label

namespace Free

theorem fresh (h : t.Free label) : t.fresh.2.Free label where
  has := (samePlaced_fresh t).has label h.has
  unplaced := ((samePlaced_fresh t).isPlaced label).trans h.unplaced
  unnamed := h.unnamed

theorem mention (h : t.Free label) (name : String) : (t.mention name).2.Free label where
  has := (samePlaced_mention t name).has label h.has
  unplaced := ((samePlaced_mention t name).isPlaced label).trans h.unplaced
  unnamed := by
    unfold LabelTable.mention
    cases t.names[name]? with
    | some _ => exact h.unnamed
    | none =>
      intro name'
      show (t.names.insert name _)[name']? ≠ some label
      rw [Std.HashMap.getElem?_insert]
      split
      next => exact fun heq => fresh_ne_of_has h.has (Option.some.inj heq)
      next => exact h.unnamed name'

theorem mentions (h : t.Free label) (hmentions : t.Mentions u) : u.Free label := by
  induction hmentions with
  | refl => exact h
  | mention _ name ih => exact ih.mention name

/-- Placing another label leaves it free. -/
theorem markPlaced (h : t.Free label) (hhas : t.Has l) (hne : l ≠ label) :
    (t.markPlaced l).Free label where
  has := has_markPlaced.2 h.has
  unplaced := by
    refine Bool.eq_false_iff.2 fun hplaced => ?_
    rcases (isPlaced_markPlaced hhas).1 hplaced with hplaced | heq
    · rw [h.unplaced] at hplaced
      cases hplaced
    · exact hne heq.symm
  unnamed := h.unnamed

/-- A free label is new. -/
theorem checkNew (h : t.Free label) : t.checkNew label = .ok () := by
  unfold LabelTable.checkNew
  rw [h.unplaced]
  rfl

end Free

end LabelTable

/-! ## Streams -/

namespace Body

variable {b b' b'' : Body} {label finish : Label} {before : List Instruction}

/-- **The label stands after exactly these instructions.** -/
def Stands (b : Body) (label : Label) (before : List Instruction) : Prop :=
  ∃ front back, b.elements.toList = front ++ .label label :: back
    ∧ front.filterMap Element.instruction? = before

/-- **The second body came about by appending to the first**, and names kept
their labels. -/
structure AppendsTo (b b' : Body) : Prop where
  elements : b.elements.toList <+: b'.elements.toList
  labels : b.labels.Within b'.labels
  lines : b.lines.toList <+: b'.lines.toList
  frames : b.frames.toList <+: b'.frames.toList

theorem prefix_push {α : Type} (xs : Array α) (x : α) : xs.toList <+: (xs.push x).toList := by
  rw [Array.toList_push]
  exact List.prefix_append _ _

namespace AppendsTo

theorem refl (b : Body) : b.AppendsTo b :=
  ⟨List.prefix_rfl, .refl _, List.prefix_rfl, List.prefix_rfl⟩

theorem trans (h : b.AppendsTo b') (h' : b'.AppendsTo b'') : b.AppendsTo b'' :=
  ⟨h.elements.trans h'.elements, h.labels.trans h'.labels, h.lines.trans h'.lines,
    h.frames.trans h'.frames⟩

theorem push (b : Body) (i : Instruction) : b.AppendsTo (b.push i) :=
  { refl b with elements := prefix_push b.elements (.instruction i) }

theorem placeNew (b : Body) (label : Label) : b.AppendsTo (b.placeNew label) :=
  { refl b with elements := prefix_push b.elements (.label label) }

theorem here (b : Body) : b.AppendsTo b.here.2 :=
  { refl b with elements := prefix_push b.elements (.label b.labels.fresh.1) }

theorem addLine (b : Body) (entry : LineEntry) : b.AppendsTo (b.addLine entry) :=
  { refl b with lines := prefix_push b.lines entry }

theorem pushFrame (b : Body) (f : Frame) : b.AppendsTo (b.pushFrame f) :=
  { refl b with frames := prefix_push b.frames f }

end AppendsTo

/-- **A label keeps its place** when the body grows. -/
theorem Stands.mono (h : b.Stands label before) (hgrows : b.AppendsTo b') :
    b'.Stands label before := by
  obtain ⟨front, back, helements, hbefore⟩ := h
  obtain ⟨more, hmore⟩ := hgrows.elements
  refine ⟨front, back ++ more, ?_, hbefore⟩
  rw [← hmore, helements, List.append_assoc, List.cons_append]

theorem stands_placeNew (b : Body) (label : Label) :
    (b.placeNew label).Stands label b.instructions :=
  ⟨b.elements.toList, [], Array.toList_push, rfl⟩

theorem stands_here (b : Body) : b.here.2.Stands b.here.1 b.instructions :=
  stands_placeNew { b with labels := b.labels.fresh.2 } b.labels.fresh.1

theorem instructions_push (b : Body) (i : Instruction) :
    (b.push i).instructions = b.instructions ++ [i] := by
  unfold instructions push
  rw [Array.toList_push, List.filterMap_append]
  rfl

theorem instructions_placeNew (b : Body) (label : Label) :
    (b.placeNew label).instructions = b.instructions := by
  unfold instructions placeNew
  rw [Array.toList_push, List.filterMap_append]
  exact List.append_nil _

theorem instructions_here (b : Body) : b.here.2.instructions = b.instructions :=
  instructions_placeNew { b with labels := b.labels.fresh.2 } b.labels.fresh.1

/-! ## Tidiness -/

/-- **The books are right, and the end is free.** -/
structure Tidy (b : Body) (finish : Label) : Prop extends Tracked b where
  /-- The label of the end is free. -/
  free : b.labels.Free finish

theorem Tracked.mentions (h : b.Tracked) {t : LabelTable} (ht : b.labels.Mentions t) :
    { b with labels := t }.Tracked := by
  induction ht with
  | refl => exact h
  | mention _ name ih => exact ih.mention name

namespace Tidy

/-- Only the table and the labels of the stream matter. -/
theorem congr (h : b.Tidy finish) (hlabels : b'.labels = b.labels)
    (hoccurrences : ∀ l, b'.occurrences l = b.occurrences l) : b'.Tidy finish :=
  ⟨h.toTracked.sameBooks (.of_eq hlabels hoccurrences), hlabels ▸ h.free⟩

theorem mentions (h : b.Tidy finish) {t : LabelTable} (ht : b.labels.Mentions t) :
    { b with labels := t }.Tidy finish :=
  ⟨h.toTracked.mentions ht, h.free.mentions ht⟩

/-- **Placing a label that was not placed** keeps the body tidy. -/
theorem placeNew (h : b.Tidy finish) (hhas : b.labels.Has label)
    (hnew : b.labels.isPlaced label = false) (hne : label ≠ finish) :
    (b.placeNew label).Tidy finish :=
  ⟨h.toTracked.placeNew hhas hnew, h.free.markPlaced hhas hne⟩

theorem here (h : b.Tidy finish) : b.here.2.Tidy finish :=
  ⟨h.toTracked.here, h.free.fresh.markPlaced (LabelTable.has_fresh _)
    (LabelTable.fresh_ne_of_has h.free.has)⟩

theorem push (h : b.Tidy finish) (i : Instruction) : (b.push i).Tidy finish :=
  h.congr rfl (occurrences_push b i)

end Tidy

end Body

end BytecodeAssembler
