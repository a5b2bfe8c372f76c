import BytecodeAssembler.Proofs.Body.Books
import BytecodeAssembler.Proofs.StackMap.Resolution

/-!
# Bodies that are built with their own operations

A body is not any value of its type. It starts empty and grows by its
operations, and the labels that these are given come from its own table:
that is `Body.Built`. Two facts hold of every built body and of no other
kind in general. Its books are right, and a label that anything in the body
refers to is one of its table.
-/

namespace BytecodeAssembler

/-! ## The labels that the parts of a body refer to -/

/-- The labels of an element: those its instruction refers to, or the label
that it is. -/
def Element.labels : Element → List Label
  | .instruction i => i.labels
  | .label target => [target]

/-- The labels of a handler. -/
def Handler.labels (h : Handler) : List Label := [h.start, h.finish, h.target]

/-- The labels of a local variable. -/
def LocalVariable.labels (v : LocalVariable) : List Label := [v.start, v.finish]

namespace Body

/-- **The labels that a body refers to**, in its stream and in the tables
beside it. -/
def referred (b : Body) : List Label :=
  b.elements.toList.flatMap Element.labels ++ b.handlers.toList.flatMap Handler.labels
    ++ b.lines.toList.map LineEntry.start
    ++ b.localVariables.toList.flatMap LocalVariable.labels
    ++ b.frames.toList.flatMap Frame.labels

/-- What holds of the labels that a body refers to holds of those that its
parts refer to. -/
theorem forall_mem_referred {b : Body} {p : Label → Prop} :
    (∀ l ∈ b.referred, p l) ↔ (∀ e ∈ b.elements.toList, ∀ l ∈ e.labels, p l)
      ∧ (∀ h ∈ b.handlers.toList, ∀ l ∈ h.labels, p l)
      ∧ (∀ entry ∈ b.lines.toList, p entry.start)
      ∧ (∀ v ∈ b.localVariables.toList, ∀ l ∈ v.labels, p l)
      ∧ ∀ f ∈ b.frames.toList, ∀ l ∈ f.labels, p l := by
  unfold referred
  simp only [List.forall_mem_append, List.forall_mem_flatMap, List.forall_mem_map, and_assoc]

theorem forall_mem_push {α : Type} {xs : Array α} {x : α} {p : α → Prop} :
    (∀ y ∈ (xs.push x).toList, p y) ↔ (∀ y ∈ xs.toList, p y) ∧ p x := by
  rw [Array.toList_push, List.forall_mem_append, List.forall_mem_singleton]

/-- **The bodies that the operations build**, from labels of the body's own
table. -/
inductive Built : Body → Prop where
  | empty : Built empty
  | mention {b : Body} (built : Built b) (name : String) : Built (b.mention name).2
  | fresh {b : Body} (built : Built b) : Built b.fresh.2
  | here {b : Body} (built : Built b) : Built b.here.2
  | place {b b' : Body} {label : Label} (built : Built b) (hlabel : b.labels.Has label)
      (placed : b.place label = .ok b') : Built b'
  | push {b : Body} {i : Instruction} (built : Built b)
      (hlabels : ∀ l ∈ i.labels, b.labels.Has l) : Built (b.push i)
  | addHandler {b : Body} {h : Handler} (built : Built b)
      (hlabels : ∀ l ∈ h.labels, b.labels.Has l) : Built (b.addHandler h)
  | addLine {b : Body} {entry : LineEntry} (built : Built b)
      (hlabel : b.labels.Has entry.start) : Built (b.addLine entry)
  | addVariable {b : Body} {v : LocalVariable} (built : Built b)
      (hlabels : ∀ l ∈ v.labels, b.labels.Has l) : Built (b.addVariable v)
  | addFrame {b b' : Body} {f : Frame} {copied : Nat} (built : Built b)
      (hlabels : ∀ l ∈ f.labels, b.labels.Has l) (added : b.addFrame f copied = .ok b') :
      Built b'
  | addAttribute {b : Body} (built : Built b) (entry : CustomAttribute) :
      Built (b.addAttribute entry)
  | setMaxStack {b : Body} (built : Built b) (value : Option UInt16) :
      Built { b with maxStack := value }
  | setMaxLocals {b : Body} (built : Built b) (value : Option UInt16) :
      Built { b with maxLocals := value }

/-- **What every built body satisfies.** -/
structure WellLabelled (b : Body) : Prop extends Tracked b where
  /-- A label referred to is one of the table. -/
  referred : ∀ l ∈ b.referred, b.labels.Has l

variable {b : Body}

/-- Placing a label that is not placed keeps a body well labelled. -/
theorem WellLabelled.placeNew (h : b.WellLabelled) {label : Label}
    (hlabel : b.labels.Has label) (hnew : b.labels.isPlaced label = false) :
    (b.placeNew label).WellLabelled where
  toTracked := h.toTracked.placeNew hlabel hnew
  referred := by
    obtain ⟨helements, hrest⟩ := forall_mem_referred.1 h.referred
    have hreferred : ∀ l ∈ (b.placeNew label).referred, b.labels.Has l :=
      forall_mem_referred.2 ⟨forall_mem_push.2 ⟨helements, List.forall_mem_singleton.2 hlabel⟩,
        hrest⟩
    exact fun l hl => LabelTable.has_markPlaced.2 (hreferred l hl)

theorem WellLabelled.fresh (h : b.WellLabelled) : b.fresh.2.WellLabelled where
  toTracked := h.toTracked.fresh
  referred l hl := (LabelTable.samePlaced_fresh _).has l (h.referred l hl)

/-- Appending to a body keeps it well labelled, as long as the labels that
it refers to are those of the table and no label comes into the stream. -/
theorem WellLabelled.extend (h : b.WellLabelled) {b' : Body} (hlabels : b'.labels = b.labels)
    (hoccurrences : ∀ l, b'.occurrences l = b.occurrences l)
    (hreferred : ∀ l ∈ b'.referred, b.labels.Has l) : b'.WellLabelled where
  toTracked := h.toTracked.sameBooks (.of_eq hlabels hoccurrences)
  referred l hl := hlabels ▸ hreferred l hl

/-- The labels of a body pass the check exactly if no label is left over. -/
theorem checkLabels_eq_ok_iff :
    b.checkLabels = .ok () ↔ b.labels.unplaced = [] := by
  unfold checkLabels
  cases b.labels.unplaced with
  | nil => exact ⟨fun _ => rfl, fun _ => rfl⟩
  | cons name names =>
    refine ⟨fun h => ?_, fun h => ?_⟩ <;> cases h

/-- A continued frame mentions no other labels than the frame it continues
and the frames of the body. -/
theorem mem_labels_of_continueFrame {f f' : Frame} {copied : Nat} {l : Label}
    (h : b.continueFrame f copied = .ok f') (hl : l ∈ f'.labels) :
    l ∈ f.labels ∨ ∃ g ∈ b.frames.toList, l ∈ g.labels := by
  unfold continueFrame at h
  by_cases hzero : copied = 0
  · rw [if_pos hzero] at h
    cases h
    exact .inl hl
  · rw [if_neg hzero] at h
    unfold Frame.copyLocals at h
    split at h
    next =>
      cases h
      simp only [Frame.labels, Array.toList_append, List.filterMap_append, List.mem_append]
        at hl ⊢
      rcases hl with hl | (hl | hl) | hl
      · exact .inl (.inl hl)
      · -- a local taken over is one of the last frame of the body
        right
        obtain ⟨type, htype, hl⟩ := List.mem_filterMap.1 hl
        cases hlast : b.frames.back? with
        | none =>
          rw [hlast] at htype
          simp at htype
        | some last =>
          rw [hlast] at htype
          have hmem : type ∈ last.locals.toList := by
            simp only [Option.map_some, Option.getD_some, Array.toList_extract] at htype
            exact List.mem_of_mem_drop (List.mem_of_mem_take htype)
          refine ⟨last, Array.mem_toList_iff.2 (Array.mem_of_back? hlast), ?_⟩
          exact .inr (.inl (List.mem_filterMap.2 ⟨type, hmem, hl⟩))
      · exact .inl (.inr (.inl hl))
      · exact .inl (.inr (.inr hl))
    next => cases h

/-- **Every built body is well labelled.** -/
theorem Built.wellLabelled (h : b.Built) : b.WellLabelled := by
  induction h with
  | empty => exact ⟨tracked_empty, List.forall_mem_nil _⟩
  | mention _ name ih =>
    exact ⟨ih.toTracked.mention name, fun l hl =>
      (LabelTable.samePlaced_mention _ name).has l (ih.referred l hl)⟩
  | fresh _ ih => exact ih.fresh
  | here _ ih =>
    exact ih.fresh.placeNew (LabelTable.has_fresh _) (LabelTable.isPlaced_fresh _)
  | place _ hlabel placed ih =>
    obtain ⟨hnew, rfl⟩ := place_eq_ok_iff.1 placed
    exact ih.placeNew hlabel (LabelTable.checkNew_eq_ok_iff.1 hnew)
  -- from here on the books stay as they are, and one of the lists that refer to labels grows
  | push _ hlabels ih =>
    obtain ⟨helements, hrest⟩ := forall_mem_referred.1 ih.referred
    exact ih.extend rfl (occurrences_push _ _)
      (forall_mem_referred.2 ⟨forall_mem_push.2 ⟨helements, hlabels⟩, hrest⟩)
  | addHandler _ hlabels ih =>
    obtain ⟨helements, hhandlers, hrest⟩ := forall_mem_referred.1 ih.referred
    exact ih.extend rfl (fun _ => rfl)
      (forall_mem_referred.2 ⟨helements, forall_mem_push.2 ⟨hhandlers, hlabels⟩, hrest⟩)
  | addLine _ hlabel ih =>
    obtain ⟨helements, hhandlers, hlines, hrest⟩ := forall_mem_referred.1 ih.referred
    exact ih.extend rfl (fun _ => rfl) (forall_mem_referred.2
      ⟨helements, hhandlers, forall_mem_push.2 ⟨hlines, hlabel⟩, hrest⟩)
  | addVariable _ hlabels ih =>
    obtain ⟨helements, hhandlers, hlines, hvariables, hframes⟩ :=
      forall_mem_referred.1 ih.referred
    exact ih.extend rfl (fun _ => rfl) (forall_mem_referred.2
      ⟨helements, hhandlers, hlines, forall_mem_push.2 ⟨hvariables, hlabels⟩, hframes⟩)
  | addFrame _ hlabels added ih =>
    obtain ⟨f', hf', rfl⟩ := map_eq_ok_iff.1 added
    obtain ⟨helements, hhandlers, hlines, hvariables, hframes⟩ :=
      forall_mem_referred.1 ih.referred
    refine ih.extend rfl (fun _ => rfl) (forall_mem_referred.2
      ⟨helements, hhandlers, hlines, hvariables, forall_mem_push.2 ⟨hframes, fun l hl => ?_⟩⟩)
    -- the frame that is added may have taken locals, and so labels, from the one before
    rcases mem_labels_of_continueFrame hf' hl with hl | ⟨f, hf, hl⟩
    · exact hlabels l hl
    · exact hframes f hf l hl
  | addAttribute _ _ ih | setMaxStack _ _ ih | setMaxLocals _ _ ih =>
    exact ih.extend rfl (fun _ => rfl) ih.referred

end Body

end BytecodeAssembler
