import BytecodeAssembler.Proofs.ConstantPool.Listing
import BytecodeAssembler.Proofs.StackMap.Resolution

/-!
# Compact frames keep their meaning

A compact frame says how the frame differs from the one before it, so what
it means depends on all frames in front of it. `expandFrames` spells the
meaning out, as a reader of the class file does: it carries the locals and
the offset of the frame expanded last, starting from the locals on entry.

Compacting and expanding are inverse to each other. The induction goes over
the frames and carries one invariant: the locals and the offset with which
`compactFrom` continues are those of the frame that `expandFrom` expanded
last. Along the way it shows that frames only compact in strictly ascending
order, and that the short forms never have more than three locals to drop or
to add, so that they can all be written.
-/

namespace BytecodeAssembler

/-- **A frame with its meaning spelled out.** -/
structure ResolvedFrame where
  /-- The offset in the code. -/
  offset : Nat
  /-- The local variables. -/
  locals : List ResolvedType
  /-- The stack. -/
  stack : List ResolvedType
  deriving DecidableEq, Repr

/-- **What a declared frame means** once the labels have their offsets. -/
def Frame.resolve (f : Frame) (labels : LabelTable) : Except Fault ResolvedFrame := do
  let offset ← f.offset.resolve labels
  let locals ← resolveTypes f.locals.toList labels
  let stack ← resolveTypes f.stack.toList labels
  return ⟨offset.toNat, locals, stack⟩

/-! ## Expanding a table of frames -/

/-- The offset of a frame with the given distance: the distance itself for
the first frame, and one more than the distance from the frame before for
every later one. -/
def expandOffset (before : Option Nat) (delta : UInt16) : Nat :=
  match before with
  | none => delta.toNat
  | some position => position + delta.toNat + 1

/-- **What a compact frame means** after a frame with the given locals and
offset. -/
def CompactFrame.expand? (pool : ConstantPool) (previous : List ResolvedType)
    (before : Option Nat) : CompactFrame → Option ResolvedFrame
  | .same delta => some ⟨expandOffset before delta, previous, []⟩
  | .sameOneStack delta item => do
    let item ← EncodedType.read? pool item
    return ⟨expandOffset before delta, previous, [item]⟩
  | .chop delta count =>
    if count.toNat ≤ previous.length then
      some ⟨expandOffset before delta, previous.take (previous.length - count.toNat), []⟩
    else none
  | .append delta locals => do
    let locals ← locals.mapM (EncodedType.read? pool)
    return ⟨expandOffset before delta, previous ++ locals, []⟩
  | .full delta locals stack => do
    let locals ← locals.mapM (EncodedType.read? pool)
    let stack ← stack.mapM (EncodedType.read? pool)
    return ⟨expandOffset before delta, locals, stack⟩

/-- Expand the remaining frames after one with the given locals and
offset. -/
def expandFrom (pool : ConstantPool) :
    List ResolvedType → Option Nat → List CompactFrame → Option (List ResolvedFrame)
  | _, _, [] => some []
  | previous, before, f :: rest => do
    let frame ← f.expand? pool previous before
    let later ← expandFrom pool frame.locals (some frame.offset) rest
    return frame :: later

/-- **What a table of frames means**, from the locals on entry. -/
def expandFrames (pool : ConstantPool) (initial : List ResolvedType)
    (table : List CompactFrame) : Option (List ResolvedFrame) :=
  expandFrom pool initial none table

/-- The forms that drop or add locals do so with one to three of them. -/
def CompactFrame.FewLocals : CompactFrame → Prop
  | .chop _ count => 1 ≤ count.toNat ∧ count.toNat ≤ 3
  | .append _ locals => 1 ≤ locals.length ∧ locals.length ≤ 3
  | _ => True

/-- **A frame with few locals to drop or to add can be written.** -/
theorem CompactFrame.FewLocals.exists_bytes {f : CompactFrame} (h : f.FewLocals) :
    ∃ bytes, f.bytes = .ok bytes := by
  cases f with
  | same delta => exact ⟨_, rfl⟩
  | sameOneStack delta item => exact ⟨_, rfl⟩
  | chop delta count =>
    refine ⟨_, if_pos ⟨?_, ?_⟩⟩
    · exact UInt8.le_iff_toNat_le.2 h.1
    · exact UInt8.le_iff_toNat_le.2 h.2
  | append delta locals => exact ⟨_, if_pos h⟩
  | full delta locals stack => exact ⟨_, rfl⟩

/-! ## One frame -/

variable {pool : ConstantPool} {labels : LabelTable}

/-- **The frame can be given as a change** to one with the locals `previous`:
the same locals and at most one stack item, or an empty stack and up to three
locals more or less at the end. -/
def IsChange (previous locals stack : List ResolvedType) : Prop :=
  previous = locals ∧ stack.length ≤ 1
    ∨ stack = [] ∧ (previous <+: locals ∧ locals.length ≤ previous.length + 3
      ∨ locals <+: previous ∧ previous.length ≤ locals.length + 3)

instance (previous locals stack : List ResolvedType) :
    Decidable (IsChange previous locals stack) :=
  inferInstanceAs (Decidable (_ ∨ _))

/-- **The forms that a frame can take** after one with the locals
`previous`, with the locals and the stack that each form is for. A frame is
given in full only if it is no small change. -/
inductive FrameForm (pool : ConstantPool) (delta : UInt16) (previous : List ResolvedType) :
    List ResolvedType → List ResolvedType → CompactFrame → Prop where
  | same : FrameForm pool delta previous previous [] (.same delta)
  | sameOneStack {item : ResolvedType} {encoded : EncodedType}
      (hitem : item.encode pool = .ok encoded) :
      FrameForm pool delta previous previous [item] (.sameOneStack delta encoded)
  | append {added : List ResolvedType} {encoded : List EncodedType}
      (hadded : encodeTypes added pool = .ok encoded)
      (hfew : 1 ≤ added.length ∧ added.length ≤ 3) :
      FrameForm pool delta previous (previous ++ added) [] (.append delta encoded)
  | chop {kept dropped : List ResolvedType} (hprevious : previous = kept ++ dropped)
      (hfew : 1 ≤ dropped.length ∧ dropped.length ≤ 3) :
      FrameForm pool delta previous kept [] (.chop delta (UInt8.ofNat dropped.length))
  | full {locals stack : List ResolvedType} {locals' stack' : List EncodedType}
      (hlocals : encodeTypes locals pool = .ok locals')
      (hstack : encodeTypes stack pool = .ok stack')
      (hnot : ¬IsChange previous locals stack) :
      FrameForm pool delta previous locals stack (.full delta locals' stack')

theorem frameForm_fullFrame {delta : UInt16} {previous locals stack : List ResolvedType}
    {f : CompactFrame} (h : fullFrame delta locals stack pool = .ok f)
    (hnot : ¬IsChange previous locals stack) :
    FrameForm pool delta previous locals stack f := by
  obtain ⟨locals', hlocals, h⟩ := bind_eq_ok_iff.1 h
  obtain ⟨stack', hstack, h⟩ := bind_eq_ok_iff.1 h
  cases h
  exact .full hlocals hstack hnot

/-- A list that begins with another one is longer, unless they are the
same. -/
theorem length_lt_of_front {front whole : List ResolvedType} (h : front <+: whole)
    (hne : front ≠ whole) : front.length < whole.length :=
  Nat.lt_of_le_of_ne h.length_le fun heq => hne (h.eq_of_length heq)

/-- **What is chosen for a frame is one of the forms for it.** -/
theorem frameForm_selectFrame {delta : UInt16} {previous locals stack : List ResolvedType}
    {f : CompactFrame} (h : selectFrame delta previous locals stack pool = .ok f) :
    FrameForm pool delta previous locals stack f := by
  unfold selectFrame at h
  split at h
  -- one item on the stack: the locals are the same, or the frame is written in full
  next item =>
    by_cases hsame : previous = locals
    · rw [if_pos hsame] at h
      obtain ⟨encoded, hitem, rfl⟩ := map_eq_ok_iff.1 h
      subst hsame
      exact .sameOneStack hitem
    · rw [if_neg hsame] at h
      refine frameForm_fullFrame h ?_
      rintro (⟨heq, -⟩ | ⟨hnil, -⟩)
      · exact hsame heq
      · cases hnil
  -- an empty stack: the locals are the same, a few are added or a few are dropped
  next =>
    by_cases hsame : previous = locals
    · rw [if_pos hsame] at h
      cases h
      subst hsame
      exact .same
    · rw [if_neg hsame] at h
      split at h
      next hmore =>
        obtain ⟨encoded, hadded, rfl⟩ := map_eq_ok_iff.1 h
        obtain ⟨added, rfl⟩ := List.isPrefixOf_iff_prefix.1 hmore.2.2
        rw [List.drop_left] at hadded
        rw [List.length_append] at hmore
        exact .append hadded (by omega)
      next hmore =>
        split at h
        next hless =>
          cases h
          obtain ⟨dropped, rfl⟩ := List.isPrefixOf_iff_prefix.1 hless.2.2
          rw [List.length_append] at hless
          rw [List.length_append, Nat.add_sub_cancel_left]
          exact .chop rfl (by omega)
        next hless =>
          -- neither is the front of the other by a few, so no shorter form would do
          refine frameForm_fullFrame h ?_
          rintro (⟨heq, -⟩ | ⟨-, ⟨hfront, hfew⟩ | ⟨hfront, hfew⟩⟩)
          · exact hsame heq
          · have hlt := length_lt_of_front hfront hsame
            exact hmore ⟨hlt, by omega, List.isPrefixOf_iff_prefix.2 hfront⟩
          · have hlt := length_lt_of_front hfront (Ne.symm hsame)
            exact hless ⟨hlt, by omega, List.isPrefixOf_iff_prefix.2 hfront⟩
  -- more items than one leave the full frame only
  next hone hnone =>
    refine frameForm_fullFrame h ?_
    rintro (⟨-, hshort⟩ | ⟨hnil, -⟩)
    · match stack, hshort with
      | [], _ => exact hnone rfl
      | [item], _ => exact hone item rfl
    · exact hnone hnil

namespace FrameForm

variable {delta : UInt16} {previous locals stack : List ResolvedType} {f : CompactFrame}

/-- Few locals are counted by a byte. -/
theorem toNat_ofNat_few {n : Nat} (h : n ≤ 3) : (UInt8.ofNat n).toNat = n := by
  rw [UInt8.toNat_ofNat']
  omega

/-- Every form has at most three locals to drop or to add. -/
theorem fewLocals (h : FrameForm pool delta previous locals stack f) : f.FewLocals := by
  cases h with
  | same | sameOneStack | full => trivial
  | append hadded hfew =>
    rw [(mapM_eq_ok_iff.1 hadded).length_eq] at hfew
    exact hfew
  | chop hprevious hfew =>
    show 1 ≤ (UInt8.ofNat _).toNat ∧ (UInt8.ofNat _).toNat ≤ 3
    rw [toNat_ofNat_few hfew.2]
    exact hfew

/-- **Every form means the frame that it is for.** -/
theorem expand? (h : FrameForm pool delta previous locals stack f) (hpool : pool.Reachable)
    (before : Option Nat) :
    f.expand? pool previous before = some ⟨expandOffset before delta, locals, stack⟩ := by
  cases h with
  | same => rfl
  | sameOneStack hitem =>
    rw [CompactFrame.expand?, EncodedType.read?_of_encode hpool hitem]
    rfl
  | append hadded hfew =>
    rw [CompactFrame.expand?, mapM_read?_of_encodeTypes hpool hadded]
    rfl
  | @chop _ dropped hprevious hfew =>
    subst hprevious
    rw [CompactFrame.expand?, toNat_ofNat_few hfew.2, List.length_append,
      if_pos (Nat.le_add_left _ _), Nat.add_sub_cancel, List.take_left]
  | full hlocals hstack hnot =>
    rw [CompactFrame.expand?, mapM_read?_of_encodeTypes hpool hlocals,
      mapM_read?_of_encodeTypes hpool hstack]
    rfl

end FrameForm

/-- **The distance written for a frame leads to its offset**, and it exists
exactly if the frame comes after the one before it. -/
theorem offsetDelta_eq_ok_iff {before : Option UInt16} {offset delta : UInt16} :
    offsetDelta before offset = .ok delta ↔ (∀ p, before = some p → p.toNat < offset.toNat)
      ∧ expandOffset (before.map UInt16.toNat) delta = offset.toNat := by
  cases before with
  | none =>
    show (Except.ok offset : Except Fault UInt16) = .ok delta ↔ _ ∧ delta.toNat = offset.toNat
    rw [UInt16.toNat_inj]
    refine ⟨fun h => ⟨fun p hp => ?_, (Except.ok.inj h).symm⟩,
      fun h => congrArg Except.ok h.2.symm⟩
    cases hp
  | some p =>
    show (if p < offset then _ else _) = _ ↔ _ ∧ p.toNat + delta.toNat + 1 = offset.toNat
    by_cases hlt : p < offset
    · have hnat := UInt16.lt_iff_toNat_lt.1 hlt
      -- the subtractions do not wrap, since the offsets grow
      have hsub : (offset - p - 1).toNat = offset.toNat - p.toNat - 1 := by
        have hstep : (offset - p).toNat = offset.toNat - p.toNat :=
          UInt16.toNat_sub_of_le _ _ (UInt16.le_iff_toNat_le.2 (Nat.le_of_lt hnat))
        rw [UInt16.toNat_sub_of_le _ _ (UInt16.le_iff_toNat_le.2 (by
          rw [hstep]
          show 1 ≤ _
          omega)), hstep]
        rfl
      rw [if_pos hlt]
      constructor
      · intro h
        cases h
        refine ⟨fun q hq => ?_, ?_⟩
        · cases hq
          exact hnat
        · omega
      · rintro ⟨-, h⟩
        refine congrArg Except.ok (UInt16.toNat_inj.1 ?_)
        omega
    · rw [if_neg hlt]
      refine ⟨fun h => ?_, fun h => absurd (h.1 p rfl) fun hnat => ?_⟩
      · cases h
      · exact hlt (UInt16.lt_iff_toNat_lt.2 hnat)

theorem exists_offsetDelta {before : Option UInt16} {offset : UInt16}
    (h : ∀ p, before = some p → p.toNat < offset.toNat) :
    ∃ delta, offsetDelta before offset = .ok delta := by
  cases before with
  | none => exact ⟨offset, rfl⟩
  | some p => exact ⟨_, if_pos (UInt16.lt_iff_toNat_lt.2 (h p rfl))⟩

/-! ## All frames -/

/-- The frames come one after the other, and after `before` if there is a
frame there. -/
def Ascending (before : Option UInt16) (frames : List ResolvedFrame) : Prop :=
  (∀ p, before = some p → ∀ f ∈ frames, p.toNat < f.offset)
    ∧ (frames.map ResolvedFrame.offset).Pairwise (· < ·)

theorem ascending_none {frames : List ResolvedFrame} :
    Ascending none frames ↔ (frames.map ResolvedFrame.offset).Pairwise (· < ·) := by
  refine ⟨And.right, fun h => ⟨fun p hp => ?_, h⟩⟩
  cases hp

theorem ascending_cons {before : Option UInt16} {offset : UInt16}
    {locals stack : List ResolvedType} {frames : List ResolvedFrame} :
    Ascending before (⟨offset.toNat, locals, stack⟩ :: frames)
      ↔ (∀ p, before = some p → p.toNat < offset.toNat) ∧ Ascending (some offset) frames := by
  unfold Ascending
  simp only [List.mem_cons, List.map_cons, List.pairwise_cons, List.mem_map, Option.some.injEq,
    forall_eq']
  constructor
  · rintro ⟨hbefore, hfirst, hrest⟩
    exact ⟨fun p hp => hbefore p hp _ (.inl rfl), fun f hf => hfirst _ ⟨f, hf, rfl⟩, hrest⟩
  · rintro ⟨hbefore, hfirst, hrest⟩
    refine ⟨fun p hp f hf => ?_, ?_, hrest⟩
    · rcases hf with rfl | hf
      · exact hbefore p hp
      · exact Nat.lt_trans (hbefore p hp) (hfirst f hf)
    · rintro n ⟨f, hf, rfl⟩
      exact hfirst f hf

/-- What a declared frame means, part by part. -/
theorem Frame.resolve_eq_ok_iff {f : Frame} {r : ResolvedFrame} :
    f.resolve labels = .ok r ↔ ∃ offset : UInt16, f.offset.resolve labels = .ok offset
      ∧ ∃ locals, resolveTypes f.locals.toList labels = .ok locals
      ∧ ∃ stack, resolveTypes f.stack.toList labels = .ok stack
      ∧ r = ⟨offset.toNat, locals, stack⟩ := by
  unfold resolve
  simp only [bind_eq_ok_iff]
  refine exists_congr fun offset => and_congr_right fun _ => ?_
  refine exists_congr fun locals => and_congr_right fun _ => ?_
  refine exists_congr fun stack => and_congr_right fun _ => ?_
  exact ⟨fun h => (Except.ok.inj h).symm, fun h => congrArg Except.ok h.symm⟩

/-- **How frames are compacted**, one after the other: a frame is compacted
after the locals and the offset of the frame before it. -/
inductive Compacts (pool : ConstantPool) : List ResolvedType → Option UInt16 →
    List ResolvedFrame → List CompactFrame → Prop where
  | nil {previous : List ResolvedType} {before : Option UInt16} :
      Compacts pool previous before [] []
  | cons {previous locals stack : List ResolvedType} {before : Option UInt16}
      {offset delta : UInt16} {f : CompactFrame} {frames : List ResolvedFrame}
      {table : List CompactFrame} (hdelta : offsetDelta before offset = .ok delta)
      (hform : selectFrame delta previous locals stack pool = .ok f)
      (rest : Compacts pool locals (some offset) frames table) :
      Compacts pool previous before (⟨offset.toNat, locals, stack⟩ :: frames) (f :: table)

/-- **Compacting resolves the frames and compacts them in order.** -/
theorem compacts_of_compactFrom {frames : List Frame} {previous : List ResolvedType}
    {before : Option UInt16} {rev table : List CompactFrame}
    (h : compactFrom pool labels frames previous before rev = .ok table) :
    ∃ tail resolved, table = rev.reverse ++ tail
      ∧ frames.mapM (·.resolve labels) = .ok resolved
      ∧ Compacts pool previous before resolved tail := by
  -- the locals and the offset of the frame before are carried along, and so is what was written
  induction frames generalizing previous before rev with
  | nil =>
    cases h
    exact ⟨[], [], (List.append_nil _).symm, rfl, .nil⟩
  | cons frame frames ih =>
    obtain ⟨offset, hoffset, h⟩ := bind_eq_ok_iff.1 h
    obtain ⟨delta, hdelta, h⟩ := bind_eq_ok_iff.1 h
    obtain ⟨locals, hlocals, h⟩ := bind_eq_ok_iff.1 h
    obtain ⟨stack, hstack, h⟩ := bind_eq_ok_iff.1 h
    obtain ⟨compact, hcompact, h⟩ := bind_eq_ok_iff.1 h
    obtain ⟨tail, resolved, htable, hresolved, hcompacts⟩ := ih h
    have hframe : frame.resolve labels = .ok ⟨offset.toNat, locals, stack⟩ :=
      Frame.resolve_eq_ok_iff.2 ⟨offset, hoffset, locals, hlocals, stack, hstack, rfl⟩
    refine ⟨compact :: tail, ⟨offset.toNat, locals, stack⟩ :: resolved, ?_, ?_,
      .cons hdelta hcompact hcompacts⟩
    · rw [htable, List.reverse_cons, List.append_assoc]
      rfl
    · rw [List.mapM_cons, hframe, hresolved]
      rfl

namespace Compacts

variable {previous : List ResolvedType} {before : Option UInt16} {frames : List ResolvedFrame}
  {table : List CompactFrame}

theorem length_eq (h : Compacts pool previous before frames table) :
    table.length = frames.length := by
  induction h with
  | nil => rfl
  | cons _ _ _ ih => rw [List.length_cons, List.length_cons, ih]

/-- **Compacting keeps the meaning of frames.** The invariant is that the
locals and the offset to continue with are those of the frame expanded
last. -/
theorem expandFrom (h : Compacts pool previous before frames table) (hpool : pool.Reachable) :
    BytecodeAssembler.expandFrom pool previous (before.map UInt16.toNat) table
      = some frames := by
  induction h with
  | nil => rfl
  | @cons previous locals stack before offset delta f frames table hdelta hform _ ih =>
    have hposition := (offsetDelta_eq_ok_iff.1 hdelta).2
    rw [BytecodeAssembler.expandFrom, (frameForm_selectFrame hform).expand? hpool, hposition]
    show (do
      let later ← BytecodeAssembler.expandFrom pool locals (some offset.toNat) table
      some (_ :: later)) = _
    rw [show some offset.toNat = (some offset).map UInt16.toNat from rfl, ih]
    rfl

theorem fewLocals (h : Compacts pool previous before frames table) :
    ∀ f ∈ table, f.FewLocals := by
  induction h with
  | nil => exact nofun
  | cons _ hform _ ih =>
    exact List.forall_mem_cons.2 ⟨(frameForm_selectFrame hform).fewLocals, ih⟩

theorem ascending (h : Compacts pool previous before frames table) :
    Ascending before frames := by
  induction h with
  | nil => exact ⟨nofun, List.Pairwise.nil⟩
  | cons hdelta _ _ ih => exact ascending_cons.2 ⟨(offsetDelta_eq_ok_iff.1 hdelta).1, ih⟩

end Compacts

/-! ## When frames can be compacted -/

section Failing

variable {P : Fault → Prop} {previous locals stack : List ResolvedType} {delta : UInt16}

theorem fullFrame_failsOnly
    (hlocals : ∀ name ∈ locals.filterMap VerificationType.class?,
      FailsOnly P (pool.classIndex name))
    (hstack : ∀ name ∈ stack.filterMap VerificationType.class?,
      FailsOnly P (pool.classIndex name)) :
    FailsOnly P (fullFrame delta locals stack pool) :=
  (encodeTypes_failsOnly hlocals).bind fun _ _ =>
    (encodeTypes_failsOnly hstack).bind fun _ _ => .ok _

/-- **A form is found for every frame** whose classes have an index. -/
theorem selectFrame_failsOnly
    (hlocals : ∀ name ∈ locals.filterMap VerificationType.class?,
      FailsOnly P (pool.classIndex name))
    (hstack : ∀ name ∈ stack.filterMap VerificationType.class?,
      FailsOnly P (pool.classIndex name)) :
    FailsOnly P (selectFrame delta previous locals stack pool) := by
  have hfull : FailsOnly P (fullFrame delta locals stack pool) :=
    fullFrame_failsOnly hlocals hstack
  unfold selectFrame
  split
  next item =>
    refine FailsOnly.ite (fun _ => ?_) fun _ => hfull
    refine FailsOnly.map (ResolvedType.encode_failsOnly fun name hname => hstack name ?_)
    exact List.mem_filterMap.2 ⟨item, List.mem_cons_self, hname⟩
  next =>
    refine FailsOnly.ite (fun _ => .ok _) fun _ => FailsOnly.ite (fun _ => ?_) fun _ =>
      FailsOnly.ite (fun _ => .ok _) fun _ => hfull
    refine FailsOnly.map (encodeTypes_failsOnly fun name hname => hlocals name ?_)
    obtain ⟨type, htype, hname⟩ := List.mem_filterMap.1 hname
    exact List.mem_filterMap.2 ⟨type, List.mem_of_mem_drop htype, hname⟩
  next => exact hfull

/-- The resolved types of a frame mention no other classes than the frame. -/
theorem Frame.mem_classes {f : Frame} {types : List DeclaredType} {resolved : List ResolvedType}
    (h : resolveTypes types labels = .ok resolved)
    (hsub : ∀ type ∈ types, type ∈ f.locals.toList ++ f.stack.toList) {name : String}
    (hname : name ∈ resolved.filterMap VerificationType.class?) : name ∈ f.classes := by
  rw [mem_classes_of_resolveTypes h] at hname
  obtain ⟨type, htype, hname⟩ := List.mem_filterMap.1 hname
  exact List.mem_filterMap.2 ⟨type, hsub type htype, hname⟩

/-- **A form is found for every declared frame** whose classes have an
index. -/
theorem Frame.selectFrame_failsOnly {f : Frame}
    (hclasses : ∀ name ∈ f.classes, FailsOnly P (pool.classIndex name))
    (hlocals : resolveTypes f.locals.toList labels = .ok locals)
    (hstack : resolveTypes f.stack.toList labels = .ok stack) :
    FailsOnly P (selectFrame delta previous locals stack pool) := by
  refine BytecodeAssembler.selectFrame_failsOnly (fun name hname => hclasses name ?_)
    fun name hname => hclasses name ?_
  · exact Frame.mem_classes hlocals (fun _ => List.mem_append_left _) hname
  · exact Frame.mem_classes hstack (fun _ => List.mem_append_right _) hname

end Failing

/-- **Frames whose classes have an index can be compacted** if they come one
after the other. -/
theorem exists_compactFrom {frames : List Frame} {resolved : List ResolvedFrame}
    (hresolved : frames.mapM (·.resolve labels) = .ok resolved)
    (hclasses : ∀ f ∈ frames, ∀ name ∈ f.classes, ∃ index, pool.classIndex name = .ok index)
    {before : Option UInt16} (hasc : Ascending before resolved)
    (previous : List ResolvedType) (rev : List CompactFrame) :
    ∃ table, compactFrom pool labels frames previous before rev = .ok table := by
  induction frames generalizing resolved before previous rev with
  | nil => exact ⟨_, rfl⟩
  | cons frame frames ih =>
    rw [List.mapM_cons] at hresolved
    obtain ⟨r, hr, hresolved⟩ := bind_eq_ok_iff.1 hresolved
    obtain ⟨rest, hrest, hresolved⟩ := bind_eq_ok_iff.1 hresolved
    cases hresolved
    obtain ⟨offset, hoffset, locals, hlocals, stack, hstack, rfl⟩ :=
      Frame.resolve_eq_ok_iff.1 hr
    obtain ⟨hafter, hasc⟩ := ascending_cons.1 hasc
    obtain ⟨delta, hdelta⟩ := exists_offsetDelta hafter
    obtain ⟨hclass, hclasses⟩ := List.forall_mem_cons.1 hclasses
    obtain ⟨compact, hcompact⟩ : ∃ compact,
        selectFrame delta previous locals stack pool = .ok compact :=
      (Frame.selectFrame_failsOnly (fun name hname => .of_eq_ok (hclass name hname))
        hlocals hstack).exists_ok
    obtain ⟨table, htable⟩ := ih hrest hclasses hasc locals (compact :: rev)
    refine ⟨table, bind_eq_ok_iff.2 ⟨offset, hoffset, bind_eq_ok_iff.2 ⟨delta, hdelta, ?_⟩⟩⟩
    refine bind_eq_ok_iff.2 ⟨locals, hlocals, bind_eq_ok_iff.2 ⟨stack, hstack, ?_⟩⟩
    exact bind_eq_ok_iff.2 ⟨compact, hcompact, htable⟩

/-- A frame whose labels resolve can be resolved. -/
theorem Frame.resolve_failsOnly {P : Fault → Prop} {f : Frame}
    (h : ∀ l ∈ f.labels, FailsOnly P ((CodeOffset.label l).resolve labels)) :
    FailsOnly P (f.resolve labels) := by
  obtain ⟨hoffset, hlocals, hstack⟩ := Frame.forall_mem_labels.1 h
  refine (CodeOffset.resolve_failsOnly hoffset).bind fun _ _ => ?_
  refine (resolveTypes_failsOnly hlocals).bind fun _ _ => ?_
  exact (resolveTypes_failsOnly hstack).bind fun _ _ => .ok _

/-- **Compact frames keep their meaning.** What compacting gives expands to
the declared frames with their labels resolved, in order, and every form in
it that drops or adds locals does so with one to three of them, so that it
can be written. And where every label mentioned has an offset of at most
65535 and every class mentioned is in the pool, frames can be compacted
exactly if their offsets ascend strictly. -/
theorem compactFrames_expands (frames : List Frame) (initial : List DeclaredType)
    (pool : ConstantPool) (labels : LabelTable) (hpool : pool.Reachable) :
    (∀ table, compactFrames frames initial pool labels = .ok table →
      ∃ entry resolved, resolveTypes initial labels = .ok entry
        ∧ frames.mapM (·.resolve labels) = .ok resolved
        ∧ expandFrames pool entry table = some resolved
        ∧ ∀ f ∈ table, f.FewLocals ∧ ∃ bytes, f.bytes = .ok bytes)
    ∧ ((∀ l ∈ initial.filterMap DeclaredType.label? ++ frames.flatMap Frame.labels,
          ∃ p ≤ 65535, labels.offset l = .ok p) →
        (∀ f ∈ frames, ∀ name ∈ f.classes, ∃ index, pool.classIndex name = .ok index) →
        ∃ resolved, frames.mapM (·.resolve labels) = .ok resolved
          ∧ ((∃ table, compactFrames frames initial pool labels = .ok table)
            ↔ (resolved.map ResolvedFrame.offset).Pairwise (· < ·))) := by
  have hspec : ∀ table, compactFrames frames initial pool labels = .ok table →
      ∃ entry resolved, resolveTypes initial labels = .ok entry
        ∧ frames.mapM (·.resolve labels) = .ok resolved
        ∧ expandFrames pool entry table = some resolved
        ∧ (∀ f ∈ table, f.FewLocals) ∧ Ascending none resolved := by
    intro table h
    obtain ⟨entry, hentry, h⟩ := bind_eq_ok_iff.1 h
    obtain ⟨tail, resolved, htable, hresolved, hcompacts⟩ := compacts_of_compactFrom h
    obtain rfl : table = tail := htable
    exact ⟨entry, resolved, hentry, hresolved, hcompacts.expandFrom hpool, hcompacts.fewLocals,
      hcompacts.ascending⟩
  refine ⟨fun table h => ?_, fun hlabels hclasses => ?_⟩
  · obtain ⟨entry, resolved, hentry, hresolved, hexpand, hfew, -⟩ := hspec table h
    exact ⟨entry, resolved, hentry, hresolved, hexpand,
      fun f hf => ⟨hfew f hf, (hfew f hf).exists_bytes⟩⟩
  · -- every label mentioned resolves, so the frames and the locals on entry do
    have hresolve : ∀ l ∈ initial.filterMap DeclaredType.label? ++ frames.flatMap Frame.labels,
        FailsOnly (fun _ => False) ((CodeOffset.label l).resolve labels) := by
      intro l hl
      obtain ⟨p, hp, hoffset⟩ := hlabels l hl
      exact .of_eq_ok ⟨_, CodeOffset.resolve_label hoffset hp⟩
    rw [List.forall_mem_append] at hresolve
    obtain ⟨entry, hentry⟩ := (resolveTypes_failsOnly hresolve.1).exists_ok
    obtain ⟨resolved, hresolved⟩ : ∃ resolved, frames.mapM (·.resolve labels) = .ok resolved :=
      (FailsOnly.mapM fun f hf => Frame.resolve_failsOnly fun l hl =>
        hresolve.2 l (List.mem_flatMap.2 ⟨f, hf, hl⟩)).exists_ok
    refine ⟨resolved, hresolved, fun ⟨table, h⟩ => ?_, fun hasc => ?_⟩
    · obtain ⟨-, resolved', -, hresolved', -, -, hasc⟩ := hspec table h
      obtain rfl : resolved = resolved' := Except.ok.inj (hresolved.symm.trans hresolved')
      exact ascending_none.1 hasc
    · obtain ⟨table, h⟩ := exists_compactFrom hresolved hclasses
        (ascending_none.2 hasc) entry []
      exact ⟨table, bind_eq_ok_iff.2 ⟨entry, hentry, h⟩⟩

/-- Frames in which locals come and go, with a label and a class among
them. -/
def changingFrames : List Frame :=
  [⟨.offset 0, #[.integer], #[]⟩,
    ⟨.label ⟨0⟩, #[.integer, .object "A", .uninitialized (.label ⟨0⟩)], #[]⟩,
    ⟨.offset 7, #[.integer], #[]⟩,
    ⟨.offset 9, #[.integer], #[.object "A"]⟩]

/-- A pool with one class. -/
def oneClassPool : ConstantPool := .ofEntries [.classRef "A", .utf8 "A"]

theorem lists_oneClass : ConstantPool.Lists [.classRef "A"] [.classRef "A", .utf8 "A"] :=
  ⟨by decide, by decide⟩

/-- The frames compact, since their offsets 0, 3, 7 and 9 ascend, and expand
to what they were declared to mean. -/
theorem compactFrames_expands_changing :
    ∃ table,
      compactFrames changingFrames [] oneClassPool ⟨∅, #[⟨none, true, some 3⟩]⟩ = .ok table
      ∧ expandFrames oneClassPool [] table
        = some [⟨0, [.integer], []⟩, ⟨3, [.integer, .object "A", .uninitialized 3], []⟩,
          ⟨7, [.integer], []⟩, ⟨9, [.integer], [.object "A"]⟩] := by
  obtain ⟨hmeaning, hiff⟩ := compactFrames_expands changingFrames [] oneClassPool
    ⟨∅, #[⟨none, true, some 3⟩]⟩ lists_oneClass.reachable
  have hlabels : ∀ l ∈ changingFrames.flatMap Frame.labels,
      ∃ p ≤ 65535, LabelTable.offset ⟨∅, #[⟨none, true, some 3⟩]⟩ l = .ok p := by
    have hzero : ∀ l ∈ changingFrames.flatMap Frame.labels, l = ⟨0⟩ := by decide
    intro l hl
    rw [hzero l hl]
    exact ⟨3, by omega, rfl⟩
  have hclasses : ∀ f ∈ changingFrames, ∀ name ∈ f.classes,
      ∃ index, oneClassPool.classIndex name = .ok index := by
    have hA : ∀ f ∈ changingFrames, ∀ name ∈ f.classes, name = "A" := by decide
    intro f hf name hname
    rw [hA f hf name hname]
    exact ⟨1, lists_oneClass.indexOf 0 rfl rfl⟩
  obtain ⟨resolved, hresolved, hexists⟩ := hiff hlabels hclasses
  cases hresolved
  obtain ⟨table, htable⟩ := hexists.2 (by decide)
  obtain ⟨entry, resolved, hentry, hresolved, hexpand, -⟩ := hmeaning table htable
  cases hentry
  cases hresolved
  exact ⟨table, htable, hexpand⟩

end BytecodeAssembler
