import BytecodeAssembler.Proofs.Assembler.OpenFrame
import BytecodeAssembler.Proofs.Assembler.Positions

/-!
# Locals taken over from the frame before

A frame can begin with locals of the frame before it. How many is said early, in
front of its own locals, but it is only when the frame ends that they are copied,
from whatever frame was added last. That frame may have begun with copied locals
itself.

The directives of a method fall into **blocks**, one for each frame, from its
begin to its end (`frameBlocks`). In a run that records nothing, each frame of the
body is what its block says, given the frame before it (`Continues`): the locals
it takes over, as many as its block said last, then the locals it declares, and
the stack it declares. Types are spelled in directives, and what they spell is read
off the table of labels at the end (`Assembler.frames_copiedLocals`).
-/

namespace BytecodeAssembler

/-! ## Blocks -/

namespace Directive

/-- The local that a directive declares, as it is spelled. -/
def frameLocal? : Directive → Option (String × Option String)
  | .frameLocal type argument => some (type, argument)
  | _ => none

/-- The stack item that a directive declares, as it is spelled. -/
def frameStack? : Directive → Option (String × Option String)
  | .frameStack type argument => some (type, argument)
  | _ => none

/-- The number of locals that a directive takes over. -/
def copied? : Directive → Option Nat
  | .frameUseLocals count => some count.toInt.toNat
  | _ => none

end Directive

/-- **How many locals a block takes over**: what it said last, and none if it said
nothing. -/
def copyCount (block : List Directive) : Nat :=
  (block.filterMap Directive.copied?).getLast?.getD 0

/-- **The types that are spelled**, with labels as a table names them. -/
def spelled (t : LabelTable) (entries : List (String × Option String)) :
    List (Except Fault DeclaredType) :=
  entries.map fun entry => (DeclaredType.ofName t entry.1 entry.2).1

/-- **The blocks of some directives**: those that ended, and the one that is
open. -/
structure FrameBlocks where
  ended : List (List Directive)
  opened : Option (List Directive)

/-- One directive more. -/
def FrameBlocks.step (b : FrameBlocks) : Directive → FrameBlocks
  | .beginFrame => { b with opened := some [] }
  | .endFrame => ⟨b.ended ++ b.opened.toList, none⟩
  | d => { b with opened := b.opened.map (· ++ [d]) }

def frameBlocks (ds : List Directive) : FrameBlocks := ds.foldl FrameBlocks.step ⟨[], none⟩

/-- The locals of the frame before the one with this number; none before the
first. -/
def localsBefore (frames : List Frame) : Nat → List DeclaredType
  | 0 => []
  | i + 1 => (frames[i]?.map (·.locals.toList)).getD []

/-- **A frame is what its block says**, behind a frame with the given locals. -/
structure Continues (t : LabelTable) (before : List DeclaredType) (block : List Directive)
    (f : Frame) : Prop where
  /-- There are as many locals as it takes over. -/
  enough : copyCount block ≤ before.length
  /-- Its locals are those it takes over and those it declares. -/
  locals : ∃ own, f.locals.toList = before.take (copyCount block) ++ own
    ∧ spelled t (block.filterMap Directive.frameLocal?) = own.map .ok
  /-- Its stack is what it declares. -/
  stack : spelled t (block.filterMap Directive.frameStack?) = f.stack.toList.map .ok

/-- **The frames are what the blocks say**, each behind the one before it. -/
structure DeclaresFrames (t : LabelTable) (blocks : List (List Directive))
    (frames : List Frame) : Prop where
  count : frames.length = blocks.length
  frame : ∀ i block f, blocks[i]? = some block → frames[i]? = some f →
    Continues t (localsBefore frames i) block f

variable {t : LabelTable} {block : List Directive} {d : Directive} {blocks : List (List Directive)}
  {frames : List Frame} {f : Frame}

theorem copyCount_concat (block : List Directive) (d : Directive) :
    copyCount (block ++ [d]) = d.copied?.getD (copyCount block) := by
  unfold copyCount
  rw [List.filterMap_append]
  cases hd : d.copied? with
  | none => simp [hd]
  | some n => simp [hd]

theorem spelled_append (t : LabelTable) (entries entries' : List (String × Option String)) :
    spelled t (entries ++ entries') = spelled t entries ++ spelled t entries' :=
  List.map_append

/-- Frames behind a frame do not change what is before it. -/
theorem localsBefore_append {i : Nat} (h : i ≤ frames.length) (more : List Frame) :
    localsBefore (frames ++ more) i = localsBefore frames i := by
  cases i with
  | zero => rfl
  | succ i =>
    show ((frames ++ more)[i]?.map _).getD [] = _
    rw [List.getElem?_append_left h]
    rfl

/-- Before a new frame there is the last one. -/
theorem localsBefore_size (frames : Array Frame) :
    localsBefore frames.toList frames.size
      = ((frames.back?.map Frame.locals).getD #[]).toList := by
  unfold Array.back?
  cases hsize : frames.size with
  | zero => simp [Array.eq_empty_of_size_eq_zero hsize, localsBefore]
  | succ n =>
    show (frames.toList[n]?.map _).getD [] = ((frames[n]?.map _).getD #[]).toList
    rw [Array.getElem?_toList]
    cases frames[n]? <;> rfl

/-- **One frame more**, behind the last one. -/
theorem DeclaresFrames.concat (h : DeclaresFrames t blocks frames)
    (hf : Continues t (localsBefore frames frames.length) block f) :
    DeclaresFrames t (blocks ++ [block]) (frames ++ [f]) where
  count := by simp [h.count]
  frame i block' f' hblock hframe := by
    rcases Nat.lt_trichotomy i frames.length with hlt | rfl | hgt
    · rw [List.getElem?_append_left hlt] at hframe
      rw [List.getElem?_append_left (h.count ▸ hlt)] at hblock
      rw [localsBefore_append (Nat.le_of_lt hlt)]
      exact h.frame i block' f' hblock hframe
    · rw [List.getElem?_concat_length] at hframe
      rw [h.count, List.getElem?_concat_length] at hblock
      cases hframe
      cases hblock
      rw [localsBefore_append (Nat.le_refl _)]
      exact hf
    · rw [List.getElem?_eq_none (by simpa using Nat.succ_le_of_lt hgt)] at hframe
      cases hframe

/-! ## The open frame -/

/-- **What the open frame has of its block so far.** Nothing is copied yet. -/
structure Collects (t : LabelTable) (block : List Directive) (entry : Frame × Nat) : Prop where
  copied : entry.2 = copyCount block
  locals : spelled t (block.filterMap Directive.frameLocal?) = entry.1.locals.toList.map .ok
  stack : spelled t (block.filterMap Directive.frameStack?) = entry.1.stack.toList.map .ok

theorem collects_empty (t : LabelTable) (offset : CodeOffset) :
    Collects t [] (.empty offset, 0) :=
  ⟨rfl, rfl, rfl⟩

/-- **One directive more**, with the types that it spells. -/
theorem Collects.concat {entry entry' : Frame × Nat} (h : Collects t block entry)
    (hcopied : entry'.2 = d.copied?.getD entry.2) {locals stack : List DeclaredType}
    (hlocals : entry'.1.locals.toList = entry.1.locals.toList ++ locals)
    (hstack : entry'.1.stack.toList = entry.1.stack.toList ++ stack)
    (hlocal : spelled t d.frameLocal?.toList = locals.map .ok)
    (hitem : spelled t d.frameStack?.toList = stack.map .ok) :
    Collects t (block ++ [d]) entry' where
  copied := by rw [hcopied, h.copied, copyCount_concat]
  locals := by
    rw [List.filterMap_append, spelled_append, h.locals, hlocals, List.map_append, ← hlocal]
    cases hd : d.frameLocal? <;> simp [hd]
  stack := by
    rw [List.filterMap_append, spelled_append, h.stack, hstack, List.map_append, ← hitem]
    cases hd : d.frameStack? <;> simp [hd]

/-- A directive that has nothing to do with frames. -/
theorem Collects.other {entry : Frame × Nat} (h : Collects t block entry)
    (hd : d.worksOnFrame = false) : Collects t (block ++ [d]) entry := by
  have hnone : d.copied? = none ∧ d.frameLocal? = none ∧ d.frameStack? = none := by
    cases d with
    | frameLocal | frameStack | frameUseLocals => cases hd
    | _ => exact ⟨rfl, rfl, rfl⟩
  obtain ⟨hcopied, hlocal, hstack⟩ := hnone
  refine h.concat ?_ (List.append_nil _).symm (List.append_nil _).symm ?_ ?_
  · rw [hcopied]
    rfl
  · rw [hlocal]
    rfl
  · rw [hstack]
    rfl

/-- **At its end a frame takes over what its block said**, if there is as much. -/
theorem Collects.continues {b : Body} {entry : Frame × Nat} (h : Collects t block entry)
    (hf : b.continueFrame entry.1 entry.2 = .ok f) :
    Continues t (localsBefore b.frames.toList b.frames.size) block f := by
  rw [localsBefore_size]
  unfold Body.continueFrame at hf
  split at hf
  next hzero =>
    cases hf
    have hnone : copyCount block = 0 := h.copied.symm.trans hzero
    exact ⟨hnone ▸ Nat.zero_le _, ⟨_, by rw [hnone]; rfl, h.locals⟩, h.stack⟩
  next =>
    unfold Frame.copyLocals at hf
    split at hf
    next henough =>
      cases hf
      rw [h.copied] at henough ⊢
      refine ⟨by simpa using henough, ⟨entry.1.locals.toList, ?_, h.locals⟩, h.stack⟩
      simp
    next => cases hf

namespace OpenMethod

variable {m m' : OpenMethod} {b : FrameBlocks}

/-- **The frames of the method are what the blocks say**, and the open one has what
its block says so far. -/
structure Declares (t : LabelTable) (b : FrameBlocks) (m : OpenMethod) : Prop where
  ended : DeclaresFrames t b.ended m.body.frames.toList
  opened : Option.Rel (Collects t) b.opened m.frame

theorem declaresFrames_begin (t : LabelTable) (method : Method) :
    Declares t ⟨[], none⟩ (.begin method) :=
  ⟨⟨rfl, nofun⟩, .none⟩

/-- The open frame asks for as many locals as its block said last. -/
theorem Declares.frame_of_opened (h : Declares t b m) (hblock : b.opened = some block) :
    ∃ f, m.frame = some (f, copyCount block) := by
  have hopened := h.opened
  rw [hblock] at hopened
  generalize m.frame = frame at hopened ⊢
  cases hopened with
  | @some _ entry hcollects => exact ⟨entry.1, by rw [← hcollects.copied]⟩

/-- **A directive between the begin of a frame and its end** joins the block, if
there is one. -/
theorem Declares.join (h : Declares t b m) (hframes : m'.body.frames = m.body.frames)
    (hstep : b.step d = { b with opened := b.opened.map (· ++ [d]) })
    (hframe : Option.Rel (fun entry entry' => ∀ block, Collects t block entry →
      Collects t (block ++ [d]) entry') m.frame m'.frame) : Declares t (b.step d) m' := by
  rw [hstep]
  refine ⟨hframes ▸ h.ended, ?_⟩
  have hopened := h.opened
  show Option.Rel _ (b.opened.map (· ++ [d])) _
  generalize b.opened = opened, m.frame = before, m'.frame = after at hopened hframe ⊢
  cases hframe with
  | none =>
    cases hopened
    exact .none
  | some hjoin =>
    cases hopened with
    | some hcollects => exact .some (hjoin _ hcollects)

theorem Declares.other (h : Declares t b m) (hd : d.worksOnFrame = false)
    (hframes : m'.body.frames = m.body.frames) (hframe : m'.frame = m.frame) :
    Declares t (b.step d) m' := by
  refine h.join hframes ?_ ?_
  · cases d with
    | beginFrame | endFrame => cases hd
    | _ => rfl
  · rw [hframe]
    cases m.frame with
    | none => exact .none
    | some entry => exact .some fun block hcollects => hcollects.other hd

/-- **A change to the open frame that records nothing** is made. -/
theorem inFrame_of_clean
    {change : Frame → Nat → LabelTable → (Frame × Nat) × LabelTable × List Fault}
    (hclean : (m.inFrame change).2 = []) :
    ∃ f copied, m.frame = some (f, copied) ∧ (change f copied m.body.labels).2.2 = []
      ∧ (m.inFrame change).1 = { m.withLabels (change f copied m.body.labels).2.1 with
        frame := some (change f copied m.body.labels).1 } := by
  unfold inFrame at hclean ⊢
  cases hframe : m.frame with
  | none =>
    rw [hframe] at hclean
    cases hclean
  | some entry =>
    rw [hframe] at hclean
    exact ⟨entry.1, entry.2, rfl, hclean, rfl⟩

/-- **A directive that changes the open frame** joins its block, with the types that
it spells. -/
theorem Declares.inFrame (h : Declares t b m)
    {change : Frame → Nat → LabelTable → (Frame × Nat) × LabelTable × List Fault}
    (hclean : (m.inFrame change).2 = [])
    (hstep : b.step d = { b with opened := b.opened.map (· ++ [d]) })
    (hchange : ∀ f copied, (change f copied m.body.labels).2.2 = [] →
      (change f copied m.body.labels).2.1 = (m.inFrame change).1.body.labels →
      ∀ block, Collects t block (f, copied) →
        Collects t (block ++ [d]) (change f copied m.body.labels).1) :
    Declares t (b.step d) (m.inFrame change).1 := by
  obtain ⟨f, copied, hframe, hfaults, heq⟩ := inFrame_of_clean hclean
  have hlabels := congrArg (·.body.labels) heq
  refine h.join (congrArg (·.body.frames) heq) hstep ?_
  rw [hframe, heq]
  exact .some (hchange f copied hfaults hlabels.symm)

/-- A line that fills the frame does so with what it found. -/
theorem Declares.fillFrame (h : Declares t b m) {α : Type}
    {find : LabelTable → Except Fault α × LabelTable} {put : Frame → α → Frame}
    (hclean : (m.fillFrame find put).2 = [])
    (hstep : b.step d = { b with opened := b.opened.map (· ++ [d]) })
    (hput : ∀ f copied a,
      find m.body.labels = (.ok a, (m.fillFrame find put).1.body.labels) →
      ∀ block, Collects t block (f, copied) → Collects t (block ++ [d]) (put f a, copied)) :
    Declares t (b.step d) (m.fillFrame find put).1 := by
  refine h.inFrame hclean hstep fun f copied hfaults hlabels block hcollects => ?_
  rcases hfound : find m.body.labels with ⟨fault | a, labels⟩ <;> rw [hfound] at hfaults hlabels
  · cases hfaults
  · exact hput f copied a (hfound.trans (congrArg _ hlabels)) block hcollects

theorem Declares.frameOffset (h : Declares t b m) {position : String}
    (hclean : (m.frameOffset position).2 = []) :
    Declares t (b.step (.frameOffset position)) (m.frameOffset position).1 := by
  rw [frameOffset_eq] at hclean ⊢
  exact h.fillFrame hclean rfl fun f copied offset _ block hcollects =>
    hcollects.concat rfl (List.append_nil _).symm (List.append_nil _).symm rfl rfl

/-- What is spelled once is spelled the same with the table at the end. -/
theorem spelled_of_within {labels labels' : LabelTable} {name : String} {argument : Option String}
    {type : DeclaredType} (h : DeclaredType.ofName labels name argument = (.ok type, labels'))
    (ht : labels'.Within t) : spelled t [(name, argument)] = [type].map .ok := by
  have hwithin : (DeclaredType.ofName labels name argument).2.Within t := by
    rw [h]
    exact ht
  show [(DeclaredType.ofName t name argument).1] = _
  rw [DeclaredType.ofName_of_within hwithin, h]
  rfl

/-- **A local is declared** behind the others. -/
theorem Declares.frameLocal (h : Declares t b m) {name : String} {argument : Option String}
    (hclean : (m.frameLocal name argument).2 = [])
    (ht : (m.frameLocal name argument).1.body.labels.Within t) :
    Declares t (b.step (.frameLocal name argument)) (m.frameLocal name argument).1 := by
  rw [frameLocal_eq] at hclean ht ⊢
  exact h.fillFrame hclean rfl fun f copied type htype block hcollects =>
    hcollects.concat rfl Array.toList_push (List.append_nil _).symm (spelled_of_within htype ht) rfl

/-- **A stack item is declared** on top of the others. -/
theorem Declares.frameStack (h : Declares t b m) {name : String} {argument : Option String}
    (hclean : (m.frameStack name argument).2 = [])
    (ht : (m.frameStack name argument).1.body.labels.Within t) :
    Declares t (b.step (.frameStack name argument)) (m.frameStack name argument).1 := by
  rw [frameStack_eq] at hclean ht ⊢
  exact h.fillFrame hclean rfl fun f copied type htype block hcollects =>
    hcollects.concat rfl (List.append_nil _).symm Array.toList_push rfl (spelled_of_within htype ht)

/-- **The number of locals to take over** is the one that was said last. -/
theorem Declares.frameUseLocals (h : Declares t b m) {count : Int64}
    (hclean : (m.frameUseLocals count).2 = []) :
    Declares t (b.step (.frameUseLocals count)) (m.frameUseLocals count).1 := by
  refine h.inFrame hclean rfl fun f copied hfaults _ block hcollects => ?_
  split at hfaults
  next hempty =>
    split at hfaults
    next => cases hfaults
    next n hn =>
      have hcount : n.toNat = count.toInt.toNat := by
        have hsame := toNat_of_narrowU2 hn
        omega
      rw [if_pos hempty]
      exact hcollects.concat hcount (List.append_nil _).symm (List.append_nil _).symm rfl rfl
  next => cases hfaults

/-- **A frame begins** with nothing. -/
theorem Declares.beginFrame {autoLines : Bool} (h : Declares t b m)
    (hframes : (m.beginFrame autoLines).1.body.frames = m.body.frames)
    (hclean : (m.beginFrame autoLines).2 = []) :
    Declares t (b.step .beginFrame) (m.beginFrame autoLines).1 := by
  refine ⟨hframes ▸ h.ended, ?_⟩
  rw [(beginFrame_of_clean hclean).2]
  exact .some (collects_empty t _)

/-- **A frame ends**, and is added behind the frame before it. -/
theorem Declares.endFrame (h : Declares t b m) (hclean : m.endFrame.2 = []) :
    Declares t (b.step .endFrame) m.endFrame.1 := by
  obtain ⟨entry, f, hframe, hf, hend⟩ := continueFrame_of_clean hclean
  obtain ⟨block, hblock, hcollects⟩ : ∃ block, b.opened = some block ∧ Collects t block entry := by
    have hopened := h.opened
    rw [hframe] at hopened
    generalize b.opened = opened at hopened ⊢
    cases hopened with
    | some hcollects => exact ⟨_, rfl, hcollects⟩
  rw [hend]
  refine ⟨?_, .none⟩
  show DeclaresFrames t (b.ended ++ b.opened.toList) (m.body.frames.push f).toList
  rw [hblock, Array.toList_push]
  exact h.ended.concat (hcollects.continues hf)

/-- **A frame that asks for too many locals** is given up. -/
theorem endFrame_of_lt {f : Frame} {copied : Nat} (hframe : m.frame = some (f, copied))
    (hmore : (localsBefore m.body.frames.toList m.body.frames.size).length < copied) :
    m.endFrame = ({ m with frame := none },
      [.copiedLocals copied (localsBefore m.body.frames.toList m.body.frames.size).length]) := by
  rw [localsBefore_size, Array.length_toList] at hmore ⊢
  have hrefused : m.body.continueFrame f copied
      = .error (.copiedLocals copied ((m.body.frames.back?.map Frame.locals).getD #[]).size) := by
    unfold Body.continueFrame Frame.copyLocals
    rw [if_neg (Nat.ne_of_gt (Nat.lt_of_le_of_lt (Nat.zero_le _) hmore)),
      if_neg (Nat.not_le_of_lt hmore)]
  unfold OpenMethod.endFrame
  rw [hframe]
  dsimp only
  rw [hrefused]

/-! ### Other directives -/

/-- Only the end of a frame adds one. -/
theorem Carries.frames_eq {autoLines : Bool} (h : Carries autoLines d m m')
    (hd : d.isEndFrame = false) : m'.body.frames = m.body.frames := by
  have hsize := h.frames
  rw [List.countP_singleton, hd] at hsize
  refine Array.toList_inj.1 (h.appends.frames.eq_of_length ?_).symm
  rw [Array.length_toList, Array.length_toList, hsize]
  rfl

theorem frame_emit {autoLines : Bool} {line : Option Nat} {mnemonic : String}
    {argument : Argument} (hclean : (m.emit autoLines line mnemonic argument).2 = []) :
    (m.emit autoLines line mnemonic argument).1.frame = m.frame := by
  obtain ⟨opcode, i, -, -, hemit⟩ := emit_of_clean hclean
  rw [hemit]
  exact (flush_frame _ autoLines).1

theorem frame_plantLabel {autoLines : Bool} {name : String}
    (hclean : (m.plantLabel autoLines name).2 = []) :
    (m.plantLabel autoLines name).1.frame = m.frame := by
  rw [(plantLabel_of_clean hclean).2]
  show (m.readyFor autoLines name).frame = m.frame
  unfold readyFor
  split
  next => rfl
  next => exact (flush_frame _ autoLines).1

theorem frame_addLine {value : Int64} (hclean : (m.addLine value).2 = []) :
    (m.addLine value).1.frame = m.frame := by
  obtain ⟨line, -, hadd⟩ := addLine_of_clean hclean
  rw [hadd]
  exact (flush_frame _ false).1

/-- **One directive keeps the frames what the blocks say.** -/
theorem Declares.turns {autoLines : Bool} {line : Option Nat} (h : Declares t b m)
    (hturns : Turns autoLines line m d m') (htidy : m.body.Tidy m.finish)
    (ht : m'.body.labels.Within t) : Declares t (b.step d) m' := by
  have hcarries := hturns.carries htidy
  cases hturns with
  | idle hd hidle =>
    exact h.other (Directive.worksOnFrame_of_isIdle hd) hidle.frames hidle.frame
  | emit _ _ hclean => exact h.other rfl (hcarries.frames_eq rfl) (frame_emit hclean)
  | label _ hclean => exact h.other rfl (hcarries.frames_eq rfl) (frame_plantLabel hclean)
  | lineNumber _ _ hclean => exact h.other rfl (hcarries.frames_eq rfl) (frame_addLine hclean)
  | beginFrame hclean => exact h.beginFrame (hcarries.frames_eq rfl) hclean
  | frameOffset _ hclean => exact h.frameOffset hclean
  | frameLocal _ _ hclean => exact h.frameLocal hclean ht
  | frameStack _ _ hclean => exact h.frameStack hclean ht
  | frameUseLocals _ hclean => exact h.frameUseLocals hclean
  | endFrame hclean => exact h.endFrame hclean

end OpenMethod

/-! ## Runs inside a method -/

namespace Assembler

open OpenMethod (Declares)

variable {a a' : Assembler} {m m' : OpenMethod} {b : FrameBlocks} {ds : List Directive}

/-- **One directive keeps the frames what the blocks say**, with types read off any
table that has the labels so far. -/
theorem declaresFrames_run (hm : a.method = some m) (htidy : m.body.Tidy m.finish)
    (hend : d ≠ .endMethod) (hclean : (a.run d).diagnostics = a.diagnostics) :
    ∃ m', (a.run d).method = some m' ∧ m'.body.Tidy m'.finish
      ∧ m.body.labels.Within m'.body.labels
      ∧ ∀ t, m'.body.labels.Within t → Declares t b m → Declares t (b.step d) m' := by
  obtain ⟨m', hmoves⟩ := moves_run hm hend hclean
  have hcarries := hmoves.turns.carries htidy
  exact ⟨m', hmoves.method, hcarries.finish ▸ hcarries.tidy, hcarries.appends.labels,
    fun t ht h => h.turns hmoves.turns htidy ht⟩

/-- **Directives inside a method keep the frames what the blocks say.** -/
theorem declaresFrames_runAll (hm : a.method = some m) (htidy : m.body.Tidy m.finish)
    (hinside : .endMethod ∉ ds) (hclean : (a.runAll ds).diagnostics = a.diagnostics) :
    ∃ m', (a.runAll ds).method = some m' ∧ m.body.labels.Within m'.body.labels
      ∧ ∀ t, m'.body.labels.Within t → Declares t b m →
        Declares t (ds.foldl FrameBlocks.step b) m' := by
  induction ds generalizing a m b with
  | nil => exact ⟨m, hm, .refl _, fun _ _ h => h⟩
  | cons d ds ih =>
    obtain ⟨hd, hds⟩ := not_or.1 (mt List.mem_cons.2 hinside)
    obtain ⟨hfirst, hrest⟩ := run_clean_of_runAll hclean
    obtain ⟨m₁, hm₁, htidy₁, hwithin₁, hstep⟩ := declaresFrames_run hm htidy (Ne.symm hd) hfirst
    obtain ⟨m', hm', hwithin, hall⟩ := ih (b := b.step d) hm₁ htidy₁ hds hrest
    exact ⟨m', hm', hwithin₁.trans hwithin,
      fun t ht h => hall t ht (hstep t (hwithin.trans ht) h)⟩

/-- **The frames of a method are what its directives say**, each behind the one
before it. A method is opened, and some directives follow that record nothing and
do not end it. Then there is one frame for each end of a frame. Its locals are as
many of those of the frame before it as its block said last, and then its own, and
its stack is its own. The frame that is still open has what its block says so far.
The end of the method leaves the frames as they are.

In any state, a frame that asks for more locals than the frame before it has is
not added when it ends, and that is recorded. -/
theorem frames_copiedLocals (a : Assembler) (flags : AccessFlags .methods)
    (name descriptor : String) (ds : List Directive) (hout : a.method = none)
    (hinside : .endMethod ∉ ds)
    (hclean : ((a.beginMethod flags name descriptor).runAll ds).diagnostics
      = (a.beginMethod flags name descriptor).diagnostics) :
    (∃ m, ((a.beginMethod flags name descriptor).runAll ds).method = some m
        ∧ m.body.frames.size = ds.countP Directive.isEndFrame
        ∧ Declares m.body.labels (frameBlocks ds) m
        ∧ ((Method.declare flags name descriptor).mayHaveCode = true → ∃ method body,
          ((a.beginMethod flags name descriptor).runAll ds).endMethod.classSoFar.methods
              = a.classSoFar.methods.push method
            ∧ method.body = some body ∧ body.frames = m.body.frames))
      ∧ ∀ (b : Assembler) (m : OpenMethod) (f : Frame) (copied : Nat), b.method = some m →
        m.frame = some (f, copied) →
        (localsBefore m.body.frames.toList m.body.frames.size).length < copied →
        b.run .endFrame = { b with method := some { m with frame := none } }.report
          (.copiedLocals copied
            (localsBefore m.body.frames.toList m.body.frames.size).length) := by
  refine ⟨?_, fun b m f copied hm hframe hmore => ?_⟩
  · obtain ⟨hopen, hsettings, hmethods⟩ := beginMethod_of_closed hout flags name descriptor
    have hbegin := follows_begin (a.beginMethod flags name descriptor).settings.autoLines
      (.declare flags name descriptor)
    obtain ⟨m, hruns⟩ := runs_runAll hopen hbegin hinside hclean
    -- the same run once more, for the frames that it declares
    obtain ⟨m', hm', -, hdeclares⟩ := declaresFrames_runAll hopen hbegin.tidy hinside hclean
    obtain rfl : m = m' := Option.some.inj (hruns.method.symm.trans hm')
    have hfollows : Follows _ _ ds m := hruns.follows
    refine ⟨m, hruns.method, hfollows.frames,
      hdeclares _ (.refl _) (OpenMethod.declaresFrames_begin _ _), fun hcode => ?_⟩
    have hclosed := hruns.methods_endMethod hcode
    rw [hmethods] at hclosed
    exact ⟨_, _, hclosed, rfl, (OpenMethod.commits_flush hfollows.tidy _).frames⟩
  · show b.inMethod ".end stack" (·.endFrame) = _
    unfold inMethod
    rw [hm]
    dsimp only
    rw [OpenMethod.endFrame_of_lt hframe hmore]
    rfl

/-- The second frame says twice how many locals it takes over, the third one takes
over copied ones, and the fourth one asks for too many. -/
def chainedRun : List Directive :=
  [.beginFrame, .frameLocal "Integer" none, .frameLocal "Object" (some "A"), .endFrame,
    .beginFrame, .frameUseLocals 1, .frameUseLocals 2, .frameLocal "Float" none,
    .frameStack "Long" none, .endFrame, .beginFrame, .frameUseLocals 3, .endFrame,
    .beginFrame, .frameUseLocals 4]

theorem diagnostics_chainedRun :
    (((start .initial).beginMethod .empty "m" "()V").runAll chainedRun).diagnostics
      = ((start .initial).beginMethod .empty "m" "()V").diagnostics := by
  rw [beginMethod_unit]
  decide +kernel

/-- **The third frame has all locals of the second**, and the fourth one is not
added. -/
theorem frames_copiedLocals_chained :
    ∃ m, (((start .initial).beginMethod .empty "m" "()V").runAll chainedRun).method = some m
      ∧ m.body.frames.toList.map (·.locals.toList) = [[.integer, .object "A"],
        [.integer, .object "A", .float], [.integer, .object "A", .float]]
      ∧ (((start .initial).beginMethod .empty "m" "()V").runAll chainedRun).run .endFrame
        = { ((start .initial).beginMethod .empty "m" "()V").runAll chainedRun with
            method := some { m with frame := none } }.report (.copiedLocals 4 3) := by
  obtain ⟨⟨m, hm, -, hdeclares, -⟩, hrefused⟩ :=
    frames_copiedLocals (start .initial) .empty "m" "()V" chainedRun rfl
      (by simp [chainedRun]) diagnostics_chainedRun
  obtain ⟨hcount, hframe⟩ := hdeclares.ended
  have hok {own types : List DeclaredType}
      (h : types.map (.ok : DeclaredType → Except Fault DeclaredType) = own.map .ok) :
      own = types :=
    (List.map_injective_iff.2 (fun _ _ => Except.ok.inj) h).symm
  -- each frame says what its own locals are and how many of the one before it has
  obtain ⟨f₀, f₁, f₂, hframes⟩ := List.length_eq_three.1 hcount
  rw [hframes] at hframe
  obtain ⟨-, ⟨own₀, hlocals₀, hown₀⟩, -⟩ := hframe 0 _ f₀ rfl rfl
  obtain ⟨-, ⟨own₁, hlocals₁, hown₁⟩, -⟩ := hframe 1 _ f₁ rfl rfl
  obtain ⟨-, ⟨own₂, hlocals₂, hown₂⟩, -⟩ := hframe 2 _ f₂ rfl rfl
  obtain rfl : own₀ = [.integer, .object "A"] := hok hown₀
  obtain rfl : own₁ = [.float] := hok hown₁
  obtain rfl : own₂ = [] := hok hown₂
  have hfirst : f₀.locals.toList = [.integer, .object "A"] := hlocals₀
  have hsecond : f₁.locals.toList = [.integer, .object "A", .float] := by
    rw [hlocals₁]
    show f₀.locals.toList.take 2 ++ [.float] = _
    rw [hfirst]
    rfl
  have hthird : f₂.locals.toList = [.integer, .object "A", .float] := by
    rw [hlocals₂]
    show f₁.locals.toList.take 3 ++ [] = _
    rw [hsecond]
    rfl
  refine ⟨m, hm, by simp [hframes, hfirst, hsecond, hthird], ?_⟩
  -- the fourth asks for four of three
  obtain ⟨f, hopen⟩ : ∃ f, m.frame = some (f, 4) :=
    hdeclares.frame_of_opened rfl
  have hbefore : (localsBefore m.body.frames.toList m.body.frames.size).length = 3 := by
    rw [← Array.length_toList, hframes]
    show f₂.locals.toList.length = 3
    rw [hthird]
    rfl
  have hend := hrefused _ m f 4 hm hopen (by rw [hbefore]; decide)
  rw [hbefore] at hend
  exact hend

end Assembler

end BytecodeAssembler
