import BytecodeAssembler.Proofs.Assembler.Steps
import BytecodeAssembler.Proofs.Class.FieldConstants

/-!
# Open frames

A frame is open from its begin to its end, and a method that ends before its
frame is told so. Only three directives have to do with that: the begin and the
end of a frame, and the end of a method. Every other directive **leaves frames
alone**: a frame is open after it exactly if one was before, and it never says
that a frame was left open. The begin of a frame is the delicate one, since it
commits the pending instruction first. Committing can fail on its own account,
when the line of the instruction is too large to be noted, and then the frame
begins nevertheless.
-/

namespace BytecodeAssembler

/-! ## Faults -/

/-- A fault other than that of a frame left open at the end of its method. -/
def Fault.Other (fault : Fault) : Prop := fault ≠ .frameOpenAtMethodEnd

/-- Numbers that do not fit are at fault for that. -/
@[simp]
theorem narrow_other (what : String) (low high : Int) (value : Int64) :
    FailsOnly Fault.Other (narrow what low high value) :=
  FailsOnly.ite (fun _ => .ok _) fun _ => .error (Fault.noConfusion ·)

/-- So are descriptors. -/
theorem Fault.OfDescriptor.other {fault : Fault} (h : fault.OfDescriptor) : fault.Other := by
  rintro rfl
  cases h

theorem fieldWithValue_other (f : Field) (value : Literal) :
    FailsOnly Fault.Other (Assembler.fieldWithValue f value) := by
  have hconstant : FailsOnly Fault.Other (value.toConstant f.descriptor) := by
    refine ((FieldType.read_failsOnly _).mono fun _ => Fault.OfDescriptor.other).bind
      fun type _ => ?_
    dsimp only
    repeat' split
    all_goals simp [Fault.Other]
  rw [Assembler.fieldWithValue_eq]
  exact hconstant.map

/-! ### Instructions -/

theorem Instruction.make_other (opcode : Opcode) (operand : Operand) :
    FailsOnly Fault.Other (Instruction.make opcode operand) := by
  have hcheck : FailsOnly Fault.Other (checkOperand opcode operand) := by
    unfold checkOperand makeTableSwitch makeLookupSwitch
    dsimp only
    repeat' split
    all_goals simp [Fault.Other]
  exact hcheck.map

theorem Argument.resolve_other (argument : Argument) (opcode : Opcode) (labels : LabelTable) :
    FailsOnly Fault.Other (argument.resolve opcode labels).1 := by
  have harray (name : String) : FailsOnly Fault.Other (arrayTypeCode name) := by
    fun_cases arrayTypeCode <;> simp [Fault.Other]
  have hinterface (m : MemberRef) : FailsOnly Fault.Other (interfaceOperand m) := by
    have hread := (MethodDescriptor.read_failsOnly m.descriptor).mono
      fun _ => Fault.OfDescriptor.other
    simp [interfaceOperand, narrowU1, hread]
  have hplain : FailsOnly Fault.Other (argument.resolvePlain opcode) := by
    fun_cases resolvePlain <;>
      simp [Fault.Other, narrowU1, narrowU2, narrowS1, narrowS2, narrowS4, harray, hinterface]
  have hlow (low : Int64) (high : Option Int64) (count : Nat) :
      FailsOnly Fault.Other (tableLow low high count) := by
    fun_cases tableLow <;> simp [narrowS4, Fault.Other]
  have hpairs (pairs : List (Int64 × String)) (rev : List (Int32 × Label)) :
      FailsOnly Fault.Other (lookupPairs pairs rev labels).1 := by
    fun_induction lookupPairs pairs rev labels with
    | case1 => exact .ok _
    | case2 _ _ _ _ _ fault hfault => exact .error ((narrow_other _ _ _ _).map fault hfault)
    | case3 _ _ _ _ _ _ _ _ _ _ ih => exact ih
  fun_cases resolve with
  | case1 | case2 | case4 | case6 => exact .ok _
  | case3 _ low high targets _ fault hfault => exact .error (hlow _ _ _ fault hfault)
  | case5 pairs _ _ fault _ hfault => exact .error (hpairs pairs [] fault (by rw [hfault]))
  | case7 => exact hplain

/-! ### Frames -/

theorem DeclaredType.readPlace_other (labels : LabelTable) (text : String)
    {outOfRange : Int → Fault} (h : ∀ value, (outOfRange value).Other) :
    FailsOnly Fault.Other (readPlace labels text outOfRange).1 := by
  unfold readPlace
  repeat' split
  all_goals simp [h]

theorem DeclaredType.ofName_other (labels : LabelTable) (name : String)
    (argument : Option String) : FailsOnly Fault.Other (ofName labels name argument).1 := by
  unfold ofName
  cases bare? name with
  | some type => cases argument <;> simp [Fault.Other]
  | none =>
    dsimp only
    split
    next => cases argument <;> simp [Fault.Other]
    next =>
      split
      next =>
        cases argument with
        | none => exact .error (Fault.noConfusion ·)
        | some text =>
          have hplace : FailsOnly Fault.Other (readPlace labels text .uninitializedOffset).1 :=
            readPlace_other labels text fun _ => nofun
          exact hplace.map
      next => exact .error (Fault.noConfusion ·)

/-! ## Changes to the open method -/

namespace OpenMethod

/-- **A change leaves the frame of a method alone**: a frame is open
afterwards if one was before, and none is said to have been left open. -/
structure LeavesFrame (m : OpenMethod) (outcome : OpenMethod × List Fault) : Prop where
  frame : outcome.1.frame.isSome = m.frame.isSome
  other : ∀ fault ∈ outcome.2, fault.Other

variable (m : OpenMethod) (autoLines : Bool)

/-- **Noting a line** is at fault only for a line that is too large. -/
theorem markLine_frame (line : Option Nat) :
    (m.markLine line).1.frame = m.frame ∧ ((m.markLine line).2 = []
      ∨ ∃ number : Nat, 65535 < number
        ∧ (m.markLine line).2 = [.outOfRange "line number" number]) := by
  unfold markLine
  cases line with
  | none => exact ⟨rfl, .inl rfl⟩
  | some line =>
    dsimp only
    split
    next => exact ⟨rfl, .inl rfl⟩
    next =>
      split
      next => exact ⟨rfl, .inl rfl⟩
      next hlarge => exact ⟨rfl, .inr ⟨line, Nat.lt_of_not_le hlarge, rfl⟩⟩

/-- **Committing the pending instruction** does not touch the frame, and is at
fault only for the line of that instruction. -/
theorem flush_frame :
    (m.flush autoLines).1.frame = m.frame ∧ ((m.flush autoLines).2 = []
      ∨ autoLines = true ∧ ∃ number : Nat, 65535 < number
        ∧ (m.flush autoLines).2 = [.outOfRange "line number" number]) := by
  unfold flush
  cases m.pending with
  | none => exact ⟨rfl, .inl rfl⟩
  | some entry =>
    cases autoLines with
    | false => exact ⟨rfl, .inl rfl⟩
    | true =>
      obtain ⟨hframe, hfaults⟩ := markLine_frame { m with pending := none } entry.2
      exact ⟨hframe, hfaults.imp id fun h => ⟨rfl, h⟩⟩

theorem flush_other : ∀ fault ∈ (m.flush autoLines).2, fault.Other := by
  rcases (m.flush_frame autoLines).2 with hnone | ⟨_, number, _, hone⟩
  · simp [hnone]
  · simp [hone, Fault.Other]

theorem leavesFrame_flush : m.LeavesFrame (m.flush autoLines) :=
  ⟨congrArg Option.isSome (m.flush_frame autoLines).1, m.flush_other autoLines⟩

/-- A change that is refused. -/
theorem LeavesFrame.refused {m m' : OpenMethod} (hm' : m'.frame = m.frame) {fault : Fault}
    (hfault : fault.Other) : m.LeavesFrame (m', [fault]) where
  frame := congrArg Option.isSome hm'
  other _ hf := List.mem_singleton.1 hf ▸ hfault

/-- A change followed by a fault that may be there. -/
theorem LeavesFrame.append {m : OpenMethod} {outcome : OpenMethod × List Fault}
    (h : m.LeavesFrame outcome) {m' : OpenMethod} (hm' : m'.frame = outcome.1.frame)
    {fault : Fault} (hfault : fault.Other) : m.LeavesFrame (m', outcome.2 ++ [fault]) where
  frame := (congrArg Option.isSome hm').trans h.frame
  other f hf := (List.mem_append.1 hf).elim (h.other f) fun hf => List.mem_singleton.1 hf ▸ hfault

theorem leavesFrame_emit (line : Option Nat) (mnemonic : String) (argument : Argument) :
    m.LeavesFrame (m.emit autoLines line mnemonic argument) := by
  unfold emit
  split
  next => exact .refused rfl (Fault.noConfusion ·)
  next =>
    cases Opcode.find? mnemonic with
    | none => exact .refused rfl (Fault.noConfusion ·)
    | some opcode =>
      have hmake : FailsOnly Fault.Other ((argument.resolve opcode m.body.labels).1.bind
          (Instruction.make opcode)) :=
        (argument.resolve_other opcode m.body.labels).bind fun i _ =>
          Instruction.make_other opcode i
      dsimp only
      cases hinstruction : (argument.resolve opcode m.body.labels).1.bind
          (Instruction.make opcode) with
      | error fault =>
        refine .refused ?_ (hmake fault hinstruction)
        rfl
      | ok i =>
        have hflush := leavesFrame_flush
          { m with body := { m.body with labels := (argument.resolve opcode m.body.labels).2 } }
          autoLines
        exact ⟨hflush.frame, hflush.other⟩

theorem leavesFrame_plantLabel (name : String) :
    m.LeavesFrame (m.plantLabel autoLines name) := by
  have hready : m.LeavesFrame (if Label.isNumeric name then
      ({ m with body := (m.body.mention name).2 }, [])
      else OpenMethod.flush { m with body := (m.body.mention name).2 } autoLines) := by
    split
    next => exact ⟨rfl, by simp⟩
    next =>
      have hflush := leavesFrame_flush { m with body := (m.body.mention name).2 } autoLines
      exact ⟨hflush.frame, hflush.other⟩
  unfold plantLabel
  dsimp only
  generalize (if Label.isNumeric name then ({ m with body := (m.body.mention name).2 }, [])
    else OpenMethod.flush { m with body := (m.body.mention name).2 } autoLines) = ready at hready ⊢
  cases hnew : ready.1.body.labels.checkNew (m.body.mention name).1 with
  | error fault =>
    have hfault : FailsOnly Fault.Other (ready.1.body.labels.checkNew (m.body.mention name).1) :=
      FailsOnly.ite (fun _ => .error (Fault.noConfusion ·)) fun _ => .ok _
    exact hready.append rfl (hfault fault hnew)
  | ok placed => exact ⟨hready.frame, hready.other⟩

theorem leavesFrame_addLine (line : Int64) : m.LeavesFrame (m.addLine line) := by
  have hflush := m.leavesFrame_flush false
  unfold addLine
  dsimp only
  cases hline : narrowU2 "line number" line with
  | error fault => exact hflush.append rfl ((narrow_other _ _ _ _).map fault hline)
  | ok line => exact ⟨hflush.frame, hflush.other⟩

theorem leavesFrame_addVariable (index : Int64) (name descriptor : String)
    (signature : Option String) (range : Option (String × String)) :
    m.LeavesFrame (m.addVariable index name descriptor signature range) := by
  unfold addVariable
  cases hindex : narrowU2 "local variable index" index with
  | error fault => exact .refused rfl ((narrow_other _ _ _ _).map fault hindex)
  | ok index => cases range <;> exact ⟨rfl, by simp⟩

theorem leavesFrame_setMaxStack (value : Int64) : m.LeavesFrame (m.setMaxStack value) := by
  unfold setMaxStack
  cases hvalue : narrowU2 "max stack" value with
  | error fault => exact .refused rfl ((narrow_other _ _ _ _).map fault hvalue)
  | ok value => exact ⟨rfl, by simp⟩

theorem leavesFrame_setMaxLocals (value : Int64) : m.LeavesFrame (m.setMaxLocals value) := by
  unfold setMaxLocals
  cases hvalue : narrowU2 "max locals" value with
  | error fault => exact .refused rfl ((narrow_other _ _ _ _).map fault hvalue)
  | ok value => exact ⟨rfl, by simp⟩

/-- **A line of a frame** fills the frame and leaves it open. -/
theorem leavesFrame_inFrame
    {change : Frame → Nat → LabelTable → (Frame × Nat) × LabelTable × List Fault}
    (h : ∀ frame copied labels, ∀ fault ∈ (change frame copied labels).2.2, fault.Other) :
    m.LeavesFrame (m.inFrame change) := by
  unfold inFrame
  cases hframe : m.frame with
  | none => exact .refused rfl (Fault.noConfusion ·)
  | some entry => exact ⟨by simp [hframe], h _ _ _⟩

theorem leavesFrame_fillFrame {α : Type} {find : LabelTable → Except Fault α × LabelTable}
    (h : ∀ labels, FailsOnly Fault.Other (find labels).1) (put : Frame → α → Frame) :
    m.LeavesFrame (m.fillFrame find put) := by
  refine m.leavesFrame_inFrame fun frame copied labels fault hfault => ?_
  have hfails := h labels
  rcases hfound : find labels with ⟨found | a, t⟩ <;> rw [hfound] at hfails hfault
  · exact List.mem_singleton.1 hfault ▸ hfails found rfl
  · exact absurd hfault List.not_mem_nil

theorem leavesFrame_frameOffset (position : String) :
    m.LeavesFrame (m.frameOffset position) := by
  rw [frameOffset_eq]
  refine m.leavesFrame_fillFrame (fun labels => ?_) _
  exact DeclaredType.readPlace_other labels position fun _ => nofun

theorem leavesFrame_frameLocal (name : String) (argument : Option String) :
    m.LeavesFrame (m.frameLocal name argument) := by
  rw [frameLocal_eq]
  exact m.leavesFrame_fillFrame (DeclaredType.ofName_other · name argument) _

theorem leavesFrame_frameStack (name : String) (argument : Option String) :
    m.LeavesFrame (m.frameStack name argument) := by
  rw [frameStack_eq]
  exact m.leavesFrame_fillFrame (DeclaredType.ofName_other · name argument) _

theorem leavesFrame_frameUseLocals (count : Int64) :
    m.LeavesFrame (m.frameUseLocals count) := by
  refine m.leavesFrame_inFrame fun frame copied labels fault hfault => ?_
  split at hfault
  next =>
    split at hfault
    next found hcount =>
      exact List.mem_singleton.1 hfault ▸ (narrow_other _ _ _ _).map found hcount
    next => simp at hfault
  next => exact List.mem_singleton.1 hfault ▸ (Fault.noConfusion ·)

/-! ## Frames and their ends -/

/-- **A frame begins if none is open**, whatever committing the pending
instruction was at fault for. -/
theorem isSome_frame_beginFrame : (m.beginFrame autoLines).1.frame.isSome = true := by
  unfold beginFrame
  dsimp only
  split
  next h => exact h
  next => rfl

/-- **The begin of a frame** is at fault for the frame around it, and for the line
of the instruction in front of it. -/
theorem beginFrame_faults : (m.beginFrame autoLines).2
    = (m.flush autoLines).2 ++ if m.frame.isSome then [.frameInsideFrame] else [] := by
  unfold beginFrame
  dsimp only
  rw [(m.flush_frame autoLines).1]
  split
  next => rfl
  next => simp

theorem beginFrame_other : ∀ fault ∈ (m.beginFrame autoLines).2, fault.Other := by
  rw [beginFrame_faults]
  intro fault hfault
  rcases List.mem_append.1 hfault with hflush | hinside
  · exact m.flush_other autoLines fault hflush
  · split at hinside
    next => exact List.mem_singleton.1 hinside ▸ (Fault.noConfusion ·)
    next => simp at hinside

/-- **No frame is open after the end of one.** -/
theorem frame_endFrame : m.endFrame.1.frame = none := by
  unfold endFrame
  cases hframe : m.frame with
  | none => exact hframe
  | some entry =>
    dsimp only
    split <;> rfl

theorem endFrame_other : ∀ fault ∈ m.endFrame.2, fault.Other := by
  intro fault hfault
  unfold endFrame at hfault
  split at hfault
  next => exact List.mem_singleton.1 hfault ▸ (Fault.noConfusion ·)
  next frame copied _ =>
    dsimp only at hfault
    split at hfault
    next found hframe =>
      have hcontinue : FailsOnly Fault.Other (m.body.continueFrame frame copied) := by
        simp [Body.continueFrame, Frame.copyLocals, Fault.Other]
      exact List.mem_singleton.1 hfault ▸ hcontinue found hframe
    next => simp at hfault

/-- **A method that ends says that its frame was left open** only if it was. -/
theorem frame_of_mem_close (h : .frameOpenAtMethodEnd ∈ (m.close autoLines).2) :
    m.frame.isSome = true := by
  by_contra hnone
  unfold close at h
  dsimp only at h
  rw [(m.flush_frame autoLines).1, if_neg hnone, List.append_nil] at h
  rcases List.mem_append.1 h with hflush | hlabels
  · exact m.flush_other autoLines _ hflush rfl
  · split at hlabels
    next found hplace =>
      have hother : FailsOnly Fault.Other
          ((m.flush autoLines).1.body.place (m.flush autoLines).1.finish) := by
        simp [Body.place, LabelTable.checkNew, Fault.Other]
      exact hother found hplace (List.mem_singleton.1 hlabels).symm
    next body _ =>
      split at hlabels
      next found hcheck =>
        have hother : FailsOnly Fault.Other body.checkLabels := by
          unfold Body.checkLabels
          split
          next => exact .ok _
          next => exact .error (Fault.noConfusion ·)
        exact hother found hcheck (List.mem_singleton.1 hlabels).symm
      next => simp at hlabels

end OpenMethod

/-! ## Directives -/

/-- Whether the directive begins or ends a frame or ends a method, or is a fault
from outside. -/
def Directive.concernsFrame : Directive → Bool
  | .beginFrame | .endFrame | .endMethod | .report _ => true
  | _ => false

/-- **A directive that has nothing to do with open frames.** -/
inductive Directive.LeavesFrame : Directive → Prop where
  | plain {d : Directive} (h : d.concernsFrame = false) : d.LeavesFrame
  | report {fault : Fault} (h : fault.Other) : (Directive.report fault).LeavesFrame

namespace Assembler

variable {a a' a'' : Assembler} {d : Directive}

/-- **Whether a frame is open**, in an open method. -/
def frameOpen (a : Assembler) : Bool := a.method.any fun m => m.frame.isSome

/-- A method is on record for having ended before its frame. -/
def BlamesFrame (a : Assembler) : Prop := ∃ d ∈ a.diagnostics, d.fault = .frameOpenAtMethodEnd

/-- **A step that leaves frames alone.** -/
structure LeavesFrame (a a' : Assembler) : Prop where
  frame : a'.frameOpen = a.frameOpen
  blame : a'.BlamesFrame → a.BlamesFrame

namespace LeavesFrame

theorem refl (a : Assembler) : a.LeavesFrame a := ⟨rfl, id⟩

theorem trans (h : a.LeavesFrame a') (h' : a'.LeavesFrame a'') : a.LeavesFrame a'' :=
  ⟨h'.frame.trans h.frame, h.blame ∘ h'.blame⟩

/-- A step that does not touch the open method. -/
theorem of_eq (hmethod : a'.method = a.method) (hdiagnostics : a'.diagnostics = a.diagnostics) :
    a.LeavesFrame a' where
  frame := by rw [frameOpen, hmethod, frameOpen]
  blame := by
    unfold BlamesFrame
    rw [hdiagnostics]
    exact id

end LeavesFrame

theorem method_reportAll (a : Assembler) (faults : List Fault) :
    (a.reportAll faults).method = a.method := by
  rw [reportAll_eq]

theorem blamesFrame_reportAll {faults : List Fault} (h : (a.reportAll faults).BlamesFrame) :
    a.BlamesFrame ∨ .frameOpenAtMethodEnd ∈ faults := by
  obtain ⟨d, hd, hfault⟩ := h
  rw [reportAll_eq] at hd
  rcases Array.mem_append.1 hd with hd | hd
  · exact .inl ⟨d, hd, hfault⟩
  · obtain ⟨fault, hmem, rfl⟩ := List.mem_map.1 (List.mem_toArray.1 hd)
    exact .inr (hfault ▸ hmem)

/-- **Recording other faults** leaves frames alone. -/
theorem leavesFrame_reportAll (a : Assembler) {faults : List Fault}
    (h : ∀ fault ∈ faults, fault.Other) : a.LeavesFrame (a.reportAll faults) where
  frame := by rw [frameOpen, method_reportAll, frameOpen]
  blame hblame := (blamesFrame_reportAll hblame).resolve_right fun hmem => h _ hmem rfl

theorem leavesFrame_report (a : Assembler) (fault : Fault) (h : fault.Other) :
    a.LeavesFrame (a.report fault) :=
  leavesFrame_reportAll a (List.forall_mem_singleton.2 h)

/-- Whether a frame is open after a change to the open method. -/
theorem frameOpen_inMethod (a : Assembler) (directive : String)
    (change : OpenMethod → OpenMethod × List Fault) :
    (a.inMethod directive change).frameOpen = a.method.any fun m => (change m).1.frame.isSome := by
  unfold inMethod
  cases hm : a.method with
  | none => simp [frameOpen, report, hm]
  | some m => simp [frameOpen, method_reportAll]

theorem blamesFrame_inMethod (a : Assembler) (directive : String)
    {change : OpenMethod → OpenMethod × List Fault}
    (h : ∀ m, ∀ fault ∈ (change m).2, fault.Other)
    (hblame : (a.inMethod directive change).BlamesFrame) : a.BlamesFrame := by
  unfold inMethod at hblame
  cases hm : a.method with
  | none =>
    rw [hm] at hblame
    exact (a.leavesFrame_report (.outsideMethod directive) nofun).blame hblame
  | some m =>
    rw [hm] at hblame
    exact (blamesFrame_reportAll hblame).resolve_right fun hmem => h m _ hmem rfl

theorem leavesFrame_modifyAttributes (a : Assembler)
    (change : CommonAttributes → CommonAttributes) :
    a.LeavesFrame (a.modifyAttributes change) := by
  unfold modifyAttributes
  cases hm : a.method with
  | some m => exact ⟨by simp [frameOpen, hm], id⟩
  | none => cases a.field <;> exact .of_eq hm.symm rfl

theorem leavesFrame_modifyMethod (a : Assembler) (change : Method → Method) :
    a.LeavesFrame (a.modifyMethod change) := by
  unfold modifyMethod
  cases hm : a.method with
  | none => exact .refl a
  | some m => exact ⟨by simp [frameOpen, hm], id⟩

theorem leavesFrame_endField (a : Assembler) : a.LeavesFrame a.endField := by
  rw [endField_eq]
  exact .of_eq rfl rfl

theorem leavesFrame_attach (a : Assembler) (target : AnnotationTarget) (tree : AnnotationTree) :
    a.LeavesFrame (a.attach target tree) := by
  unfold attach
  cases target with
  | visible | invisible => exact a.leavesFrame_modifyAttributes _
  | visibleParameter | invisibleParameter => exact a.leavesFrame_modifyMethod _

/-! ### Faults that are found -/

theorem HeadEdit.other {edit : ClassHead → Except Fault ClassHead} (hd : HeadEdit d edit)
    (head : ClassHead) : FailsOnly Fault.Other (edit head) := by
  cases hd with
  | classHeader | superClass =>
    exact FailsOnly.ite (fun _ => .error (Fault.noConfusion ·)) fun _ => .ok _
  | _ => exact .ok _

theorem opened_other (flags : AccessFlags .fields) (name descriptor : String)
    (value : Option Literal) :
    ∀ fault ∈ (Field.opened flags name descriptor value).2, fault.Other := by
  unfold Field.opened
  dsimp only
  split
  next fault hread =>
    exact List.forall_mem_singleton.2 (FieldType.read_failsOnly _ fault hread).other
  next => exact List.forall_mem_nil _
  next =>
    split
    next fault hvalue =>
      exact List.forall_mem_singleton.2 (fieldWithValue_other _ _ fault hvalue)
    next => exact List.forall_mem_nil _

theorem descriptor_other (descriptor : String) :
    ∀ fault ∈ MethodDescriptor.faults descriptor, fault.Other := by
  unfold MethodDescriptor.faults
  split
  next fault hread =>
    exact List.forall_mem_singleton.2 (MethodDescriptor.read_failsOnly _ fault hread).other
  next => exact List.forall_mem_nil _

theorem BodyChange.leavesFrame {autoLines : Bool} {line : Option Nat}
    {change : OpenMethod → OpenMethod × List Fault} (hchange : BodyChange autoLines line d change)
    (hd : d.concernsFrame = false) (m : OpenMethod) : m.LeavesFrame (change m) := by
  cases hchange with
  | limitStack value => exact m.leavesFrame_setMaxStack value
  | limitLocals value => exact m.leavesFrame_setMaxLocals value
  | emit mnemonic argument => exact m.leavesFrame_emit autoLines line mnemonic argument
  | label name => exact m.leavesFrame_plantLabel autoLines name
  | handler => exact ⟨rfl, List.forall_mem_nil _⟩
  | lineNumber value => exact m.leavesFrame_addLine value
  | localVariable index name descriptor signature range =>
    exact m.leavesFrame_addVariable index name descriptor signature range
  | frameOffset position => exact m.leavesFrame_frameOffset position
  | frameLocal type argument => exact m.leavesFrame_frameLocal type argument
  | frameStack type argument => exact m.leavesFrame_frameStack type argument
  | frameUseLocals count => exact m.leavesFrame_frameUseLocals count
  | beginFrame | endFrame => cases hd

theorem TreeChange.other {edit : Bool → List OpenTree → Except Fault TreeEdit}
    (hd : TreeChange d edit) (inMethod : Bool) (trees : List OpenTree) :
    FailsOnly Fault.Other (edit inMethod trees) := by
  cases hd with
  | beginTree =>
    refine FailsOnly.ite (fun _ => .error (Fault.noConfusion ·)) fun _ => ?_
    exact FailsOnly.ite (fun _ => .error (Fault.noConfusion ·)) fun _ => .ok _
  | element | beginNested =>
    cases trees with
    | nil => exact .error (Fault.noConfusion ·)
    | cons => exact .ok _
  | endTree =>
    cases trees with
    | nil => exact .error (Fault.noConfusion ·)
    | cons tree around =>
      obtain ⟨type, elements, parent⟩ := tree
      cases parent with
      | target => exact .ok _
      | element => cases around <;> exact .ok _

/-! ### Directives that leave frames alone -/

theorem Acts.leavesFrame {e : Effect} (h : a.Acts d e) (hd : d.concernsFrame = false) :
    a.LeavesFrame (a.perform e).1 ∧ ∀ fault ∈ (a.perform e).2, fault.Other := by
  unfold perform
  cases h with
  | report | endMethod => cases hd
  | line | ignored => exact ⟨.of_eq rfl rfl, List.forall_mem_nil _⟩
  | version version =>
    dsimp only
    split
    next => exact ⟨.of_eq rfl rfl, List.forall_mem_nil _⟩
    next => exact ⟨.refl a, List.forall_mem_singleton.2 (Fault.noConfusion ·)⟩
  | @head _ edit hedit =>
    dsimp only
    cases hresult : edit a.classSoFar.head with
    | error fault => exact ⟨.refl a, List.forall_mem_singleton.2 (hedit.other _ fault hresult)⟩
    | ok head => exact ⟨.of_eq rfl rfl, List.forall_mem_nil _⟩
  | attributes => exact ⟨a.leavesFrame_modifyAttributes _, List.forall_mem_nil _⟩
  | beginField flags name descriptor value =>
    dsimp only
    split
    next => exact ⟨.refl a, List.forall_mem_singleton.2 (Fault.noConfusion ·)⟩
    next =>
      exact ⟨a.leavesFrame_endField.trans (.of_eq rfl rfl),
        opened_other flags name descriptor value⟩
  | endField => exact ⟨a.leavesFrame_endField, List.forall_mem_nil _⟩
  | beginMethod flags name descriptor =>
    dsimp only
    split
    next => exact ⟨.refl a, List.forall_mem_singleton.2 (Fault.noConfusion ·)⟩
    next hout =>
      -- the method that begins has no frame, and there was none to have one
      have hclosed : a.frameOpen = false := by
        rw [frameOpen, Option.not_isSome_iff_eq_none.1 hout]
        rfl
      exact ⟨⟨hclosed.symm, a.leavesFrame_endField.blame⟩, descriptor_other descriptor⟩
  | body directive hchange =>
    dsimp only
    cases hm : a.method with
    | none => exact ⟨.refl a, List.forall_mem_singleton.2 (Fault.noConfusion ·)⟩
    | some m =>
      obtain ⟨hframe, hother⟩ := hchange.leavesFrame hd m
      exact ⟨⟨by simp [frameOpen, hm, hframe], id⟩, hother⟩
  | declaration directive =>
    dsimp only
    cases hm : a.method with
    | none => exact ⟨.refl a, List.forall_mem_singleton.2 (Fault.noConfusion ·)⟩
    | some m => exact ⟨⟨by simp [frameOpen, hm], id⟩, List.forall_mem_nil _⟩
  | @trees _ edit hedit =>
    dsimp only
    cases hresult : edit a.method.isSome a.trees with
    | error fault =>
      exact ⟨.refl a, List.forall_mem_singleton.2 (hedit.other _ _ fault hresult)⟩
    | ok edited =>
      obtain ⟨trees, ended⟩ := edited
      have htrees : a.LeavesFrame { a with trees } := .of_eq rfl rfl
      cases ended with
      | none => exact ⟨htrees, List.forall_mem_nil _⟩
      | some ended =>
        exact ⟨htrees.trans (leavesFrame_attach _ ended.1 ended.2), List.forall_mem_nil _⟩

/-- **Every other directive leaves frames alone.** -/
theorem leavesFrame_plain (a : Assembler) (hd : d.concernsFrame = false) :
    a.LeavesFrame (a.run d) := by
  obtain ⟨hstep, hother⟩ := (a.acts d).leavesFrame hd
  rw [run_eq]
  exact hstep.trans (leavesFrame_reportAll _ hother)

theorem leavesFrame_run (a : Assembler) (hd : d.LeavesFrame) :
    a.LeavesFrame (a.run d) := by
  cases hd with
  | plain h => exact a.leavesFrame_plain h
  | report h => exact a.leavesFrame_report _ h

/-- **A run of such directives** leaves frames alone. -/
theorem leavesFrame_runAll (a : Assembler) {ds : List Directive}
    (hds : ∀ d ∈ ds, d.LeavesFrame) : a.LeavesFrame (a.runAll ds) := by
  induction ds generalizing a with
  | nil => exact .refl a
  | cons d ds ih =>
    have hfirst := a.leavesFrame_run (hds d List.mem_cons_self)
    exact hfirst.trans (ih (a.run d) fun d' hd' => hds d' (List.mem_cons_of_mem d hd'))

/-! ## The three others -/

/-- **The end of a method** leaves no frame open. It blames the frame only if
one was. -/
theorem frame_run_endMethod (a : Assembler) : (a.run .endMethod).frameOpen = false
    ∧ ((a.run .endMethod).BlamesFrame → a.BlamesFrame ∨ a.frameOpen = true) := by
  unfold run endMethod
  cases hm : a.method with
  | none =>
    have hreport := a.leavesFrame_report .endMethodAlone nofun
    exact ⟨hreport.frame.trans (by simp [frameOpen, hm]), fun h => .inl (hreport.blame h)⟩
  | some m =>
    refine ⟨by simp [frameOpen, method_reportAll], fun h => ?_⟩
    rcases blamesFrame_reportAll (a := { a with method := none }) h with hbefore | hclose
    · exact .inl hbefore
    · have hframe := m.frame_of_mem_close _ hclose
      exact .inr (by simp [frameOpen, hm, hframe])

/-- **The end of a frame** leaves no frame open and blames none. -/
theorem frame_run_endFrame (a : Assembler) :
    (a.run .endFrame).frameOpen = false ∧ ((a.run .endFrame).BlamesFrame → a.BlamesFrame) := by
  refine ⟨?_, a.blamesFrame_inMethod ".end stack" fun m => m.endFrame_other⟩
  show (a.inMethod ".end stack" (·.endFrame)).frameOpen = false
  rw [frameOpen_inMethod]
  simp [OpenMethod.frame_endFrame]

/-- **The begin of a frame** leaves one open in every method, whatever was
recorded, and blames none. -/
theorem frame_run_beginFrame (a : Assembler) : (a.run .beginFrame).frameOpen = a.method.isSome
    ∧ ((a.run .beginFrame).BlamesFrame → a.BlamesFrame) := by
  refine ⟨?_, a.blamesFrame_inMethod ".stack" fun m => m.beginFrame_other _⟩
  show (a.inMethod ".stack" (·.beginFrame a.settings.autoLines)).frameOpen = _
  rw [frameOpen_inMethod]
  cases a.method <;> simp [OpenMethod.isSome_frame_beginFrame]

/-- **If nothing is recorded at the begin of a frame**, there was a method, and
no frame was open in it. -/
theorem frameOpen_of_run_beginFrame (a : Assembler)
    (h : (a.run .beginFrame).diagnostics = a.diagnostics) :
    a.method.isSome = true ∧ a.frameOpen = false := by
  obtain ⟨m, hm, hfaults⟩ : ∃ m, a.method = some m
      ∧ (m.beginFrame a.settings.autoLines).2 = [] := by
    have hnothing := run_clean_iff.1 h
    unfold outcome effect perform at hnothing
    cases hm : a.method with
    | none => simp [hm] at hnothing
    | some m => exact ⟨m, rfl, by simpa [hm] using hnothing⟩
  have hnone : m.frame.isSome = false := by
    rw [m.beginFrame_faults] at hfaults
    by_contra hsome
    simp [hsome] at hfaults
  exact ⟨by simp [hm], by simp [frameOpen, hm, hnone]⟩

/-- **If something is recorded although no frame was open** in the method, it is
the line of the instruction in front, which could not be noted. -/
theorem recorded_of_run_beginFrame (a : Assembler)
    (h : (a.run .beginFrame).diagnostics ≠ a.diagnostics) (hmethod : a.method.isSome = true)
    (hclosed : a.frameOpen = false) :
    a.settings.autoLines = true ∧ ∃ number : Nat, 65535 < number
      ∧ (a.run .beginFrame).diagnostics
        = a.diagnostics.push ⟨a.line, .outOfRange "line number" number⟩ := by
  obtain ⟨m, hm⟩ := Option.isSome_iff_exists.1 hmethod
  have hrun : (a.run .beginFrame)
      = { a with method := some (m.beginFrame a.settings.autoLines).1 }.reportAll
        (m.beginFrame a.settings.autoLines).2 := by
    show a.inMethod ".stack" (·.beginFrame a.settings.autoLines) = _
    unfold inMethod
    rw [hm]
  have hnone : m.frame.isSome = false := by simpa [frameOpen, hm] using hclosed
  rw [m.beginFrame_faults, hnone] at hrun
  rcases (m.flush_frame a.settings.autoLines).2 with hclean | ⟨hauto, number, hlarge, hone⟩
  · rw [hrun, hclean] at h
    exact absurd rfl h
  · rw [hrun, hone]
    exact ⟨hauto, number, hlarge, rfl⟩

end Assembler

end BytecodeAssembler
