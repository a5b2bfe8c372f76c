import BytecodeAssembler.Proofs.Assembler.Steps

/-!
# States without their source lines

A run keeps source lines in three places: the line of the directives that
follow, the line of each diagnostic, and the line of the instruction that is
held back. A state is **unlined** by forgetting all of them. When lines are not
noted automatically, no directive looks at a line it was told, so carrying out
a directive and forgetting the lines can be exchanged (`Assembler.run_unlined`),
and so can ending the run (`Assembler.finish_unlined`).
-/

namespace BytecodeAssembler

/-! ## Open methods -/

namespace OpenMethod

/-- The method without the source line of its pending instruction. -/
def unlined (m : OpenMethod) : OpenMethod :=
  { m with pending := m.pending.map fun entry => (entry.1, none) }

/-- What a change gives, without source lines. -/
def outcomeUnlined (outcome : OpenMethod × List Fault) : OpenMethod × List Fault :=
  (outcome.1.unlined, outcome.2)

variable (m : OpenMethod)

theorem setBody_unlined (body : Body) : { m.unlined with body } = { m with body }.unlined := rfl

theorem flush_unlined : m.unlined.flush false = outcomeUnlined (m.flush false) := by
  obtain ⟨method, body, pending, frame, start, finish, lastLine⟩ := m
  cases pending <;> rfl

/-- **The line of an instruction is only remembered.** -/
theorem emit_unlined (line : Option Nat) (mnemonic : String) (argument : Argument) :
    m.unlined.emit false none mnemonic argument
      = outcomeUnlined (m.emit false line mnemonic argument) := by
  unfold emit
  rw [show m.unlined.method = m.method from rfl, show m.unlined.body = m.body from rfl]
  by_cases hcode : m.method.mayHaveCode = true
  · cases Opcode.find? mnemonic with
    | none => simp [hcode, outcomeUnlined]
    | some opcode =>
      have hflush := flush_unlined
        { m with body := { m.body with labels := (argument.resolve opcode m.body.labels).2 } }
      simp only [hcode, Bool.not_true, Bool.false_eq_true, if_false]
      cases (argument.resolve opcode m.body.labels).1.bind (Instruction.make opcode) with
      | error fault => rfl
      | ok i => exact congrArg (fun out => ({ out.1 with pending := some (i, none) }, out.2)) hflush
  · simp [hcode, outcomeUnlined]

theorem plantLabel_unlined (name : String) :
    m.unlined.plantLabel false name = outcomeUnlined (m.plantLabel false name) := by
  -- whether the pending instruction is committed first depends on the name alone
  have hready : (if Label.isNumeric name then
        ({ m.unlined with body := (m.body.mention name).2 }, [])
      else OpenMethod.flush { m.unlined with body := (m.body.mention name).2 } false)
      = outcomeUnlined (if Label.isNumeric name then
          ({ m with body := (m.body.mention name).2 }, [])
        else OpenMethod.flush { m with body := (m.body.mention name).2 } false) := by
    split
    next => rfl
    next => exact flush_unlined { m with body := (m.body.mention name).2 }
  unfold plantLabel
  dsimp only
  rw [show m.unlined.body = m.body from rfl, hready]
  generalize (if Label.isNumeric name then ({ m with body := (m.body.mention name).2 }, [])
    else OpenMethod.flush { m with body := (m.body.mention name).2 } false) = ready
  rw [show (outcomeUnlined ready).1.body = ready.1.body from rfl]
  cases ready.1.body.labels.checkNew (m.body.mention name).1 <;> rfl

theorem addHandler_unlined (catchType : Option String) (start finish target : String) :
    m.unlined.addHandler catchType start finish target
      = (m.addHandler catchType start finish target).unlined := by
  unfold addHandler
  dsimp only
  rw [show m.unlined.body = m.body from rfl]
  exact m.setBody_unlined _

theorem addLine_unlined (line : Int64) :
    m.unlined.addLine line = outcomeUnlined (m.addLine line) := by
  simp only [addLine, flush_unlined]
  split <;> rfl

theorem addVariable_unlined (index : Int64) (name descriptor : String)
    (signature : Option String) (range : Option (String × String)) :
    m.unlined.addVariable index name descriptor signature range
      = outcomeUnlined (m.addVariable index name descriptor signature range) := by
  simp only [addVariable]
  split
  next => rfl
  next => cases range <;> rfl

theorem setMaxStack_unlined (value : Int64) :
    m.unlined.setMaxStack value = outcomeUnlined (m.setMaxStack value) := by
  simp only [setMaxStack]
  split <;> rfl

theorem setMaxLocals_unlined (value : Int64) :
    m.unlined.setMaxLocals value = outcomeUnlined (m.setMaxLocals value) := by
  simp only [setMaxLocals]
  split <;> rfl

theorem beginFrame_unlined : m.unlined.beginFrame false = outcomeUnlined (m.beginFrame false) := by
  simp only [beginFrame, flush_unlined]
  show (if (m.flush false).1.frame.isSome then _ else _) = _
  split <;> rfl

theorem inFrame_unlined
    (change : Frame → Nat → LabelTable → (Frame × Nat) × LabelTable × List Fault) :
    m.unlined.inFrame change = outcomeUnlined (m.inFrame change) := by
  obtain ⟨method, body, pending, frame, start, finish, lastLine⟩ := m
  cases frame <;> rfl

theorem endFrame_unlined : m.unlined.endFrame = outcomeUnlined m.endFrame := by
  obtain ⟨method, body, pending, frame, start, finish, lastLine⟩ := m
  cases frame with
  | none => rfl
  | some entry =>
    simp only [endFrame, unlined]
    split <;> rfl

/-- **Nothing of a line is left in a method that is closed.** -/
theorem close_unlined : m.unlined.close false = m.close false := by
  simp only [close, flush_unlined]
  rfl

end OpenMethod

/-! ## States -/

/-- The diagnostic without its line. -/
def Diagnostic.unlined (d : Diagnostic) : Diagnostic := ⟨none, d.fault⟩

/-- The failure without the lines of what it reports. -/
def Failure.unlined : Failure → Failure
  | .diagnosed diagnostics => .diagnosed (diagnostics.map Diagnostic.unlined)
  | .inputOutput text => .inputOutput text

namespace Assembler

open OpenMethod (outcomeUnlined)

/-- **The state without source lines.** -/
def unlined (a : Assembler) : Assembler :=
  { a with
    line := none
    diagnostics := a.diagnostics.map Diagnostic.unlined
    method := a.method.map OpenMethod.unlined }

variable (a : Assembler) {d : Directive}

theorem method_unlined_of_none (h : a.method = none) : a.unlined.method = none := by
  simp [unlined, h]

theorem method_unlined_of_some {m : OpenMethod} (h : a.method = some m) :
    a.unlined.method = some m.unlined := by
  simp [unlined, h]

theorem classSoFar_unlined : a.unlined.classSoFar = a.classSoFar := rfl

theorem trees_unlined : a.unlined.trees = a.trees := rfl

theorem size_diagnostics_unlined : a.unlined.diagnostics.size = a.diagnostics.size :=
  Array.size_map

theorem isSome_method_unlined : a.unlined.method.isSome = a.method.isSome := by
  simp [unlined]

theorem report_unlined (fault : Fault) : a.unlined.report fault = (a.report fault).unlined := by
  simp [report, unlined, Diagnostic.unlined]

theorem reportAll_unlined (faults : List Fault) :
    a.unlined.reportAll faults = (a.reportAll faults).unlined := by
  have hlines : faults.map (Diagnostic.mk none)
      = (faults.map (Diagnostic.mk a.line)).map Diagnostic.unlined := by
    rw [List.map_map]
    rfl
  simp [reportAll_eq, unlined, hlines]

theorem modifyAttributes_unlined (change : CommonAttributes → CommonAttributes) :
    a.unlined.modifyAttributes change = (a.modifyAttributes change).unlined := by
  obtain ⟨settings, c, line, diagnostics, form, field, method, trees⟩ := a
  cases method with
  | some m => rfl
  | none => cases field <;> rfl

theorem modifyMethod_unlined (change : Method → Method) :
    a.unlined.modifyMethod change = (a.modifyMethod change).unlined := by
  obtain ⟨settings, c, line, diagnostics, form, field, method, trees⟩ := a
  cases method <;> rfl

theorem attach_unlined (target : AnnotationTarget) (tree : AnnotationTree) :
    a.unlined.attach target tree = (a.attach target tree).unlined := by
  unfold attach
  cases target with
  | visible | invisible => exact a.modifyAttributes_unlined _
  | visibleParameter | invisibleParameter => exact a.modifyMethod_unlined _

/-! ## Directives -/

theorem endField_unlined : a.unlined.endField = a.endField.unlined := by
  simp only [endField_eq]
  rfl

/-- What an effect gives, without source lines. -/
def withoutLines (outcome : Assembler × List Fault) : Assembler × List Fault :=
  (outcome.1.unlined, outcome.2)

/-- **A change to the open method** that looks at no line can be made without
lines. -/
theorem perform_body_unlined (directive : String)
    {change change' : OpenMethod → OpenMethod × List Fault}
    (h : ∀ m, change' m.unlined = outcomeUnlined (change m)) :
    a.unlined.perform (.body directive change')
      = withoutLines (a.perform (.body directive change)) := by
  unfold perform
  cases hm : a.method with
  | none =>
    rw [a.method_unlined_of_none hm]
    rfl
  | some m =>
    rw [a.method_unlined_of_some hm]
    dsimp only
    rw [h]
    rfl

theorem BodyChange.unlined {line : Option Nat} {change : OpenMethod → OpenMethod × List Fault}
    (hd : BodyChange false line d change) (hemit : ∀ mnemonic argument, d ≠ .emit mnemonic argument)
    (m : OpenMethod) : change m.unlined = outcomeUnlined (change m) := by
  cases hd with
  | limitStack value => exact m.setMaxStack_unlined value
  | limitLocals value => exact m.setMaxLocals_unlined value
  | emit mnemonic argument => exact absurd rfl (hemit mnemonic argument)
  | label name => exact m.plantLabel_unlined name
  | handler => exact congrArg (·, []) (m.addHandler_unlined _ _ _ _)
  | lineNumber value => exact m.addLine_unlined value
  | localVariable index name descriptor signature range =>
    exact m.addVariable_unlined index name descriptor signature range
  | beginFrame => exact m.beginFrame_unlined
  | frameOffset | frameLocal | frameStack | frameUseLocals => exact m.inFrame_unlined _
  | endFrame => exact m.endFrame_unlined

/-- **An effect is had without source lines**, if lines are not noted
automatically and it does not give one. -/
theorem Acts.unlined {a : Assembler} {e : Effect} (h : a.Acts d e)
    (hauto : a.settings.autoLines = false) (hline : ∀ number, d ≠ .line number)
    (hemit : ∀ mnemonic argument, d ≠ .emit mnemonic argument) :
    a.unlined.perform e = withoutLines (a.perform e) := by
  cases h with
  | line number => exact absurd rfl (hline number)
  | report | ignored => rfl
  | version version =>
    simp only [perform, show a.unlined.form = a.form from rfl]
    cases version.refusedBy? a.form <;> rfl
  | @head _ edit =>
    simp only [perform, classSoFar_unlined]
    cases edit a.classSoFar.head <;> rfl
  | attributes => exact congrArg (·, []) (a.modifyAttributes_unlined _)
  | beginField | beginMethod =>
    simp only [perform, isSome_method_unlined, endField_unlined]
    split <;> rfl
  | endField => exact congrArg (·, []) a.endField_unlined
  -- closing flushes, so it could note a line; without automatic lines it does not
  | endMethod =>
    unfold perform
    cases hm : a.method with
    | none =>
      rw [a.method_unlined_of_none hm]
      rfl
    | some m =>
      rw [a.method_unlined_of_some hm]
      dsimp only
      rw [show a.unlined.settings = a.settings from rfl, hauto, OpenMethod.close_unlined]
      rfl
  | body directive hd =>
    rw [hauto] at hd
    exact a.perform_body_unlined directive (hd.unlined hemit)
  | declaration =>
    obtain ⟨settings, c, line, diagnostics, form, field, method, trees⟩ := a
    cases method <;> rfl
  | @trees _ edit =>
    simp only [perform, isSome_method_unlined, trees_unlined]
    cases edit a.method.isSome a.trees with
    | error fault => rfl
    | ok edited =>
      obtain ⟨trees, ended⟩ := edited
      cases ended with
      | none => rfl
      | some ended => exact congrArg (·, []) (attach_unlined { a with trees } ended.1 ended.2)

/-- **A directive can be carried out without source lines**, if lines are not
noted automatically and the directive does not give one. -/
theorem run_unlined (hauto : a.settings.autoLines = false) (d : Directive)
    (hd : ∀ number, d ≠ .line number) : a.unlined.run d = (a.run d).unlined := by
  have houtcome : a.unlined.outcome d = withoutLines (a.outcome d) := by
    by_cases hemit : ∃ mnemonic argument, d = .emit mnemonic argument
    · obtain ⟨mnemonic, argument, rfl⟩ := hemit
      unfold outcome effect
      rw [show a.unlined.settings = a.settings from rfl, hauto]
      exact a.perform_body_unlined mnemonic (·.emit_unlined a.line mnemonic argument)
    · -- no other directive looks at the line it comes from
      have hnot : ∀ mnemonic argument, d ≠ .emit mnemonic argument :=
        fun mnemonic argument heq => hemit ⟨mnemonic, argument, heq⟩
      have heffect : a.unlined.effect d = a.effect d := by
        cases d with
        | emit mnemonic argument => exact absurd rfl (hnot mnemonic argument)
        | _ => rfl
      unfold outcome
      rw [heffect]
      exact (a.acts d).unlined hauto hd hnot
  rw [run_eq, run_eq, houtcome]
  exact reportAll_unlined (a.outcome d).1 (a.outcome d).2

/-- **States that differ in lines only** still do after a directive. -/
theorem unlined_run_congr {a b : Assembler} (hauto : a.settings.autoLines = false)
    (h : a.unlined = b.unlined) (d : Directive) : (a.run d).unlined = (b.run d).unlined := by
  by_cases hd : ∃ number, d = .line number
  · obtain ⟨number, rfl⟩ := hd
    exact h
  · have hd' : ∀ number, d ≠ .line number := fun number hline => hd ⟨number, hline⟩
    have hauto' : b.settings.autoLines = false := by
      rw [← hauto]
      exact congrArg (·.settings.autoLines) h.symm
    rw [← a.run_unlined hauto d hd', h, b.run_unlined hauto' d hd']

/-! ## The end -/

theorem checkEnd_unlined : a.unlined.checkEnd = a.checkEnd.unlined := by
  have hmethod (b : Assembler) :
      (if b.unlined.method.isSome then b.unlined.report .methodOpenAtEnd else b.unlined)
        = (if b.method.isSome then b.report .methodOpenAtEnd else b).unlined := by
    rw [isSome_method_unlined, report_unlined, apply_ite unlined]
  have htrees (b : Assembler) :
      (if b.unlined.trees.isEmpty then b.unlined else b.unlined.report .annotationOpenAtEnd)
        = (if b.trees.isEmpty then b else b.report .annotationOpenAtEnd).unlined := by
    rw [trees_unlined, report_unlined, apply_ite unlined]
  have hclass (b : Assembler) :
      (if b.unlined.className?.isNone then b.unlined.report .missingClass else b.unlined)
        = (if b.className?.isNone then b.report .missingClass else b).unlined := by
    rw [report_unlined, apply_ite unlined]
    rfl
  have hsuper (b : Assembler) :
      (if b.unlined.classSoFar.superClass.isNone && b.unlined.className? != some Class.rootName
        then b.unlined.report .missingSuper else b.unlined)
        = (if b.classSoFar.superClass.isNone && b.className? != some Class.rootName
          then b.report .missingSuper else b).unlined := by
    rw [report_unlined, apply_ite unlined]
    rfl
  unfold checkEnd
  dsimp only
  rw [endField_unlined, hmethod, htrees, hclass, hsuper]

/-- **The outcome of a run does not depend on its lines**, up to the lines of
what is reported. -/
theorem finish_unlined : a.unlined.finish = a.finish.mapError Failure.unlined := by
  have hempty : a.unlined.checkEnd.diagnostics.isEmpty = a.checkEnd.diagnostics.isEmpty := by
    rw [checkEnd_unlined, Array.isEmpty, size_diagnostics_unlined, Array.isEmpty]
  have hclass : a.unlined.checkEnd.finalClass = a.checkEnd.finalClass := by
    rw [checkEnd_unlined]
    rfl
  have hrecorded : a.unlined.checkEnd.diagnostics.toList
      = a.checkEnd.diagnostics.toList.map Diagnostic.unlined := by
    rw [checkEnd_unlined]
    simp [unlined]
  unfold finish
  dsimp only
  rw [hempty, hclass, hrecorded]
  split
  next => cases a.checkEnd.finalClass.encode <;> rfl
  next => rfl

end Assembler

end BytecodeAssembler
