import BytecodeAssembler.Proofs.Assembler.OpenFrame
import BytecodeAssembler.Source.Reading

/-!
# What a line can do

Reading a line comes down to directives, and few of them matter for frames. A
line begins a frame, or ends one, or ends a method, or it **leaves frames
alone**; and what the reader itself finds at fault is never a frame that was
left open. `Reading.LineEffect` says this of every line, and whatever is to be
said of a whole reading follows from it line by line. In particular a reading is
a run of directives (`exists_runAll_read`).
-/

namespace BytecodeAssembler.Source

/-! ## Faults of the reader -/

theorem scan_other (line : List Char) (inside : Scan) (done : List Token) :
    FailsOnly Fault.Other (scan line inside done) := by
  fun_induction scan line inside done <;> simp_all [Fault.Other]

@[simp]
theorem asWord_other (token : Token) : FailsOnly Fault.Other token.asWord := by
  fun_cases Token.asWord <;> simp [Fault.Other]

@[simp]
theorem single_other (what : String) (args : List Token) :
    FailsOnly Fault.Other (single what args) := by
  fun_cases single <;> simp [Fault.Other]

@[simp]
theorem noOperands_other (what : String) (args : List Token) :
    FailsOnly Fault.Other (noOperands what args) := by
  fun_cases noOperands <;> simp [Fault.Other]

@[simp]
theorem readInteger_other (text : String) : FailsOnly Fault.Other (readInteger text) := by
  fun_cases readInteger <;> simp [Fault.Other]

@[simp]
theorem flags_other {c : Carrier} (args : List Token) :
    FailsOnly Fault.Other (flags args : Except Fault (AccessFlags c)) := by
  have hkeywords (keywords : List String) :
      FailsOnly Fault.Other (AccessFlags.ofKeywords keywords : Except Fault (AccessFlags c)) := by
    unfold AccessFlags.ofKeywords
    generalize AccessFlags.empty = given
    induction keywords generalizing given with
    | nil => simp
    | cons keyword keywords ih =>
      rw [List.foldlM_cons]
      refine FailsOnly.bind ?_ fun given _ => ih given
      cases c.bit? keyword <;> simp [Fault.Other]
  exact (FailsOnly.mapM fun token _ => asWord_other token).bind fun keywords _ => hkeywords keywords

@[simp]
theorem readNumber_other (text : String) : FailsOnly Fault.Other (readNumber? text) := by
  fun_cases readNumber? <;> simp [Fault.Other]

@[simp]
theorem readValue_other (token : Token) : FailsOnly Fault.Other (readValue? token) := by
  fun_cases readValue? <;> simp

@[simp]
theorem readMember_other (path descriptor : List Char) :
    FailsOnly Fault.Other (readMember path descriptor) := by
  fun_cases readMember <;> simp [Fault.Other]

@[simp]
theorem readMethod_other (text : String) : FailsOnly Fault.Other (readMethod text) := by
  fun_cases readMethod <;> simp [Fault.Other]

/-! ## Commands -/

/-- **Every result of a reader is one of `P`**, and the reader is at fault only
for what it reads. -/
structure Gives {α : Type} (P : α → Prop) (x : Except Fault α) : Prop where
  result : ∀ a, x = .ok a → P a
  fails : FailsOnly Fault.Other x

namespace Gives

variable {α β : Type} {P : α → Prop} {Q : β → Prop}

@[simp]
theorem ok_iff {a : α} : Gives P (.ok a : Except Fault α) ↔ P a :=
  ⟨fun h => h.result a rfl, fun h => ⟨fun _ ha => Except.ok.inj ha ▸ h, .ok a⟩⟩

@[simp]
theorem pure_iff {a : α} : Gives P (pure a : Except Fault α) ↔ P a := ok_iff

@[simp]
theorem error_iff {fault : Fault} : Gives P (.error fault : Except Fault α) ↔ fault.Other :=
  ⟨fun h => h.fails fault rfl, fun h => ⟨nofun, .error h⟩⟩

@[simp]
theorem throw_iff {fault : Fault} : Gives P (throw fault : Except Fault α) ↔ fault.Other :=
  error_iff

@[simp]
theorem bind_iff {x : Except Fault α} {f : α → Except Fault β} :
    Gives Q (x >>= f) ↔ FailsOnly Fault.Other x ∧ ∀ a, x = .ok a → Gives Q (f a) := by
  constructor
  · rintro ⟨hresult, hfails⟩
    obtain ⟨hx, hf⟩ := FailsOnly.bind_iff.1 hfails
    exact ⟨hx, fun a ha => ⟨fun b hb => hresult b (bind_eq_ok_iff.2 ⟨a, ha, hb⟩), hf a ha⟩⟩
  · rintro ⟨hx, hf⟩
    refine ⟨fun b hb => ?_, hx.bind fun a ha => (hf a ha).fails⟩
    obtain ⟨a, ha, hb⟩ := bind_eq_ok_iff.1 hb
    exact (hf a ha).result b hb

@[simp]
theorem map_iff {x : Except Fault α} {f : α → β} :
    Gives Q (f <$> x) ↔ Gives (fun a => Q (f a)) x := by
  constructor
  · rintro ⟨hresult, hfails⟩
    exact ⟨fun a ha => hresult _ (map_eq_ok_iff.2 ⟨a, ha, rfl⟩), FailsOnly.fmap_iff.1 hfails⟩
  · rintro ⟨hresult, hfails⟩
    refine ⟨fun b hb => ?_, hfails.map⟩
    obtain ⟨a, ha, rfl⟩ := map_eq_ok_iff.1 hb
    exact hresult a ha

@[simp]
theorem true_iff {x : Except Fault α} : Gives (fun _ => True) x ↔ FailsOnly Fault.Other x :=
  ⟨fun h => h.fails, fun h => ⟨fun _ _ => trivial, h⟩⟩

end Gives

/-- A directive that a line can ask for: one that leaves frames alone, or the
end of a method. -/
def Askable (d : Directive) : Prop := d.concernsFrame = false ∨ d = .endMethod

/-- A command that a line can ask for. -/
def Command.Askable (command : Command) : Prop :=
  ∀ d, command = .directive d → Source.Askable d

theorem Gives.directive {x : Except Fault Directive} (h : Gives Askable x) :
    Gives Command.Askable (Command.directive <$> x) :=
  Gives.map_iff.2 ⟨fun d hd _ heq => Command.directive.inj heq ▸ h.result d hd, h.fails⟩

section Readers

-- a reader that only puts others together is unfolded, the others have their lemmas
attribute [local simp] singleWord singleInteger integer Directive.concernsFrame Fault.Other
  Askable Command.Askable

theorem readClass_gives (what : String) (implied : AccessFlags .classes) (args : List Token) :
    Gives Askable (readClass what implied args) := by
  fun_cases readClass <;> simp

theorem readField_gives (args : List Token) : Gives Askable (readField args) := by
  have hvalue (value : Option (List Token)) : FailsOnly Fault.Other (readFieldValue value) := by
    fun_cases readFieldValue <;> simp [readLiteral]
    rintro (_ | value) _ <;> simp
  fun_cases readField <;> simp [hvalue]

theorem readMethodHeader_gives (args : List Token) : Gives Askable (readMethodHeader args) := by
  fun_cases readMethodHeader with
  | case1 => simp +zetaDelta
  | case2 misuse keywords last _ =>
    refine Gives.bind_iff.2 ⟨by simp, fun text _ => ?_⟩
    split <;> simp +zetaDelta

theorem readEnd_gives (args : List Token) : Gives Askable (readEnd args) := by
  refine Gives.bind_iff.2 ⟨by simp, fun block _ => ?_⟩
  split <;> simp

theorem readLimit_gives (args : List Token) : Gives Askable (readLimit args) := by
  fun_cases readLimit <;> simp

theorem readCatch_gives (args : List Token) : Gives Askable (readCatch args) := by
  fun_cases readCatch <;> simp

theorem readVariable_gives (args : List Token) : Gives Askable (readVariable args) := by
  have hrange (args : List Token) : FailsOnly Fault.Other (readRange args) := by
    fun_cases readRange <;> simp
  fun_cases readVariable <;> simp [hrange]

theorem readDirective_gives (what : String) (args : List Token) :
    Gives Command.Askable (readDirective what args) := by
  have hversion (text : String) : FailsOnly Fault.Other (Version.read text) := by
    have hnumber (part : List Char) : FailsOnly Fault.Other (Version.readNumber text part) := by
      fun_cases Version.readNumber <;> simp
    simp [Version.read, hnumber]
  fun_cases readDirective with
  | case1 | case2 => exact (readClass_gives _ _ args).directive
  | case9 => exact (readField_gives args).directive
  | case10 => exact (readMethodHeader_gives args).directive
  | case11 => exact (readEnd_gives args).directive
  | case12 => exact (readLimit_gives args).directive
  | case14 => exact (readCatch_gives args).directive
  | case16 => exact (readVariable_gives args).directive
  | _ => simp [hversion]

theorem readInstruction_gives (opcode : Opcode) (args : List Token) :
    Gives Command.Askable (readInstruction opcode args) := by
  have hnumber (text : String) : FailsOnly Fault.Other (readWordOrNumber text) := by
    refine FailsOnly.bind_iff.2 ⟨by simp, ?_⟩
    rintro (_ | value) _ <;> simp
  have hvalue (token : Token) : FailsOnly Fault.Other (readWordOrValue token) := by
    refine FailsOnly.bind_iff.2 ⟨by simp, ?_⟩
    rintro (_ | value) _ <;> simp
  have hmethod (what : String) : FailsOnly Fault.Other (readInterfaceMethod what args) := by
    fun_cases readInterfaceMethod <;> simp
  have htable (what : String) : FailsOnly Fault.Other (readTable what args) := by
    fun_cases readTable <;> simp
  fun_cases readInstruction <;> simp +zetaDelta [hnumber, hvalue, hmethod, htable]

theorem readCommand_gives (first : String) (args : List Token) :
    Gives Command.Askable (readCommand first args) := by
  fun_cases readCommand
  · exact readDirective_gives first args
  · simp
  · exact readInstruction_gives _ args

/-- **A line of a frame** ends the frame or leaves it open. -/
theorem readFrameLine_gives (what : String) (args : List Token) :
    Gives (fun d => d.concernsFrame = false ∨ d = .endFrame) (readFrameLine what args) := by
  have htype (what : String) : FailsOnly Fault.Other (readType what args) := by
    fun_cases readType <;> simp
  fun_cases readFrameLine <;> simp [htype]

theorem readSwitchEntry_other (tokens : List Token) :
    FailsOnly Fault.Other (readSwitchEntry tokens) := by
  refine FailsOnly.bind_iff.2 ⟨FailsOnly.mapM fun token _ => asWord_other token, fun texts _ => ?_⟩
  dsimp only
  repeat' split
  all_goals simp

end Readers

/-! ## Lines -/

namespace Reading

variable {r r' r'' : Reading}

/-- **What a line does to frames.** Each of the four ways comes after directives
that leave frames alone. -/
inductive LineEffect (r r' : Reading) : Prop where
  /-- The line has nothing to do with open frames. -/
  | leaves (ds : List Directive) (hds : ∀ d ∈ ds, d.LeavesFrame)
      (hrun : r'.assembler = r.assembler.runAll ds) (hframe : r'.frame = r.frame)
  /-- The line ends a method, which it cannot do inside of a frame. -/
  | endMethod (ds : List Directive) (hds : ∀ d ∈ ds, d.LeavesFrame) (hout : r.frame = none)
      (hrun : r'.assembler = (r.assembler.runAll ds).run .endMethod) (hframe : r'.frame = none)
  /-- The line begins a frame. The begin counts as taken if nothing was recorded. -/
  | beginFrame (ds : List Directive) (hds : ∀ d ∈ ds, d.LeavesFrame) (hout : r.frame = none)
      (hrun : r'.assembler = (r.assembler.runAll ds).run .beginFrame)
      (hframe : r'.frame = some
        (r'.assembler.diagnostics.size == (r.assembler.runAll ds).diagnostics.size))
  /-- The line ends a frame, which the assembler is told if it took the begin. -/
  | endFrame (ds : List Directive) (hds : ∀ d ∈ ds, d.LeavesFrame) (accepted : Bool)
      (hin : r.frame = some accepted)
      (hrun : r'.assembler = if accepted then (r.assembler.runAll ds).run .endFrame
        else r.assembler.runAll ds)
      (hframe : r'.frame = none)

namespace LineEffect

/-- A line that does nothing. -/
theorem refl (r : Reading) : r.LineEffect r := .leaves [] (List.forall_mem_nil _) rfl rfl

/-- **Directives in front** that leave frames alone do not change what the line
does. -/
theorem after (h : r'.LineEffect r'') (ds : List Directive) (hds : ∀ d ∈ ds, d.LeavesFrame)
    (hrun : r'.assembler = r.assembler.runAll ds) (hframe : r'.frame = r.frame) :
    r.LineEffect r'' := by
  have hall {ds' : List Directive} (hds' : ∀ d ∈ ds', d.LeavesFrame) :
      ∀ d ∈ ds ++ ds', d.LeavesFrame :=
    fun d hd => (List.mem_append.1 hd).elim (hds d) (hds' d)
  have hruns (ds' : List Directive) :
      r'.assembler.runAll ds' = r.assembler.runAll (ds ++ ds') := by
    rw [hrun, Assembler.runAll_append]
  cases h with
  | leaves ds' hds' hrun' hframe' =>
    exact .leaves (ds ++ ds') (hall hds') (hrun'.trans (hruns ds')) (hframe'.trans hframe)
  | endMethod ds' hds' hout hrun' hframe' =>
    rw [hruns] at hrun'
    exact .endMethod (ds ++ ds') (hall hds') (hframe.symm.trans hout) hrun' hframe'
  | beginFrame ds' hds' hout hrun' hframe' =>
    rw [hruns] at hrun' hframe'
    exact .beginFrame (ds ++ ds') (hall hds') (hframe.symm.trans hout) hrun' hframe'
  | endFrame ds' hds' accepted hin hrun' hframe' =>
    rw [hruns] at hrun'
    exact .endFrame (ds ++ ds') (hall hds') accepted (hframe.symm.trans hin) hrun' hframe'

/-- One directive in front that leaves frames alone. -/
theorem afterRun {d : Directive} (h : (r.run d).LineEffect r') (hd : d.LeavesFrame) :
    r.LineEffect r' :=
  h.after [d] (List.forall_mem_singleton.2 hd) rfl rfl

/-- A fault of the reader in front. -/
theorem afterReport {fault : Fault} (h : (r.report fault).LineEffect r') (hfault : fault.Other) :
    r.LineEffect r' :=
  h.after [.report fault] (List.forall_mem_singleton.2 (.report hfault)) rfl rfl

/-- A fault of the reader. -/
theorem report (r : Reading) {fault : Fault} (h : fault.Other) :
    r.LineEffect (r.report fault) :=
  (refl (r.report fault)).afterReport h

/-- A directive that leaves frames alone. -/
theorem run (r : Reading) {d : Directive} (h : d.concernsFrame = false) :
    r.LineEffect (r.run d) :=
  (refl (r.run d)).afterRun (.plain h)

theorem carryOut {command : Command} (hcommand : command.Askable) (hout : r.frame = none) :
    r.LineEffect (r.carryOut command) := by
  cases command with
  | directive d =>
    rcases hcommand d rfl with hplain | rfl
    · exact run r hplain
    · exact .endMethod [] (List.forall_mem_nil _) hout rfl hout
  | beginFrame => exact .beginFrame [] (List.forall_mem_nil _) hout rfl rfl
  | beginSwitch head => exact .leaves [] (List.forall_mem_nil _) rfl rfl

end LineEffect

/-- **The end of a frame** is handed on if its begin was taken. -/
theorem frameLine_endFrame (r : Reading) (accepted : Bool) {first : String} {args : List Token}
    (h : readFrameLine first args = .ok .endFrame) :
    r.frameLine accepted first args
      = if accepted then { r with frame := none }.run .endFrame else { r with frame := none } := by
  unfold frameLine
  rw [h]

/-- **Any other line of a frame** is handed on as well. -/
theorem frameLine_of_ne (r : Reading) (accepted : Bool) {first : String} {args : List Token}
    {d : Directive} (h : readFrameLine first args = .ok d) (hd : d ≠ .endFrame) :
    r.frameLine accepted first args = if accepted then r.run d else r := by
  unfold frameLine
  rw [h]
  cases d with
  | endFrame => exact absurd rfl hd
  | _ => rfl

namespace LineEffect

theorem frameLine {accepted : Bool} (hin : r.frame = some accepted) (first : String)
    (args : List Token) : r.LineEffect (r.frameLine accepted first args) := by
  have hgives := readFrameLine_gives first args
  cases hread : readFrameLine first args with
  | error fault =>
    rw [Reading.frameLine, hread]
    exact report r (hgives.fails fault hread)
  | ok d =>
    by_cases hd : d = .endFrame
    · rw [hd] at hread
      rw [r.frameLine_endFrame accepted hread]
      refine .endFrame [] (List.forall_mem_nil _) accepted hin ?_ ?_
      · cases accepted <;> rfl
      · cases accepted <;> rfl
    · have hplain := (hgives.result d hread).resolve_right hd
      rw [r.frameLine_of_ne accepted hread hd]
      cases accepted with
      | false => exact refl r
      | true => exact run r hplain

/-- **A statement**, by induction on its labels. -/
theorem statement (r : Reading) (tokens : List Token) : r.LineEffect (r.statement tokens) := by
  induction tokens generalizing r with
  | nil => exact refl r
  | cons token rest ih =>
    unfold Reading.statement
    cases hword : token.asWord with
    | error fault => exact report r (asWord_other token fault hword)
    | ok first =>
      dsimp only
      cases labelOf? first with
      | some name => exact (ih (r.run (.label name))).afterRun (.plain rfl)
      | none =>
        dsimp only
        cases hframe : r.frame with
        | some accepted => exact frameLine hframe first rest
        | none =>
          dsimp only
          have hgives := readCommand_gives first rest
          cases hread : readCommand first rest with
          | error fault => exact report r (hgives.fails fault hread)
          | ok command => exact carryOut (hgives.result command hread) hframe

theorem endSwitch (r : Reading) (s : OpenSwitch) (fallback : String) :
    r.LineEffect (r.endSwitch s fallback) := by
  have hswitch : (s.directive fallback).concernsFrame = false := by
    unfold OpenSwitch.directive
    split <;> rfl
  refine afterRun (afterRun (run _ rfl) (.plain hswitch)) (.plain rfl)

theorem switchLine (r : Reading) (s : OpenSwitch) (tokens : List Token) :
    r.LineEffect (r.switchLine s tokens) := by
  have hkeep (s : Option OpenSwitch) : r.LineEffect { r with switch := s } :=
    .leaves [] (List.forall_mem_nil _) rfl rfl
  have hfault {fault : Fault} (h : fault.Other) :
      r.LineEffect ({ r with switch := some s }.report fault) :=
    (report { r with switch := some s } h).after [] (List.forall_mem_nil _) rfl rfl
  unfold Reading.switchLine
  cases hread : readSwitchEntry tokens with
  | error fault => exact hfault (readSwitchEntry_other tokens fault hread)
  | ok entry =>
    cases entry with
    | fallback target => exact endSwitch r s target
    | keyed key target =>
      cases s.head with
      | table low high => exact hfault nofun
      | lookup =>
        dsimp only
        cases hkey : readInteger (String.ofList key) with
        | error fault => exact hfault (readInteger_other _ fault hkey)
        | ok key => exact hkeep _
    | plain target =>
      cases s.head with
      | table low high => exact hkeep _
      | lookup => exact hfault nofun

theorem readTokens (r : Reading) (first : Token) (rest : List Token) :
    r.LineEffect (r.readTokens first rest) := by
  unfold Reading.readTokens
  cases r.switch with
  | none => exact statement r (first :: rest)
  | some s =>
    dsimp only
    have hopen : LineEffect { r with switch := none } (if beginsWithPoint first
        then ({ r with switch := none }.report .switchOpen).statement (first :: rest)
        else { r with switch := none }.switchLine s (first :: rest)) := by
      split
      next => exact (statement _ (first :: rest)).afterReport nofun
      next => exact switchLine _ s (first :: rest)
    exact hopen.after [] (List.forall_mem_nil _) rfl rfl

/-- **Every line does one of the four things.** -/
theorem readLine (r : Reading) (line : List Char) : r.LineEffect (r.readLine line) := by
  have hbegin {r' : Reading}
      (h : ({ r with line := r.line + 1 }.run (.line (r.line + 1))).LineEffect r') :
      r.LineEffect r' :=
    h.after [.line (r.line + 1)] (List.forall_mem_singleton.2 (.plain rfl)) rfl rfl
  unfold Reading.readLine
  cases hread : tokens line with
  | error fault => exact hbegin (report _ (scan_other line .between [] fault hread))
  | ok found =>
    cases found with
    | nil => exact hbegin (refl _)
    | cons first rest => exact hbegin (readTokens _ first rest)

/-- **A line is a run of directives.** -/
theorem exists_runAll (h : r.LineEffect r') : ∃ ds, r'.assembler = r.assembler.runAll ds := by
  have hlast (ds : List Directive) (d : Directive) :
      (r.assembler.runAll ds).run d = r.assembler.runAll (ds ++ [d]) :=
    (r.assembler.runAll_append ds [d]).symm
  cases h with
  | leaves ds _ hrun _ => exact ⟨ds, hrun⟩
  | endMethod ds _ _ hrun _ =>
    exact ⟨ds ++ [.endMethod], hrun.trans (hlast ds _)⟩
  | beginFrame ds _ _ hrun _ =>
    exact ⟨ds ++ [.beginFrame], hrun.trans (hlast ds _)⟩
  | endFrame ds _ accepted _ hrun _ =>
    cases accepted with
    | false => exact ⟨ds, hrun⟩
    | true => exact ⟨ds ++ [.endFrame], (hrun.trans (if_pos rfl)).trans (hlast ds .endFrame)⟩

end LineEffect

/-! ## Readings -/

/-- **Lines are a run of directives**, by induction on the lines. -/
theorem exists_runAll_readLines (r : Reading) (lines : List (List Char)) :
    ∃ ds, (lines.foldl readLine r).assembler = r.assembler.runAll ds := by
  induction lines generalizing r with
  | nil => exact ⟨[], rfl⟩
  | cons line lines ih =>
    obtain ⟨ds, hds⟩ := (LineEffect.readLine r line).exists_runAll
    obtain ⟨ds', hds'⟩ := ih (r.readLine line)
    refine ⟨ds ++ ds', ?_⟩
    rw [Assembler.runAll_append, ← hds]
    exact hds'

/-- **The end of a reading** leaves frames alone. -/
theorem exists_runAll_finish (r : Reading) :
    ∃ ds : List Directive, (∀ d ∈ ds, d.LeavesFrame) ∧ r.finish = r.assembler.runAll ds := by
  have hreport (r : Reading) (c : Bool) {fault : Fault} (hfault : fault.Other) :
      ∃ ds : List Directive, (∀ d ∈ ds, d.LeavesFrame)
        ∧ (if c then r.report fault else r).assembler = r.assembler.runAll ds := by
    cases c with
    | false => exact ⟨[], List.forall_mem_nil _, rfl⟩
    | true => exact ⟨[.report fault], List.forall_mem_singleton.2 (.report hfault), rfl⟩
  have hswitch : Fault.switchOpen.Other := nofun
  have hframe : Fault.frameOpenAtSourceEnd.Other := nofun
  obtain ⟨ds, hds, hrun⟩ := hreport r r.switch.isSome hswitch
  obtain ⟨ds', hds', hrun'⟩ := hreport (if r.switch.isSome then r.report .switchOpen else r)
    (if r.switch.isSome then r.report .switchOpen else r).frame.isSome hframe
  refine ⟨ds ++ ds', fun d hd => (List.mem_append.1 hd).elim (hds d) (hds' d), ?_⟩
  rw [Assembler.runAll_append, ← hrun]
  exact hrun'

end Reading

/-- **Reading a source is a run of directives.** -/
theorem exists_runAll_read (a : Assembler) (text : String) :
    ∃ ds, read a text = a.runAll ds := by
  obtain ⟨ds, hds⟩ := (Reading.start a).exists_runAll_readLines (Text.lines text.toList)
  obtain ⟨ds', _, hds'⟩ := Reading.exists_runAll_finish
    ((Text.lines text.toList).foldl Reading.readLine (Reading.start a))
  refine ⟨ds ++ ds', ?_⟩
  rw [Assembler.runAll_append, read, hds', hds]
  rfl

end BytecodeAssembler.Source
