import BytecodeAssembler.Proofs.Assembler.Unlined
import BytecodeAssembler.Proofs.Source.LineEffect
import BytecodeAssembler.Proofs.Source.Tokens
import Mathlib.Data.List.TakeWhile

/-!
# Lines without tokens

A line that holds nothing, or nothing but a comment, asks for nothing. It still
counts: every line after it has a number that is one higher, and a reading hands
that number on. It does so to the assembler, and it keeps the line of an open
switch. Two readings **agree** if they differ in such numbers only; a line
keeps readings in agreement, and a line without tokens can be left out of
either of them. So a source may be spaced out at will, inside of a switch or a
frame as well, unless lines are noted automatically.
-/

namespace BytecodeAssembler.Source

/-! ## Spacing out -/

/-- **A line without tokens**: blanks, and then perhaps a comment. -/
def TokenFree (line : List Char) : Prop :=
  line.dropWhile Text.isBlank = [] ∨ (line.dropWhile Text.isBlank).head? = some ';'

instance (line : List Char) : Decidable (TokenFree line) :=
  inferInstanceAs (Decidable (_ ∨ _))

/-- **The second lines are the first ones spaced out**: lines without tokens
are inserted, anywhere. -/
inductive Spaced : List (List Char) → List (List Char) → Prop where
  | nil : Spaced [] []
  | keep (line : List Char) {lines lines' : List (List Char)} (h : Spaced lines lines') :
      Spaced (line :: lines) (line :: lines')
  | insert {line : List Char} (hline : TokenFree line) {lines lines' : List (List Char)}
      (h : Spaced lines lines') : Spaced lines (line :: lines')

/-- **The lines without tokens are those in which no token is found.** -/
theorem tokens_eq_nil_iff (line : List Char) : tokens line = .ok [] ↔ TokenFree line := by
  rw [← lexes_iff]
  constructor
  · intro h
    generalize hnone : Except.ok [] = outcome at h
    cases h with
    | complete hline =>
      have hblank := hline.allBlank (Except.ok.inj hnone).symm
      exact .inl (List.dropWhile_eq_nil_iff.2 hblank)
    | lastWord => exact absurd (Except.ok.inj hnone).symm (List.concat_ne_nil _ _)
    | comment hfront rest =>
      have hblank := hfront.allBlank (Except.ok.inj hnone).symm
      refine .inr ?_
      rw [List.dropWhile_append_of_pos hblank]
      rfl
    | openString | openEscape | unknownEscape => cases hnone
  · intro h
    -- the line is its leading blanks and then nothing or a comment
    have hblank : AllBlank (line.takeWhile Text.isBlank) := fun c hc => List.mem_takeWhile_imp hc
    rw [← List.takeWhile_append_dropWhile (p := Text.isBlank) (l := line)]
    rcases h with h | h
    · rw [h, List.append_nil]
      exact .complete (Holds.nil.blanks hblank)
    · obtain ⟨rest, hrest⟩ := List.head?_eq_some_iff.1 h
      rw [hrest]
      exact .comment (Holds.nil.blanks hblank) rest

/-! ## Agreement -/

/-- The switch without its line. -/
def OpenSwitch.unlined (s : OpenSwitch) : OpenSwitch := { s with line := 0 }

theorem OpenSwitch.directive_unlined (s : OpenSwitch) (fallback : String) :
    s.unlined.directive fallback = s.directive fallback := rfl

namespace Reading

variable {r r' : Reading}

/-- **Readings that differ in line numbers only**, in runs whose lines are not
noted automatically. -/
structure Agree (r r' : Reading) : Prop where
  auto : r.assembler.settings.autoLines = false
  assembler : r.assembler.unlined = r'.assembler.unlined
  frame : r.frame = r'.frame
  switch : r.switch.map OpenSwitch.unlined = r'.switch.map OpenSwitch.unlined

namespace Agree

theorem run (h : r.Agree r') (d : Directive) : (r.run d).Agree (r'.run d) where
  auto := by
    show (r.assembler.run d).settings.autoLines = false
    rw [r.assembler.settings_run, h.auto]
  assembler := Assembler.unlined_run_congr h.auto h.assembler d
  frame := h.frame
  switch := h.switch

theorem report (h : r.Agree r') (fault : Fault) : (r.report fault).Agree (r'.report fault) :=
  h.run (.report fault)

theorem reportIf (h : r.Agree r') {c c' : Bool} (hc : c = c') (fault : Fault) :
    (if c then r.report fault else r).Agree (if c' then r'.report fault else r') := by
  subst hc
  cases c with
  | false => exact h
  | true => exact h.report fault

/-- The assemblers of readings in agreement have recorded equally much. -/
theorem size_diagnostics (h : r.Agree r') :
    r.assembler.diagnostics.size = r'.assembler.diagnostics.size := by
  rw [← r.assembler.size_diagnostics_unlined, h.assembler,
    r'.assembler.size_diagnostics_unlined]

theorem setFrame (h : r.Agree r') (frame : Option Bool) :
    { r with frame }.Agree { r' with frame } :=
  ⟨h.auto, h.assembler, rfl, h.switch⟩

theorem setSwitch (h : r.Agree r') {switch switch' : Option OpenSwitch}
    (hswitch : switch.map OpenSwitch.unlined = switch'.map OpenSwitch.unlined) :
    { r with switch }.Agree { r' with switch := switch' } :=
  ⟨h.auto, h.assembler, h.frame, hswitch⟩

theorem setLine (h : r.Agree r') (line line' : Nat) :
    { r with line }.Agree { r' with line := line' } :=
  ⟨h.auto, h.assembler, h.frame, h.switch⟩

/-- **Telling the number of a line** is no difference. -/
theorem runLine (h : r.Agree r') (number number' : Nat) :
    (r.run (.line number)).Agree (r'.run (.line number')) :=
  ⟨h.auto, h.assembler, h.frame, h.switch⟩

theorem carryOut (h : r.Agree r') (command : Command) :
    (r.carryOut command).Agree (r'.carryOut command) := by
  cases command with
  | directive d => exact h.run d
  | beginFrame =>
    have hrun := h.run .beginFrame
    unfold Reading.carryOut
    dsimp only
    rw [hrun.size_diagnostics, h.size_diagnostics]
    exact hrun.setFrame _
  | beginSwitch head => exact h.setSwitch rfl

theorem frameLine (h : r.Agree r') (accepted : Bool) (first : String) (args : List Token) :
    (r.frameLine accepted first args).Agree (r'.frameLine accepted first args) := by
  cases hread : readFrameLine first args with
  | error fault =>
    unfold Reading.frameLine
    rw [hread]
    exact h.report fault
  | ok d =>
    by_cases hd : d = .endFrame
    · rw [hd] at hread
      rw [r.frameLine_endFrame accepted hread, r'.frameLine_endFrame accepted hread]
      split
      next => exact (h.setFrame none).run .endFrame
      next => exact h.setFrame none
    · rw [r.frameLine_of_ne accepted hread hd, r'.frameLine_of_ne accepted hread hd]
      split
      next => exact h.run d
      next => exact h

/-- **A statement**, by induction on its labels. -/
theorem statement (h : r.Agree r') (tokens : List Token) :
    (r.statement tokens).Agree (r'.statement tokens) := by
  induction tokens generalizing r r' with
  | nil => exact h
  | cons token rest ih =>
    unfold Reading.statement
    cases token.asWord with
    | error fault => exact h.report fault
    | ok first =>
      dsimp only
      cases labelOf? first with
      | some name => exact ih (h.run (.label name))
      | none =>
        dsimp only
        rw [← h.frame]
        cases r.frame with
        | some accepted => exact h.frameLine accepted first rest
        | none =>
          dsimp only
          cases readCommand first rest with
          | error fault => exact h.report fault
          | ok command => exact h.carryOut command

theorem endSwitch (h : r.Agree r') {s s' : OpenSwitch} (hs : s.unlined = s'.unlined)
    (fallback : String) : (r.endSwitch s fallback).Agree (r'.endSwitch s' fallback) := by
  unfold Reading.endSwitch
  dsimp only
  rw [← s.directive_unlined, hs, s'.directive_unlined]
  exact ((h.runLine s.line s'.line).run _).runLine _ _

/-- **A line of a switch.** What is kept of it does not depend on its number. -/
theorem switchLine (h : r.Agree r') {s s' : OpenSwitch} (hs : s.unlined = s'.unlined)
    (tokens : List Token) : (r.switchLine s tokens).Agree (r'.switchLine s' tokens) := by
  have hhead : s.head = s'.head := (OpenSwitch.mk.inj hs).2.1
  have htargets : s.targets = s'.targets := (OpenSwitch.mk.inj hs).2.2.1
  have hpairs : s.pairs = s'.pairs := (OpenSwitch.mk.inj hs).2.2.2
  have hkeep : { r with switch := some s }.Agree { r' with switch := some s' } :=
    h.setSwitch (congrArg some hs)
  unfold Reading.switchLine
  rw [← hhead, ← htargets, ← hpairs]
  cases readSwitchEntry tokens with
  | error fault => exact hkeep.report fault
  | ok entry =>
    cases entry with
    | fallback target => exact h.endSwitch hs target
    | keyed key target =>
      cases hs : s.head with
      | table low high => exact hkeep.report .tableTargetWithKey
      | lookup =>
        dsimp only
        cases readInteger (String.ofList key) with
        | error fault => exact hkeep.report fault
        | ok key => exact h.setSwitch (by simp [OpenSwitch.unlined, htargets, hpairs])
    | plain target =>
      cases hs : s.head with
      | table low high => exact h.setSwitch (by simp [OpenSwitch.unlined, htargets, hpairs])
      | lookup => exact hkeep.report .lookupTargetWithoutKey

theorem readTokens (h : r.Agree r') (first : Token) (rest : List Token) :
    (r.readTokens first rest).Agree (r'.readTokens first rest) := by
  have hswitch := h.switch
  unfold Reading.readTokens
  cases hs : r.switch with
  | none =>
    rw [hs] at hswitch
    rw [Option.map_eq_none_iff.1 hswitch.symm]
    exact h.statement (first :: rest)
  | some s =>
    rw [hs] at hswitch
    obtain ⟨s', hs', hss'⟩ := Option.map_eq_some_iff.1 hswitch.symm
    rw [hs']
    dsimp only
    have hopen : { r with switch := none }.Agree { r' with switch := none } := h.setSwitch rfl
    split
    next => exact (hopen.report .switchOpen).statement (first :: rest)
    next => exact hopen.switchLine hss'.symm (first :: rest)

/-- **A line** keeps readings in agreement, whatever its numbers are. -/
theorem readLine (h : r.Agree r') (line : List Char) :
    (r.readLine line).Agree (r'.readLine line) := by
  have hbegin := (h.setLine (r.line + 1) (r'.line + 1)).runLine (r.line + 1) (r'.line + 1)
  unfold Reading.readLine
  dsimp only
  cases tokens line with
  | error fault => exact hbegin.report fault
  | ok found =>
    cases found with
    | nil => exact hbegin
    | cons first rest => exact hbegin.readTokens first rest

/-- **A line without tokens** can be left out. -/
theorem readLine_tokenFree (h : r.Agree r') {line : List Char} (hline : TokenFree line) :
    r.Agree (r'.readLine line) := by
  unfold Reading.readLine
  dsimp only
  rw [(tokens_eq_nil_iff line).2 hline]
  exact ⟨h.auto, h.assembler, h.frame, h.switch⟩

/-- **Spacing out keeps readings in agreement**, by induction on where lines
are inserted. -/
theorem readLines {lines lines' : List (List Char)} (hspaced : Spaced lines lines')
    (h : r.Agree r') :
    (lines.foldl Reading.readLine r).Agree (lines'.foldl Reading.readLine r') := by
  induction hspaced generalizing r r' with
  | nil => exact h
  | keep line _ ih => exact ih (h.readLine line)
  | insert hline _ ih => exact ih (h.readLine_tokenFree hline)

/-- **What is recorded at the end** does not depend on lines either. -/
theorem finish (h : r.Agree r') : r.finish.unlined = r'.finish.unlined := by
  have hswitch : r.switch.isSome = r'.switch.isSome := by
    rw [← Option.isSome_map, h.switch, Option.isSome_map]
  have hopen := h.reportIf hswitch .switchOpen
  exact (hopen.reportIf (congrArg Option.isSome hopen.frame) .frameOpenAtSourceEnd).assembler

end Agree

end Reading

/-- **Spacing out a source does not change what it comes to**: with lines not
noted automatically, two sources of which one is the other with lines without
tokens inserted both give the same class file, or both fail with the same
diagnostics in the same order, but for their lines. -/
theorem assemble_spaced (settings : Settings) (hauto : settings.autoLines = false)
    (text text' : String) (hspaced : Spaced (Text.lines text.toList) (Text.lines text'.toList)) :
    (assemble settings text).mapError Failure.unlined
      = (assemble settings text').mapError Failure.unlined := by
  have hstart : (Reading.start (Assembler.start settings)).Agree
      (Reading.start (Assembler.start settings)) := ⟨hauto, rfl, rfl, rfl⟩
  unfold assemble
  rw [← Assembler.finish_unlined, ← Assembler.finish_unlined]
  exact congrArg Assembler.finish (hstart.readLines hspaced).finish

/-- A source with a switch. -/
def switchText : String :=
  ".class T\n.super java/lang/Object\n.method static m(I)V\niload_0\n" ++
    "tableswitch 0\nDone\ndefault: Done\nDone:\nreturn\n.end method\n"

/-- The same source, spaced out inside of the switch as well. -/
def spacedSwitchText : String :=
  "; a switch\n.class T\n.super java/lang/Object\n\n.method static m(I)V\niload_0\n" ++
    "tableswitch 0\n\nDone\n  ; all others\ndefault: Done\nDone:\nreturn\n.end method\n \n"

/-- The two sources come to the same. -/
theorem assemble_spaced_switchText :
    Spaced (Text.lines switchText.toList) (Text.lines spacedSwitchText.toList)
      ∧ (assemble .initial switchText).mapError Failure.unlined
        = (assemble .initial spacedSwitchText).mapError Failure.unlined := by
  have hlines : Text.lines switchText.toList = [".class T".toList,
      ".super java/lang/Object".toList, ".method static m(I)V".toList, "iload_0".toList,
      "tableswitch 0".toList, "Done".toList, "default: Done".toList, "Done:".toList,
      "return".toList, ".end method".toList] := by decide +kernel
  have hlines' : Text.lines spacedSwitchText.toList = ["; a switch".toList, ".class T".toList,
      ".super java/lang/Object".toList, [], ".method static m(I)V".toList, "iload_0".toList,
      "tableswitch 0".toList, [], "Done".toList, "  ; all others".toList,
      "default: Done".toList, "Done:".toList, "return".toList, ".end method".toList,
      " ".toList] := by decide +kernel
  have hspaced : Spaced (Text.lines switchText.toList) (Text.lines spacedSwitchText.toList) := by
    rw [hlines, hlines']
    exact .insert (by decide) (.keep _ (.keep _ (.insert (by decide) (.keep _ (.keep _ (.keep _
      (.insert (by decide) (.keep _ (.insert (by decide) (.keep _ (.keep _ (.keep _ (.keep _
        (.insert (by decide) .nil))))))))))))))
  exact ⟨hspaced, assemble_spaced .initial rfl switchText spacedSwitchText hspaced⟩

end BytecodeAssembler.Source
