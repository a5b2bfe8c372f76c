import BytecodeAssembler.Proofs.Assembler.OpenFrame
import BytecodeAssembler.Proofs.Assembler.Positions
import BytecodeAssembler.Proofs.Body.Offsets
import Mathlib.Data.List.Forall2

/-!
# Automatic line numbers

With automatic line numbers, an instruction remembers the source line it was
emitted at, and that line is noted in front of it when it is committed. By then
the source may be at another line, and labels may have been placed. What the
table of lines holds in the end depends on none of this: it is a function of the
lines at which instructions were emitted, `lineStarts`, which asks each
instruction for the last line known before it.

The body lags behind by the instruction held back, and so does the table. An
open method is **lined** if its table is right for the instructions that were
committed (`OpenMethod.Noted`) and these lack only the one held back. One
directive keeps a method lined (`Assembler.lined_run`), and so does a run inside
of it. Its end commits the rest (`Assembler.endMethod_lines`).
-/

namespace BytecodeAssembler

/-! ## The lines of instructions -/

/-- **The source line of each instruction that directives emit**, where the
first of them comes from the line given. -/
def sourceLines (line : Option Nat) : List Directive → List (Option Nat)
  | [] => []
  | d :: ds => (if d.isEmit then [line] else []) ++ sourceLines (d.lineAfter line) ds

/-- The line of the last instruction whose line is known. -/
def lastKnown (lines : List (Option Nat)) : Option Nat := (lines.filterMap id).getLast?

theorem lastKnown_none (lines : List (Option Nat)) :
    lastKnown (lines ++ [none]) = lastKnown lines := by
  unfold lastKnown
  rw [List.filterMap_append]
  exact congrArg List.getLast? (List.append_nil _)

theorem lastKnown_some (lines : List (Option Nat)) (line : Nat) :
    lastKnown (lines ++ [some line]) = some line := by
  unfold lastKnown
  rw [List.filterMap_append]
  exact List.getLast?_concat

/-- **An instruction at which another line starts.** -/
structure LineStart where
  /-- The number of instructions before it. -/
  place : Nat
  /-- Its line. -/
  line : Nat
  deriving DecidableEq, Repr

/-- **Whether a line starts at an instruction**: its line is known, and differs
from the last one known before it. -/
def lineStart? (lines : List (Option Nat)) (place : Nat) : Option LineStart :=
  lines[place]?.join.bind fun line =>
    if lastKnown (lines.take place) = some line then none else some ⟨place, line⟩

/-- **The instructions at which lines start**, in order. -/
def lineStarts (lines : List (Option Nat)) : List LineStart :=
  (List.range lines.length).filterMap (lineStart? lines)

/-- Instructions that come later do not matter. -/
theorem lineStart?_append {lines : List (Option Nat)} {place : Nat} (h : place < lines.length)
    (more : List (Option Nat)) : lineStart? (lines ++ more) place = lineStart? lines place := by
  unfold lineStart?
  rw [List.getElem?_append_left h, List.take_append_of_le_length (Nat.le_of_lt h)]

theorem lineStart?_length (lines : List (Option Nat)) (line : Option Nat) :
    lineStart? (lines ++ [line]) lines.length
      = line.bind fun n => if lastKnown lines = some n then none else some ⟨lines.length, n⟩ := by
  unfold lineStart?
  rw [List.getElem?_concat_length, List.take_left]
  rfl

/-- **One instruction more.** -/
theorem lineStarts_concat (lines : List (Option Nat)) (line : Option Nat) :
    lineStarts (lines ++ [line])
      = lineStarts lines ++ (lineStart? (lines ++ [line]) lines.length).toList := by
  have hearlier : (List.range lines.length).filterMap (lineStart? (lines ++ [line]))
      = (List.range lines.length).filterMap (lineStart? lines) :=
    List.filterMap_congr fun k hk => lineStart?_append (List.mem_range.1 hk) [line]
  unfold lineStarts
  rw [List.length_append, List.length_singleton, List.range_succ, List.filterMap_append, hearlier]
  cases hlast : lineStart? (lines ++ [line]) lines.length <;> simp [hlast]

theorem lineStarts_concat_none (lines : List (Option Nat)) :
    lineStarts (lines ++ [none]) = lineStarts lines := by
  rw [lineStarts_concat, lineStart?_length]
  exact List.append_nil _

theorem lineStarts_concat_some (lines : List (Option Nat)) (line : Nat) :
    lineStarts (lines ++ [some line])
      = lineStarts lines ++ if lastKnown lines = some line then [] else [⟨lines.length, line⟩] := by
  rw [lineStarts_concat, lineStart?_length, Option.bind_some]
  split <;> rfl

/-- A line starts at an instruction that there is. -/
theorem place_lt_of_mem_lineStarts {lines : List (Option Nat)} {s : LineStart}
    (h : s ∈ lineStarts lines) : s.place < lines.length := by
  obtain ⟨place, hplace, hs⟩ := List.mem_filterMap.1 h
  obtain ⟨line, -, hline⟩ := Option.bind_eq_some_iff.1 hs
  split at hline
  next => cases hline
  next =>
    cases hline
    exact List.mem_range.1 hplace

/-! ## Entries of the table -/

namespace Body

variable {b b' : Body} {entry : LineEntry} {s : LineStart}

/-- **The entry notes that a line starts at an instruction**: it holds that
line, and its label stands after the instructions before. -/
def Notes (b : Body) (entry : LineEntry) (s : LineStart) : Prop :=
  entry.line.toNat = s.line ∧ ∃ before, b.Stands entry.start before ∧ before.length = s.place

theorem Notes.mono (h : b.Notes entry s) (hgrows : b.AppendsTo b') : b'.Notes entry s := by
  obtain ⟨hline, before, hstands, hplace⟩ := h
  exact ⟨hline, before, hstands.mono hgrows, hplace⟩

/-- **After layout, the label of an entry has the offset of its instruction.** -/
theorem Notes.offset (h : b.Notes entry s) (hb : b.Streamed) {pool : ConstantPool}
    {starts : List Nat} {length : Nat} (hlayout : (b.layout pool).2 = .ok (starts, length))
    (hplace : s.place < b.instructions.length) :
    ∃ offset, starts[s.place]? = some offset
      ∧ (b.layout pool).1.labels.offset entry.start = .ok offset := by
  obtain ⟨-, -, ⟨front, back, hsplit, rfl⟩, hfront⟩ := h
  obtain ⟨offset, hoffset, hat⟩ := offset_of_label hlayout hsplit (hb.not_mem_back hsplit)
    (hb.has_of_split hsplit)
  have hstart : s.place < starts.length := by
    rw [(layout_eq_ok hlayout).1.length_starts]
    exact hplace
  rw [hfront, List.getElem?_append_left hstart] at hat
  exact ⟨offset, hat, hoffset⟩

end Body

/-! ## Methods that are lined -/

namespace OpenMethod

variable {m m' : OpenMethod} {lines : List (Option Nat)} {line : Option Nat}

/-- The line of the instruction held back, if there is one. -/
def pendingLine (m : OpenMethod) : List (Option Nat) := (m.pending.map Prod.snd).toList

/-- **What the open method knows of lines**: the table, the instruction held
back, and the line noted last. -/
def lineState (m : OpenMethod) :
    Array LineEntry × Option (Instruction × Option Nat) × Option Nat :=
  (m.body.lines, m.pending, m.lastLine)

/-- **The table is right for the instructions of the body**, whose lines are
given. -/
structure Noted (lines : List (Option Nat)) (m : OpenMethod) : Prop where
  count : m.body.instructions.length = lines.length
  last : m.lastLine = lastKnown lines
  entries : List.Forall₂ m.body.Notes m.body.lines.toList (lineStarts lines)

/-- **The table is right for the instructions asked for**, apart from the one
held back. -/
def Lined (lines : List (Option Nat)) (m : OpenMethod) : Prop :=
  ∃ committed, lines = committed ++ m.pendingLine ∧ Noted committed m

/-- The body may grow, except by instructions and lines. -/
theorem Noted.grow (h : Noted lines m) (hgrows : m.body.AppendsTo m'.body)
    (hinstructions : m'.body.instructions = m.body.instructions)
    (hlines : m'.body.lines = m.body.lines) (hlast : m'.lastLine = m.lastLine) :
    Noted lines m' where
  count := by rw [hinstructions, h.count]
  last := hlast.trans h.last
  entries := by
    rw [hlines]
    exact h.entries.imp fun _ _ hnotes => hnotes.mono hgrows

theorem Lined.withLabels (h : Lined lines m) (labels : LabelTable) :
    Lined lines (m.withLabels labels) := by
  obtain ⟨committed, hlines, hnoted⟩ := h
  exact ⟨committed, hlines, hnoted.count, hnoted.last, hnoted.entries⟩

/-! ### Committing -/

theorem length_instructions_push {b : Body} (h : b.instructions.length = lines.length)
    (i : Instruction) : (b.push i).instructions.length = (lines ++ [line]).length := by
  rw [Body.instructions_push, List.length_append, List.length_append, h]
  rfl

/-- **An instruction at which no line starts** needs no entry. -/
theorem Noted.push (h : Noted lines m) (hlast : lastKnown (lines ++ [line]) = lastKnown lines)
    (hstarts : lineStarts (lines ++ [line]) = lineStarts lines) (i : Instruction) :
    Noted (lines ++ [line]) (m.withBody (m.body.push i)) where
  count := length_instructions_push h.count i
  last := h.last.trans hlast.symm
  entries := by
    rw [hstarts]
    exact h.entries.imp fun _ _ hnotes => hnotes.mono (.push _ i)

/-- **An instruction at which a line starts** comes behind a new label, and its
entry points there. -/
theorem Noted.push_start (h : Noted lines m) {line : Nat} (hother : lastKnown lines ≠ some line)
    (hsmall : line ≤ 65535) (i : Instruction) :
    Noted (lines ++ [some line]) { m with
      lastLine := some line
      body := (m.body.here.2.addLine ⟨m.body.here.1, UInt16.ofNat line⟩).push i } where
  count := by
    refine length_instructions_push (Eq.trans ?_ h.count) i
    exact congrArg List.length (Body.instructions_here m.body)
  last := (lastKnown_some lines line).symm
  entries := by
    have hgrows : m.body.here.2.AppendsTo
        ((m.body.here.2.addLine ⟨m.body.here.1, UInt16.ofNat line⟩).push i) :=
      (Body.AppendsTo.addLine _ _).trans (.push _ i)
    rw [lineStarts_concat_some, if_neg hother]
    show List.Forall₂ _ (m.body.lines.push _).toList _
    rw [Array.toList_push]
    refine List.rel_append (h.entries.imp fun _ _ hnotes => ?_) (.cons ⟨?_, ?_⟩ .nil)
    · exact hnotes.mono ((Body.AppendsTo.here m.body).trans hgrows)
    · exact UInt16.toNat_ofNat_of_lt (Nat.lt_succ_of_le hsmall)
    · exact ⟨_, (Body.stands_here m.body).mono hgrows, h.count⟩

/-- **Noting the line of an instruction, and then the instruction.** -/
theorem Noted.push_markLine (h : Noted lines m) (hfits : (m.markLine line).2 = [])
    (i : Instruction) : Noted (lines ++ [line])
      ((m.markLine line).1.withBody ((m.markLine line).1.body.push i)) := by
  unfold markLine at hfits ⊢
  cases line with
  | none => exact h.push (lastKnown_none lines) (lineStarts_concat_none lines) i
  | some line =>
    dsimp only at hfits ⊢
    rw [h.last] at hfits ⊢
    split at hfits
    next hsame =>
      rw [if_pos hsame]
      refine h.push ((lastKnown_some lines line).trans hsame.symm) ?_ i
      rw [lineStarts_concat_some, if_pos hsame, List.append_nil]
    next hother =>
      split at hfits
      next hsmall =>
        rw [if_neg hother, if_pos hsmall]
        exact h.push_start hother hsmall i
      next => cases hfits

/-- **Committing the instruction held back** notes its line. -/
theorem Lined.flush (h : Lined lines m) (hfits : (m.flush true).2 = []) :
    Noted lines (m.flush true).1 := by
  obtain ⟨committed, rfl, hnoted⟩ := h
  unfold OpenMethod.flush at hfits ⊢
  unfold pendingLine
  cases hpending : m.pending with
  | none =>
    rw [Option.map_none, Option.toList_none, List.append_nil]
    exact hnoted
  | some entry =>
    rw [hpending] at hfits
    have hidle : Noted committed { m with pending := none } :=
      ⟨hnoted.count, hnoted.last, hnoted.entries⟩
    exact hidle.push_markLine hfits entry.1

/-- What is committed was not held back. -/
theorem Noted.lined (h : Noted lines m) (hpending : m.pending = none) : Lined lines m := by
  refine ⟨lines, ?_, h⟩
  unfold pendingLine
  rw [hpending]
  exact (List.append_nil _).symm

/-! ### Steps -/

theorem flush_of_emit {autoLines : Bool} {mnemonic : String} {argument : Argument}
    {opcode : Opcode} (hclean : (m.emit autoLines line mnemonic argument).2 = [])
    (hopcode : Opcode.find? mnemonic = some opcode) :
    ((m.withLabels (argument.resolve opcode m.body.labels).2).flush autoLines).2 = [] := by
  unfold emit at hclean
  split at hclean
  next => cases hclean
  next =>
    rw [hopcode] at hclean
    dsimp only at hclean
    split at hclean
    next => cases hclean
    next => exact hclean

/-- **An instruction is held back together with the line in force.** -/
theorem Lined.emit (h : Lined lines m) {mnemonic : String} {argument : Argument}
    (hclean : (m.emit true line mnemonic argument).2 = []) :
    Lined (lines ++ [line]) (m.emit true line mnemonic argument).1 := by
  obtain ⟨opcode, i, hopcode, -, hemit⟩ := emit_of_clean hclean
  have hflush := (h.withLabels _).flush (flush_of_emit hclean hopcode)
  rw [hemit]
  exact ⟨lines, rfl, hflush.count, hflush.last, hflush.entries⟩

theorem flush_of_plantLabel {autoLines : Bool} {name : String}
    (hname : Label.isNumeric name ≠ true) (hclean : (m.plantLabel autoLines name).2 = []) :
    ((m.withBody (m.body.mention name).2).flush autoLines).2 = [] := by
  unfold plantLabel at hclean
  dsimp only at hclean
  rw [if_neg hname] at hclean
  split at hclean
  next => exact absurd hclean (List.append_ne_nil_of_right_ne_nil _ (List.cons_ne_nil _ _))
  next => exact hclean

/-- **A label that is not a number** comes after the instruction held back. -/
theorem Lined.plantLabel (h : Lined lines m) (htidy : m.body.Tidy m.finish) {name : String}
    (hname : Label.isNumeric name ≠ true) (hclean : (m.plantLabel true name).2 = []) :
    Lined lines (m.plantLabel true name).1 := by
  have hflush := (h.withLabels (m.body.labels.mention name).2).flush
    (flush_of_plantLabel hname hclean)
  have hcommits := commits_flush (m := m.withBody (m.body.mention name).2)
    (htidy.mentions (.single _ name)) true
  have hready : m.readyFor true name = ((m.withBody (m.body.mention name).2).flush true).1 :=
    if_neg hname
  rw [(plantLabel_of_clean hclean).2, hready]
  exact Noted.lined (hflush.grow (.placeNew _ _) (Body.instructions_placeNew _ _) rfl rfl)
    hcommits.pending

/-- **The begin of a frame** comes after the instruction held back. -/
theorem Lined.beginFrame (h : Lined lines m) (htidy : m.body.Tidy m.finish)
    (hclean : (m.beginFrame true).2 = []) : Lined lines (m.beginFrame true).1 := by
  have hfaults := hclean
  rw [beginFrame_faults] at hfaults
  have hflush := h.flush (List.append_eq_nil_iff.1 hfaults).1
  rw [(beginFrame_of_clean hclean).2]
  exact Noted.lined (hflush.grow (.here _) (Body.instructions_here _) rfl rfl)
    (commits_flush htidy true).pending

/-- **What has no business with lines**, and emits no instruction. -/
theorem Lined.quiet (h : Lined lines m) {d : Directive} (hcarries : Carries true d m m')
    (hemit : d.isEmit = false) (hstate : m'.lineState = m.lineState) : Lined lines m' := by
  obtain ⟨committed, hlines, hnoted⟩ := h
  obtain ⟨htable, hrest⟩ := Prod.ext_iff.1 hstate
  obtain ⟨hpending, hlast⟩ := Prod.ext_iff.1 hrest
  have hinstructions : m'.body.instructions = m.body.instructions := by
    have hstream := hcarries.stream _ (.refl _)
    rw [instruction?_of_not_isEmit hemit, Option.toList_none, List.append_nil] at hstream
    unfold stream at hstream
    rw [show m'.pending = m.pending from hpending] at hstream
    exact List.append_cancel_right hstream
  refine ⟨committed, ?_, hnoted.grow hcarries.appends hinstructions htable hlast⟩
  unfold pendingLine at hlines ⊢
  rw [hlines, show m'.pending = m.pending from hpending]

theorem lineState_plantLabel {autoLines : Bool} {name : String}
    (hname : Label.isNumeric name = true) :
    (m.plantLabel autoLines name).1.lineState = m.lineState := by
  unfold plantLabel
  dsimp only
  rw [if_pos hname]
  split <;> rfl

theorem Untouched.lineState (h : m.Untouched m') : m'.lineState = m.lineState := by
  unfold OpenMethod.lineState
  rw [h.lines, h.pending, h.lastLine]

theorem lineState_inFrame (m : OpenMethod)
    (change : Frame → Nat → LabelTable → (Frame × Nat) × LabelTable × List Fault) :
    (m.inFrame change).1.lineState = m.lineState := by
  unfold inFrame
  split <;> rfl

theorem lineState_endFrame (m : OpenMethod) : m.endFrame.1.lineState = m.lineState := by
  unfold endFrame
  split
  next => rfl
  next =>
    dsimp only
    split <;> rfl

/-- **One directive keeps the method lined**, and an instruction that it emits
has the line in force. -/
theorem Lined.turns (h : Lined lines m) {d : Directive} (hturns : Turns true line m d m')
    (htidy : m.body.Tidy m.finish) : Lined (lines ++ if d.isEmit then [line] else []) m' := by
  have hcarries := hturns.carries htidy
  -- only an instruction, or a place that is marked, commits what was held back
  cases hturns with
  | idle hd hidle =>
    have hemit := (Directive.quiet_of_isIdle hd).emit
    rw [hemit, if_neg Bool.false_ne_true, List.append_nil]
    exact h.quiet hcarries hemit hidle.toUntouched.lineState
  | emit _ _ hclean => exact h.emit hclean
  | lineNumber _ hauto => cases hauto
  | label name hclean =>
    refine (List.append_nil lines).symm ▸ ?_
    by_cases hname : Label.isNumeric name = true
    · exact h.quiet hcarries rfl (lineState_plantLabel hname)
    · exact h.plantLabel htidy hname hclean
  | beginFrame hclean => exact (List.append_nil lines).symm ▸ h.beginFrame htidy hclean
  | frameOffset | frameLocal | frameStack | frameUseLocals =>
    exact (List.append_nil lines).symm ▸ h.quiet hcarries rfl (m.lineState_inFrame _)
  | endFrame =>
    exact (List.append_nil lines).symm ▸ h.quiet hcarries rfl m.lineState_endFrame

end OpenMethod

/-! ## Runs inside a method -/

namespace Assembler

open OpenMethod (Lined)

variable {a a' : Assembler} {m m' : OpenMethod} {d : Directive} {ds : List Directive}
  {lines : List (Option Nat)}

/-- **A line number given explicitly is ignored.** -/
theorem run_lineNumber (hauto : a.settings.autoLines = true) (value : Int64) :
    a.run (.lineNumber value) = a :=
  if_pos hauto

/-- **Directives inside a method keep it lined.** -/
theorem lined_runAll (hauto : a.settings.autoLines = true) (hm : a.method = some m)
    (htidy : m.body.Tidy m.finish) (hinside : .endMethod ∉ ds)
    (hclean : (a.runAll ds).diagnostics = a.diagnostics) (h : Lined lines m) :
    ∃ m', (a.runAll ds).method = some m' ∧ Lined (lines ++ sourceLines a.line ds) m' := by
  induction ds generalizing a m lines with
  | nil => exact ⟨m, hm, (List.append_nil lines).symm ▸ h⟩
  | cons d ds ih =>
    obtain ⟨hd, hds⟩ := not_or.1 (mt List.mem_cons.2 hinside)
    obtain ⟨hfirst, hrest⟩ := run_clean_of_runAll hclean
    obtain ⟨m₁, hmoves⟩ := moves_run hm (Ne.symm hd) hfirst
    have hturns := hmoves.turns
    rw [hauto] at hturns
    have hcarries := hturns.carries htidy
    have hauto₁ : (a.run d).settings.autoLines = true := by rw [settings_run, hauto]
    obtain ⟨m', hm', hlined⟩ := ih hauto₁ hmoves.method (hcarries.finish ▸ hcarries.tidy) hds
      hrest (h.turns hturns htidy)
    rw [line_run, List.append_assoc] at hlined
    exact ⟨m', hm', hlined⟩

/-- **Line numbers given explicitly can be left out of a run.** -/
theorem runAll_filter_lineNumber (hauto : a.settings.autoLines = true) (ds : List Directive) :
    a.runAll (ds.filter (!·.isLineNumber)) = a.runAll ds := by
  induction ds generalizing a with
  | nil => rfl
  | cons d ds ih =>
    cases hd : d.isLineNumber with
    | true =>
      rw [List.filter_cons_of_neg (by simp [hd]), ih hauto]
      cases d with
      | lineNumber value => exact congrArg (·.runAll ds) (run_lineNumber hauto value).symm
      | _ => cases hd
    | false =>
      rw [List.filter_cons_of_pos (by simp [hd])]
      refine ih (a := a.run d) ?_
      rw [settings_run, hauto]

/-! ## The end of the method -/

/-- **The second state has newly on record that a line is too large.** -/
def BlamesLine (a a' : Assembler) : Prop :=
  ∃ diagnostic ∈ a'.diagnostics.toList.drop a.diagnostics.size,
    ∃ number, diagnostic.fault = .outOfRange "line number" number

/-- **The end of a method records the faults of closing it.** -/
theorem recorded_endMethod (hm : a.method = some m) :
    a.endMethod.diagnostics.toList.drop a.diagnostics.size
      = (m.close a.settings.autoLines).2.map (Diagnostic.mk a.line) := by
  unfold endMethod
  rw [hm]
  dsimp only
  rw [toList_diagnostics_reportAll]
  exact List.drop_left

/-- If the end of a method does not blame a line, it commits what was held
back. -/
theorem flush_of_endMethod (hauto : a.settings.autoLines = true) (hm : a.method = some m)
    (hend : ¬BlamesLine a a.endMethod) : (m.flush true).2 = [] := by
  rcases (m.flush_frame true).2 with hnone | ⟨-, number, -, hone⟩
  · exact hnone
  · have hclose : .outOfRange "line number" number ∈ (m.close a.settings.autoLines).2 := by
      rw [hauto]
      unfold OpenMethod.close
      refine List.mem_append_left _ (List.mem_append_left _ ?_)
      rw [hone]
      exact List.mem_singleton_self _
    refine absurd ⟨⟨a.line, .outOfRange "line number" number⟩, ?_, number, rfl⟩ hend
    rw [recorded_endMethod hm]
    exact List.mem_map_of_mem hclose

/-- **The lines are noted where they start** in the body that directives built,
the first of which came from the line given. -/
structure AutomaticLines (line : Option Nat) (ds : List Directive) (body : Body) : Prop where
  /-- The instructions are those emitted. -/
  instructions : body.instructions = emitted body.labels ds
  /-- Each of them was emitted at a line, known or not. -/
  count : body.instructions.length = (sourceLines line ds).length
  /-- There is one entry for each instruction at which a line starts, in order,
  and it holds that line. -/
  entries : body.lines.toList.map (·.line.toNat)
    = (lineStarts (sourceLines line ds)).map (·.line)
  /-- After layout, the label of an entry has the offset of its instruction. -/
  offsets : ∀ pool starts length, (body.layout pool).2 = .ok (starts, length) →
    Laid pool 0 body.instructions starts length
      ∧ List.Forall₂ (fun entry s => ∃ offset, starts[s.place]? = some offset
          ∧ (body.layout pool).1.labels.offset entry.start = .ok offset)
        body.lines.toList (lineStarts (sourceLines line ds))

theorem AutomaticLines.of_notes {line : Option Nat} {body : Body} (hbody : body.Streamed)
    (hinstructions : body.instructions = emitted body.labels ds)
    (hcount : body.instructions.length = (sourceLines line ds).length)
    (hnotes : List.Forall₂ body.Notes body.lines.toList (lineStarts (sourceLines line ds))) :
    AutomaticLines line ds body where
  instructions := hinstructions
  count := hcount
  entries := by
    rw [← List.forall₂_eq_eq_eq, List.forall₂_map_left_iff, List.forall₂_map_right_iff]
    exact hnotes.imp fun _ _ h => h.1
  offsets pool starts length hlayout := by
    refine ⟨(Body.layout_eq_ok hlayout).1, ?_⟩
    refine List.forall₂_iff_zip.2 ⟨hnotes.length_eq, fun hmem => ?_⟩
    refine (List.forall₂_zip hnotes hmem).offset hbody hlayout ?_
    rw [hcount]
    exact place_lt_of_mem_lineStarts (List.of_mem_zip hmem).2

/-- **What the end of a lined method makes of its body**: the instruction held
back is committed, and the end is placed. -/
theorem automaticLines_of_lined {opened : OpenMethod} {line : Option Nat}
    (hfollows : Follows true opened ds m) (hlined : Lined (sourceLines line ds) m)
    (hfits : (m.flush true).2 = []) :
    AutomaticLines line ds ((m.flush true).1.body.placeNew m.finish) := by
  have hnoted := hlined.flush hfits
  have hcommits := OpenMethod.commits_flush hfollows.tidy true
  have hgrows : (m.flush true).1.body.AppendsTo ((m.flush true).1.body.placeNew m.finish) :=
    .placeNew _ _
  have hinstructions := Body.instructions_placeNew (m.flush true).1.body m.finish
  refine .of_notes ?_ ?_ ?_ ?_
  · exact (hcommits.tidy.toTracked.placeNew hcommits.tidy.free.has
      hcommits.tidy.free.unplaced).streamed
  · rw [hinstructions, hcommits.instructions]
    exact hfollows.stream _ (hcommits.appends.trans hgrows).labels
  · rw [hinstructions, hnoted.count]
  · exact hnoted.entries.imp fun _ _ hnotes => hnotes.mono hgrows

/-- A method that was just opened is lined. -/
theorem lined_begin (method : Method) : Lined [] (.begin method) :=
  ⟨[], rfl, rfl, rfl, .nil⟩

/-- **Lines are noted automatically, where they start.** With automatic line
numbers, a method that may have code is opened, and some directives follow that
record nothing and do not end it. Unless the line of the instruction held back
is found to be too large when the method ends, the table of its body has one
entry for each instruction whose line is known and is not the last one known
before it, in order, with that line, and at the place of the instruction. Line
numbers that are given explicitly change nothing at all. -/
theorem endMethod_lines (a : Assembler) (flags : AccessFlags .methods)
    (name descriptor : String) (ds : List Directive) (hauto : a.settings.autoLines = true)
    (hout : a.method = none)
    (hcode : (Method.declare flags name descriptor).mayHaveCode = true)
    (hinside : .endMethod ∉ ds)
    (hclean : ((a.beginMethod flags name descriptor).runAll ds).diagnostics
      = (a.beginMethod flags name descriptor).diagnostics)
    (hend : ¬BlamesLine ((a.beginMethod flags name descriptor).runAll ds)
      ((a.beginMethod flags name descriptor).runAll ds).endMethod) :
    (∃ method body,
      ((a.beginMethod flags name descriptor).runAll ds).endMethod.classSoFar.methods
          = a.classSoFar.methods.push method
        ∧ method.body = some body ∧ AutomaticLines a.line ds body)
      ∧ (a.beginMethod flags name descriptor).runAll (ds.filter (!·.isLineNumber))
        = (a.beginMethod flags name descriptor).runAll ds := by
  obtain ⟨hopen, hsettings, hmethods⟩ := beginMethod_of_closed hout flags name descriptor
  have hline : (a.beginMethod flags name descriptor).line = a.line :=
    a.line_run (.beginMethod flags name descriptor)
  have hauto₀ : (a.beginMethod flags name descriptor).settings.autoLines = true := by
    rw [hsettings, hauto]
  refine ⟨?_, runAll_filter_lineNumber hauto₀ ds⟩
  have hbegin := follows_begin (a.beginMethod flags name descriptor).settings.autoLines
    (.declare flags name descriptor)
  obtain ⟨m, hruns⟩ := runs_runAll hopen hbegin hinside hclean
  have hfollows : Follows _ _ ds m := hruns.follows
  rw [hauto₀] at hfollows
  -- the same run once more, for the lines that its instructions start
  obtain ⟨m', hm', hlined⟩ :=
    lined_runAll hauto₀ hopen hbegin.tidy hinside hclean (lined_begin _)
  obtain rfl : m = m' := Option.some.inj (hruns.method.symm.trans hm')
  rw [hline, List.nil_append] at hlined
  have hauto₁ : ((a.beginMethod flags name descriptor).runAll ds).settings.autoLines = true := by
    rw [hruns.settings, hauto₀]
  have hclosed := hruns.methods_endMethod hcode
  rw [hauto₀, hmethods] at hclosed
  exact ⟨_, _, hclosed, rfl,
    automaticLines_of_lined hfollows hlined (flush_of_endMethod hauto₁ hruns.method hend)⟩

/-- The first instruction has no line. The third one goes on with the line of the
second, and the one before the frame is committed at another line than its
own. -/
def linedRun : List Directive :=
  [.emit "nop" .none, .line 7, .emit "nop" .none, .lineNumber 99, .emit "nop" .none, .line 9,
    .beginFrame, .endFrame, .emit "nop" .none, .line 7, .emit "nop" .none]

/-- The run inside of a method whose lines are noted automatically. -/
def insideLined : Assembler :=
  { start { Settings.initial with autoLines := true } with
    form := some Version.initial.stackMapForm
    method := some (.begin (.declare .empty "m" "()V")) }

theorem beginMethod_lined :
    (start { Settings.initial with autoLines := true }).beginMethod .empty "m" "()V"
      = insideLined := by
  unfold beginMethod
  rw [MethodDescriptor.read_unit]
  rfl

/-- **Lines start at the second, the fourth and the fifth instruction.** -/
theorem endMethod_lines_interleaved :
    (insideLined.runAll linedRun).diagnostics = insideLined.diagnostics
      ∧ ∃ body, (insideLined.runAll linedRun).endMethod.classSoFar.methods.toList.map (·.body)
          = [some body]
        ∧ body.lines.toList.map (·.line.toNat) = [7, 9, 7]
        ∧ body.lines.toList.map (fun entry => (body.layout .empty).1.labels.offset entry.start)
          = [.ok 1, .ok 3, .ok 4] := by
  have hclean : (insideLined.runAll linedRun).diagnostics = insideLined.diagnostics := rfl
  have hnone : (insideLined.runAll linedRun).endMethod.diagnostics = #[] := rfl
  have hend : ¬BlamesLine (insideLined.runAll linedRun)
      (insideLined.runAll linedRun).endMethod := by
    rintro ⟨diagnostic, hnew, -⟩
    rw [hnone, List.drop_nil] at hnew
    exact List.not_mem_nil hnew
  -- five instructions of one byte each, so places and offsets are the same numbers
  have hlayout : (insideLined.runAll linedRun).endMethod.classSoFar.methods.toList.map
      (fun method => method.body.map fun body => (body.layout .empty).2)
        = [some (.ok ([0, 1, 2, 3, 4], 5))] := rfl
  rw [← beginMethod_lined] at hclean hend hlayout ⊢
  obtain ⟨⟨method, body, hmethods, hbody, hlines⟩, -⟩ :=
    endMethod_lines (start { Settings.initial with autoLines := true }) .empty "m" "()V" linedRun
      rfl rfl (by decide) (by simp [linedRun]) hclean hend
  rw [hmethods] at hlayout ⊢
  have hlaid : method.body.map (fun body => (body.layout .empty).2)
      = some (.ok ([0, 1, 2, 3, 4], 5)) := (List.cons.inj hlayout).1
  rw [hbody] at hlaid
  obtain ⟨-, hoffsets⟩ := hlines.offsets .empty _ _ (Option.some.inj hlaid)
  have hplaces :
      body.lines.toList.map (fun entry => (body.layout .empty).1.labels.offset entry.start)
        = (lineStarts (sourceLines none linedRun)).map
          fun s => .ok ([0, 1, 2, 3, 4].getD s.place 0) := by
    rw [← List.forall₂_eq_eq_eq, List.forall₂_map_left_iff, List.forall₂_map_right_iff]
    refine hoffsets.imp fun entry s => ?_
    rintro ⟨offset, hat, hoffset⟩
    rw [hoffset, List.getD_eq_getElem?_getD, hat]
    rfl
  exact ⟨hclean, body, congrArg ([·]) hbody, hlines.entries, hplaces⟩

end Assembler

end BytecodeAssembler
