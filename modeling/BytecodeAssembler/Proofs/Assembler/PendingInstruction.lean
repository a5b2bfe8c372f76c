import BytecodeAssembler.Proofs.Assembler.Steps
import BytecodeAssembler.Proofs.Body.Places

/-!
# The instruction held back

The instruction emitted last is held back, and it is committed from many
places: by the next instruction, by a label that is not a number, by a line
number, by a frame and by the end of the method. The body therefore lags
behind what was asked for by at most one instruction, and what was asked for
is the **stream** of an open method: the instructions of its body and the one
held back. An instruction appends itself to the stream, and nothing else
changes it.

This module says what one directive does to the stream and to the places that
were marked (`OpenMethod.Carries`), for each directive that is about the body
of a method.
-/

namespace BytecodeAssembler

/-! ## What directives ask for -/

namespace Directive

/-- **The instruction that a directive emits**, with its labels as a table
names them. -/
def instruction? (t : LabelTable) : Directive → Option Instruction
  | .emit mnemonic argument => (Opcode.find? mnemonic).bind fun opcode =>
    ((argument.resolve opcode t).1.bind (Instruction.make opcode)).toOption
  | _ => none

/-- Whether the directive emits an instruction. -/
def isEmit : Directive → Bool
  | .emit _ _ => true
  | _ => false

/-- **Whether the directive marks the place after all instructions**: a label
that is not a number, a line number unless lines are noted automatically, and
the begin of a frame. -/
def marksPlace (autoLines : Bool) : Directive → Bool
  | .label name => !Label.isNumeric name
  | .lineNumber _ => !autoLines
  | .beginFrame => true
  | _ => false

/-- Whether the directive notes a line number. -/
def isLineNumber : Directive → Bool
  | .lineNumber _ => true
  | _ => false

/-- Whether the directive ends a frame. -/
def isEndFrame : Directive → Bool
  | .endFrame => true
  | _ => false

/-- Whether the directive gives the place of a frame. -/
def isFrameOffset : Directive → Bool
  | .frameOffset _ => true
  | _ => false

/-- **The directive has no business with the stream**: it emits nothing, marks
no place and ends no frame. -/
structure Quiet (autoLines : Bool) (d : Directive) : Prop where
  emit : d.isEmit = false
  mark : d.marksPlace autoLines = false
  line : autoLines = false → d.isLineNumber = false
  endFrame : d.isEndFrame = false

/-- **Whether the directive works on a frame.** -/
def worksOnFrame : Directive → Bool
  | .beginFrame | .frameOffset _ | .frameLocal _ _ | .frameStack _ _ | .frameUseLocals _
  | .endFrame => true
  | _ => false

/-- **Whether the directive leaves stream and frames to others.** A line number
does if lines are noted automatically. -/
def isIdle (autoLines : Bool) : Directive → Bool
  | .emit _ _ | .label _ => false
  | .lineNumber _ => autoLines
  | d => !d.worksOnFrame

theorem quiet_of_isIdle {autoLines : Bool} {d : Directive} (h : d.isIdle autoLines = true) :
    d.Quiet autoLines := by
  cases d with
  | emit | label | beginFrame | endFrame => cases h
  | lineNumber value =>
    obtain rfl : autoLines = true := h
    exact ⟨rfl, rfl, nofun, rfl⟩
  | _ => exact ⟨rfl, rfl, fun _ => rfl, rfl⟩

theorem worksOnFrame_of_isIdle {autoLines : Bool} {d : Directive} (h : d.isIdle autoLines = true) :
    d.worksOnFrame = false := by
  cases d with
  | beginFrame | frameOffset | frameLocal | frameStack | frameUseLocals | endFrame => cases h
  | _ => rfl

end Directive

/-- **The instructions that directives emit**, in order. -/
def emitted (t : LabelTable) (ds : List Directive) : List Instruction :=
  ds.filterMap (Directive.instruction? t)

/-- **Whether an instruction is held back**: since the last one was emitted
no place was marked. -/
def heldBack (autoLines : Bool) (ds : List Directive) : Bool :=
  (ds.reverse.find? fun d => d.isEmit || d.marksPlace autoLines).any Directive.isEmit

theorem heldBack_concat (autoLines : Bool) (ds : List Directive) (d : Directive) :
    heldBack autoLines (ds ++ [d])
      = (d.isEmit || !d.marksPlace autoLines && heldBack autoLines ds) := by
  unfold heldBack
  rw [List.reverse_append, List.reverse_singleton, List.singleton_append, List.find?_cons]
  cases hemit : d.isEmit with
  | true => simp [hemit]
  | false => cases d.marksPlace autoLines <;> simp [hemit]

theorem emitted_concat (t : LabelTable) (ds : List Directive) (d : Directive) :
    emitted t (ds ++ [d]) = emitted t ds ++ (d.instruction? t).toList := by
  unfold emitted
  rw [List.filterMap_append]
  cases hd : d.instruction? t <;> simp [hd]

theorem instruction?_of_not_isEmit {d : Directive} (h : d.isEmit = false) (t : LabelTable) :
    d.instruction? t = none := by
  cases d with
  | emit mnemonic argument => cases h
  | _ => rfl

/-- The methods have the same flags, name and descriptor. -/
structure Method.SameHeader (m m' : Method) : Prop where
  flags : m'.flags = m.flags
  name : m'.name = m.name
  descriptor : m'.descriptor = m.descriptor

theorem Method.SameHeader.mayHaveCode {m m' : Method} (h : m.SameHeader m') :
    m'.mayHaveCode = m.mayHaveCode := by
  unfold Method.mayHaveCode
  rw [h.flags]

/-! ## Committing the pending instruction -/

namespace OpenMethod

variable {m m' : OpenMethod} {autoLines : Bool}

/-- **The instructions asked for so far**: those of the body, and the pending
one. -/
def stream (m : OpenMethod) : List Instruction :=
  m.body.instructions ++ (m.pending.map Prod.fst).toList

/-- The body lacks the instruction held back, if there is one. -/
theorem instructions_eq (m : OpenMethod) :
    m.body.instructions = if m.pending.isSome then m.stream.dropLast else m.stream := by
  unfold stream
  cases m.pending with
  | none => exact (List.append_nil _).symm
  | some entry => exact List.dropLast_concat.symm

/-- The place that the open frame describes. -/
def framePlace (m : OpenMethod) : Option CodeOffset := m.frame.map fun entry => entry.1.offset

theorem framePlace_congr (h : m'.frame = m.frame) : m'.framePlace = m.framePlace := by
  unfold framePlace
  rw [h]

/-- The method with another body. -/
def withBody (m : OpenMethod) (body : Body) : OpenMethod := { m with body }

/-- Only the instructions of the body matter for the stream. -/
theorem stream_withBody {body : Body} (h : body.instructions = m.body.instructions) :
    (m.withBody body).stream = m.stream :=
  congrArg (· ++ (m.pending.map Prod.fst).toList) h

/-- The method with another label table. -/
def withLabels (m : OpenMethod) (labels : LabelTable) : OpenMethod :=
  m.withBody { m.body with labels }

/-- The method with a pending instruction. -/
def withPending (m : OpenMethod) (i : Instruction) (line : Option Nat) : OpenMethod :=
  { m with pending := some (i, line) }

/-- **A method whose pending instruction was committed.** -/
structure Commits (autoLines : Bool) (m m' : OpenMethod) : Prop where
  alike : m.Alike m'
  appends : m.body.AppendsTo m'.body
  tidy : m'.body.Tidy m.finish
  /-- The instructions asked for are those of the body. -/
  instructions : m'.body.instructions = m.stream
  pending : m'.pending = none
  frame : m'.frame = m.frame
  frames : m'.body.frames = m.body.frames
  /-- Lines are noted only automatically. -/
  lines : autoLines = false → m'.body.lines = m.body.lines

/-- Noting a line is appending to the body, and no instruction is. -/
theorem markLine_eq (h : m.body.Tidy m.finish) (line : Option Nat) :
    ∃ body lastLine, (m.markLine line).1 = { m with body, lastLine } ∧ m.body.AppendsTo body
      ∧ body.Tidy m.finish ∧ body.instructions = m.body.instructions
      ∧ body.frames = m.body.frames := by
  have hsame : m.body.AppendsTo m.body ∧ m.body.Tidy m.finish
      ∧ m.body.instructions = m.body.instructions ∧ m.body.frames = m.body.frames :=
    ⟨.refl _, h, rfl, rfl⟩
  unfold markLine
  cases line with
  | none => exact ⟨m.body, m.lastLine, rfl, hsame⟩
  | some line =>
    dsimp only
    split
    next => exact ⟨m.body, m.lastLine, rfl, hsame⟩
    next =>
      split
      next =>
        refine ⟨_, _, rfl, ?_, h.here.congr rfl fun _ => rfl, Body.instructions_here m.body, rfl⟩
        exact (Body.AppendsTo.here m.body).trans (.addLine _ _)
      next => exact ⟨m.body, some line, rfl, hsame⟩

/-- **Committing moves the pending instruction into the body.** -/
theorem commits_flush (h : m.body.Tidy m.finish) (autoLines : Bool) :
    Commits autoLines m (m.flush autoLines).1 := by
  have halike := m.alike_flush autoLines
  unfold flush at halike ⊢
  cases hpending : m.pending with
  | none =>
    refine ⟨.refl m, .refl _, h, ?_, hpending, rfl, rfl, fun _ => rfl⟩
    unfold stream
    rw [hpending]
    exact (List.append_nil _).symm
  | some entry =>
    obtain ⟨i, line⟩ := entry
    have hstream : m.stream = m.body.instructions ++ [i] := by
      unfold stream
      rw [hpending]
      rfl
    rw [hpending] at halike
    cases autoLines with
    | false =>
      refine ⟨halike, .push _ i, h.push i, ?_, rfl, rfl, rfl, fun _ => rfl⟩
      rw [hstream]
      exact Body.instructions_push m.body i
    | true =>
      -- a line that starts here is noted before the instruction, and adds none of its own
      obtain ⟨body, lastLine, hmark, happends, htidy, hinstructions, hframes⟩ :=
        markLine_eq (m := { m with pending := none }) h line
      dsimp only at halike ⊢
      rw [if_pos rfl, hmark] at halike ⊢
      refine ⟨halike, happends.trans (.push _ i), htidy.push i, ?_, rfl, rfl, hframes, nofun⟩
      rw [hstream]
      exact (Body.instructions_push body i).trans (congrArg (· ++ [i]) hinstructions)

theorem Commits.stream (h : Commits autoLines m m') : m'.stream = m.stream := by
  rw [← h.instructions]
  unfold OpenMethod.stream
  rw [h.pending]
  exact List.append_nil _

/-! ## Steps -/

theorem Alike.sameHeader (h : m.Alike m') : m.method.SameHeader m'.method :=
  ⟨congrArg Method.flags h.method, congrArg Method.name h.method,
    congrArg Method.descriptor h.method⟩

/-- **What a directive does to the open method** if it records nothing. -/
structure Carries (autoLines : Bool) (d : Directive) (m m' : OpenMethod) : Prop where
  header : m.method.SameHeader m'.method
  finish : m'.finish = m.finish
  appends : m.body.AppendsTo m'.body
  tidy : m'.body.Tidy m.finish
  /-- The instruction it emits is appended to those asked for. -/
  stream : ∀ u, m'.body.labels.Within u → m'.stream = m.stream ++ (d.instruction? u).toList
  /-- There is such an instruction exactly if it is to emit one. -/
  emits : ∀ u, m'.body.labels.Within u → (d.instruction? u).isSome = d.isEmit
  /-- An instruction is held back until a place is marked. -/
  pending : m'.pending.isSome = (d.isEmit || !d.marksPlace autoLines && m.pending.isSome)
  lines : autoLines = false →
    m'.body.lines.size = m.body.lines.size + [d].countP Directive.isLineNumber
  frames : m'.body.frames.size = m.body.frames.size + [d].countP Directive.isEndFrame
  /-- The open frame keeps its place unless it is given another one. -/
  framePlace : m.frame.isSome → d.isEndFrame = false → d.isFrameOffset = false →
    m'.framePlace = m.framePlace

/-- **The stream and the tables of places are left alone**, apart from names
that are mentioned. -/
structure Untouched (m m' : OpenMethod) : Prop where
  header : m.method.SameHeader m'.method
  finish : m'.finish = m.finish
  labels : m.body.labels.Mentions m'.body.labels
  elements : m'.body.elements = m.body.elements
  lines : m'.body.lines = m.body.lines
  frames : m'.body.frames = m.body.frames
  pending : m'.pending = m.pending
  lastLine : m'.lastLine = m.lastLine

theorem Untouched.refl (m : OpenMethod) : m.Untouched m :=
  ⟨⟨rfl, rfl, rfl⟩, rfl, .refl, rfl, rfl, rfl, rfl, rfl⟩

/-- What a quiet directive leaves alone, it carries on. -/
theorem Untouched.carries (h : m.Untouched m') (htidy : m.body.Tidy m.finish) {d : Directive}
    (hd : d.Quiet autoLines) (hframe : d.isFrameOffset = false → m'.framePlace = m.framePlace) :
    Carries autoLines d m m' where
  header := h.header
  finish := h.finish
  appends := ⟨h.elements ▸ List.prefix_rfl, h.labels.within, h.lines ▸ List.prefix_rfl,
    h.frames ▸ List.prefix_rfl⟩
  tidy := by
    refine (htidy.mentions h.labels).congr rfl fun l => ?_
    exact congrArg (·.toList.count (.label l)) h.elements
  stream u _ := by
    unfold OpenMethod.stream Body.instructions
    rw [h.elements, h.pending, instruction?_of_not_isEmit hd.emit]
    exact (List.append_nil _).symm
  emits u _ := by
    rw [instruction?_of_not_isEmit hd.emit, hd.emit]
    rfl
  pending := by
    rw [h.pending, hd.emit, hd.mark]
    rfl
  lines hoff := by
    rw [h.lines, List.countP_cons_of_neg (Bool.eq_false_iff.1 (hd.line hoff))]
    rfl
  frames := by
    rw [h.frames, List.countP_cons_of_neg (Bool.eq_false_iff.1 hd.endFrame)]
    rfl
  framePlace _ _ := hframe

/-! ### Instructions and labels -/

/-- An instruction that is emitted is made of its operand. -/
theorem emit_of_clean {line : Option Nat} {mnemonic : String} {argument : Argument}
    (hclean : (m.emit autoLines line mnemonic argument).2 = []) :
    ∃ opcode i, Opcode.find? mnemonic = some opcode
      ∧ (argument.resolve opcode m.body.labels).1.bind (Instruction.make opcode) = .ok i
      ∧ (m.emit autoLines line mnemonic argument).1
        = ((m.withLabels (argument.resolve opcode m.body.labels).2).flush
          autoLines).1.withPending i line := by
  unfold emit at hclean ⊢
  split at hclean
  next => cases hclean
  next hcode =>
    rw [if_neg hcode]
    cases hopcode : Opcode.find? mnemonic with
    | none =>
      rw [hopcode] at hclean
      cases hclean
    | some opcode =>
      rw [hopcode] at hclean
      dsimp only at hclean ⊢
      cases hmake : (argument.resolve opcode m.body.labels).1.bind (Instruction.make opcode) with
      | error fault =>
        rw [hmake] at hclean
        cases hclean
      | ok i => exact ⟨opcode, i, rfl, hmake, rfl⟩

/-- **An instruction is held back**, and the one before it is committed. -/
theorem carries_emit (h : m.body.Tidy m.finish) {line : Option Nat} {mnemonic : String}
    {argument : Argument} (hclean : (m.emit autoLines line mnemonic argument).2 = []) :
    Carries autoLines (.emit mnemonic argument) m
      (m.emit autoLines line mnemonic argument).1 := by
  have halike := m.alike_emit autoLines line mnemonic argument
  obtain ⟨opcode, i, hopcode, hmake, hemit⟩ := emit_of_clean hclean
  have hmentions := (argument.resolves_resolve opcode h.named).mentions
  have hnamed : m.body.AppendsTo (m.withLabels (argument.resolve opcode m.body.labels).2).body :=
    { Body.AppendsTo.refl m.body with labels := hmentions.within }
  have hflush := commits_flush (m := m.withLabels (argument.resolve opcode m.body.labels).2)
    (h.mentions hmentions) autoLines
  -- the operand means the same in every table that has the names it found
  have hi : ∀ u, ((m.withLabels (argument.resolve opcode m.body.labels).2).flush
      autoLines).1.body.labels.Within u →
      Directive.instruction? u (.emit mnemonic argument) = some i := by
    intro u hu
    have hlater := Argument.resolve_of_within (hflush.appends.labels.trans hu)
    show (Opcode.find? mnemonic).bind _ = some i
    rw [hopcode, Option.bind_some, hlater, hmake]
    rfl
  rw [hemit] at halike ⊢
  refine ⟨halike.sameHeader, halike.finish, hnamed.trans hflush.appends, hflush.tidy,
    fun u hu => ?_, fun u hu => congrArg Option.isSome (hi u hu), rfl, ?_, ?_, ?_⟩
  · rw [hi u hu]
    exact congrArg (· ++ [i]) hflush.instructions
  · exact fun hoff => congrArg Array.size (hflush.lines hoff)
  · exact congrArg Array.size hflush.frames
  · exact fun _ _ _ => framePlace_congr hflush.frame

/-- **What placing a label starts from**: the label is mentioned, and the
pending instruction is committed unless the label is a number. -/
def readyFor (m : OpenMethod) (autoLines : Bool) (name : String) : OpenMethod :=
  if Label.isNumeric name then m.withBody (m.body.mention name).2
  else ((m.withBody (m.body.mention name).2).flush autoLines).1

theorem plantLabel_of_clean {name : String} (hclean : (m.plantLabel autoLines name).2 = []) :
    (m.readyFor autoLines name).body.labels.isPlaced (m.body.mention name).1 = false
      ∧ (m.plantLabel autoLines name).1 = (m.readyFor autoLines name).withBody
        ((m.readyFor autoLines name).body.placeNew (m.body.mention name).1) := by
  have hready : m.readyFor autoLines name = (if Label.isNumeric name then
        (({ m with body := (m.body.mention name).2 }, []) : OpenMethod × List Fault)
      else { m with body := (m.body.mention name).2 }.flush autoLines).1 := by
    unfold readyFor
    split <;> rfl
  rw [hready, ← LabelTable.checkNew_eq_ok_iff]
  unfold plantLabel at hclean ⊢
  dsimp only at hclean ⊢
  split at hclean
  next => exact absurd hclean (List.append_ne_nil_of_right_ne_nil _ (List.cons_ne_nil _ _))
  next hnew =>
    rw [hnew]
    exact ⟨rfl, rfl⟩

/-- What is ready for a label differs from the method before only in what was
committed. -/
structure Ready (autoLines : Bool) (name : String) (m m' : OpenMethod) : Prop where
  alike : m.Alike m'
  appends : m.body.AppendsTo m'.body
  tidy : m'.body.Tidy m.finish
  named : m'.body.labels.names[name]? = some (m.body.mention name).1
  instructions : m'.body.instructions
    = if Label.isNumeric name then m.body.instructions else m.stream
  stream : m'.stream = m.stream
  pending : m'.pending.isSome = (Label.isNumeric name && m.pending.isSome)
  frame : m'.frame = m.frame
  frames : m'.body.frames = m.body.frames
  lines : autoLines = false → m'.body.lines = m.body.lines

theorem ready_readyFor (h : m.body.Tidy m.finish) (autoLines : Bool) (name : String) :
    Ready autoLines name m (m.readyFor autoLines name) := by
  have hmention := LabelTable.names_mention m.body.labels name
  have htidy : (m.body.mention name).2.Tidy m.finish := h.mentions (.single _ name)
  have happends : m.body.AppendsTo (m.body.mention name).2 :=
    { Body.AppendsTo.refl m.body with labels := LabelTable.within_mention _ name }
  unfold readyFor
  -- a numeric label stands in front of the pending instruction, so only the others commit it
  by_cases hname : Label.isNumeric name = true
  · rw [if_pos hname]
    refine ⟨⟨rfl, rfl⟩, happends, htidy, hmention, ?_, rfl, ?_, rfl, rfl, fun _ => rfl⟩
    · rw [if_pos hname]
      rfl
    · rw [hname, Bool.true_and]
      rfl
  · have hflush := commits_flush (m := m.withBody (m.body.mention name).2) htidy autoLines
    rw [if_neg hname]
    refine ⟨⟨hflush.alike.method, hflush.alike.finish⟩, happends.trans hflush.appends,
      hflush.tidy, hflush.appends.labels _ _ hmention, ?_, hflush.stream, ?_, hflush.frame,
      hflush.frames, hflush.lines⟩
    · rw [if_neg hname]
      exact hflush.instructions
    · rw [Bool.not_eq_true] at hname
      rw [hname, Bool.false_and, hflush.pending]
      rfl

/-- **A label is placed** after what is committed. -/
theorem carries_plantLabel (h : m.body.Tidy m.finish) {name : String}
    (hclean : (m.plantLabel autoLines name).2 = []) :
    Carries autoLines (.label name) m (m.plantLabel autoLines name).1
      ∧ ∃ l, (m.plantLabel autoLines name).1.body.labels.names[name]? = some l
        ∧ (m.plantLabel autoLines name).1.body.Stands l
          (if Label.isNumeric name then m.body.instructions else m.stream) := by
  have hready := ready_readyFor h autoLines name
  obtain ⟨hnew, hplant⟩ := plantLabel_of_clean hclean
  have hne : (m.body.mention name).1 ≠ m.finish :=
    fun heq => hready.tidy.free.unnamed name (heq ▸ hready.named)
  have htidy := hready.tidy.placeNew (hready.tidy.named _ _ hready.named) hnew hne
  have hstands := Body.stands_placeNew (m.readyFor autoLines name).body (m.body.mention name).1
  have hstream := stream_withBody
    (Body.instructions_placeNew (m.readyFor autoLines name).body (m.body.mention name).1)
  rw [hready.instructions] at hstands
  rw [hplant]
  refine ⟨⟨hready.alike.sameHeader, hready.alike.finish, hready.appends.trans (.placeNew _ _),
    htidy, fun u _ => ?_, fun _ _ => rfl, ?_, ?_, ?_, ?_⟩, (m.body.mention name).1,
    hready.named, hstands⟩
  · exact (hstream.trans hready.stream).trans (List.append_nil _).symm
  · exact hready.pending.trans (congrArg (· && m.pending.isSome) (Bool.not_not _).symm)
  · exact fun hoff => congrArg Array.size (hready.lines hoff)
  · exact congrArg Array.size hready.frames
  · exact fun _ _ _ => framePlace_congr hready.frame

/-! ### Line numbers -/

theorem addLine_of_clean {value : Int64} (hclean : (m.addLine value).2 = []) :
    ∃ line : UInt16, (line.toNat : Int) = value.toInt
      ∧ (m.addLine value).1 = (m.flush false).1.withBody
        ((m.flush false).1.body.here.2.addLine ⟨(m.flush false).1.body.here.1, line⟩) := by
  unfold addLine at hclean ⊢
  dsimp only at hclean ⊢
  split at hclean
  next => exact absurd hclean (List.append_ne_nil_of_right_ne_nil _ (List.cons_ne_nil _ _))
  next line hline => exact ⟨line, toNat_of_narrowU2 hline, rfl⟩

/-- **A line number marks the place after all instructions.** -/
theorem carries_addLine (h : m.body.Tidy m.finish) {value : Int64}
    (hclean : (m.addLine value).2 = []) :
    Carries false (.lineNumber value) m (m.addLine value).1
      ∧ ∃ entry, (m.addLine value).1.body.lines = m.body.lines.push entry
        ∧ (entry.line.toNat : Int) = value.toInt
        ∧ (m.addLine value).1.body.Stands entry.start m.stream := by
  have hflush := commits_flush h false
  obtain ⟨line, hline, hadd⟩ := addLine_of_clean hclean
  have hstands := Body.stands_here (m.flush false).1.body
  rw [hflush.instructions] at hstands
  have hlines : (m.addLine value).1.body.lines
      = m.body.lines.push ⟨(m.flush false).1.body.here.1, line⟩ := by
    rw [hadd, ← hflush.lines rfl]
    rfl
  refine ⟨?_, _, hlines, hline, ?_⟩
  · have hsize : (m.addLine value).1.body.lines.size = m.body.lines.size + 1 := by
      rw [hlines, Array.size_push]
    rw [hadd] at hsize ⊢
    refine ⟨hflush.alike.sameHeader, hflush.alike.finish,
      (hflush.appends.trans (.here _)).trans (.addLine _ _),
      hflush.tidy.here.congr rfl fun _ => rfl, fun u _ => ?_, fun _ _ => rfl, ?_, fun _ => hsize,
      congrArg Array.size hflush.frames, ?_⟩
    · have hstream := stream_withBody (m := (m.flush false).1) (Body.instructions_here _)
      exact (hstream.trans hflush.stream).trans (List.append_nil _).symm
    · exact congrArg Option.isSome hflush.pending
    · exact fun _ _ _ => framePlace_congr hflush.frame
  · rw [hadd]
    exact hstands.mono (.addLine _ _)

/-! ### Frames -/

theorem beginFrame_of_clean (hclean : (m.beginFrame autoLines).2 = []) :
    (m.flush autoLines).1.frame = none ∧ (m.beginFrame autoLines).1
      = { (m.flush autoLines).1.withBody (m.flush autoLines).1.body.here.2 with
          frame := some (.empty (.label (m.flush autoLines).1.body.here.1), 0) } := by
  unfold beginFrame at hclean ⊢
  dsimp only at hclean ⊢
  split at hclean
  next => exact absurd hclean (List.append_ne_nil_of_right_ne_nil _ (List.cons_ne_nil _ _))
  next hframe =>
    rw [if_neg hframe]
    exact ⟨Option.not_isSome_iff_eq_none.1 hframe, rfl⟩

/-- **A frame begins at the place after all instructions.** -/
theorem carries_beginFrame (h : m.body.Tidy m.finish)
    (hclean : (m.beginFrame autoLines).2 = []) :
    Carries autoLines .beginFrame m (m.beginFrame autoLines).1
      ∧ ∃ l, (m.beginFrame autoLines).1.body.Stands l m.stream
        ∧ (m.beginFrame autoLines).1.framePlace = some (.label l) := by
  have hflush := commits_flush h autoLines
  obtain ⟨hnone, hbegin⟩ := beginFrame_of_clean hclean
  have hstands := Body.stands_here (m.flush autoLines).1.body
  rw [hflush.instructions] at hstands
  rw [hbegin]
  refine ⟨⟨hflush.alike.sameHeader, hflush.alike.finish, hflush.appends.trans (.here _),
    hflush.tidy.here, fun u _ => ?_, fun _ _ => rfl, congrArg Option.isSome hflush.pending,
    fun hoff => congrArg Array.size (hflush.lines hoff), congrArg Array.size hflush.frames, ?_⟩,
    _, hstands, rfl⟩
  · have hstream := stream_withBody (m := (m.flush autoLines).1) (Body.instructions_here _)
    exact (hstream.trans hflush.stream).trans (List.append_nil _).symm
  · intro hsome
    rw [← hflush.frame, hnone] at hsome
    cases hsome

/-- **Changing the open frame** leaves everything else alone, apart from names
that are mentioned, and the place of the frame too unless it is given. -/
theorem carries_inFrame (h : m.body.Tidy m.finish) {d : Directive} (hd : d.Quiet autoLines)
    {change : Frame → Nat → LabelTable → (Frame × Nat) × LabelTable × List Fault}
    (hchange : ∀ f copied, m.body.labels.Mentions (change f copied m.body.labels).2.1
      ∧ (d.isFrameOffset = false → (change f copied m.body.labels).1.1.offset = f.offset)) :
    Carries autoLines d m (m.inFrame change).1 := by
  unfold inFrame
  split
  next => exact (Untouched.refl m).carries h hd fun _ => rfl
  next f copied hframe =>
    obtain ⟨hlabels, hoffset⟩ := hchange f copied
    refine Untouched.carries ?_ h hd fun hkeep => ?_
    · exact ⟨⟨rfl, rfl, rfl⟩, rfl, hlabels, rfl, rfl, rfl, rfl, rfl⟩
    · unfold framePlace
      rw [hframe]
      exact congrArg some (hoffset hkeep)

theorem carries_fillFrame (h : m.body.Tidy m.finish) {d : Directive} (hd : d.Quiet autoLines)
    {α : Type} {find : LabelTable → Except Fault α × LabelTable} {put : Frame → α → Frame}
    (hfind : m.body.labels.Mentions (find m.body.labels).2)
    (hput : d.isFrameOffset = false → ∀ f a, (put f a).offset = f.offset) :
    Carries autoLines d m (m.fillFrame find put).1 := by
  refine carries_inFrame h hd fun f copied => ?_
  rcases hfound : find m.body.labels with ⟨fault | a, t⟩ <;> rw [hfound] at hfind
  · exact ⟨hfind, fun _ => rfl⟩
  · exact ⟨hfind, fun hkeep => hput hkeep f a⟩

theorem carries_frameOffset (h : m.body.Tidy m.finish) (position : String) :
    Carries autoLines (.frameOffset position) m (m.frameOffset position).1 := by
  rw [frameOffset_eq]
  exact carries_fillFrame h ⟨rfl, rfl, fun _ => rfl, rfl⟩
    (DeclaredType.resolves_readPlace position _ h.named).mentions nofun

theorem carries_frameLocal (h : m.body.Tidy m.finish) (name : String)
    (argument : Option String) :
    Carries autoLines (.frameLocal name argument) m (m.frameLocal name argument).1 := by
  rw [frameLocal_eq]
  exact carries_fillFrame h ⟨rfl, rfl, fun _ => rfl, rfl⟩
    (DeclaredType.resolves_ofName name argument h.named).mentions fun _ _ _ => rfl

theorem carries_frameStack (h : m.body.Tidy m.finish) (name : String)
    (argument : Option String) :
    Carries autoLines (.frameStack name argument) m (m.frameStack name argument).1 := by
  rw [frameStack_eq]
  exact carries_fillFrame h ⟨rfl, rfl, fun _ => rfl, rfl⟩
    (DeclaredType.resolves_ofName name argument h.named).mentions fun _ _ _ => rfl

theorem carries_frameUseLocals (h : m.body.Tidy m.finish) (count : Int64) :
    Carries autoLines (.frameUseLocals count) m (m.frameUseLocals count).1 := by
  refine carries_inFrame h ⟨rfl, rfl, fun _ => rfl, rfl⟩ fun f copied => ?_
  split
  next => split <;> exact ⟨.refl, fun _ => rfl⟩
  next => exact ⟨.refl, fun _ => rfl⟩

/-- A frame that continues another one describes the place it did. -/
theorem offset_of_continueFrame {b : Body} {f f' : Frame} {copied : Nat}
    (h : b.continueFrame f copied = .ok f') : f'.offset = f.offset := by
  unfold Body.continueFrame at h
  split at h
  next =>
    cases h
    rfl
  next =>
    unfold Frame.copyLocals at h
    split at h
    next =>
      cases h
      rfl
    next => cases h

/-- **A frame that ends is added to the body** behind the frame before it. -/
theorem continueFrame_of_clean (hclean : m.endFrame.2 = []) :
    ∃ entry f, m.frame = some entry ∧ m.body.continueFrame entry.1 entry.2 = .ok f
      ∧ m.endFrame.1 = { m.withBody (m.body.pushFrame f) with frame := none } := by
  unfold endFrame at hclean ⊢
  cases hframe : m.frame with
  | none =>
    rw [hframe] at hclean
    cases hclean
  | some entry =>
    rw [hframe] at hclean
    dsimp only at hclean ⊢
    split at hclean
    next => cases hclean
    next f hf => exact ⟨entry, f, rfl, hf, rfl⟩

/-- A frame that ends keeps its place. -/
theorem endFrame_of_clean (hclean : m.endFrame.2 = []) :
    ∃ f, m.framePlace = some f.offset
      ∧ m.endFrame.1 = { m.withBody (m.body.pushFrame f) with frame := none } := by
  obtain ⟨entry, f, hframe, hf, hend⟩ := continueFrame_of_clean hclean
  refine ⟨f, ?_, hend⟩
  unfold framePlace
  rw [hframe, offset_of_continueFrame hf]
  rfl

theorem carries_endFrame (h : m.body.Tidy m.finish) (hclean : m.endFrame.2 = []) :
    Carries autoLines .endFrame m m.endFrame.1 := by
  obtain ⟨f, -, hend⟩ := endFrame_of_clean hclean
  rw [hend]
  exact ⟨⟨rfl, rfl, rfl⟩, rfl, .pushFrame _ f, h.congr rfl fun _ => rfl,
    fun u _ => (List.append_nil _).symm, fun _ _ => rfl, rfl, fun _ => rfl, Array.size_push _,
    nofun⟩

/-! ### The other tables -/

/-- Naming a label changes the table of labels and nothing else. -/
theorem mention_eq (b : Body) (name : String) : b.mention name
    = ((b.labels.mention name).1, { b with labels := (b.labels.mention name).2 }) := rfl

/-- **The frame is left alone too.** -/
structure Idle (m m' : OpenMethod) : Prop extends Untouched m m' where
  frame : m'.frame = m.frame

theorem Idle.refl (m : OpenMethod) : m.Idle m := ⟨.refl m, rfl⟩

theorem idle_addHandler (m : OpenMethod) (catchType : Option String)
    (start finish target : String) : m.Idle (m.addHandler catchType start finish target) := by
  have hlabels : m.body.labels.Mentions
      (((m.body.labels.mention start).2.mention finish).2.mention target).2 :=
    ((LabelTable.Mentions.single m.body.labels start).mention finish).mention target
  simp only [addHandler, mention_eq, Body.addHandler]
  exact ⟨⟨⟨rfl, rfl, rfl⟩, rfl, hlabels, rfl, rfl, rfl, rfl, rfl⟩, rfl⟩

theorem idle_addVariable (m : OpenMethod) (index : Int64) (name descriptor : String)
    (signature : Option String) (range : Option (String × String)) :
    m.Idle (m.addVariable index name descriptor signature range).1 := by
  unfold addVariable
  split
  next => exact .refl m
  next =>
    cases range with
    | none => exact ⟨⟨⟨rfl, rfl, rfl⟩, rfl, .refl, rfl, rfl, rfl, rfl, rfl⟩, rfl⟩
    | some range =>
      have hlabels : m.body.labels.Mentions
          ((m.body.labels.mention range.1).2.mention range.2).2 :=
        (LabelTable.Mentions.single m.body.labels range.1).mention range.2
      simp only [mention_eq, Body.addVariable]
      exact ⟨⟨⟨rfl, rfl, rfl⟩, rfl, hlabels, rfl, rfl, rfl, rfl, rfl⟩, rfl⟩

theorem idle_setMaxStack (m : OpenMethod) (value : Int64) : m.Idle (m.setMaxStack value).1 := by
  unfold setMaxStack
  split
  next => exact .refl m
  next => exact ⟨⟨⟨rfl, rfl, rfl⟩, rfl, .refl, rfl, rfl, rfl, rfl, rfl⟩, rfl⟩

theorem idle_setMaxLocals (m : OpenMethod) (value : Int64) :
    m.Idle (m.setMaxLocals value).1 := by
  unfold setMaxLocals
  split
  next => exact .refl m
  next => exact ⟨⟨⟨rfl, rfl, rfl⟩, rfl, .refl, rfl, rfl, rfl, rfl, rfl⟩, rfl⟩

/-! ### What directives do -/

/-- **What a directive does to the open method** if it finds no fault. Most
directives leave its stream and its frames alone. -/
inductive Turns (autoLines : Bool) (line : Option Nat) (m : OpenMethod) :
    Directive → OpenMethod → Prop where
  | idle {d : Directive} {m' : OpenMethod} (hd : d.isIdle autoLines = true) (h : m.Idle m') :
      Turns autoLines line m d m'
  | emit (mnemonic : String) (argument : Argument)
      (h : (m.emit autoLines line mnemonic argument).2 = []) :
      Turns autoLines line m (.emit mnemonic argument)
        (m.emit autoLines line mnemonic argument).1
  | label (name : String) (h : (m.plantLabel autoLines name).2 = []) :
      Turns autoLines line m (.label name) (m.plantLabel autoLines name).1
  | lineNumber (value : Int64) (hauto : autoLines = false) (h : (m.addLine value).2 = []) :
      Turns autoLines line m (.lineNumber value) (m.addLine value).1
  | beginFrame (h : (m.beginFrame autoLines).2 = []) :
      Turns autoLines line m .beginFrame (m.beginFrame autoLines).1
  | frameOffset (position : String) (h : (m.frameOffset position).2 = []) :
      Turns autoLines line m (.frameOffset position) (m.frameOffset position).1
  | frameLocal (type : String) (argument : Option String)
      (h : (m.frameLocal type argument).2 = []) :
      Turns autoLines line m (.frameLocal type argument) (m.frameLocal type argument).1
  | frameStack (type : String) (argument : Option String)
      (h : (m.frameStack type argument).2 = []) :
      Turns autoLines line m (.frameStack type argument) (m.frameStack type argument).1
  | frameUseLocals (count : Int64) (h : (m.frameUseLocals count).2 = []) :
      Turns autoLines line m (.frameUseLocals count) (m.frameUseLocals count).1
  | endFrame (h : m.endFrame.2 = []) : Turns autoLines line m .endFrame m.endFrame.1

section Turns

variable {line : Option Nat} {d : Directive}

theorem Turns.of_label {name : String} (h : Turns autoLines line m (.label name) m') :
    m' = (m.plantLabel autoLines name).1 ∧ (m.plantLabel autoLines name).2 = [] := by
  cases h with
  | idle hd => cases hd
  | label _ h => exact ⟨rfl, h⟩

theorem Turns.of_lineNumber {value : Int64} (h : Turns false line m (.lineNumber value) m') :
    m' = (m.addLine value).1 ∧ (m.addLine value).2 = [] := by
  cases h with
  | idle hd => cases hd
  | lineNumber _ _ h => exact ⟨rfl, h⟩

theorem Turns.of_beginFrame (h : Turns autoLines line m .beginFrame m') :
    m' = (m.beginFrame autoLines).1 ∧ (m.beginFrame autoLines).2 = [] := by
  cases h with
  | idle hd => cases hd
  | beginFrame h => exact ⟨rfl, h⟩

theorem Turns.of_endFrame (h : Turns autoLines line m .endFrame m') :
    m' = m.endFrame.1 ∧ m.endFrame.2 = [] := by
  cases h with
  | idle hd => cases hd
  | endFrame h => exact ⟨rfl, h⟩

/-- **Whatever a directive does, it carries the method on.** -/
theorem Turns.carries (h : Turns autoLines line m d m') (htidy : m.body.Tidy m.finish) :
    Carries autoLines d m m' := by
  cases h with
  | idle hd h =>
    exact h.toUntouched.carries htidy (Directive.quiet_of_isIdle hd) fun _ =>
      framePlace_congr h.frame
  | emit _ _ h => exact carries_emit htidy h
  | label _ h => exact (carries_plantLabel htidy h).1
  | lineNumber _ hauto h => exact hauto ▸ (carries_addLine htidy h).1
  | beginFrame h => exact (carries_beginFrame htidy h).1
  | frameOffset position => exact carries_frameOffset htidy position
  | frameLocal type argument => exact carries_frameLocal htidy type argument
  | frameStack type argument => exact carries_frameStack htidy type argument
  | frameUseLocals count => exact carries_frameUseLocals htidy count
  | endFrame h => exact carries_endFrame htidy h

end Turns

end OpenMethod

end BytecodeAssembler
