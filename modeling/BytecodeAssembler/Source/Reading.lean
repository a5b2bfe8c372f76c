import BytecodeAssembler.Assembler.Finish
import BytecodeAssembler.Source.Command
import BytecodeAssembler.Text.Lines

/-!
# Reading a source

A source is read line by line into an assembler. Two things reach over
several lines: a frame, from its begin to its end, and a switch, whose
targets stand on lines of their own up to the one for all other keys. A
line that begins with a point cannot be a target, so it gives an unfinished
switch up.

A line that is at fault is recorded and the reading goes on with the next.
-/

namespace BytecodeAssembler.Source

/-- **A switch whose targets are still being read.** -/
structure OpenSwitch where
  /-- The line on which it begins. -/
  line : Nat
  /-- Its keys as its first line gives them. -/
  head : SwitchHead
  /-- The targets of a table so far. -/
  targets : Array String
  /-- The keys and targets of a lookup so far. -/
  pairs : Array (Int64 × String)

/-- **The state of a reading.** -/
structure Reading where
  /-- What the source is read into. -/
  assembler : Assembler
  /-- The number of lines begun. -/
  line : Nat
  /-- Inside of a frame, whether the assembler took its begin. -/
  frame : Option Bool
  /-- The open switch. -/
  switch : Option OpenSwitch

namespace OpenSwitch

/-- The directive that a switch comes to once its last target is known. -/
def directive (s : OpenSwitch) (fallback : String) : Directive :=
  match s.head with
  | .table low high =>
    .emit "tableswitch" (.tableSwitch low high s.targets.toList fallback)
  | .lookup => .emit "lookupswitch" (.lookupSwitch s.pairs.toList fallback)

end OpenSwitch

/-- **One line of a switch.** -/
inductive SwitchEntry where
  /-- The target for all other keys, which ends the switch. -/
  | fallback (target : String)
  /-- A target behind its key. -/
  | keyed (key target : List Char)
  /-- A target alone. -/
  | plain (target : String)
  deriving DecidableEq, Repr

/-- **Read a line of a switch.** Its words are taken together, so blanks
around the colon do not matter. -/
def readSwitchEntry (tokens : List Token) : Except Fault SwitchEntry := do
  let text := ((← words tokens).map String.toList).flatten
  match splitBefore? ':' text with
  | none => return .plain (String.ofList text)
  | some (key, target) =>
    let target := target.drop 1
    if target.isEmpty then throw .missingTarget
    else if key = "default".toList then return .fallback (String.ofList target)
    else return .keyed key target

namespace Reading

/-- **Begin to read** into an assembler. -/
def start (assembler : Assembler) : Reading := ⟨assembler, 0, none, none⟩

/-- Record a fault. -/
def report (r : Reading) (fault : Fault) : Reading :=
  { r with assembler := r.assembler.report fault }

/-- Have the assembler carry out a directive. -/
def run (r : Reading) (directive : Directive) : Reading :=
  { r with assembler := r.assembler.run directive }

/-- **Carry out a command.** The lines of a frame are checked also when the
assembler did not take its begin. -/
def carryOut (r : Reading) : Command → Reading
  | .directive directive => r.run directive
  | .beginFrame =>
    let recorded := r.assembler.diagnostics.size
    let r := r.run .beginFrame
    { r with frame := some (r.assembler.diagnostics.size == recorded) }
  | .beginSwitch head => { r with switch := some ⟨r.line, head, #[], #[]⟩ }

/-- A line between the begin and the end of a frame. -/
def frameLine (r : Reading) (accepted : Bool) (first : String) (args : List Token) :
    Reading :=
  match readFrameLine first args with
  | .error fault => r.report fault
  | .ok directive =>
    let r :=
      match directive with
      | .endFrame => { r with frame := none }
      | _ => r
    if accepted then r.run directive else r

/-- The name of the label that a word places: the word without the colon at
its end. -/
def labelOf? (word : String) : Option String :=
  match word.toList.reverse with
  | ':' :: rev => some (String.ofList rev.reverse)
  | _ => none

/-- **Read a statement**: labels, and then perhaps a command. -/
def statement (r : Reading) : List Token → Reading
  | [] => r
  | token :: rest =>
    match token.asWord with
    | .error fault => r.report fault
    | .ok first =>
      match labelOf? first with
      | some name => (r.run (.label name)).statement rest
      | none =>
        match r.frame with
        | some accepted => r.frameLine accepted first rest
        | none =>
          match readCommand first rest with
          | .error fault => r.report fault
          | .ok command => r.carryOut command

/-- Emit a switch. It belongs to the line on which it began. -/
def endSwitch (r : Reading) (s : OpenSwitch) (fallback : String) : Reading :=
  let r := r.run (.line s.line)
  let r := r.run (s.directive fallback)
  r.run (.line r.line)

/-- **Take a line of the open switch.** -/
def switchLine (r : Reading) (s : OpenSwitch) (tokens : List Token) : Reading :=
  match readSwitchEntry tokens, s.head with
  | .error fault, _ => { r with switch := some s }.report fault
  | .ok (.fallback target), _ => r.endSwitch s target
  | .ok (.keyed key target), .lookup =>
    match readInteger (String.ofList key) with
    | .error fault => { r with switch := some s }.report fault
    | .ok key =>
      { r with switch := some { s with pairs := s.pairs.push (key, String.ofList target) } }
  | .ok (.keyed _ _), .table _ _ => { r with switch := some s }.report .tableTargetWithKey
  | .ok (.plain target), .table _ _ =>
    { r with switch := some { s with targets := s.targets.push target } }
  | .ok (.plain _), .lookup => { r with switch := some s }.report .lookupTargetWithoutKey

/-- Whether the text of a token begins with a point. -/
def beginsWithPoint (token : Token) : Bool := token.text.toList.head? == some '.'

/-- **Read the tokens of a line**, at least one. -/
def readTokens (r : Reading) (first : Token) (rest : List Token) : Reading :=
  match r.switch with
  | none => r.statement (first :: rest)
  | some s =>
    let r := { r with switch := none }
    if beginsWithPoint first then (r.report .switchOpen).statement (first :: rest)
    else r.switchLine s (first :: rest)

/-- **Read a line.** -/
def readLine (r : Reading) (line : List Char) : Reading :=
  let number := r.line + 1
  let r := { r with line := number }.run (.line number)
  match tokens line with
  | .error fault => r.report fault
  | .ok [] => r
  | .ok (first :: rest) => r.readTokens first rest

/-- **End a reading**, recording what is still open. -/
def finish (r : Reading) : Assembler :=
  let r := if r.switch.isSome then r.report .switchOpen else r
  let r := if r.frame.isSome then r.report .frameOpenAtSourceEnd else r
  r.assembler

end Reading

/-- **Read a source into an assembler.** -/
def read (assembler : Assembler) (text : String) : Assembler :=
  ((Text.lines text.toList).foldl Reading.readLine (Reading.start assembler)).finish

/-- **Assemble a source.** -/
def assemble (settings : Settings) (text : String) : Except Failure ClassFile :=
  (read (Assembler.start settings) text).finish

end BytecodeAssembler.Source
