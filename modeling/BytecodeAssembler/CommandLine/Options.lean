/-!
# Options of the command line

Options have a letter, and those with a value also a name. Letters can be
joined behind one dash, and the last of them can have its value attached,
with or without an equals sign; a name stands behind two dashes. A value
that is not attached is the next argument. Everything else is a file, and
so is every argument behind a bare pair of dashes.
-/

namespace BytecodeAssembler.CommandLine

/-- How the bytes of a source stand for characters. -/
inductive Encoding where
  /-- One to four bytes a character. -/
  | utf8
  /-- One byte a character. -/
  | latin1
  deriving DecidableEq, Repr

/-- The encoding of a name. -/
def Encoding.ofName? : String → Option Encoding
  | "utf-8" | "utf8" => some .utf8
  | "latin-1" | "latin1" | "iso-8859-1" => some .latin1
  | _ => none

/-- **What the command line asks for.** -/
structure Options where
  /-- The directory that takes the classes. -/
  destination : String
  /-- The encoding of the sources. -/
  encoding : Encoding
  /-- Whether instructions get line numbers. -/
  autoLines : Bool
  /-- The sources. -/
  files : List String
  deriving DecidableEq, Repr

/-- **What has been read of a command line.** An option that was not given
is not there yet, since none may be given twice. -/
structure Partial where
  /-- The directory, if given. -/
  destination : Option String
  /-- The encoding, if given. -/
  encoding : Option Encoding
  /-- Whether line numbers are asked for. -/
  autoLines : Bool
  /-- The files so far, last one first. -/
  files : List String
  deriving DecidableEq, Repr

namespace Partial

/-- Nothing read. -/
def empty : Partial := ⟨none, none, false, []⟩

/-- Take a file. -/
def addFile (p : Partial) (file : String) : Partial := { p with files := file :: p.files }

/-- Take the destination, once. -/
def setDestination? (p : Partial) (value : String) : Option Partial :=
  if p.destination.isSome then none else some { p with destination := some value }

/-- Take the encoding, once. -/
def setEncoding? (p : Partial) (value : String) : Option Partial :=
  if p.encoding.isSome then none
  else (Encoding.ofName? value).map fun e => { p with encoding := some e }

/-- Ask for line numbers, once. -/
def setAutoLines? (p : Partial) : Option Partial :=
  if p.autoLines then none else some { p with autoLines := true }

/-- The options, with what was not given filled in. There has to be a
file. -/
def close? (p : Partial) : Option Options :=
  if p.files.isEmpty then none
  else some ⟨p.destination.getD ".", p.encoding.getD .utf8, p.autoLines, p.files.reverse⟩

end Partial

/-- An option whose value is still to come. -/
abbrev Awaiting := String → Option Partial

/-- The value attached to a letter: an equals sign in front of it does not
count. -/
def attached : List Char → String
  | '=' :: value => String.ofList value
  | value => String.ofList value

/-- **Read the letters behind a dash**, up to the first one that takes a
value. The result is what was read, or the option that still needs its
value. -/
def readLetters (p : Partial) : List Char → Option (Partial ⊕ Awaiting)
  | [] => some (.inl p)
  | 'g' :: rest => p.setAutoLines?.bind fun p => readLetters p rest
  | ['d'] => some (.inr p.setDestination?)
  | 'd' :: value => (p.setDestination? (attached value)).map .inl
  | ['e'] => some (.inr p.setEncoding?)
  | 'e' :: value => (p.setEncoding? (attached value)).map .inl
  | _ => none

/-- **Read the name behind two dashes**, perhaps with its value. -/
def readName (p : Partial) (text : List Char) : Option (Partial ⊕ Awaiting) :=
  let option : Option Awaiting :=
    match String.ofList (text.takeWhile (· != '=')) with
    | "dest" => some p.setDestination?
    | "encoding" => some p.setEncoding?
    | _ => none
  match option, text.dropWhile (· != '=') with
  | none, _ => none
  | some option, [] => some (.inr option)
  | some option, _ :: value => (option (String.ofList value)).map .inl

/-- Whether an argument looks like an option. A dash alone does not. -/
def looksLikeOption : List Char → Bool
  | '-' :: _ :: _ => true
  | _ => false

/-- **Read the arguments.** `awaiting` is the option that takes the next
argument for its value. -/
def readArguments : List String → Partial → Option Awaiting → Option Partial
  | [], p, none => some p
  | [], _, some _ => none
  | argument :: rest, _, some option =>
    if looksLikeOption argument.toList then none
    else (option argument).bind fun p => readArguments rest p none
  | argument :: rest, p, none =>
    match argument.toList with
    | ['-', '-'] => some (rest.foldl Partial.addFile p)
    | '-' :: '-' :: name =>
      match readName p name with
      | none => none
      | some (.inl p) => readArguments rest p none
      | some (.inr option) => readArguments rest p (some option)
    | '-' :: c :: letters =>
      match readLetters p (c :: letters) with
      | none => none
      | some (.inl p) => readArguments rest p none
      | some (.inr option) => readArguments rest p (some option)
    | _ => readArguments rest (p.addFile argument) none

/-- **Read a command line**, if it makes sense. -/
def Options.read? (arguments : List String) : Option Options :=
  (readArguments arguments .empty none).bind Partial.close?

end BytecodeAssembler.CommandLine
