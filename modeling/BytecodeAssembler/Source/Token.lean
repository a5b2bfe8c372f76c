import BytecodeAssembler.Fault.Basic
import BytecodeAssembler.Text.Blank

/-!
# Tokens of a line

A line is a sequence of words and quoted strings. Blanks separate words, a
string stands between double quotes and can follow anything but the inside
of a word, and a semicolon where a token could begin starts a comment. So a
descriptor that ends in a semicolon is one word.

The scan reads one character at a time and keeps what it is inside of.
-/

namespace BytecodeAssembler.Source

/-- **A token.** -/
inductive Token where
  /-- A run of characters that are not blank. -/
  | word (text : String)
  /-- A quoted string, without the quotes and with its escapes replaced. -/
  | quoted (text : String)
  deriving DecidableEq, Repr

namespace Token

/-- The text of a token of either sort. -/
def text : Token → String
  | .word text | .quoted text => text

/-- **The text of a word**; a quoted string is at fault. -/
def asWord : Token → Except Fault String
  | .word text => .ok text
  | .quoted text => .error (.unexpectedString text)

end Token

/-- What the scan of a line is inside of. Characters are held last one
first. -/
inductive Scan where
  /-- Between tokens. -/
  | between
  /-- In a word. -/
  | word (rev : List Char)
  /-- In a quoted string. -/
  | quoted (rev : List Char)
  /-- In a quoted string, behind a backslash. -/
  | escape (rev : List Char)
  deriving DecidableEq, Repr

/-- The character that an escape stands for. -/
def escaped? : Char → Option Char
  | '"' => some '"'
  | '\\' => some '\\'
  | 'n' => some '\n'
  | 't' => some '\t'
  | _ => none

/-- Scan the rest of a line. `done` holds the tokens before it, last one
first. -/
def scan : List Char → Scan → List Token → Except Fault (List Token)
  | [], .between, done => .ok done.reverse
  | [], .word rev, done => .ok (Token.word (String.ofList rev.reverse) :: done).reverse
  | [], .quoted _, _ => .error .unterminatedString
  | [], .escape _, _ => .error .unterminatedString
  | c :: rest, .between, done =>
    if Text.isBlank c then scan rest .between done
    else if c = ';' then .ok done.reverse
    else if c = '"' then scan rest (.quoted []) done
    else scan rest (.word [c]) done
  | c :: rest, .word rev, done =>
    if Text.isBlank c then
      scan rest .between (Token.word (String.ofList rev.reverse) :: done)
    else scan rest (.word (c :: rev)) done
  | c :: rest, .quoted rev, done =>
    if c = '"' then
      scan rest .between (Token.quoted (String.ofList rev.reverse) :: done)
    else if c = '\\' then scan rest (.escape rev) done
    else scan rest (.quoted (c :: rev)) done
  | c :: rest, .escape rev, done =>
    match escaped? c with
    | some e => scan rest (.quoted (e :: rev)) done
    | none => .error (.unknownEscape c)

/-- **The tokens of a line.** -/
def tokens (line : List Char) : Except Fault (List Token) := scan line .between []

end BytecodeAssembler.Source
