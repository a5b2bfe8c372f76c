/-!
# Lines of a text

A line ends at a line feed, and a carriage return directly before that
line feed belongs to the line end. A text that ends in a line feed has no
empty line after it, and a carriage return that no line feed follows
stays in its line.
-/

namespace BytecodeAssembler.Text

/-- The line whose characters, last one first, are `rev`, when a line feed
ended it. -/
def closedLine : List Char → List Char
  | '\r' :: rev => rev.reverse
  | rev => rev.reverse

/-- Cut the rest of a text into lines. `rev` holds the characters of the
line begun, last one first, and `done` the lines before it, last one
first. -/
def cutLines : List Char → List Char → List (List Char) → List (List Char)
  | [], [], done => done.reverse
  | [], rev, done => (rev.reverse :: done).reverse
  | '\n' :: rest, rev, done => cutLines rest [] (closedLine rev :: done)
  | c :: rest, rev, done => cutLines rest (c :: rev) done

/-- **The lines of a text**, without their line ends. -/
def lines (text : List Char) : List (List Char) :=
  cutLines text [] []

end BytecodeAssembler.Text
