import BytecodeAssembler.Fault.Basic
import Std.Data.HashMap

/-!
# Label tables

A method body keeps its labels in a table. A label is made when its name is
first mentioned, or on its own without a name; it is **placed** when it is
put into the instruction stream, which happens at most once; and it gets an
**offset** when the body is laid out.
-/

namespace BytecodeAssembler

/-- What a table knows about one label. -/
structure LabelSlot where
  /-- The name in the source, if it has one. -/
  name : Option String
  /-- Whether it stands in the instruction stream. -/
  placed : Bool
  /-- Its offset in the code, once the body is laid out. -/
  offset : Option Nat
  deriving Repr, Inhabited

/-- **The labels of one method body.** -/
structure LabelTable where
  /-- The label of every name mentioned. -/
  names : Std.HashMap String Label
  /-- The slots, in the order in which the labels were made. -/
  slots : Array LabelSlot

namespace LabelTable

/-- No labels. -/
def empty : LabelTable := ⟨∅, #[]⟩

instance : Inhabited LabelTable := ⟨empty⟩

/-- **The label with the given name**, made if this is its first
mention. -/
def mention (t : LabelTable) (name : String) : Label × LabelTable :=
  match t.names[name]? with
  | some label => (label, t)
  | none =>
    let label : Label := ⟨t.slots.size⟩
    (label, ⟨t.names.insert name label, t.slots.push ⟨some name, false, none⟩⟩)

/-- **A new label without a name.** -/
def fresh (t : LabelTable) : Label × LabelTable :=
  (⟨t.slots.size⟩, { t with slots := t.slots.push ⟨none, false, none⟩ })

/-- The labels of several names. `rev` holds the labels before them, last
one first. -/
def mentionEach : List String → List Label → LabelTable → List Label × LabelTable
  | [], rev, t => (rev.reverse, t)
  | name :: rest, rev, t =>
    let (label, t) := t.mention name
    mentionEach rest (label :: rev) t

/-- The labels of several names, mentioned in order. -/
def mentionAll (t : LabelTable) (names : List String) : List Label × LabelTable :=
  mentionEach names [] t

/-- How a label is called: by its name, or by its number if it has none. -/
def nameOf (t : LabelTable) (label : Label) : String :=
  match t.slots[label.index]? with
  | some ⟨some name, _, _⟩ => name
  | _ => label.display

/-- Whether a label stands in the instruction stream. -/
def isPlaced (t : LabelTable) (label : Label) : Bool :=
  match t.slots[label.index]? with
  | some slot => slot.placed
  | none => false

/-- Check that a label has not been placed, since it is placed once. -/
def checkNew (t : LabelTable) (label : Label) : Except Fault Unit :=
  if t.isPlaced label then .error (.duplicateLabel (t.nameOf label)) else .ok ()

/-- Mark a label as placed. -/
def markPlaced (t : LabelTable) (label : Label) : LabelTable :=
  { t with slots := t.slots.modify label.index ({ · with placed := true }) }

/-- **Place a label**, if it has not been placed. -/
def place (t : LabelTable) (label : Label) : Except Fault LabelTable :=
  (t.checkNew label).map fun () => t.markPlaced label

/-- The names of the labels that were made and never placed, in the order
in which they were made. -/
def unplaced (t : LabelTable) : List String :=
  ((List.range t.slots.size).map Label.mk).filterMap fun label =>
    if t.isPlaced label then none else some (t.nameOf label)

/-- Give a label its offset. -/
def setOffset (t : LabelTable) (label : Label) (offset : Nat) : LabelTable :=
  { t with slots := t.slots.modify label.index ({ · with offset := some offset }) }

/-- **The offset of a label.** It has one once the body is laid out with the
label in its stream. -/
def offset (t : LabelTable) (label : Label) : Except Fault Nat :=
  match t.slots[label.index]? with
  | some ⟨_, _, some offset⟩ => .ok offset
  | some ⟨_, true, none⟩ => .error (.offsetBeforeLayout (t.nameOf label))
  | _ => .error (.undefinedLabel (t.nameOf label))

end LabelTable

end BytecodeAssembler
