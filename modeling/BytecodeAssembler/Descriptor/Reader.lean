import BytecodeAssembler.Fault.Basic

/-!
# Descriptors from text

A reader takes the type at the front of a text and returns what is left of
it. A field type is a run of at most 255 brackets in front of a primitive
letter or of a class name between `L` and `;`, and the number of brackets
is judged before what follows them. A whole descriptor leaves nothing
over.
-/

namespace BytecodeAssembler

/-- Read a whole descriptor: what the reader leaves over is a fault. -/
def readWhole {α : Type} (read : List Char → Except Fault (α × List Char))
    (text : String) : Except Fault α :=
  match read text.toList with
  | .error fault => .error fault
  | .ok (value, []) => .ok value
  | .ok (_, c :: _) => .error (.descriptorLeftover c text)

namespace BaseType

/-- Read a primitive type. -/
def readFrom : List Char → Except Fault (BaseType × List Char)
  | [] => .error .missingBaseType
  | c :: rest =>
    match ofLetter? c with
    | some type => .ok (type, rest)
    | none => .error (.badBaseType c)

/-- **The primitive type that a text spells.** -/
def read (text : String) : Except Fault BaseType := readWhole readFrom text

end BaseType

namespace FieldType

/-- Read a class name, up to the semicolon that ends it. -/
def readClassName (text : List Char) : Except Fault (FieldType × List Char) :=
  let name := text.takeWhile (· != ';')
  match text.dropWhile (· != ';') with
  | [] => .error (.openClassName (String.ofList name))
  | _ :: rest =>
    if name.isEmpty then .error .emptyClassName
    else .ok (.ref (String.ofList name), rest)

/-- Read a type that is no array type. -/
def readElement : List Char → Except Fault (FieldType × List Char)
  | [] => .error .missingFieldType
  | 'L' :: rest => readClassName rest
  | c :: rest =>
    match BaseType.ofLetter? c with
    | some type => .ok (.base type, rest)
    | none => .error (.badFieldType c)

/-- **Read a field type.** The brackets of an array type are counted first;
the reference it becomes is its own descriptor. -/
def readFrom (text : List Char) : Except Fault (FieldType × List Char) :=
  let brackets := text.takeWhile (· == '[')
  if brackets.isEmpty then readElement text
  else if 255 < brackets.length then .error (.tooManyDimensions brackets.length)
  else
    match readElement (text.dropWhile (· == '[')) with
    | .error fault => .error fault
    | .ok (element, rest) => .ok (.ref (String.ofList (brackets ++ element.chars)), rest)

/-- **The field type that a text spells.** -/
def read (text : String) : Except Fault FieldType := readWhole readFrom text

/-! ## Reading consumes -/

/-- Dropping a run never makes a text longer. -/
theorem length_dropWhile_le (p : Char → Bool) (text : List Char) :
    (text.dropWhile p).length ≤ text.length := by
  simpa using (List.dropWhile_sublist p).length_le

/-- A class name takes at least its semicolon. -/
theorem length_of_readClassName {text rest : List Char} {t : FieldType}
    (h : readClassName text = .ok (t, rest)) : rest.length < text.length := by
  have hle := length_dropWhile_le (· != ';') text
  simp only [readClassName] at h
  split at h
  · simp at h
  · next heq =>
    split at h
    · simp at h
    · simp only [Except.ok.injEq, Prod.mk.injEq] at h
      rw [heq, h.2, List.length_cons] at hle
      omega

/-- An element type takes at least its first letter. -/
theorem length_of_readElement {text rest : List Char} {t : FieldType}
    (h : readElement text = .ok (t, rest)) : rest.length < text.length := by
  unfold readElement at h
  split at h
  · simp at h
  · have := length_of_readClassName h
    simp only [List.length_cons]
    omega
  · split at h
    · simp only [Except.ok.injEq, Prod.mk.injEq] at h
      simp [h.2]
    · simp at h

/-- **A field type takes at least one character.** -/
theorem length_of_readFrom {text rest : List Char} {t : FieldType}
    (h : readFrom text = .ok (t, rest)) : rest.length < text.length := by
  have hle := length_dropWhile_le (· == '[') text
  simp only [readFrom] at h
  split at h
  · exact length_of_readElement h
  · split at h
    · simp at h
    · split at h
      · simp at h
      · next heq =>
        simp only [Except.ok.injEq, Prod.mk.injEq] at h
        have := length_of_readElement heq
        rw [← h.2]
        omega

end FieldType

namespace MethodDescriptor

/-- Read parameter types up to the closing parenthesis. `rev` holds the
types before, last one first. -/
def readParameters (text : List Char) (rev : List FieldType) :
    Except Fault (List FieldType × List Char) :=
  match text with
  | [] => .error .missingCloseParenthesis
  | ')' :: rest => .ok (rev.reverse, rest)
  | text =>
    match h : FieldType.readFrom text with
    | .error fault => .error fault
    | .ok (type, rest) =>
      have := FieldType.length_of_readFrom h
      readParameters rest (type :: rev)
termination_by text.length

/-- Read the type of a result, where `V` stands for none. -/
def readResult : List Char → Except Fault (Option FieldType × List Char)
  | 'V' :: rest => .ok (none, rest)
  | text =>
    match FieldType.readFrom text with
    | .error fault => .error fault
    | .ok (type, rest) => .ok (some type, rest)

/-- **Read a method descriptor.** -/
def readFrom : List Char → Except Fault (MethodDescriptor × List Char)
  | '(' :: text => do
    let (parameters, rest) ← readParameters text []
    let (result, rest) ← readResult rest
    return (⟨parameters, result⟩, rest)
  | _ => .error .missingOpenParenthesis

/-- **The method descriptor that a text spells.** -/
def read (text : String) : Except Fault MethodDescriptor := readWhole readFrom text

end MethodDescriptor

end BytecodeAssembler
