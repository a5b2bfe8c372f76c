import BytecodeAssembler.Descriptor.Reader
import BytecodeAssembler.Proofs.Outcome
import Mathlib.Computability.Language
import Mathlib.Data.List.TakeWhile
import Mathlib.Data.Set.List

/-!
# The grammar of descriptors

The texts that can be read as a descriptor form a language, given here by its
grammar: a field type is a primitive letter, or a class name between `L` and
`;`, after at most 255 brackets, and a method descriptor is any number of field
types in parentheses, followed by `V` or by one more.

A **spelling** is a derivation of this grammar. It has a text, and a type that
it stands for. Parameters follow one another without a separator, so a reader
has to find by itself where a type ends. It can, since no spelling is the
beginning of another one: a reader succeeds exactly if a spelling stands at the
front of the text, and takes this spelling whatever comes next.
-/

namespace BytecodeAssembler

/-! ## Spellings -/

/-- **A type that is no array type, as it is spelled.** -/
inductive ElementSpelling where
  /-- The letter of a primitive type. -/
  | base (type : BaseType)
  /-- The name of a class, which goes between `L` and `;`. -/
  | named (name : List Char) (ne_nil : name ≠ []) (no_semicolon : ';' ∉ name)

namespace ElementSpelling

/-- The text of a spelling. -/
def text : ElementSpelling → List Char
  | .base type => [type.letter]
  | .named name _ _ => 'L' :: (name ++ [';'])

/-- The type that is spelled. -/
def type : ElementSpelling → FieldType
  | .base type => .base type
  | .named name _ _ => .ref (String.ofList name)

end ElementSpelling

/-- **A field type as it is spelled.** -/
structure TypeSpelling where
  /-- The number of brackets in front. -/
  dimensions : Nat
  /-- What comes after the brackets. -/
  element : ElementSpelling
  /-- There are not too many brackets. -/
  dimensions_le : dimensions ≤ 255

namespace TypeSpelling

/-- The text of a spelling. -/
def text (x : TypeSpelling) : List Char := List.replicate x.dimensions '[' ++ x.element.text

/-- **The type that is spelled.** An array type is kept as a descriptor, in
which the type of the elements is rendered again. -/
def type (x : TypeSpelling) : FieldType :=
  if x.dimensions = 0 then x.element.type
  else .ref (String.ofList (List.replicate x.dimensions '[' ++ x.element.type.chars))

end TypeSpelling

/-- **A method descriptor as it is spelled.** -/
structure MethodSpelling where
  /-- The types of the parameters, in order. -/
  parameters : List TypeSpelling
  /-- The type of the result; none for `void`. -/
  result : Option TypeSpelling

namespace MethodSpelling

/-- The text of a spelling. -/
def text (x : MethodSpelling) : List Char :=
  '(' :: (x.parameters.flatMap TypeSpelling.text
    ++ ')' :: x.result.elim ['V'] TypeSpelling.text)

/-- The descriptor that is spelled. -/
def descriptor (x : MethodSpelling) : MethodDescriptor :=
  ⟨x.parameters.map TypeSpelling.type, x.result.map TypeSpelling.type⟩

end MethodSpelling

/-! ## Runs of characters -/

/-- A text begins with a run of characters that satisfy `p`, up to one that does
not. -/
theorem exists_run (p : Char → Bool) (text : List Char) :
    ∃ run rest, text = run ++ rest ∧ (∀ c ∈ run, p c) ∧ ∀ c ∈ rest.head?, ¬p c := by
  refine ⟨text.takeWhile p, text.dropWhile p, List.takeWhile_append_dropWhile.symm,
    fun c hc => List.mem_takeWhile_imp hc, fun c hc => ?_⟩
  have hstop := List.head?_dropWhile_not p text
  rw [hc] at hstop
  exact Bool.not_eq_true _ ▸ hstop

/-- There is only one such run. -/
theorem run_append {p : Char → Bool} {run rest : List Char} (hrun : ∀ c ∈ run, p c)
    (hrest : ∀ c ∈ rest.head?, ¬p c) :
    (run ++ rest).takeWhile p = run ∧ (run ++ rest).dropWhile p = rest := by
  rw [List.takeWhile_append_of_pos hrun, List.dropWhile_append_of_pos hrun]
  cases rest with
  | nil => exact ⟨List.append_nil run, rfl⟩
  | cons c rest =>
    have hc : ¬p c := hrest c rfl
    rw [List.takeWhile_cons_of_neg hc, List.dropWhile_cons_of_neg hc, List.append_nil]
    exact ⟨rfl, rfl⟩

/-! ## Reading takes a spelling -/

/-- A spelling begins with `L` or with the letter of a primitive type. -/
theorem ElementSpelling.exists_text_eq_cons (x : ElementSpelling) :
    ∃ c rest, x.text = c :: rest ∧ c ≠ '[' ∧ c ≠ ')' ∧ c ≠ 'V' := by
  cases x with
  | base type => exact ⟨type.letter, [], rfl, by cases type <;> decide⟩
  | named name _ _ => exact ⟨'L', name ++ [';'], rfl, by decide⟩

/-- A letter stands for a primitive type exactly if it is the letter of the
type. -/
theorem BaseType.ofLetter?_eq_some_iff {c : Char} {type : BaseType} :
    ofLetter? c = some type ↔ c = type.letter := by
  refine ⟨fun h => ?_, fun h => h ▸ ofLetter?_letter type⟩
  unfold ofLetter? at h
  split at h <;> cases h <;> rfl

namespace FieldType

variable {text rest : List Char} {t : FieldType}

/-- **A class name is what stands before the first semicolon.** -/
theorem readClassName_eq_ok_iff :
    readClassName text = .ok (t, rest) ↔ ∃ name, name ≠ [] ∧ ';' ∉ name
      ∧ text = name ++ ';' :: rest ∧ t = .ref (String.ofList name) := by
  have hfree {name : List Char} : (∀ c ∈ name, c != ';') ↔ ';' ∉ name := by
    simp only [bne_iff_ne]
    exact ⟨fun h hmem => h _ hmem rfl, fun h c hc heq => h (heq ▸ hc)⟩
  constructor
  · intro h
    -- what is taken stops at the first semicolon, if there is one
    obtain ⟨name, tail, rfl, hname, htail⟩ := exists_run (· != ';') text
    unfold readClassName at h
    rw [(run_append hname htail).1, (run_append hname htail).2] at h
    cases tail with
    | nil => cases h
    | cons c tail =>
      obtain rfl : c = ';' := not_not.1 fun hc => htail c rfl (bne_iff_ne.2 hc)
      cases name with
      | nil => cases h
      | cons a name =>
        cases h
        exact ⟨a :: name, List.cons_ne_nil _ _, hfree.1 hname, rfl, rfl⟩
  · rintro ⟨name, hne, hname, rfl, rfl⟩
    have hstop : ∀ c ∈ (';' :: rest).head?, ¬(c != ';') = true := by
      rintro c ⟨⟩
      decide
    unfold readClassName
    rw [(run_append (hfree.2 hname) hstop).1, (run_append (hfree.2 hname) hstop).2]
    exact if_neg fun h => hne (List.isEmpty_iff.1 h)

/-- **A type that is no array type is read as it is spelled.** -/
theorem readElement_eq_ok_iff :
    readElement text = .ok (t, rest)
      ↔ ∃ x : ElementSpelling, text = x.text ++ rest ∧ t = x.type := by
  constructor
  · intro h
    unfold readElement at h
    split at h
    next => cases h
    next =>
      obtain ⟨name, hne, hfree, rfl, rfl⟩ := readClassName_eq_ok_iff.1 h
      refine ⟨.named name hne hfree, ?_, rfl⟩
      rw [ElementSpelling.text, List.cons_append, List.append_assoc]
      rfl
    next c tail _ =>
      split at h
      next type htype =>
        cases h
        exact ⟨.base type, congrArg (· :: rest) (BaseType.ofLetter?_eq_some_iff.1 htype), rfl⟩
      next => cases h
  · rintro ⟨x, rfl, rfl⟩
    cases x with
    | base type => cases type <;> rfl
    | named name hne hfree =>
      exact readClassName_eq_ok_iff.2 ⟨name, hne, hfree, List.append_assoc name [';'] rest, rfl⟩

/-- The brackets in front of a type are counted before the type is read. -/
theorem readFrom_replicate_append (n : Nat) {tail : List Char}
    (htail : ∀ c ∈ tail.head?, ¬(c == '[')) :
    readFrom (List.replicate n '[' ++ tail) = if n = 0 then readElement tail
      else if 255 < n then .error (.tooManyDimensions n)
      else (readElement tail).map fun read =>
        (.ref (String.ofList (List.replicate n '[' ++ read.1.chars)), read.2) := by
  have hrun : ∀ c ∈ List.replicate n '[', c == '[' := fun c hc =>
    beq_iff_eq.2 (List.eq_of_mem_replicate hc)
  unfold readFrom
  rw [(run_append hrun htail).1, (run_append hrun htail).2]
  cases n with
  | zero => rfl
  | succ n =>
    show (if 255 < (List.replicate (n + 1) '[').length then _ else _) = if 255 < n + 1 then _ else _
    rw [List.length_replicate]
    cases readElement tail <;> rfl

/-- **A field type is read as it is spelled.** -/
theorem readFrom_eq_ok_iff :
    readFrom text = .ok (t, rest) ↔ ∃ x : TypeSpelling, text = x.text ++ rest ∧ t = x.type := by
  constructor
  · intro h
    obtain ⟨run, tail, rfl, hrun, htail⟩ := exists_run (· == '[') text
    obtain ⟨n, rfl⟩ : ∃ n, run = List.replicate n '[' :=
      ⟨run.length, List.eq_replicate_iff.2 ⟨rfl, fun c hc => beq_iff_eq.1 (hrun c hc)⟩⟩
    rw [readFrom_replicate_append n htail] at h
    split at h
    next hzero =>
      obtain ⟨x, rfl, rfl⟩ := readElement_eq_ok_iff.1 h
      refine ⟨⟨n, x, by omega⟩, (List.append_assoc _ _ _).symm, ?_⟩
      rw [TypeSpelling.type, if_pos hzero]
    next hpos =>
      split at h
      next => cases h
      next hfew =>
        obtain ⟨⟨element, rest'⟩, helement, h⟩ := map_eq_ok_iff.1 h
        cases h
        obtain ⟨x, rfl, rfl⟩ := readElement_eq_ok_iff.1 helement
        refine ⟨⟨n, x, by omega⟩, (List.append_assoc _ _ _).symm, ?_⟩
        rw [TypeSpelling.type, if_neg hpos]
  · rintro ⟨⟨n, x, hle⟩, rfl, rfl⟩
    -- an element does not begin with a bracket, so the brackets in front end there
    have hstop : ∀ c ∈ (x.text ++ rest).head?, ¬(c == '[') = true := by
      obtain ⟨c, tail, htext, hc, -⟩ := x.exists_text_eq_cons
      rw [htext]
      rintro _ ⟨⟩
      exact fun heq => hc (beq_iff_eq.1 heq)
    have helement : readElement (x.text ++ rest) = .ok (x.type, rest) :=
      readElement_eq_ok_iff.2 ⟨x, rfl, rfl⟩
    rw [TypeSpelling.text, List.append_assoc, readFrom_replicate_append n hstop, helement,
      TypeSpelling.type]
    split
    next => rfl
    next => exact if_neg (by omega)

end FieldType

/-- What is left over of a whole descriptor is nothing. -/
theorem readWhole_eq_ok_iff {α : Type} {read : List Char → Except Fault (α × List Char)}
    {text : String} {value : α} :
    readWhole read text = .ok value ↔ read text.toList = .ok (value, []) := by
  unfold readWhole
  split
  next hread => rw [hread]; simp
  next hread => rw [hread]; simp
  next hread => rw [hread]; simp

/-- A spelling begins with a character that is neither a closing parenthesis nor
`V`. -/
theorem TypeSpelling.exists_text_eq_cons (x : TypeSpelling) :
    ∃ c rest, x.text = c :: rest ∧ c ≠ ')' ∧ c ≠ 'V' := by
  obtain ⟨n, element, hle⟩ := x
  cases n with
  | zero =>
    obtain ⟨c, rest, htext, -, hc⟩ := element.exists_text_eq_cons
    exact ⟨c, rest, htext, hc⟩
  | succ n => exact ⟨'[', _, rfl, by decide⟩

namespace MethodDescriptor

variable {text rest : List Char}

/-- A parameter is read off the front, where no parenthesis closes them. -/
theorem readParameters_of_readFrom {type : FieldType}
    (hread : FieldType.readFrom text = .ok (type, rest)) (hopen : text.head? ≠ some ')')
    (rev : List FieldType) : readParameters text rev = readParameters rest (type :: rev) := by
  rw [readParameters]
  · split
    next hfault =>
      rw [hread] at hfault
      cases hfault
    next hread' =>
      rw [hread] at hread'
      cases hread'
      rfl
  · rintro rfl
    cases hread
  · rintro tail rfl
    exact hopen rfl

/-- **Parameters are read one after the other** up to the parenthesis that
closes them. -/
theorem readParameters_eq_ok_iff {rev types : List FieldType} :
    readParameters text rev = .ok (types, rest) ↔ ∃ xs : List TypeSpelling,
      text = xs.flatMap TypeSpelling.text ++ ')' :: rest
        ∧ types = rev.reverse ++ xs.map TypeSpelling.type := by
  constructor
  · -- each call takes one spelling, and the calls after it take the others
    intro h
    fun_induction readParameters text rev with
    | case1 => cases h
    | case2 rest rev =>
      cases h
      exact ⟨[], rfl, (List.append_nil _).symm⟩
    | case3 => cases h
    | case4 text rev _ _ type tail hread _ ih =>
      obtain ⟨xs, rfl, rfl⟩ := ih h
      obtain ⟨x, rfl, rfl⟩ := FieldType.readFrom_eq_ok_iff.1 hread
      refine ⟨x :: xs, ?_, ?_⟩
      · rw [List.flatMap_cons, List.append_assoc]
      · rw [List.reverse_cons, List.append_assoc]
        rfl
  · rintro ⟨xs, rfl, rfl⟩
    induction xs generalizing rev with
    | nil =>
      rw [List.flatMap_nil, List.nil_append, readParameters, List.map_nil, List.append_nil]
    | cons x xs ih =>
      have hread : FieldType.readFrom ((x :: xs).flatMap TypeSpelling.text ++ ')' :: rest)
          = .ok (x.type, xs.flatMap TypeSpelling.text ++ ')' :: rest) :=
        FieldType.readFrom_eq_ok_iff.2 ⟨x, by rw [List.flatMap_cons, List.append_assoc], rfl⟩
      have hopen : ((x :: xs).flatMap TypeSpelling.text ++ ')' :: rest).head? ≠ some ')' := by
        obtain ⟨c, tail, htext, hc, -⟩ := x.exists_text_eq_cons
        rw [List.flatMap_cons, htext]
        exact fun heq => hc (Option.some.inj heq)
      rw [readParameters_of_readFrom hread hopen, ih, List.reverse_cons, List.append_assoc]
      rfl

/-- **The type of a result is read as it is spelled.** -/
theorem readResult_eq_ok_iff {result : Option FieldType} :
    readResult text = .ok (result, rest) ↔ ∃ x : Option TypeSpelling,
      text = x.elim ['V'] TypeSpelling.text ++ rest ∧ result = x.map TypeSpelling.type := by
  constructor
  · intro h
    unfold readResult at h
    split at h
    next =>
      cases h
      exact ⟨none, rfl, rfl⟩
    next =>
      split at h
      next => cases h
      next hread =>
        cases h
        obtain ⟨x, rfl, rfl⟩ := FieldType.readFrom_eq_ok_iff.1 hread
        exact ⟨some x, rfl, rfl⟩
  · rintro ⟨x, rfl, rfl⟩
    cases x with
    | none => rfl
    | some x =>
      have hread : FieldType.readFrom (x.text ++ rest) = .ok (x.type, rest) :=
        FieldType.readFrom_eq_ok_iff.2 ⟨x, rfl, rfl⟩
      -- no type is spelled with the letter of the missing result, so the two are told apart
      obtain ⟨c, tail, htext, -, hc⟩ := x.exists_text_eq_cons
      show readResult (x.text ++ rest) = _
      rw [htext, List.cons_append] at hread ⊢
      unfold readResult
      split
      next heq => exact absurd (List.cons.inj heq).1 hc
      next => rw [hread]; rfl

/-- **A method descriptor is read as it is spelled.** -/
theorem readFrom_eq_ok_iff {d : MethodDescriptor} :
    readFrom text = .ok (d, rest)
      ↔ ∃ x : MethodSpelling, text = x.text ++ rest ∧ d = x.descriptor := by
  constructor
  · intro h
    unfold readFrom at h
    split at h
    next =>
      obtain ⟨⟨parameters, tail⟩, hparameters, h⟩ := bind_eq_ok_iff.1 h
      obtain ⟨⟨result, rest'⟩, hresult, h⟩ := bind_eq_ok_iff.1 h
      cases h
      obtain ⟨xs, rfl, rfl⟩ := readParameters_eq_ok_iff.1 hparameters
      obtain ⟨x, rfl, rfl⟩ := readResult_eq_ok_iff.1 hresult
      refine ⟨⟨xs, x⟩, ?_, rfl⟩
      rw [MethodSpelling.text, List.cons_append, List.append_assoc]
      rfl
    next => cases h
  · rintro ⟨⟨xs, x⟩, rfl, rfl⟩
    rw [MethodSpelling.text, List.cons_append, List.append_assoc]
    refine bind_eq_ok_iff.2 ⟨(xs.map TypeSpelling.type, _),
      readParameters_eq_ok_iff.2 ⟨xs, rfl, rfl⟩, ?_⟩
    exact bind_eq_ok_iff.2 ⟨(x.map TypeSpelling.type, rest),
      readResult_eq_ok_iff.2 ⟨x, rfl, rfl⟩, rfl⟩

/-- **A text is read as a method descriptor exactly if it is a spelling**, and
then as the descriptor that is spelled. -/
theorem read_eq_ok_iff {text : String} {d : MethodDescriptor} :
    read text = .ok d ↔ ∃ x : MethodSpelling, text.toList = x.text ∧ d = x.descriptor := by
  unfold read
  rw [readWhole_eq_ok_iff, readFrom_eq_ok_iff]
  simp only [List.append_nil]

end MethodDescriptor

/-- **A text is read as a field type exactly if it is a spelling**, and then as
the type that is spelled. -/
theorem FieldType.read_eq_ok_iff {text : String} {t : FieldType} :
    read text = .ok t ↔ ∃ x : TypeSpelling, text.toList = x.text ∧ t = x.type := by
  unfold read
  rw [readWhole_eq_ok_iff, readFrom_eq_ok_iff]
  simp only [List.append_nil]

/-! ## The language of descriptors -/

open scoped Computability

/-- The letters of the primitive types. -/
def baseTexts : Language Char :=
  {text | ∃ c ∈ ['B', 'C', 'D', 'F', 'I', 'J', 'S', 'Z'], text = [c]}

/-- The names that a class can have in a descriptor. -/
def nameTexts : Language Char := {name | name ≠ [] ∧ ';' ∉ name}

/-- The brackets of array types. -/
def bracketTexts : Language Char := {text | ∃ n, 1 ≤ n ∧ n ≤ 255 ∧ text = List.replicate n '['}

/-- The descriptors of types that are no array types. -/
def elementTexts : Language Char := baseTexts + {['L']} * nameTexts * {[';']}

/-- **The descriptors of fields.** -/
def fieldTexts : Language Char := elementTexts + bracketTexts * elementTexts

/-- **The descriptors of methods.** -/
def methodTexts : Language Char :=
  {['(']} * fieldTexts∗ * {[')']} * ({['V']} + fieldTexts)

theorem mem_baseTexts_iff {text : List Char} :
    text ∈ baseTexts ↔ ∃ type : BaseType, text = [type.letter] := by
  constructor
  · rintro ⟨c, hc, rfl⟩
    have hall : ['B', 'C', 'D', 'F', 'I', 'J', 'S', 'Z'].all (BaseType.ofLetter? · |>.isSome) := rfl
    obtain ⟨type, htype⟩ := Option.isSome_iff_exists.1 (List.all_eq_true.1 hall c hc)
    exact ⟨type, congrArg ([·]) (BaseType.ofLetter?_eq_some_iff.1 htype)⟩
  · rintro ⟨type, rfl⟩
    exact ⟨type.letter, by cases type <;> decide, rfl⟩

theorem mem_elementTexts_iff {text : List Char} :
    text ∈ elementTexts ↔ ∃ x : ElementSpelling, text = x.text := by
  unfold elementTexts
  rw [Language.mem_add, mem_baseTexts_iff]
  constructor
  · rintro (⟨type, rfl⟩ | h)
    · exact ⟨.base type, rfl⟩
    · obtain ⟨-, ⟨-, rfl, name, ⟨hne, hfree⟩, rfl⟩, -, rfl, rfl⟩ := h
      exact ⟨.named name hne hfree, rfl⟩
  · rintro ⟨x, rfl⟩
    cases x with
    | base type => exact .inl ⟨type, rfl⟩
    | named name hne hfree =>
      exact .inr ⟨_, ⟨_, rfl, name, ⟨hne, hfree⟩, rfl⟩, _, rfl, rfl⟩

/-- **The descriptors of fields are the texts of spellings.** -/
theorem mem_fieldTexts_iff {text : List Char} :
    text ∈ fieldTexts ↔ ∃ x : TypeSpelling, text = x.text := by
  unfold fieldTexts
  rw [Language.mem_add, Language.mem_mul]
  simp only [mem_elementTexts_iff]
  constructor
  · rintro (⟨x, rfl⟩ | ⟨-, ⟨n, -, hle, rfl⟩, -, ⟨x, rfl⟩, rfl⟩)
    · exact ⟨⟨0, x, by omega⟩, rfl⟩
    · exact ⟨⟨n, x, hle⟩, rfl⟩
  · rintro ⟨⟨n, x, hle⟩, rfl⟩
    cases n with
    | zero => exact .inl ⟨x, rfl⟩
    | succ n => exact .inr ⟨_, ⟨n + 1, by omega, hle, rfl⟩, _, ⟨x, rfl⟩, rfl⟩

/-- Any number of descriptors of fields are spelled one after the other. -/
theorem mem_kstar_fieldTexts_iff {text : List Char} :
    text ∈ fieldTexts∗ ↔ ∃ xs : List TypeSpelling, text = xs.flatMap TypeSpelling.text := by
  rw [Language.mem_kstar]
  constructor
  · rintro ⟨texts, rfl, htexts⟩
    have hrange : texts ∈ Set.range (List.map TypeSpelling.text) := by
      rw [Set.range_list_map]
      exact fun text htext => (mem_fieldTexts_iff.1 (htexts text htext)).imp fun _ => Eq.symm
    obtain ⟨xs, rfl⟩ := hrange
    exact ⟨xs, rfl⟩
  · rintro ⟨xs, rfl⟩
    refine ⟨xs.map TypeSpelling.text, rfl, fun text htext => ?_⟩
    obtain ⟨x, -, rfl⟩ := List.mem_map.1 htext
    exact mem_fieldTexts_iff.2 ⟨x, rfl⟩

/-- **The descriptors of methods are the texts of spellings.** -/
theorem mem_methodTexts_iff {text : List Char} :
    text ∈ methodTexts ↔ ∃ x : MethodSpelling, text = x.text := by
  unfold methodTexts
  constructor
  · rintro ⟨-, ⟨-, ⟨-, rfl, parameters, hparameters, rfl⟩, -, rfl, rfl⟩, result, hresult, rfl⟩
    obtain ⟨xs, rfl⟩ := mem_kstar_fieldTexts_iff.1 hparameters
    rcases hresult with rfl | hresult
    · exact ⟨⟨xs, none⟩, by simp [MethodSpelling.text]⟩
    · obtain ⟨x, rfl⟩ := mem_fieldTexts_iff.1 hresult
      exact ⟨⟨xs, some x⟩, by simp [MethodSpelling.text]⟩
  · rintro ⟨⟨xs, x⟩, rfl⟩
    refine ⟨_, ⟨_, ⟨_, rfl, _, mem_kstar_fieldTexts_iff.2 ⟨xs, rfl⟩, rfl⟩, _, rfl, rfl⟩,
      x.elim ['V'] TypeSpelling.text, ?_, by simp [MethodSpelling.text]⟩
    cases x with
    | none => exact .inl rfl
    | some x => exact .inr (mem_fieldTexts_iff.2 ⟨x, rfl⟩)

/-- **The readers accept exactly their grammar.** A text is read as a field type
exactly if it is a primitive letter, or a class name that is not empty and
without a semicolon between `L` and `;`, or one to 255 brackets followed by one
of these. It is read as a method descriptor exactly if it is an opening
parenthesis, any number of field types, a closing parenthesis, and `V` or one
more field type. -/
theorem read_accepts_grammar (text : String) :
    ((∃ t, FieldType.read text = .ok t) ↔ text.toList ∈ fieldTexts)
      ∧ ((∃ d, MethodDescriptor.read text = .ok d) ↔ text.toList ∈ methodTexts) := by
  rw [mem_fieldTexts_iff, mem_methodTexts_iff]
  constructor
  · constructor
    · rintro ⟨t, ht⟩
      obtain ⟨x, htext, -⟩ := FieldType.read_eq_ok_iff.1 ht
      exact ⟨x, htext⟩
    · rintro ⟨x, htext⟩
      exact ⟨x.type, FieldType.read_eq_ok_iff.2 ⟨x, htext, rfl⟩⟩
  · constructor
    · rintro ⟨d, hd⟩
      obtain ⟨x, htext, -⟩ := MethodDescriptor.read_eq_ok_iff.1 hd
      exact ⟨x, htext⟩
    · rintro ⟨x, htext⟩
      exact ⟨x.descriptor, MethodDescriptor.read_eq_ok_iff.2 ⟨x, htext, rfl⟩⟩

end BytecodeAssembler
