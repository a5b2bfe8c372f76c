import BytecodeAssembler.Assembler.Directives
import BytecodeAssembler.Proofs.Outcome

/-!
# Constants that fit a field

Which constants a field can have follows from its type, and this is looked at
twice. A literal of the source is turned into a constant for the descriptor of
the field, and the field then checks the constant that it is given. The first
look is at a literal of 64 bits, the second at a constant of 32, and both have a
range to keep for the types that are stored as `int`.

`FieldType.Takes` is the rule itself, with the values of a type taken from the
type and not from a range. A literal only gives constants that the type takes
(`Literal.takes_of_toConstant`), and a field accepts exactly these
(`Field.checkConstant_eq_ok_iff`). So the second look never refuses what the
first one let through.
-/

namespace BytecodeAssembler

open MonadExcept (ofExcept)

/-! ## The rule -/

namespace BaseType

/-- The types that are stored as `int`. -/
def storedAsInt : List BaseType := [.byte, .char, .short, .boolean, .int]

/-- **The integer is a value of a type** that is stored as `int`. -/
def HasValue : BaseType → Int → Prop
  | .byte, value => ∃ n : Int8, n.toInt = value
  | .char, value => ∃ n : UInt16, (n.toNat : Int) = value
  | .short, value => ∃ n : Int16, n.toInt = value
  | .boolean, value => ∃ b : Bool, (b.toNat : Int) = value
  | .int, value => ∃ n : Int32, n.toInt = value
  | .double, _ | .float, _ | .long, _ => False

end BaseType

/-- **The constants that a field of a type can have.** -/
inductive FieldType.Takes : FieldType → Constant → Prop where
  | float (value : Number.Binary32) : Takes (.base .float) (.float value)
  | long (value : Int64) : Takes (.base .long) (.long value)
  | double (value : Number.Binary64) : Takes (.base .double) (.double value)
  | integer {t : BaseType} {n : Int32} (h : t.HasValue n.toInt) : Takes (.base t) (.integer n)
  | string (text : String) : Takes (.ref "java/lang/String") (.string text)

namespace BaseType

variable {t : BaseType} {value low high : Int}

/-- **The range of a type holds its values**, and nothing else. -/
theorem hasValue_iff_of_intRange? (h : t.intRange? = some (low, high)) :
    t.HasValue value ↔ low ≤ value ∧ value ≤ high := by
  cases t <;> cases h
  case byte =>
    refine ⟨?_, fun ⟨hlow, hhigh⟩ => ⟨Int8.ofInt value, Int8.toInt_ofInt_of_le hlow (by omega)⟩⟩
    rintro ⟨n, rfl⟩
    exact ⟨n.le_toInt, Int.le_of_lt_add_one n.toInt_lt⟩
  case char =>
    constructor
    · rintro ⟨n, rfl⟩
      have hlt := n.toNat_lt
      omega
    · rintro ⟨hlow, hhigh⟩
      refine ⟨UInt16.ofNat value.toNat, ?_⟩
      rw [UInt16.toNat_ofNat']
      omega
  case short =>
    refine ⟨?_, fun ⟨hlow, hhigh⟩ => ⟨Int16.ofInt value, Int16.toInt_ofInt_of_le hlow (by omega)⟩⟩
    rintro ⟨n, rfl⟩
    exact ⟨n.le_toInt, Int.le_of_lt_add_one n.toInt_lt⟩
  -- the two values of a truth value are the numbers 0 and 1
  case boolean =>
    constructor
    · rintro ⟨b, rfl⟩
      cases b <;> decide
    · rintro ⟨hlow, hhigh⟩
      obtain rfl | rfl : value = 0 ∨ value = 1 := by omega
      · exact ⟨false, rfl⟩
      · exact ⟨true, rfl⟩
  case int =>
    refine ⟨?_, fun ⟨hlow, hhigh⟩ => ⟨Int32.ofInt value, Int32.toInt_ofInt_of_le hlow (by omega)⟩⟩
    rintro ⟨n, rfl⟩
    exact ⟨n.le_toInt, Int.le_of_lt_add_one n.toInt_lt⟩

/-- A type without a range is not stored as `int`. -/
theorem not_hasValue_of_intRange? (h : t.intRange? = none) : ¬t.HasValue value := by
  cases t <;> cases h <;> exact id

theorem exists_intRange?_of_mem (h : t ∈ storedAsInt) :
    ∃ low high, t.intRange? = some (low, high) := by
  cases t
  case byte | char | short | boolean | int => exact ⟨_, _, rfl⟩
  case double | float | long => exact absurd h (by decide)

/-- **Every value of such a type fits an `int` constant.** -/
theorem HasValue.toInt_ofInt (h : t.HasValue value) : (Int32.ofInt value).toInt = value := by
  cases hrange : t.intRange? with
  | none => exact absurd h (not_hasValue_of_intRange? hrange)
  | some range =>
    obtain ⟨low, high⟩ := range
    obtain ⟨hlow, hhigh⟩ := (hasValue_iff_of_intRange? hrange).1 h
    refine Int32.toInt_ofInt_of_le ?_ ?_ <;> cases t <;> cases hrange <;> omega

end BaseType

namespace FieldType

/-- The type of strings is known by its name. -/
theorem isString_eq_true_iff {type : FieldType} :
    type.isString = true ↔ type = .ref "java/lang/String" := by
  cases type with
  | base t => simp [isString]
  | ref name => simp [isString]

theorem read_render_base (t : BaseType) : read (base t).render = .ok (base t) := by
  cases t <;> rfl

end FieldType

/-! ## What a field accepts -/

namespace Field

variable {f after : Field} {c : Constant} {name descriptor : String} {type : FieldType}

/-- **A field accepts the constants that its type takes**, and no others. -/
theorem checkConstant_eq_ok_iff :
    checkConstant name descriptor type c = .ok () ↔ type.Takes c := by
  constructor
  · intro h
    unfold checkConstant at h
    dsimp only at h
    split at h
    next => exact .float _
    next => exact .long _
    next => exact .double _
    next t value =>
      split at h
      next low high hrange =>
        obtain ⟨hbounds, -⟩ := okIf_eq_ok_iff.1 h
        exact .integer ((BaseType.hasValue_iff_of_intRange? hrange).2 hbounds)
      next => cases h
    next =>
      obtain ⟨hstring, -⟩ := okIf_eq_ok_iff.1 h
      rw [FieldType.isString_eq_true_iff.1 hstring]
      exact .string _
    next => cases h
  · intro h
    cases h with
    | float | long | double | string => rfl
    | @integer t n hvalue =>
      -- a type without a range has no values, so a value that it has lies in a range
      cases hrange : t.intRange? with
      | none => exact absurd hvalue (BaseType.not_hasValue_of_intRange? hrange)
      | some range =>
        have hbounds := (BaseType.hasValue_iff_of_intRange? hrange).1 hvalue
        simp only [checkConstant, hrange, if_pos hbounds]

/-- **When a field takes a constant**: its descriptor can be read, and the type
takes it. Nothing but the value changes. -/
theorem setConstant_eq_ok_iff : f.setConstant c = .ok after
    ↔ (∃ type, FieldType.read f.descriptor = .ok type ∧ type.Takes c)
      ∧ after = { f with constant := some c } := by
  constructor
  · intro h
    obtain ⟨type, hread, h⟩ := bind_eq_ok_iff.1 h
    obtain ⟨⟨⟩, hcheck, h⟩ := bind_eq_ok_iff.1 h
    exact ⟨⟨type, hread, checkConstant_eq_ok_iff.1 hcheck⟩, (Except.ok.inj h).symm⟩
  · rintro ⟨⟨type, hread, htakes⟩, rfl⟩
    exact bind_eq_ok_iff.2 ⟨type, hread,
      bind_eq_ok_iff.2 ⟨(), checkConstant_eq_ok_iff.2 htakes, rfl⟩⟩

/-- **Set the constant value of a field in place**: read the descriptor, check
the constant, and only then change the field. -/
def assign (c : Constant) : EStateM Fault Field Unit := do
  let f ← get
  let type ← ofExcept (FieldType.read f.descriptor)
  ofExcept (checkConstant f.name f.descriptor type c)
  set { f with constant := some c }

/-- **In place or not, the outcome is the same**, and a constant that is refused
leaves the field as it was. -/
theorem assign_cases (f : Field) (c : Constant) :
    (∃ after, f.setConstant c = .ok after ∧ (assign c).run f = .ok () after)
      ∨ ∃ fault, f.setConstant c = .error fault ∧ (assign c).run f = .error fault f := by
  have hrun : (assign c).run f
      = (ofExcept (f.setConstant c) >>= set : EStateM Fault Field Unit).run f := by
    unfold assign setConstant
    rw [EStateM.run_bind, EStateM.run_get]
    dsimp only
    cases FieldType.read f.descriptor with
    | error fault => rfl
    | ok type =>
      show (ofExcept (checkConstant f.name f.descriptor type c) >>= _ : EStateM _ _ _).run f
        = (ofExcept (checkConstant f.name f.descriptor type c >>= _) >>= _ : EStateM _ _ _).run f
      cases checkConstant f.name f.descriptor type c <;> rfl
  rw [hrun]
  cases f.setConstant c with
  | error fault => exact .inr ⟨fault, rfl, rfl⟩
  | ok after => exact .inl ⟨after, rfl, rfl⟩

end Field

/-! ## What a literal gives -/

namespace Literal

variable {literal : Literal} {descriptor : String} {c : Constant} {fault : Fault}

/-- **A literal only gives constants that the type takes.** -/
theorem takes_of_toConstant (h : literal.toConstant descriptor = .ok c) :
    ∃ type, FieldType.read descriptor = .ok type ∧ type.Takes c := by
  obtain ⟨type, hread, h⟩ := bind_eq_ok_iff.1 h
  refine ⟨type, hread, ?_⟩
  dsimp only at h
  split at h
  next => cases h; exact .long _
  next => cases h; exact .float _
  next => cases h; exact .float _
  next => cases h; exact .double _
  next => cases h; exact .double _
  next =>
    split at h
    next low high hrange =>
      obtain ⟨hbounds, rfl⟩ := okIf_eq_ok_iff.1 h
      have hvalue := (BaseType.hasValue_iff_of_intRange? hrange).2 hbounds
      exact .integer (hvalue.toInt_ofInt.symm ▸ hvalue)
    next => cases h
  next =>
    obtain ⟨hstring, rfl⟩ := okIf_eq_ok_iff.1 h
    rw [FieldType.isString_eq_true_iff.1 hstring]
    exact .string _
  next => cases h

/-- A literal gives nothing for a descriptor that cannot be read. -/
theorem toConstant_of_read (h : FieldType.read descriptor = .error fault) :
    literal.toConstant descriptor = .error fault := by
  rw [toConstant, h]
  rfl

/-- **An integer for a type that is stored as `int`** is judged by the range of the
type. -/
theorem toConstant_int {t : BaseType} {low high : Int} (hrange : t.intRange? = some (low, high))
    (value : Int64) :
    (int value).toConstant (FieldType.base t).render
      = if low ≤ value.toInt ∧ value.toInt ≤ high then .ok (.integer (Int32.ofInt value.toInt))
        else .error (.literalRange value.toInt (FieldType.base t).render) := by
  rw [toConstant, FieldType.read_render_base]
  cases t <;> cases hrange <;> rfl

end Literal

/-! ## Both together -/

theorem Field.setConstant_of_toConstant {literal : Literal} {f : Field} {c : Constant}
    (h : literal.toConstant f.descriptor = .ok c) :
    f.setConstant c = .ok { f with constant := some c } :=
  setConstant_eq_ok_iff.2 ⟨Literal.takes_of_toConstant h, rfl⟩

namespace Assembler

/-- **The second check finds nothing**: whether a field gets the value of a
literal is settled when the literal becomes a constant. -/
theorem fieldWithValue_eq (f : Field) (literal : Literal) :
    fieldWithValue f literal
      = (literal.toConstant f.descriptor).map fun c => { f with constant := some c } := by
  unfold fieldWithValue
  cases h : literal.toConstant f.descriptor with
  | error fault => rfl
  | ok c => exact Field.setConstant_of_toConstant h

/-- **A field that is opened with a literal** has the constant that the literal
gives. If it gives none, the field stands without a value. -/
theorem beginField_literal {a : Assembler} (hmethod : a.method = none)
    (flags : AccessFlags .fields) (name descriptor : String) (literal : Literal) :
    (∀ c, literal.toConstant descriptor = .ok c →
        a.beginField flags name descriptor (some literal)
          = { a.endField with
              field := some { Field.declare flags name descriptor with constant := some c } })
      ∧ ∀ fault, literal.toConstant descriptor = .error fault →
        a.beginField flags name descriptor (some literal)
          = { a.endField with
              field := some (Field.declare flags name descriptor) }.report fault := by
  have hvalue : fieldWithValue (Field.declare flags name descriptor) literal
      = (literal.toConstant descriptor).map _ := fieldWithValue_eq _ literal
  unfold beginField
  rw [hmethod, if_neg (by decide)]
  dsimp only
  cases hread : FieldType.read descriptor with
  | error fault =>
    rw [Literal.toConstant_of_read hread]
    refine ⟨fun c h => ?_, fun fault' h => ?_⟩ <;> cases h
    rfl
  | ok type =>
    dsimp only
    rw [hvalue]
    refine ⟨fun c h => ?_, fun fault h => ?_⟩ <;> rw [h] <;> rfl

end Assembler

namespace Field

/-- **The checks of a field with this descriptor agree.** -/
structure ChecksAgree (descriptor : String) : Prop where
  /-- Whatever constant a literal gives, a field accepts it and stores it. -/
  accepted : ∀ (literal : Literal) (c : Constant), literal.toConstant descriptor = .ok c →
    ∀ f : Field, f.descriptor = descriptor → f.setConstant c = .ok { f with constant := some c }
  /-- For a type that is stored as `int`, an integer that is a value of the type
  gives this very integer. -/
  integer : ∀ t ∈ BaseType.storedAsInt, descriptor = (FieldType.base t).render →
    ∀ value : Int64, t.HasValue value.toInt → ∃ n : Int32, n.toInt = value.toInt
      ∧ (Literal.int value).toConstant descriptor = .ok (.integer n)
  /-- Any other integer is out of range. -/
  numeric : ∀ t ∈ BaseType.storedAsInt, descriptor = (FieldType.base t).render →
    ∀ value : Int64, ¬t.HasValue value.toInt → ∃ fault,
      (Literal.int value).toConstant descriptor = .error fault ∧ fault.kind = .numeric
  /-- A constant that is refused leaves the field as it was. -/
  unchanged : ∀ f : Field, f.descriptor = descriptor → ∀ c : Constant,
    (∃ after, f.setConstant c = .ok after ∧ (assign c).run f = .ok () after)
      ∨ ∃ fault, f.setConstant c = .error fault ∧ (assign c).run f = .error fault f
  /-- A field that is opened with a literal has the constant that it gives, or is
  left without a value. -/
  opened : ∀ (a : Assembler) (flags : AccessFlags .fields) (name : String) (literal : Literal),
    a.method = none →
      (∀ c, literal.toConstant descriptor = .ok c →
        a.beginField flags name descriptor (some literal)
          = { a.endField with
              field := some { declare flags name descriptor with constant := some c } })
      ∧ ∀ fault, literal.toConstant descriptor = .error fault →
        a.beginField flags name descriptor (some literal)
          = { a.endField with field := some (declare flags name descriptor) }.report fault

/-- **A literal gives a constant only where the field accepts it.** This holds for
every descriptor. An integer for one of the types stored as `int` is taken exactly
if it is a value of the type, and is not truncated; a constant that is refused
changes nothing. -/
theorem checksAgree (descriptor : String) : ChecksAgree descriptor where
  accepted literal c h f hf := by
    subst hf
    exact setConstant_of_toConstant h
  integer t ht hdescriptor value hvalue := by
    subst hdescriptor
    obtain ⟨low, high, hrange⟩ := BaseType.exists_intRange?_of_mem ht
    refine ⟨_, hvalue.toInt_ofInt, ?_⟩
    rw [Literal.toConstant_int hrange,
      if_pos ((BaseType.hasValue_iff_of_intRange? hrange).1 hvalue)]
  numeric t ht hdescriptor value hvalue := by
    subst hdescriptor
    obtain ⟨low, high, hrange⟩ := BaseType.exists_intRange?_of_mem ht
    refine ⟨.literalRange value.toInt (FieldType.base t).render, ?_, rfl⟩
    rw [Literal.toConstant_int hrange,
      if_neg (mt (BaseType.hasValue_iff_of_intRange? hrange).2 hvalue)]
  unchanged f _ c := assign_cases f c
  opened _ flags name literal hmethod :=
    Assembler.beginField_literal hmethod flags name descriptor literal

/-- The ends of the range of `byte`: the smallest value is stored as it is, and one
more than the largest is refused. -/
theorem checksAgree_byte :
    (∃ n : Int32, n.toInt = -128 ∧ (Literal.int (-128)).toConstant "B" = .ok (.integer n)
        ∧ (declare .empty "f" "B").setConstant (.integer n)
          = .ok { declare .empty "f" "B" with constant := some (.integer n) })
      ∧ ∃ fault, (Literal.int 128).toConstant "B" = .error fault ∧ fault.kind = .numeric := by
  obtain ⟨n, hn, hgives⟩ := (checksAgree "B").integer .byte (by decide) rfl (-128) ⟨-128, rfl⟩
  refine ⟨⟨n, hn, hgives, (checksAgree "B").accepted _ _ hgives _ rfl⟩, ?_⟩
  refine (checksAgree "B").numeric .byte (by decide) rfl 128 ?_
  rintro ⟨m, hm⟩
  exact absurd (hm ▸ m.toInt_lt) (by decide)

end Field

end BytecodeAssembler
