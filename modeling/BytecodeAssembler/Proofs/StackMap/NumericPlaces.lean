import BytecodeAssembler.Assembler.Directives
import BytecodeAssembler.Proofs.Text.Integer

/-!
# Places given by a number

A frame, and the type of an object that is not yet constructed, are given a
place in the code: an offset or a label. The two are told apart by reading the
text as a signed integer of 64 bits. What cannot be read is taken for the name
of a label, and that includes a number that is too large to be read.

So a text of digits is an offset up to 65535 and is refused as out of range above
that, but is a label when it no longer fits 64 bits. Both places are read by
`readPlace`, so they do not differ in this.
-/

namespace BytecodeAssembler

open Text (Numeral IsDigit)

/-- **The names that are numbers** are the texts of digits. -/
theorem Label.isNumeric_iff {name : String} :
    isNumeric name = true ↔ ∃ n, Numeral 10 name.toList n := by
  unfold isNumeric
  rw [Bool.and_eq_true, Bool.not_eq_true', ← Bool.not_eq_true, String.isEmpty_iff,
    ← String.toList_eq_nil_iff]
  constructor
  · rintro ⟨hsome, hall⟩
    exact Text.exists_numeral_of_all hsome hall
  · rintro ⟨n, hn⟩
    refine ⟨hn.ne_nil, List.all_eq_true.2 fun c hc => ?_⟩
    obtain ⟨k, hk⟩ := hn.isDigit hc
    exact hk.isDigit_ten

/-! ## Reading places -/

namespace DeclaredType

variable {labels : LabelTable} {text : String} {n : Nat}

/-- **What a number gives as a place**: an offset, a fault, or a label if it is too
large to be read. -/
theorem readPlace_of_numeral (h : Numeral 10 text.toList n) (labels : LabelTable)
    (outOfRange : Int → Fault) :
    readPlace labels text outOfRange
      = if n ≤ 9223372036854775807 then
          if n ≤ 65535 then (.ok (.offset (UInt16.ofNat n)), labels)
          else (.error (outOfRange n), labels)
        else (.ok (.label (labels.mention text).1), (labels.mention text).2) := by
  have hread : Text.readInt64 10 text.toList = if n ≤ 9223372036854775807 then _ else _ :=
    Text.readInt64_of_numeral (by decide) .none h
  unfold readPlace
  rw [hread]
  by_cases hfits : n ≤ 9223372036854775807
  · have hvalue : (Int64.ofInt n).toInt = n := Int64.toInt_ofInt_of_le (by omega) (by omega)
    rw [if_pos hfits, if_pos hfits]
    simp only [Text.Sign.apply, hvalue, Int.toNat_natCast]
    by_cases hsmall : n ≤ 65535
    · rw [if_pos hsmall, if_pos (by omega)]
    · rw [if_neg hsmall, if_neg (by omega)]
  · rw [if_neg hfits, if_neg hfits]

/-- The type of an object that is not yet constructed has the place that its
argument gives. -/
theorem ofName_uninitialized (labels : LabelTable) (text : String) :
    ofName labels "Uninitialized" (some text)
      = ((readPlace labels text .uninitializedOffset).1.map .uninitialized,
        (readPlace labels text .uninitializedOffset).2) := rfl

end DeclaredType

namespace Assembler

variable {a : Assembler} {m : OpenMethod} {frame : Frame} {copied : Nat} {position : String}

/-- **The open frame gets the place** that the text gives. -/
theorem frameOffset_of_ok (hmethod : a.method = some m) (hframe : m.frame = some (frame, copied))
    {offset : CodeOffset} {labels : LabelTable}
    (h : DeclaredType.readPlace m.body.labels position (.outOfRange "frame offset")
      = (.ok offset, labels)) :
    a.frameOffset position = { a with method := some { m with
      body := { m.body with labels }, frame := some ({ frame with offset }, copied) } } := by
  simp only [frameOffset, inMethod, hmethod, OpenMethod.frameOffset, OpenMethod.inFrame, hframe, h]
  rfl

/-- The open frame keeps its place if the text gives none. -/
theorem frameOffset_of_error (hmethod : a.method = some m)
    (hframe : m.frame = some (frame, copied)) {fault : Fault}
    (h : DeclaredType.readPlace m.body.labels position (.outOfRange "frame offset")
      = (.error fault, m.body.labels)) : a.frameOffset position = a.report fault := by
  obtain ⟨settings, classSoFar, line, diagnostics, form, field, method, trees⟩ := a
  obtain ⟨declared, body, pending, opened, start, finish, lastLine⟩ := m
  cases hmethod
  cases hframe
  simp only [frameOffset, inMethod, OpenMethod.frameOffset, OpenMethod.inFrame, h]
  rfl

end Assembler

/-! ## Numbers as places -/

namespace Place

variable {text : String} {n : Nat}

/-- **The text is an offset**, as the place of an object and as the place of the open
frame. No label is mentioned. -/
structure IsOffset (text : String) (offset : UInt16) : Prop where
  object : ∀ labels, DeclaredType.ofName labels "Uninitialized" (some text)
    = (.ok (.uninitialized (.offset offset)), labels)
  frame : ∀ (a : Assembler) (m : OpenMethod) (frame : Frame) (copied : Nat),
    a.method = some m → m.frame = some (frame, copied) →
      a.frameOffset text = { a with
        method := some { m with frame := some ({ frame with offset := .offset offset }, copied) } }

/-- **The text is out of range**, as either place. Nothing comes of it but a fault. -/
structure IsOutOfRange (text : String) : Prop where
  object : ∀ labels, ∃ fault, fault.kind = .numeric
    ∧ DeclaredType.ofName labels "Uninitialized" (some text) = (.error fault, labels)
  frame : ∀ (a : Assembler) (m : OpenMethod) (frame : Frame) (copied : Nat),
    a.method = some m → m.frame = some (frame, copied) →
      ∃ fault, fault.kind = .numeric ∧ a.frameOffset text = a.report fault

/-- **The text is the name of a label**, as either place. The label is mentioned. -/
structure IsLabelName (text : String) : Prop where
  object : ∀ labels, DeclaredType.ofName labels "Uninitialized" (some text)
    = (.ok (.uninitialized (.label (labels.mention text).1)), (labels.mention text).2)
  frame : ∀ (a : Assembler) (m : OpenMethod) (frame : Frame) (copied : Nat),
    a.method = some m → m.frame = some (frame, copied) →
      a.frameOffset text = { a with method := some { m with
        body := (m.body.mention text).2
        frame := some ({ frame with offset := .label (m.body.mention text).1 }, copied) } }

theorem isOffset_of_numeral (h : Numeral 10 text.toList n) (hsmall : n ≤ 65535) :
    IsOffset text (UInt16.ofNat n) := by
  have hread (labels : LabelTable) (outOfRange : Int → Fault) :
      DeclaredType.readPlace labels text outOfRange = (.ok (.offset (UInt16.ofNat n)), labels) := by
    rw [DeclaredType.readPlace_of_numeral h, if_pos (by omega), if_pos hsmall]
  refine ⟨fun labels => ?_, fun a m frame copied hmethod hframe => ?_⟩
  · rw [DeclaredType.ofName_uninitialized, hread]
    rfl
  · exact Assembler.frameOffset_of_ok hmethod hframe (hread _ _)

theorem isOutOfRange_of_numeral (h : Numeral 10 text.toList n) (hlarge : 65535 < n)
    (hfits : n ≤ 9223372036854775807) : IsOutOfRange text := by
  have hread (labels : LabelTable) (outOfRange : Int → Fault) :
      DeclaredType.readPlace labels text outOfRange = (.error (outOfRange n), labels) := by
    rw [DeclaredType.readPlace_of_numeral h, if_pos hfits, if_neg (by omega)]
  refine ⟨fun labels => ⟨.uninitializedOffset n, rfl, ?_⟩,
    fun a m frame copied hmethod hframe => ?_⟩
  · rw [DeclaredType.ofName_uninitialized, hread]
    rfl
  · exact ⟨_, rfl, Assembler.frameOffset_of_error hmethod hframe (hread _ _)⟩

theorem isLabelName_of_numeral (h : Numeral 10 text.toList n)
    (hlost : 9223372036854775807 < n) : IsLabelName text := by
  have hread (labels : LabelTable) (outOfRange : Int → Fault) :
      DeclaredType.readPlace labels text outOfRange
        = (.ok (.label (labels.mention text).1), (labels.mention text).2) := by
    rw [DeclaredType.readPlace_of_numeral h, if_neg (by omega)]
  refine ⟨fun labels => ?_, fun a m frame copied hmethod hframe => ?_⟩
  · rw [DeclaredType.ofName_uninitialized, hread]
    rfl
  · exact Assembler.frameOffset_of_ok hmethod hframe (hread _ _)

/-- **A number is an offset, or out of range, or taken for a label.** It is an offset
up to 65535, and it is out of range above that as long as it can be read. A number
that does not fit a signed integer of 64 bits is a label, like any other name. -/
theorem placed_of_numeral (text : String) :
    (Label.isNumeric text = true ↔ ∃ n, Numeral 10 text.toList n)
      ∧ ∀ n, Numeral 10 text.toList n →
        (n ≤ 65535 → ∃ offset : UInt16, offset.toNat = n ∧ IsOffset text offset)
        ∧ (65535 < n → n ≤ 9223372036854775807 → IsOutOfRange text)
        ∧ (9223372036854775807 < n → IsLabelName text) := by
  refine ⟨Label.isNumeric_iff, fun n h => ⟨fun hsmall => ?_, isOutOfRange_of_numeral h,
    isLabelName_of_numeral h⟩⟩
  exact ⟨UInt16.ofNat n, UInt16.toNat_ofNat_of_lt' (Nat.lt_succ_of_le hsmall),
    isOffset_of_numeral h hsmall⟩

/-- The largest offset, and the largest number that is out of range. -/
theorem placed_of_numeral_largest :
    (∃ offset : UInt16, offset.toNat = 65535 ∧ IsOffset "65535" offset)
      ∧ IsOutOfRange "9223372036854775807" := by
  have hoffset : Numeral 10 "65535".toList 65535 := Text.numeral_toDigits (by decide) 65535
  have hnumber : Numeral 10 "9223372036854775807".toList 9223372036854775807 :=
    Text.numeral_toDigits (by decide) 9223372036854775807
  exact ⟨((placed_of_numeral "65535").2 _ hoffset).1 (by decide),
    ((placed_of_numeral "9223372036854775807").2 _ hnumber).2.1 (by decide) (by decide)⟩

/-- **The smallest number that cannot be read is taken for a label.** It is not
refused, and there is a label of this name afterwards. -/
theorem not_isOutOfRange_of_numeral :
    Numeral 10 "9223372036854775808".toList 9223372036854775808
      ∧ ¬IsOutOfRange "9223372036854775808"
      ∧ (DeclaredType.ofName .empty "Uninitialized" (some "9223372036854775808")).1
        = .ok (.uninitialized (.label ⟨0⟩))
      ∧ (DeclaredType.ofName .empty "Uninitialized" (some "9223372036854775808")).2.nameOf ⟨0⟩
        = "9223372036854775808" := by
  have hnumber : Numeral 10 "9223372036854775808".toList 9223372036854775808 :=
    Text.numeral_toDigits (by decide) 9223372036854775808
  have hlabel := (isLabelName_of_numeral hnumber (by decide)).object .empty
  obtain ⟨names, hnew⟩ : ∃ names, LabelTable.empty.mention "9223372036854775808"
      = (⟨0⟩, ⟨names, #[⟨some "9223372036854775808", false, none⟩]⟩) :=
    ⟨LabelTable.empty.names.insert "9223372036854775808" ⟨0⟩,
      by simp [LabelTable.mention, LabelTable.empty]⟩
  refine ⟨hnumber, fun hrange => ?_, ?_, ?_⟩
  · obtain ⟨fault, -, hfault⟩ := hrange.object .empty
    rw [hlabel] at hfault
    cases hfault
  · rw [hlabel, hnew]
  · rw [hlabel, hnew]
    rfl

end Place

end BytecodeAssembler
