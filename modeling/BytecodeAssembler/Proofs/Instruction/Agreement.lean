import BytecodeAssembler.Instruction.Resolution
import BytecodeAssembler.Proofs.Instruction.LookupSwitch
import Mathlib.Algebra.GroupWithZero.Nat

/-!
# Arguments and operands agree on shapes

Which arguments an opcode takes is said twice. First an argument is **resolved**
into an operand, if it has the right shape for the opcode, and then an
instruction is **made** of the operand, if that has the right shape once more.
The two tables agree: an operand that came from an argument never has the wrong
shape. What is left to refuse are numbers and switches that cannot be encoded,
and which these are can be told from the argument alone.
-/

namespace BytecodeAssembler

/-- **The arguments of which no instruction is made** although they have the
right shape, by the kind of the opcode, with what they are refused for. -/
inductive Argument.Refused : OperandKind → Argument → Fault → Prop where
  | noSlots (m : MemberRef) : Refused .interfaceMethod (.interfaceMember m 0) .noArgumentSlots
  /-- The slots of a descriptor are counted in 64 bits. One of them is for the
  receiver, so that none is counted only if this number runs over. -/
  | lostSlots {m : MemberRef} {d : MethodDescriptor}
      (hread : MethodDescriptor.read m.descriptor = .ok d)
      (hslots : 2 ^ 64 ∣ d.parameterSlots true) :
      Refused .interfaceMethod (.member m) .noArgumentSlots
  | noDimensions (name : String) : Refused .multiArray (.wordInt name 0) .noDimensions
  | noTargets (low : Int64) (high : Option Int64) (fallback : String) :
      Refused .tableSwitch (.tableSwitch low high [] fallback) .emptyTableSwitch
  | lastKey {low : Int64} {first : Int32} (hlow : first.toInt = low.toInt)
      (high : Option Int64) {targets : List String} (hsome : targets ≠ [])
      (hlast : 2147483647 < low.toInt + targets.length - 1) (fallback : String) :
      Refused .tableSwitch (.tableSwitch low high targets fallback) (.tableSwitchOverflow first)
  | repeatedKey {pairs : List (Int64 × String)} {key : Int32}
      (hkey : LeastRepeated (pairs.map fun pair => pair.1.toInt) key.toInt) (fallback : String) :
      Refused .lookupSwitch (.lookupSwitch pairs fallback) (.duplicateKey key)

namespace Argument

open Instruction (make checkOperand makeTableSwitch makeLookupSwitch keyValues)

variable {argument : Argument} {opcode : Opcode} {operand : Operand} {fault : Fault}

/-- **An instruction is made of the operand, or it is refused** for what the
argument is refused for. -/
def Settles (argument : Argument) (opcode : Opcode) (operand : Operand) : Prop :=
  (∃ i, make opcode operand = .ok i) ∧ (∀ fault, ¬argument.Refused opcode.kind fault)
    ∨ ∃ fault, make opcode operand = .error fault ∧ argument.Refused opcode.kind fault

namespace Settles

theorem made (h : checkOperand opcode operand = .ok operand)
    (hrefused : ∀ fault, ¬argument.Refused opcode.kind fault) :
    argument.Settles opcode operand :=
  .inl ⟨⟨⟨opcode, operand⟩, by rw [make, h]; rfl⟩, hrefused⟩

theorem refused (h : checkOperand opcode operand = .error fault)
    (hrefused : argument.Refused opcode.kind fault) : argument.Settles opcode operand :=
  .inr ⟨fault, by rw [make, h]; rfl, hrefused⟩

/-- Opcodes of the other kinds refuse nothing. -/
theorem plain {kind : OperandKind} (hkind : opcode.kind = kind)
    (hplain : kind ∉ [.interfaceMethod, .multiArray, .tableSwitch, .lookupSwitch])
    (h : checkOperand opcode operand = .ok operand) : argument.Settles opcode operand := by
  refine made h fun fault hrefused => hplain ?_
  rw [← hkind]
  generalize opcode.kind = kind at hrefused
  cases hrefused <;> decide

end Settles

/-! ## Counts -/

theorem eq_zero_of_narrowU1 {what : String} {value : Int64} {n : UInt8}
    (h : narrowU1 what value = .ok n) : n = 0 ↔ value = 0 := by
  have hsame := toNat_of_narrowU1 h
  rw [← UInt8.toNat_inj, ← Int64.toInt_inj, UInt8.toNat_zero, Int64.toInt_zero]
  omega

/-- A number in 64 bits is zero if it ran over. -/
theorem ofNat_eq_zero_iff {n : Nat} : Int64.ofNat n = 0 ↔ 2 ^ 64 ∣ n := by
  rw [← Int64.toInt_inj, Int64.toInt_ofNat', Int64.toInt_zero, ← Int.dvd_iff_bmod_eq_zero]
  exact Int.natCast_dvd_natCast

/-- The method of an interface is refused if no slots are counted. -/
theorem settles_interfaceMethod (hkind : opcode.kind = .interfaceMethod) {m : MemberRef}
    {slots : UInt8}
    (hzero : slots = 0 ↔ argument.Refused .interfaceMethod .noArgumentSlots)
    (honly : ∀ fault, argument.Refused .interfaceMethod fault → fault = .noArgumentSlots) :
    argument.Settles opcode (.interfaceMethod (.interfaceMethodRef m) slots) := by
  by_cases hslots : slots = 0
  · exact .refused (by simp only [checkOperand, hkind, if_pos hslots]) (hkind ▸ hzero.1 hslots)
  · refine .made (by simp only [checkOperand, hkind, if_neg hslots]) fun fault hrefused => ?_
    rw [hkind] at hrefused
    exact hslots (hzero.2 (honly fault hrefused ▸ hrefused))

theorem settles_interfaceMember (hkind : opcode.kind = .interfaceMethod) {m : MemberRef}
    {count : Int64} {slots : UInt8} {what : String} (h : narrowU1 what count = .ok slots) :
    (interfaceMember m count).Settles opcode
      (.interfaceMethod (.interfaceMethodRef m) slots) := by
  refine settles_interfaceMethod hkind ?_ fun fault hrefused => ?_
  · rw [eq_zero_of_narrowU1 h]
    constructor
    · rintro rfl
      exact .noSlots m
    · intro hrefused
      cases hrefused
      rfl
  · cases hrefused
    rfl

/-- The slots that a descriptor gives. -/
theorem settles_member (hkind : opcode.kind = .interfaceMethod) {m : MemberRef}
    (h : interfaceOperand m = .ok operand) : (member m).Settles opcode operand := by
  obtain ⟨d, hread, h⟩ := bind_eq_ok_iff.1 h
  obtain ⟨slots, hslots, h⟩ := bind_eq_ok_iff.1 h
  cases h
  refine settles_interfaceMethod hkind ?_ fun fault hrefused => ?_
  · rw [eq_zero_of_narrowU1 hslots, ofNat_eq_zero_iff]
    constructor
    · exact .lostSlots hread
    · intro hrefused
      cases hrefused with
      | lostSlots hread' hslots' =>
        cases hread.symm.trans hread'
        exact hslots'
  · cases hrefused
    rfl

theorem settles_multiArray (hkind : opcode.kind = .multiArray) {name : String} {count : Int64}
    {dimensions : UInt8} {what : String} (h : narrowU1 what count = .ok dimensions) :
    (wordInt name count).Settles opcode (.multiArray (.classRef name) dimensions) := by
  by_cases hzero : dimensions = 0
  · refine .refused (by simp only [checkOperand, hkind, if_pos hzero]; rfl) ?_
    rw [hkind, (eq_zero_of_narrowU1 h).1 hzero]
    exact .noDimensions name
  · refine .made (by simp only [checkOperand, hkind, if_neg hzero]) fun fault hrefused => ?_
    rw [hkind] at hrefused
    cases hrefused
    exact hzero ((eq_zero_of_narrowU1 h).2 rfl)

/-- **An argument without labels** gives an operand that is settled. -/
theorem settles_resolvePlain (h : argument.resolvePlain opcode = .ok operand) :
    argument.Settles opcode operand := by
  unfold resolvePlain at h
  split at h
  -- operands that are given at once
  case h_1 hkind | h_10 hkind | h_11 hkind | h_12 hkind | h_13 hkind | h_14 hkind | h_15 hkind
      | h_16 hkind | h_17 hkind | h_18 hkind | h_19 hkind | h_20 hkind =>
    cases h
    exact .plain hkind (by decide) (by simp [checkOperand, hkind, Constant.isLoadable])
  -- operands that are made of one number or name
  case h_2 hkind | h_4 hkind | h_5 hkind | h_6 hkind | h_7 hkind | h_8 hkind | h_9 hkind =>
    obtain ⟨n, -, rfl⟩ := map_eq_ok_iff.1 h
    exact .plain hkind (by decide) (by simp [checkOperand, hkind, Constant.isLoadable])
  case h_3 hkind =>
    obtain ⟨index, -, h⟩ := bind_eq_ok_iff.1 h
    obtain ⟨delta, -, h⟩ := bind_eq_ok_iff.1 h
    cases h
    exact .plain hkind (by decide) (by simp only [checkOperand, hkind])
  case h_21 hkind => exact settles_member hkind h
  case h_22 hkind =>
    obtain ⟨slots, hslots, rfl⟩ := map_eq_ok_iff.1 h
    exact settles_interfaceMember hkind hslots
  case h_23 hkind =>
    obtain ⟨dimensions, hdimensions, rfl⟩ := map_eq_ok_iff.1 h
    exact settles_multiArray hkind hdimensions
  case h_24 => cases h

/-! ## Switches -/

theorem toInt_of_tableLow {low : Int64} {high : Option Int64} {count : Nat} {first : Int32}
    (h : tableLow low high count = .ok first) : first.toInt = low.toInt := by
  unfold tableLow at h
  split at h
  next =>
    split at h
    next => exact toInt_of_narrowS4 h
    next => cases h
  next => exact toInt_of_narrowS4 h

theorem length_mentionEach (names : List String) (rev : List Label) (t : LabelTable) :
    (LabelTable.mentionEach names rev t).1.length = rev.length + names.length := by
  induction names generalizing rev t with
  | nil => exact List.length_reverse
  | cons name names ih =>
    rw [LabelTable.mentionEach, ih, List.length_cons, List.length_cons]
    omega

/-- A table is refused for its last key, as `low` and the number of targets
give it. -/
theorem settles_tableSwitch (hkind : opcode.kind = .tableSwitch) {low : Int64}
    {high : Option Int64} {targets : List String} {fallback : String} {first : Int32}
    {other : Label} {labels : List Label} (hlow : first.toInt = low.toInt)
    (hlength : labels.length = targets.length) :
    (tableSwitch low high targets fallback).Settles opcode
      (.tableSwitch first other labels) := by
  have hcheck : checkOperand opcode (.tableSwitch first other labels)
      = makeTableSwitch first other labels := by simp only [checkOperand, hkind]
  unfold makeTableSwitch at hcheck
  split at hcheck
  next hempty =>
    refine .refused hcheck ?_
    rw [List.isEmpty_iff_length_eq_zero, hlength, List.length_eq_zero_iff] at hempty
    rw [hkind, hempty]
    exact .noTargets low high fallback
  next hsome =>
    rw [List.isEmpty_iff_length_eq_zero, hlength, List.length_eq_zero_iff] at hsome
    rw [hlow, hlength] at hcheck
    split at hcheck
    next hlast =>
      refine .refused hcheck ?_
      rw [hkind]
      exact .lastKey hlow high hsome hlast fallback
    next hlast =>
      refine .made hcheck fun fault hrefused => ?_
      rw [hkind] at hrefused
      cases hrefused with
      | noTargets => exact hsome rfl
      | lastKey _ _ _ hover => exact hlast hover

/-- Narrowing the keys of a lookup keeps them. -/
theorem keyValues_of_lookupPairs {pairs : List (Int64 × String)} {rev made : List (Int32 × Label)}
    {t u : LabelTable} (h : lookupPairs pairs rev t = (.ok made, u)) :
    keyValues made = keyValues rev.reverse ++ pairs.map fun pair => pair.1.toInt := by
  induction pairs generalizing rev t with
  | nil =>
    cases h
    exact (List.append_nil _).symm
  | cons pair rest ih =>
    unfold lookupPairs at h
    split at h
    next => cases h
    next key hkey =>
      rw [ih h, List.reverse_cons, keyValues, keyValues, List.map_append, List.map_cons,
        List.map_nil, toInt_of_narrowS4 hkey, List.append_assoc, List.map_cons]
      rfl

/-- A lookup is refused for the least key that is repeated. -/
theorem settles_lookupSwitch (hkind : opcode.kind = .lookupSwitch)
    {pairs : List (Int64 × String)} {fallback : String} {other : Label}
    {made : List (Int32 × Label)}
    (hkeys : keyValues made = pairs.map fun pair => pair.1.toInt) :
    (lookupSwitch pairs fallback).Settles opcode (.lookupSwitch other made) := by
  rcases Instruction.makeLookupSwitch_cases other made with ⟨key, hrefused, hkey⟩ | ⟨hmade, -⟩
  · refine .inr ⟨.duplicateKey key, ?_, ?_⟩
    · rw [Instruction.make_of_lookupSwitch hkind, hrefused]
      rfl
    · rw [hkind]
      exact .repeatedKey (hkeys ▸ hkey) fallback
  · have hnodup := (Instruction.makeLookupSwitch_eq_ok_iff.1 hmade).1
    refine .inl ⟨⟨_, by rw [Instruction.make_of_lookupSwitch hkind, hmade]; rfl⟩,
      fun fault hrefused => ?_⟩
    rw [hkind] at hrefused
    cases hrefused with
    | repeatedKey hkey => exact hkey.not_nodup (hkeys ▸ hnodup)

/-! ## All arguments -/

/-- **Every operand that an argument gives is settled.** -/
theorem settles_resolve {labels labels' : LabelTable}
    (h : argument.resolve opcode labels = (.ok operand, labels')) :
    argument.Settles opcode operand := by
  unfold resolve at h
  split at h
  next hkind => cases h; exact .plain hkind (by decide) (by simp only [checkOperand, hkind])
  next hkind => cases h; exact .plain hkind (by decide) (by simp only [checkOperand, hkind])
  next low high targets fallback hkind =>
    split at h
    next => cases h
    next first hlow =>
      cases h
      have hlength := length_mentionEach targets [] (labels.mention fallback).2
      exact settles_tableSwitch hkind (toInt_of_tableLow hlow) (hlength.trans (Nat.zero_add _))
  next pairs fallback hkind =>
    split at h
    next => cases h
    next made u hpairs =>
      cases h
      exact settles_lookupSwitch hkind (keyValues_of_lookupPairs hpairs)
  next => exact settles_resolvePlain (congrArg Prod.fst h)

namespace Refused

variable {kind : OperandKind}

/-- There is one reason at most. -/
theorem unique {fault' : Fault} (h : argument.Refused kind fault)
    (h' : argument.Refused kind fault') : fault = fault' := by
  cases h with
  | noSlots | lostSlots | noDimensions => cases h'; rfl
  | noTargets =>
    cases h' with
    | noTargets => rfl
    | lastKey _ _ hsome => exact absurd rfl hsome
  | lastKey hlow _ hsome =>
    cases h' with
    | noTargets => exact absurd rfl hsome
    | lastKey hlow' => rw [Int32.toInt_inj.1 (hlow.trans hlow'.symm)]
  | repeatedKey hkey =>
    cases h' with
    | repeatedKey hkey' => rw [Int32.toInt_inj.1 (hkey.unique hkey')]

/-- A number is too small or too large, or a switch is built wrongly. -/
theorem kind_eq (h : argument.Refused kind fault) :
    fault.kind = .numeric ∧ (fault = .noArgumentSlots ∨ fault = .noDimensions
        ∨ ∃ first, fault = .tableSwitchOverflow first)
      ∨ fault.kind = .structural ∧ (fault = .emptyTableSwitch
        ∨ ∃ key, fault = .duplicateKey key) := by
  cases h with
  | noSlots | lostSlots => exact .inl ⟨rfl, .inl rfl⟩
  | noDimensions => exact .inl ⟨rfl, .inr (.inl rfl)⟩
  | noTargets => exact .inr ⟨rfl, .inl rfl⟩
  | lastKey => exact .inl ⟨rfl, .inr (.inr ⟨_, rfl⟩)⟩
  | repeatedKey => exact .inr ⟨rfl, .inr ⟨_, rfl⟩⟩

end Refused

/-- **What an opcode takes as an argument it takes as an operand.** If an
argument can be resolved, then an instruction can be made of the operand, unless
the argument is one of those that are refused, and then it is refused for this
very reason. The reason is never the shape of the operand. -/
theorem make_resolved (argument : Argument) (opcode : Opcode) {labels labels' : LabelTable}
    {operand : Operand} (h : argument.resolve opcode labels = (.ok operand, labels')) :
    ((∃ i, make opcode operand = .ok i) ↔ ∀ fault, ¬argument.Refused opcode.kind fault)
      ∧ (∀ fault, make opcode operand = .error fault ↔ argument.Refused opcode.kind fault)
      ∧ ∀ fault, make opcode operand = .error fault →
        fault.kind = .numeric ∧ (fault = .noArgumentSlots ∨ fault = .noDimensions
            ∨ ∃ first, fault = .tableSwitchOverflow first)
          ∨ fault.kind = .structural ∧ (fault = .emptyTableSwitch
            ∨ ∃ key, fault = .duplicateKey key) := by
  rcases settles_resolve h with ⟨⟨i, hmade⟩, hnone⟩ | ⟨reason, hmake, hrefused⟩
  · rw [hmade]
    refine ⟨⟨fun _ => hnone, fun _ => ⟨i, rfl⟩⟩,
      fun fault => ⟨fun hfault => ?_, fun h => absurd h (hnone fault)⟩, fun fault hfault => ?_⟩
    · cases hfault
    · cases hfault
  · rw [hmake]
    refine ⟨⟨?_, fun hnone => absurd hrefused (hnone reason)⟩, fun fault => ⟨?_, ?_⟩,
      fun fault hfault => ?_⟩
    · rintro ⟨i, hmade⟩
      cases hmade
    · rintro ⟨⟩
      exact hrefused
    · intro hother
      rw [hrefused.unique hother]
    · cases hfault
      exact hrefused.kind_eq

/-- A lookup with a key that is there twice, between which another one stands. -/
theorem make_resolved_repeatedKey : ∃ opcode operand labels,
    Opcode.find? "lookupswitch" = some opcode
      ∧ (lookupSwitch [(7, "a"), (-1, "b"), (7, "c")] "d").resolve opcode .empty
        = (.ok operand, labels)
      ∧ make opcode operand = .error (.duplicateKey 7) := by
  have hkey : LeastRepeated [7, -1, 7] 7 := by
    refine ⟨by decide, fun other hother => ?_⟩
    by_contra hless
    have hne : (7 : Int) ≠ other := by omega
    rw [List.count_cons_of_ne hne, List.count_cons, List.count_cons_of_ne hne] at hother
    split at hother <;> contradiction
  obtain ⟨operand, labels, h⟩ : ∃ operand labels,
      (lookupSwitch [(7, "a"), (-1, "b"), (7, "c")] "d").resolve
        ⟨"lookupswitch", 0xab, .lookupSwitch⟩ .empty = (.ok operand, labels) := ⟨_, _, rfl⟩
  have hrefused : (lookupSwitch [(7, "a"), (-1, "b"), (7, "c")] "d").Refused .lookupSwitch
      (.duplicateKey 7) := by
    refine .repeatedKey ?_ "d"
    exact hkey
  exact ⟨_, operand, labels, rfl, h, ((make_resolved _ _ h).2.1 _).2 hrefused⟩

end Argument

end BytecodeAssembler
