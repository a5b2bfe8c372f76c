import BytecodeAssembler.Instruction.Basic
import BytecodeAssembler.Proofs.Outcome

/-!
# Instructions that were made

An instruction that `Instruction.make` lets through has an operand of the
shape that its opcode takes, its highest key is an `int`, and its keys ascend
strictly. `Fits` lists these operands by the kind of the opcode.
-/

namespace BytecodeAssembler

namespace Instruction

/-- **The instruction was made** from an entry of the instruction set and an
operand of its shape. -/
def Made (i : Instruction) : Prop :=
  i.opcode ∈ Opcode.all ∧ ∃ operand, make i.opcode operand = .ok i

/-- **The operands that made instructions have**, by the kind of operand that
the opcode takes. -/
inductive Fits : OperandKind → Operand → Prop where
  | none : Fits .none .none
  | localVar (index : UInt16) : Fits .localVar (.localVar index)
  | increment (index : UInt16) (delta : Int16) : Fits .increment (.increment index delta)
  | byte (value : Int8) : Fits .byte (.byte value)
  | short (value : Int16) : Fits .short (.short value)
  | arrayType (code : UInt8) : Fits .arrayType (.arrayType code)
  | branch (target : Label) : Fits .branch (.branch target)
  | branchWide (target : Label) : Fits .branchWide (.branch target)
  | load (c : Constant) : Fits .load (.constant c)
  /-- The constants that are written with an index of two bytes. -/
  | constant {kind : OperandKind} (c : Constant)
      (hkind : kind ∈ [.loadWide, .loadTwo, .classRef, .field, .method]) :
      Fits kind (.constant c)
  | interfaceMethod (c : Constant) (slots : UInt8) :
      Fits .interfaceMethod (.interfaceMethod c slots)
  | multiArray (c : Constant) (dimensions : UInt8) :
      Fits .multiArray (.multiArray c dimensions)
  | tableSwitch {low : Int32} (fallback : Label) {targets : List Label} (hsome : targets ≠ [])
      (hlast : low.toInt + targets.length - 1 ≤ 2147483647) :
      Fits .tableSwitch (.tableSwitch low fallback targets)
  | lookupSwitch (fallback : Label) {pairs : List (Int32 × Label)}
      (hkeys : (pairs.map Prod.fst).Pairwise (· < ·)) :
      Fits .lookupSwitch (.lookupSwitch fallback pairs)

/-- Sorting puts the keys in ascending order. -/
theorem pairwise_sortPairs (pairs : List (Int32 × Label)) :
    (sortPairs pairs).Pairwise fun a b => a.1 ≤ b.1 := by
  have hsorted : (sortPairs pairs).Pairwise fun a b => decide (a.1 ≤ b.1) = true := by
    refine List.pairwise_mergeSort (fun a b c hab hbc => ?_) (fun a b => ?_) pairs
    · exact decide_eq_true (Int32.le_trans (of_decide_eq_true hab) (of_decide_eq_true hbc))
    · rw [Bool.or_eq_true, decide_eq_true_eq, decide_eq_true_eq]
      exact Int32.le_total a.1 b.1
  exact hsorted.imp fun h => of_decide_eq_true h

/-- **Ascending keys of which none is repeated ascend strictly.** -/
theorem pairwise_lt_of_repeatedKey? {pairs : List (Int32 × Label)}
    (hle : pairs.Pairwise fun a b => a.1 ≤ b.1) (hnone : repeatedKey? pairs = none) :
    (pairs.map Prod.fst).Pairwise (· < ·) := by
  induction pairs with
  | nil => exact List.Pairwise.nil
  | cons a pairs ih =>
    cases pairs with
    | nil => exact List.pairwise_singleton _ _
    | cons b rest =>
      unfold repeatedKey? at hnone
      split at hnone
      next => cases hnone
      next hne =>
        obtain ⟨hfirst, hle⟩ := List.pairwise_cons.1 hle
        have hlt := ih hle hnone
        have hab : a.1 < b.1 := Int32.lt_of_le_of_ne (hfirst b List.mem_cons_self) hne
        refine List.pairwise_cons.2 ⟨fun key hkey => ?_, hlt⟩
        rcases List.mem_cons.1 hkey with rfl | hkey
        · exact hab
        · exact Int32.lt_trans hab ((List.pairwise_cons.1 hlt).1 key hkey)

theorem fits_of_makeTableSwitch {low : Int32} {fallback : Label} {targets : List Label}
    {operand : Operand} (h : makeTableSwitch low fallback targets = .ok operand) :
    Fits .tableSwitch operand := by
  unfold makeTableSwitch at h
  split at h
  next => cases h
  next hsome =>
    split at h
    next => cases h
    next hlast =>
      cases h
      refine .tableSwitch fallback (fun hnil => hsome ?_) (Int.not_lt.1 hlast)
      rw [hnil]
      rfl

theorem fits_of_makeLookupSwitch {fallback : Label} {pairs : List (Int32 × Label)}
    {operand : Operand} (h : makeLookupSwitch fallback pairs = .ok operand) :
    Fits .lookupSwitch operand := by
  unfold makeLookupSwitch at h
  dsimp only at h
  split at h
  next => cases h
  next hnone =>
    cases h
    exact .lookupSwitch fallback
      (pairwise_lt_of_repeatedKey? (pairwise_sortPairs pairs) hnone)

/-- **An operand that passes the check fits its opcode.** -/
theorem fits_of_checkOperand {opcode : Opcode} {operand checked : Operand}
    (h : checkOperand opcode operand = .ok checked) : Fits opcode.kind checked := by
  unfold checkOperand at h
  split at h
  next hkind => rw [hkind]; cases h; exact .none
  next hkind => rw [hkind]; cases h; exact .localVar _
  next hkind => rw [hkind]; cases h; exact .increment _ _
  next hkind => rw [hkind]; cases h; exact .byte _
  next hkind => rw [hkind]; cases h; exact .short _
  next hkind => rw [hkind]; cases h; exact .arrayType _
  next hkind => rw [hkind]; cases h; exact .branch _
  next hkind => rw [hkind]; cases h; exact .branchWide _
  next hkind =>
    split at h <;> cases h
    rw [hkind]
    exact .load _
  next hkind =>
    split at h <;> cases h
    rw [hkind]
    exact .constant _ (by decide)
  next hkind => rw [hkind]; cases h; exact .constant _ (by decide)
  next hkind => rw [hkind]; cases h; exact .constant _ (by decide)
  next hkind => rw [hkind]; cases h; exact .constant _ (by decide)
  next hkind => rw [hkind]; cases h; exact .constant _ (by decide)
  next hkind => rw [hkind]; cases h; exact .constant _ (by decide)
  next hkind =>
    split at h <;> cases h
    rw [hkind]
    exact .interfaceMethod _ _
  next hkind =>
    split at h <;> cases h
    rw [hkind]
    exact .multiArray _ _
  next hkind => rw [hkind]; exact fits_of_makeTableSwitch h
  next hkind => rw [hkind]; exact fits_of_makeLookupSwitch h
  next => cases h

/-- **The check gives the operand itself**, except that the pairs of a
`lookupswitch` are sorted. -/
theorem checkOperand_eq_ok {opcode : Opcode} {operand checked : Operand}
    (h : checkOperand opcode operand = .ok checked) :
    checked = operand ∨ ∃ fallback pairs, operand = .lookupSwitch fallback pairs
      ∧ checked = .lookupSwitch fallback (sortPairs pairs) := by
  unfold checkOperand at h
  split at h
  all_goals first
    | cases h <;> exact .inl rfl
    | split at h <;> cases h <;> exact .inl rfl
    | skip
  next =>
    unfold makeTableSwitch at h
    split at h
    next => cases h
    next =>
      split at h <;> cases h
      exact .inl rfl
  next fallback pairs _ =>
    unfold makeLookupSwitch at h
    dsimp only at h
    split at h
    next => cases h
    next =>
      cases h
      exact .inr ⟨fallback, pairs, rfl, rfl⟩

theorem Made.fits {i : Instruction} (h : i.Made) : Fits i.opcode.kind i.operand := by
  obtain ⟨-, operand, h⟩ := h
  obtain ⟨checked, hchecked, h⟩ := map_eq_ok_iff.1 h
  rw [← h] at hchecked ⊢
  exact fits_of_checkOperand hchecked

end Instruction

end BytecodeAssembler
