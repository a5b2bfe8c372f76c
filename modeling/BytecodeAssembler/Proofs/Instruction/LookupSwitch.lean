import BytecodeAssembler.Instruction.Encoding
import BytecodeAssembler.Proofs.Instruction.Making
import Mathlib.Data.List.Nodup
import Mathlib.Data.List.Perm.Basic

/-!
# The order of a lookup

A `lookupswitch` is encoded with ascending keys, in whatever order they were
given. A key that is there twice is looked for between neighbours only. That is
enough: the pairs are sorted before, so equal keys have become neighbours, and
the first two that are found have the **least** key that is repeated.

So nothing depends on the order in which the pairs were given. They are refused
if a key is repeated, and then the same key is named; and if none is, there is
just one way to sort them.
-/

namespace BytecodeAssembler

/-- **The least number that stands in a list more than once.** -/
structure LeastRepeated (keys : List Int) (key : Int) : Prop where
  twice : 2 ≤ keys.count key
  least : ∀ other, 2 ≤ keys.count other → key ≤ other

namespace LeastRepeated

variable {keys keys' : List Int} {key key' : Int}

theorem unique (h : LeastRepeated keys key) (h' : LeastRepeated keys key') : key = key' :=
  Int.le_antisymm (h.least key' h'.twice) (h'.least key h.twice)

theorem not_nodup (h : LeastRepeated keys key) : ¬keys.Nodup := fun hnodup =>
  absurd (List.nodup_iff_count_le_one.1 hnodup key) (Nat.not_le.2 h.twice)

/-- It does not depend on the order of the list. -/
theorem perm (h : LeastRepeated keys key) (hperm : keys.Perm keys') : LeastRepeated keys' key where
  twice := hperm.count_eq key ▸ h.twice
  least other hother := h.least other (hperm.count_eq other ▸ hother)

end LeastRepeated

namespace Instruction

variable {fallback : Label} {pairs pairs' : List (Int32 × Label)} {key : Int32}

/-- The keys of a `lookupswitch`, as the signed numbers that they are. -/
def keyValues (pairs : List (Int32 × Label)) : List Int := pairs.map fun pair => pair.1.toInt

theorem mem_keyValues {n : Int} : n ∈ keyValues pairs ↔ ∃ pair ∈ pairs, pair.1.toInt = n :=
  List.mem_map

/-- Keys that ascend strictly do so as signed numbers. -/
theorem pairwise_keyValues (h : (pairs.map Prod.fst).Pairwise (· < ·)) :
    (keyValues pairs).Pairwise (· < ·) := by
  rw [keyValues, List.pairwise_map]
  exact (List.pairwise_map.1 h).imp Int32.lt_iff_toInt_lt.1

/-! ## Repeated keys -/

/-- Of pairs in ascending order the first has the least key. -/
theorem le_of_mem_keyValues {a : Int32 × Label}
    (hle : (a :: pairs).Pairwise fun a b => a.1 ≤ b.1) {n : Int} (hn : n ∈ keyValues pairs) :
    a.1.toInt ≤ n := by
  obtain ⟨pair, hpair, rfl⟩ := mem_keyValues.1 hn
  exact Int32.le_iff_toInt_le.1 ((List.pairwise_cons.1 hle).1 pair hpair)

/-- **The first repeated key of sorted pairs** is the least that is repeated. -/
theorem leastRepeated_of_repeatedKey? (hle : pairs.Pairwise fun a b => a.1 ≤ b.1)
    (h : repeatedKey? pairs = some key) : LeastRepeated (keyValues pairs) key.toInt := by
  induction pairs with
  | nil => cases h
  | cons a pairs ih =>
    cases pairs with
    | nil => cases h
    | cons b rest =>
      have hlater := List.Pairwise.of_cons hle
      have hcount (n : Int) : (keyValues (a :: b :: rest)).count n
          = (keyValues (b :: rest)).count n + if a.1.toInt == n then 1 else 0 := List.count_cons
      unfold repeatedKey? at h
      split at h
      next heq =>
        cases h
        have hb : 0 < (keyValues (b :: rest)).count a.1.toInt :=
          List.count_pos_iff.2 (heq ▸ List.mem_cons_self)
        refine ⟨by rw [hcount, if_pos (beq_self_eq_true _)]; exact Nat.succ_le_succ hb,
          fun other hother => ?_⟩
        rcases List.mem_cons.1 (List.count_pos_iff.1 (Nat.zero_lt_of_lt hother)) with hsame | hmem
        · exact Int.le_of_eq hsame.symm
        · exact le_of_mem_keyValues hle hmem
      next hne =>
        obtain ⟨htwice, hleast⟩ := ih hlater h
        refine ⟨hcount key.toInt ▸ Nat.le_add_right_of_le htwice, fun other hother => ?_⟩
        -- the first key is below the second, so it is not the repeated one
        have hfirst : a.1.toInt ≠ other := by
          rintro rfl
          have hab : a.1.toInt < b.1.toInt := Int32.lt_iff_toInt_lt.1
            (Int32.lt_of_le_of_ne ((List.pairwise_cons.1 hle).1 b List.mem_cons_self) hne)
          rw [hcount, if_pos (beq_self_eq_true _)] at hother
          have hmem := List.count_pos_iff.1 (Nat.le_of_succ_le_succ hother)
          rcases List.mem_cons.1 hmem with hsame | hmem
          · exact absurd hsame (Int.ne_of_lt hab)
          · exact absurd (le_of_mem_keyValues hlater hmem) (Int.not_le.2 hab)
        rw [hcount, if_neg (by simpa using hfirst)] at hother
        exact hleast other hother

/-! ## Sorting -/

theorem sortPairs_perm (pairs : List (Int32 × Label)) : (sortPairs pairs).Perm pairs :=
  List.mergeSort_perm pairs _

theorem keyValues_perm (hperm : pairs'.Perm pairs) : (keyValues pairs').Perm (keyValues pairs) :=
  hperm.map _

/-- The keys differ if they do as signed numbers. -/
theorem nodup_keyValues_iff : (keyValues pairs).Nodup ↔ (pairs.map Prod.fst).Nodup := by
  have hmap : keyValues pairs = (pairs.map Prod.fst).map Int32.toInt := by
    rw [List.map_map]
    rfl
  rw [hmap]
  exact List.nodup_map_iff fun _ _ => Int32.toInt_inj.1

/-- **Distinct keys can be sorted in one way only.** -/
theorem sortPairs_eq_of_perm (hperm : pairs'.Perm pairs) (hnodup : (pairs.map Prod.fst).Nodup) :
    sortPairs pairs' = sortPairs pairs := by
  have hsame : (sortPairs pairs').Perm (sortPairs pairs) :=
    (sortPairs_perm pairs').trans (hperm.trans (sortPairs_perm pairs).symm)
  refine hsame.eq_of_pairwise (fun a b ha hb hab hba => ?_) (pairwise_sortPairs pairs')
    (pairwise_sortPairs pairs)
  have ha' := hperm.mem_iff.1 ((sortPairs_perm pairs').mem_iff.1 ha)
  have hb' := (sortPairs_perm pairs).mem_iff.1 hb
  exact List.inj_on_of_nodup_map hnodup ha' hb' (Int32.le_antisymm hab hba)

/-! ## Making a lookup -/

/-- **Either a key is repeated, and the least such is named, or the pairs are
sorted** and their keys ascend strictly. -/
theorem makeLookupSwitch_cases (fallback : Label) (pairs : List (Int32 × Label)) :
    (∃ key, makeLookupSwitch fallback pairs = .error (.duplicateKey key)
        ∧ LeastRepeated (keyValues pairs) key.toInt)
      ∨ makeLookupSwitch fallback pairs = .ok (.lookupSwitch fallback (sortPairs pairs))
        ∧ (keyValues (sortPairs pairs)).Pairwise (· < ·) := by
  have hsorted := pairwise_sortPairs pairs
  unfold makeLookupSwitch
  dsimp only
  split
  next key h =>
    exact .inl ⟨key, rfl,
      (leastRepeated_of_repeatedKey? hsorted h).perm (keyValues_perm (sortPairs_perm pairs))⟩
  next h =>
    exact .inr ⟨rfl, pairwise_keyValues (pairwise_lt_of_repeatedKey? hsorted h)⟩

theorem makeLookupSwitch_eq_ok_iff {operand : Operand} :
    makeLookupSwitch fallback pairs = .ok operand
      ↔ (keyValues pairs).Nodup ∧ operand = .lookupSwitch fallback (sortPairs pairs) := by
  rcases makeLookupSwitch_cases fallback pairs with ⟨key, h, hkey⟩ | ⟨h, hlt⟩
  · simp [h, hkey.not_nodup]
  · have hnodup : (keyValues pairs).Nodup :=
      (keyValues_perm (sortPairs_perm pairs)).nodup_iff.1 (hlt.imp Int.ne_of_lt)
    simp [h, hnodup, eq_comm]

theorem makeLookupSwitch_eq_error_iff {fault : Fault} :
    makeLookupSwitch fallback pairs = .error fault
      ↔ ∃ key, fault = .duplicateKey key ∧ LeastRepeated (keyValues pairs) key.toInt := by
  rcases makeLookupSwitch_cases fallback pairs with ⟨key, h, hkey⟩ | ⟨h, hlt⟩
  · rw [h]
    constructor
    · intro hfault
      exact ⟨key, (Except.error.inj hfault).symm, hkey⟩
    · rintro ⟨other, rfl, hother⟩
      rw [Int32.toInt_inj.1 (hkey.unique hother)]
  · have hnodup := (makeLookupSwitch_eq_ok_iff.1 h).1
    rw [h]
    constructor
    · intro hfault
      cases hfault
    · rintro ⟨key, -, hkey⟩
      exact absurd hnodup hkey.not_nodup

/-- **The order in which the pairs are given makes no difference**, also where
they are refused. -/
theorem makeLookupSwitch_eq_of_perm (hperm : pairs'.Perm pairs) :
    makeLookupSwitch fallback pairs' = makeLookupSwitch fallback pairs := by
  rcases makeLookupSwitch_cases fallback pairs with ⟨key, h, hkey⟩ | ⟨h, -⟩
  · rw [h]
    exact makeLookupSwitch_eq_error_iff.2 ⟨key, rfl, hkey.perm (keyValues_perm hperm.symm)⟩
  · have hnodup := (makeLookupSwitch_eq_ok_iff.1 h).1
    rw [h, ← sortPairs_eq_of_perm hperm (nodup_keyValues_iff.1 hnodup)]
    exact makeLookupSwitch_eq_ok_iff.2 ⟨(keyValues_perm hperm).nodup_iff.2 hnodup, rfl⟩

theorem make_of_lookupSwitch {opcode : Opcode} (hkind : opcode.kind = .lookupSwitch) :
    make opcode (.lookupSwitch fallback pairs)
      = (makeLookupSwitch fallback pairs).map fun operand => ⟨opcode, operand⟩ := by
  unfold make checkOperand
  rw [hkind]

/-- **A lookup does not depend on the order of its pairs.** It can be made
exactly if no key is repeated. Then it has the given pairs with strictly
ascending signed keys, and any arrangement of these pairs makes the same
instruction, which has the same bytes wherever it stands. -/
theorem make_lookupSwitch_order {opcode : Opcode} (hkind : opcode.kind = .lookupSwitch)
    (fallback : Label) (pairs : List (Int32 × Label)) :
    ((∃ i, make opcode (.lookupSwitch fallback pairs) = .ok i) ↔ (pairs.map Prod.fst).Nodup)
      ∧ (∀ i, make opcode (.lookupSwitch fallback pairs) = .ok i →
          ∃ sorted, i = ⟨opcode, .lookupSwitch fallback sorted⟩ ∧ sorted.Perm pairs
            ∧ (sorted.map fun pair => pair.1.toInt).Pairwise (· < ·))
      ∧ ∀ pairs', pairs'.Perm pairs →
          make opcode (.lookupSwitch fallback pairs') = make opcode (.lookupSwitch fallback pairs)
          ∧ ∀ offset pool labels,
            (make opcode (.lookupSwitch fallback pairs') >>= (·.encode offset pool labels))
              = (make opcode (.lookupSwitch fallback pairs) >>= (·.encode offset pool labels)) := by
  simp only [make_of_lookupSwitch hkind]
  refine ⟨?_, fun i h => ?_, fun pairs' hperm => ?_⟩
  · rw [← nodup_keyValues_iff]
    constructor
    · rintro ⟨i, h⟩
      obtain ⟨operand, hmade, -⟩ := map_eq_ok_iff.1 h
      exact (makeLookupSwitch_eq_ok_iff.1 hmade).1
    · intro hnodup
      rw [makeLookupSwitch_eq_ok_iff.2 ⟨hnodup, rfl⟩]
      exact ⟨_, rfl⟩
  · obtain ⟨operand, hmade, rfl⟩ := map_eq_ok_iff.1 h
    rcases makeLookupSwitch_cases fallback pairs with ⟨key, hrefused, -⟩ | ⟨hsorted, hlt⟩
    · rw [hrefused] at hmade
      cases hmade
    · rw [hsorted] at hmade
      cases hmade
      exact ⟨sortPairs pairs, rfl, sortPairs_perm pairs, hlt⟩
  · -- sorting forgets the order in which the pairs were given
    rw [makeLookupSwitch_eq_of_perm hperm]
    exact ⟨rfl, fun _ _ _ => rfl⟩

/-- Three keys, of which one is negative and comes last, and the same pairs
sorted. -/
theorem make_lookupSwitch_order_negative : ∃ opcode,
    Opcode.find? "lookupswitch" = some opcode
      ∧ (∃ i, make opcode (.lookupSwitch ⟨0⟩ [(10, ⟨1⟩), (3, ⟨2⟩), (-1, ⟨1⟩)]) = .ok i)
      ∧ make opcode (.lookupSwitch ⟨0⟩ [(-1, ⟨1⟩), (3, ⟨2⟩), (10, ⟨1⟩)])
        = make opcode (.lookupSwitch ⟨0⟩ [(10, ⟨1⟩), (3, ⟨2⟩), (-1, ⟨1⟩)]) := by
  have hkind : (⟨"lookupswitch", 0xab, .lookupSwitch⟩ : Opcode).kind = .lookupSwitch := rfl
  obtain ⟨hmade, -, horder⟩ :=
    make_lookupSwitch_order hkind ⟨0⟩ [(10, ⟨1⟩), (3, ⟨2⟩), (-1, ⟨1⟩)]
  exact ⟨_, rfl, hmade.2 (by decide), (horder _ (List.reverse_perm _)).1⟩

end Instruction

end BytecodeAssembler
