import BytecodeAssembler.Proofs.ConstantPool.Registration
import Mathlib.Algebra.GroupWithZero.Nat

/-!
# Reading indices back

A class file refers to constants by index, and whoever reads it counts the
entries: the first one has index 1, and an eight-byte constant takes two
indices. `constantAt?` counts in that way, without a look at the indices that
finalizing gave out. The two agree: the index of a constant leads back to the
constant (`Reachable.constantAt?_of_indexOf`), so no two constants share an
index. Both come down to the **slot** of an entry, which is 1 with the indices
of all entries before it.
-/

namespace BytecodeAssembler

/-- **The constant with an index**, where the first of the constants has
index `next`. The second index of an eight-byte constant leads nowhere. -/
def constantFrom : List Constant → Nat → Nat → Option Constant
  | [], _, _ => none
  | c :: rest, next, index =>
    if index = next then some c else constantFrom rest (next + c.width) index

theorem Constant.width_pos (c : Constant) : 0 < c.width := by
  cases c <;> exact Nat.succ_pos _

/-- The indices that several constants take. -/
def totalWidth (cs : List Constant) : Nat := (cs.map Constant.width).sum

@[simp] theorem totalWidth_nil : totalWidth [] = 0 := rfl

@[simp] theorem totalWidth_cons (c : Constant) (cs : List Constant) :
    totalWidth (c :: cs) = c.width + totalWidth cs := rfl

@[simp] theorem totalWidth_append (cs ds : List Constant) :
    totalWidth (cs ++ ds) = totalWidth cs + totalWidth ds := by
  unfold totalWidth
  rw [List.map_append, List.sum_append]

/-- **The constant with an index is the one before which so many indices are
taken.** -/
theorem constantFrom_eq_some_iff {cs : List Constant} {next index : Nat} {c : Constant} :
    constantFrom cs next index = some c
      ↔ ∃ k, cs[k]? = some c ∧ index = next + totalWidth (cs.take k) := by
  induction cs generalizing next with
  | nil => simp [constantFrom]
  | cons d cs ih =>
    have hwidth := d.width_pos
    unfold constantFrom
    by_cases hindex : index = next
    · -- any later constant has a larger index, for `d` takes at least one
      rw [if_pos hindex]
      constructor
      · intro h
        exact ⟨0, h, hindex⟩
      · rintro ⟨k, hk, heq⟩
        cases k with
        | zero => exact hk
        | succ k =>
          rw [List.take_succ_cons, totalWidth_cons] at heq
          omega
    · rw [if_neg hindex, ih]
      constructor
      · rintro ⟨k, hk, heq⟩
        refine ⟨k + 1, hk, ?_⟩
        rw [List.take_succ_cons, totalWidth_cons, ← Nat.add_assoc]
        exact heq
      · rintro ⟨k, hk, heq⟩
        cases k with
        | zero => exact absurd heq hindex
        | succ k =>
          rw [List.take_succ_cons, totalWidth_cons, ← Nat.add_assoc] at heq
          exact ⟨k, hk, heq⟩

namespace ConstantPool

variable {pool : ConstantPool} {c : Constant}

/-- **The constant that an index of the pool stands for.** -/
def constantAt? (pool : ConstantPool) (index : PoolIndex) : Option Constant :=
  constantFrom pool.entries.toList 1 index.toNat

/-- The class that an index of the pool stands for. -/
def classAt? (pool : ConstantPool) (index : PoolIndex) : Option String :=
  match pool.constantAt? index with
  | some (.classRef name) => some name
  | _ => none

/-- Indices given out are not changed later. -/
theorem numberFrom_keeps {cs : List Constant} {next : Nat} {done : Array PoolIndex}
    {n : Numbering} (h : numberFrom cs next done = .ok n) {k : Nat} (hk : k < done.size) :
    n.indices[k]? = done[k]? := by
  induction cs generalizing next done with
  | nil =>
    cases h
    rfl
  | cons c cs ih =>
    unfold numberFrom at h
    by_cases hfit : next + c.width ≤ 65535
    · rw [if_pos hfit] at h
      rw [ih h (by rw [Array.size_push]; omega), Array.getElem?_push, if_neg (by omega)]
    · rw [if_neg hfit] at h
      cases h

/-- **Numbering counts as a reader does**: the index given to a constant is
`next` with the indices of the constants before it, and all the indices of
the constant stay within two bytes. -/
theorem numberFrom_spec {cs : List Constant} {next : Nat} {done : Array PoolIndex}
    {n : Numbering} (h : numberFrom cs next done = .ok n) {k : Nat} {c : Constant}
    (hk : cs[k]? = some c) :
    n.indices[done.size + k]? = some (UInt16.ofNat (next + totalWidth (cs.take k)))
      ∧ next + totalWidth (cs.take k) + c.width ≤ 65535 := by
  induction cs generalizing next done k with
  | nil => cases hk
  | cons d cs ih =>
    unfold numberFrom at h
    by_cases hfit : next + d.width ≤ 65535
    · rw [if_pos hfit] at h
      cases k with
      | zero =>
        obtain rfl : d = c := Option.some.inj hk
        rw [Nat.add_zero, List.take_zero, totalWidth_nil, Nat.add_zero]
        refine ⟨?_, hfit⟩
        rw [numberFrom_keeps h (by rw [Array.size_push]; omega), Array.getElem?_push, if_pos rfl]
      | succ k =>
        obtain ⟨hindex, hbound⟩ := ih h hk
        rw [List.take_succ_cons, totalWidth_cons, ← Nat.add_assoc next]
        refine ⟨?_, hbound⟩
        rw [← hindex, Array.size_push, Nat.add_assoc, Nat.add_comm 1 k]
    · rw [if_neg hfit] at h
      cases h

/-- **Numbering only succeeds with enough indices**, and the count is then
one past the last of them. -/
theorem numberFrom_fits {cs : List Constant} {next : Nat} {done : Array PoolIndex}
    {n : Numbering} (hnext : next ≤ 65535) (h : numberFrom cs next done = .ok n) :
    next + totalWidth cs ≤ 65535 ∧ n.count = UInt16.ofNat (next + totalWidth cs) := by
  induction cs generalizing next done with
  | nil =>
    cases h
    exact ⟨hnext, rfl⟩
  | cons c cs ih =>
    unfold numberFrom at h
    by_cases hfit : next + c.width ≤ 65535
    · rw [if_pos hfit] at h
      rw [totalWidth_cons, ← Nat.add_assoc]
      exact ih hfit h
    · rw [if_neg hfit] at h
      cases h

/-- Numbering does succeed with enough indices. -/
theorem exists_numberFrom {cs : List Constant} {next : Nat} (done : Array PoolIndex)
    (hfit : next + totalWidth cs ≤ 65535) : ∃ n, numberFrom cs next done = .ok n := by
  induction cs generalizing next done with
  | nil => exact ⟨_, rfl⟩
  | cons c cs ih =>
    rw [totalWidth_cons, ← Nat.add_assoc] at hfit
    unfold numberFrom
    rw [if_pos (by omega)]
    exact ih _ hfit

/-! ## Indices of a pool -/

/-- **The first index of the `k`-th entry**, counted over the entries before
it. For the number of entries it is one past the last index. -/
def slot (pool : ConstantPool) (k : Nat) : Nat := 1 + totalWidth (pool.entries.toList.take k)

@[simp] theorem slot_zero (pool : ConstantPool) : pool.slot 0 = 1 := rfl

/-- The next entry starts behind the indices of the one before it. -/
theorem slot_succ {k : Nat} (hk : pool.entries[k]? = some c) :
    pool.slot (k + 1) = pool.slot k + c.width := by
  unfold slot
  rw [← Array.getElem?_toList] at hk
  rw [List.take_add_one, hk, totalWidth_append, Nat.add_assoc]
  rfl

theorem slot_mono (pool : ConstantPool) {k l : Nat} (h : k ≤ l) : pool.slot k ≤ pool.slot l := by
  unfold slot
  obtain ⟨later, hlater⟩ := List.take_prefix_take_left (l := pool.entries.toList) h
  rw [← hlater, totalWidth_append]
  omega

/-- An entry ends before any later entry starts. -/
theorem slot_add_width_le {k l : Nat} (hk : pool.entries[k]? = some c) (h : k < l) :
    pool.slot k + c.width ≤ pool.slot l := by
  rw [← slot_succ hk]
  exact pool.slot_mono h

/-- An entry of a finalized pool has its slot as index. -/
theorem Reachable.exists_indexOf_slot (h : pool.Reachable) {n : Numbering}
    (hn : pool.numbering = some n) {k : Nat} (hk : pool.entries[k]? = some c) :
    ∃ index, pool.indexOf c = .ok index ∧ index.toNat = pool.slot k := by
  obtain ⟨hindex, hbound⟩ := numberFrom_spec (h.wellFormed.numbered n hn)
    (Array.getElem?_toList.trans hk)
  have hwidth := c.width_pos
  refine ⟨UInt16.ofNat (pool.slot k), ?_, UInt16.toNat_ofNat_of_lt' ?_⟩
  · rw [List.size_toArray, List.length_nil, Nat.zero_add] at hindex
    unfold indexOf
    rw [hn, (h.wellFormed.indexed c k).2 hk]
    show Except.ok (n.indices.getD k 0) = _
    rw [Array.getD_eq_getD_getElem?, hindex]
    rfl
  · show 1 + totalWidth (pool.entries.toList.take k) < 65536
    omega

/-- **The index of a constant is the slot of its place.** -/
theorem Reachable.indexOf_eq_ok_iff (h : pool.Reachable) {n : Numbering}
    (hn : pool.numbering = some n) {index : PoolIndex} :
    pool.indexOf c = .ok index ↔ ∃ k, pool.entries[k]? = some c ∧ index.toNat = pool.slot k := by
  constructor
  · intro hindex
    obtain ⟨k, hk⟩ : ∃ k, pool.entries[k]? = some c := by
      unfold indexOf at hindex
      rw [hn] at hindex
      cases hpos : pool.positions[c]? with
      | none =>
        rw [hpos] at hindex
        cases hindex
      | some k => exact ⟨k, (h.wellFormed.indexed c k).1 hpos⟩
    obtain ⟨i, hi, hslot⟩ := h.exists_indexOf_slot hn hk
    obtain rfl : i = index := Except.ok.inj (hi.symm.trans hindex)
    exact ⟨k, hk, hslot⟩
  · rintro ⟨k, hk, hindex⟩
    obtain ⟨i, hi, hslot⟩ := h.exists_indexOf_slot hn hk
    rw [hi, UInt16.toNat_inj.1 (hslot.trans hindex.symm)]

/-- Only entries have an index. -/
theorem Reachable.mem_of_indexOf (h : pool.Reachable) {n : Numbering}
    (hn : pool.numbering = some n) {index : PoolIndex} (hindex : pool.indexOf c = .ok index) :
    c ∈ pool.entries := by
  obtain ⟨k, hk, -⟩ := (h.indexOf_eq_ok_iff hn).1 hindex
  exact Array.mem_of_getElem? hk

/-- **Exactly the entries have an index.** -/
theorem Reachable.exists_indexOf_iff (h : pool.Reachable) {n : Numbering}
    (hn : pool.numbering = some n) : (∃ index, pool.indexOf c = .ok index) ↔ c ∈ pool.entries :=
  ⟨fun ⟨_, hindex⟩ => h.mem_of_indexOf hn hindex, h.wellFormed.exists_indexOf hn⟩

/-- **Exactly the constants added and what they lead to have an index**, once
the pool that they were added to is finalized. -/
theorem exists_indexOf_iff_registered {added : List Constant} {opened : ConstantPool}
    (hadd : empty.addAll added = .ok opened) (hfinal : opened.finalize = .ok pool) :
    (∃ index, pool.indexOf c = .ok index) ↔ Constant.Registered added c := by
  obtain ⟨_, hok, hreach, -, hmem⟩ := addAll_empty added
  cases hok.symm.trans hadd
  obtain ⟨n, hn⟩ := exists_numbering_of_finalize hfinal
  rw [(hreach.finalize hfinal).exists_indexOf_iff hn, entries_of_finalize hfinal]
  exact hmem c

/-- **The count is one more than all indices taken.** -/
theorem Reachable.exists_count (h : pool.Reachable) {n : Numbering}
    (hn : pool.numbering = some n) :
    ∃ count, pool.count = .ok count ∧ count.toNat = 1 + totalWidth pool.entries.toList
      ∧ 1 + totalWidth pool.entries.toList ≤ 65535 := by
  obtain ⟨hfit, hcount⟩ := numberFrom_fits (by decide) (h.wellFormed.numbered n hn)
  refine ⟨n.count, ?_, ?_, hfit⟩
  · unfold ConstantPool.count
    rw [hn]
  · rw [hcount]
    exact UInt16.toNat_ofNat_of_lt' (Nat.lt_succ_of_le hfit)

/-- An index is only given out by a finalized pool. -/
theorem exists_numbering_of_indexOf {index : PoolIndex} (h : pool.indexOf c = .ok index) :
    ∃ n, pool.numbering = some n := by
  unfold indexOf at h
  cases hn : pool.numbering with
  | none =>
    rw [hn] at h
    cases h
  | some n => exact ⟨n, rfl⟩

/-- Index 0 is never given out. -/
theorem Reachable.indexOf_ne_zero (h : pool.Reachable) {index : PoolIndex}
    (hindex : pool.indexOf c = .ok index) : index ≠ 0 := by
  obtain ⟨n, hn⟩ := exists_numbering_of_indexOf hindex
  obtain ⟨k, -, heq⟩ := (h.indexOf_eq_ok_iff hn).1 hindex
  have hslot := pool.slot_mono (Nat.zero_le k)
  rintro rfl
  rw [slot_zero, ← heq] at hslot
  exact absurd hslot (by decide)

/-- **The index of a constant leads back to the constant.** -/
theorem Reachable.constantAt?_of_indexOf (h : pool.Reachable) {index : PoolIndex}
    (hindex : pool.indexOf c = .ok index) : pool.constantAt? index = some c := by
  obtain ⟨n, hn⟩ := exists_numbering_of_indexOf hindex
  obtain ⟨k, hk, heq⟩ := (h.indexOf_eq_ok_iff hn).1 hindex
  exact constantFrom_eq_some_iff.2 ⟨k, Array.getElem?_toList.trans hk, heq⟩

/-- The index of a class leads back to the class. -/
theorem Reachable.classAt?_of_classIndex (h : pool.Reachable) {name : String}
    {index : PoolIndex} (hindex : pool.classIndex name = .ok index) :
    pool.classAt? index = some name := by
  unfold classAt?
  rw [h.constantAt?_of_indexOf hindex]

end ConstantPool

end BytecodeAssembler
