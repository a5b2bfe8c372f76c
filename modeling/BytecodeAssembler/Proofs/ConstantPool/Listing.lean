import BytecodeAssembler.Proofs.ConstantPool.Numbering

/-!
# The pool of a list of constants

A pool finds its constants through a hash map, and what it comes to depends on
what was there when each of them was added. Both can be left out of account.
The constants added, each with everything below it, stand in one list, and the
entries of the pool are those of the list where they first come
(`entriesOf`). With its entries the whole pool is known (`ofEntries`), and the
index of an entry is counted over the entries before it.

`Lists` puts this to use: once the entries of some constants have been worked
out, their pool is made, is finalized, and has the index of any of its entries
by the place of the entry.
-/

namespace BytecodeAssembler

namespace ConstantPool

variable {added entries : List Constant} {c : Constant}

/-- Put a constant behind the others unless it is among them. -/
def listNew (entries : List Constant) (c : Constant) : List Constant :=
  if c ∈ entries then entries else entries ++ [c]

/-- **The entries of the pool to which some constants are added.** -/
def entriesOf (added : List Constant) : List Constant :=
  (added.flatMap Constant.withDependencies).foldl listNew []

/-- Entering constants that are all there changes nothing. -/
theorem foldl_listNew_of_mem {cs : List Constant} (h : ∀ c ∈ cs, c ∈ entries) :
    cs.foldl listNew entries = entries := by
  induction cs with
  | nil => rfl
  | cons c cs ih =>
    rw [List.forall_mem_cons] at h
    rw [List.foldl_cons, listNew, if_pos h.1, ih h.2]

/-- Constants that lead to nothing new make no entries. -/
theorem entriesOf_append_of_mem {cs : List Constant}
    (h : ∀ c ∈ cs, ∀ d ∈ c.withDependencies, d ∈ entriesOf added) :
    entriesOf (added ++ cs) = entriesOf added := by
  have hmem : ∀ d ∈ cs.flatMap Constant.withDependencies, d ∈ entriesOf added := by
    intro d hd
    obtain ⟨c, hc, hd⟩ := List.mem_flatMap.1 hd
    exact h c hc d hd
  rw [entriesOf, List.flatMap_append, List.foldl_append]
  exact foldl_listNew_of_mem hmem

/-- **The finalized pool with the given entries.** -/
def ofEntries (entries : List Constant) : ConstantPool where
  entries := entries.toArray
  positions := entries.zipIdx.foldl (fun positions (c, k) => positions.insert c k) ∅
  numbering := (numberFrom entries 1 #[]).toOption

/-- The pool with the given entries before it is finalized. -/
def openWith (entries : List Constant) : ConstantPool :=
  { ofEntries entries with numbering := none }

/-- Entering a constant in the pool is entering it in the list. -/
theorem insert_openWith (h : (openWith entries).Indexed) (c : Constant) :
    (openWith entries).insert c = openWith (listNew entries c) := by
  have hmem : c ∈ (openWith entries).entries ↔ c ∈ entries := List.mem_toArray
  unfold listNew
  by_cases hc : c ∈ entries
  · rw [if_pos hc, insert_of_mem h (hmem.2 hc)]
  · -- the new place is the number of entries so far, which is where the list goes on
    rw [if_neg hc, insert_of_not_mem h (mt hmem.1 hc)]
    simp [openWith, ofEntries, List.zipIdx_append]

theorem foldl_insert_openWith (cs : List Constant) (h : (openWith entries).Indexed) :
    cs.foldl insert (openWith entries) = openWith (cs.foldl listNew entries) := by
  induction cs generalizing entries with
  | nil => rfl
  | cons c cs ih =>
    have hstep := insert_openWith h c
    rw [List.foldl_cons, List.foldl_cons, hstep, ih (hstep ▸ h.insert c)]

/-- Adding constants to an open pool enters everything below each of them. -/
theorem addAll_eq_foldl_insert {pool : ConstantPool} (cs : List Constant) (h : pool.WellFormed)
    (hopen : pool.numbering = none) :
    pool.addAll cs = .ok ((cs.flatMap Constant.withDependencies).foldl insert pool) := by
  induction cs generalizing pool with
  | nil => rfl
  | cons c cs ih =>
    have hadd : pool.add c = .ok (pool.register c) := add_eq_ok_iff.2 ⟨hopen, rfl⟩
    have hstill : (pool.register c).numbering = none :=
      (numbering_register h.indexed c).trans hopen
    show (do let p ← pool.add c; p.addAll cs) = _
    rw [hadd, List.flatMap_cons, List.foldl_append, ← h.register_eq]
    exact ih (h.register hopen c) hstill

/-- **Adding constants to a new pool**, without the pool. -/
theorem addAll_eq_openWith (added : List Constant) :
    empty.addAll added = .ok (openWith (entriesOf added)) := by
  have hempty : (openWith []).Indexed := indexed_empty
  rw [addAll_eq_foldl_insert added wellFormed_empty rfl]
  exact congrArg Except.ok (foldl_insert_openWith _ hempty)

/-- **What the entries of some constants are**, with indices for all of
them. -/
structure Lists (added entries : List Constant) : Prop where
  /-- These are the entries. -/
  entriesOf_eq : entriesOf added = entries
  /-- The last index is below 65535. -/
  fits : 1 + totalWidth entries ≤ 65535

namespace Lists

theorem addAll (h : Lists added entries) : empty.addAll added = .ok (openWith entries) := by
  rw [addAll_eq_openWith, h.entriesOf_eq]

theorem finalize (h : Lists added entries) :
    (openWith entries).finalize = .ok (ofEntries entries) := by
  obtain ⟨n, hn⟩ := exists_numberFrom #[] h.fits
  refine finalize_eq_ok_iff.2 ⟨rfl, n, hn, ?_⟩
  unfold openWith ofEntries
  rw [hn]
  rfl

theorem reachable (h : Lists added entries) : (ofEntries entries).Reachable := by
  obtain ⟨pool, hadd, hreach, -⟩ := addAll_empty added
  obtain rfl : pool = openWith entries := Except.ok.inj (hadd.symm.trans h.addAll)
  exact hreach.finalize h.finalize

/-- **The index of the `k`-th entry** is counted over the entries before
it. -/
theorem indexOf (h : Lists added entries) (k : Nat) {index : PoolIndex} (hk : entries[k]? = some c)
    (hindex : index.toNat = 1 + totalWidth (entries.take k)) :
    (ofEntries entries).indexOf c = .ok index := by
  obtain ⟨n, hn⟩ := exists_numbering_of_finalize h.finalize
  exact (h.reachable.indexOf_eq_ok_iff hn).2 ⟨k, List.getElem?_toArray.trans hk, hindex⟩

end Lists

end ConstantPool

end BytecodeAssembler
