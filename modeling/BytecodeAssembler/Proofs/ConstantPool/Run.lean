import BytecodeAssembler.Proofs.ConstantPool.Numbering
import Mathlib.Data.List.Nodup

/-!
# Runs of a constant pool

A pool is changed by two operations, **adding** a constant and **finalizing**;
all others only read it. A run is any sequence of the two, and an operation
that fails leaves the pool as it was. Adding enters a constant first and goes
on to what the constant refers to afterwards, so that in between the pool
refers to constants it does not have (`Indexed.register_eq_foldl`).

The invariant of runs has two parts. In every pool of a run the entries are
distinct, their places are known, and what they refer to is there; until it is
finalized, they are the constants given to it and all that those lead to. From
finalizing on, the indices follow the entries without gap or overlap, exactly
the constants registered have one, and nothing changes any more
(`run_invariant`).
-/

namespace BytecodeAssembler

namespace Constant

/-- No constant refers to itself. -/
theorem not_mem_dependencies_self (c : Constant) : c ∉ c.dependencies := by
  cases c <;> simp [dependencies]

/-- What a constant refers to has everything below it one step further
down. -/
theorem withDependencies_of_mem_dependencies {c d : Constant} (hd : d ∈ c.dependencies) :
    d.withDependencies = d :: d.dependencies := by
  have hflat : (d.dependencies.flatMap fun e => e :: e.dependencies)
      = d.dependencies.flatMap fun e => [e] := by
    refine List.flatMap_congr fun e he => ?_
    obtain ⟨text, rfl⟩ := eq_utf8_of_mem_dependencies hd he
    rfl
  rw [withDependencies, hflat, List.flatMap_singleton']

end Constant

namespace ConstantPool

variable {pool : ConstantPool} {c d : Constant}

/-! ## Distinct entries -/

/-- **No constant is entered twice.** -/
theorem Indexed.nodup (h : pool.Indexed) : pool.entries.toList.Nodup := by
  rw [List.nodup_iff_getElem?_ne_getElem?]
  intro i j hij hj heq
  obtain ⟨c, hc⟩ : ∃ c, pool.entries.toList[j]? = some c := ⟨_, List.getElem?_eq_getElem hj⟩
  rw [hc] at heq
  rw [Array.getElem?_toList, ← h c] at heq hc
  exact absurd (Option.some.inj (heq.symm.trans hc)) (Nat.ne_of_lt hij)

/-! ## Adding goes down to what a constant refers to -/

/-- Registering what a constant refers to enters it and what it refers to
itself, as long as the pool has the one only with the other. -/
theorem Indexed.register_dependency (h : pool.Indexed) (hd : d ∈ c.dependencies)
    (hclosed : d ∈ pool.entries → ∀ e ∈ d.dependencies, e ∈ pool.entries) :
    pool.register d = (d :: d.dependencies).foldl ConstantPool.insert pool := by
  unfold register
  by_cases hmem : d ∈ pool.entries
  · rw [if_pos (h.contains_iff.2 hmem), foldl_insert_of_mem h]
    exact List.forall_mem_cons.2 ⟨hmem, hclosed hmem⟩
  · rw [if_neg (mt h.contains_iff.1 hmem), Constant.withDependencies_of_mem_dependencies hd]

/-- **Registering the constants that a constant refers to**, in a pool that
has each of them only with what it refers to itself. -/
theorem Indexed.foldl_register (h : pool.Indexed) {ds : List Constant}
    (hds : ∀ d ∈ ds, d ∈ c.dependencies)
    (hclosed : ∀ d ∈ c.dependencies, d ∈ pool.entries → ∀ e ∈ d.dependencies, e ∈ pool.entries) :
    ds.foldl ConstantPool.register pool
      = (ds.flatMap fun d => d :: d.dependencies).foldl ConstantPool.insert pool := by
  induction ds generalizing pool with
  | nil => rfl
  | cons d ds ih =>
    obtain ⟨hd, hds⟩ := List.forall_mem_cons.1 hds
    obtain ⟨hindexed, hmem, -⟩ := foldl_insert (d :: d.dependencies) h
    rw [List.foldl_cons, h.register_dependency hd (hclosed d hd), List.flatMap_cons,
      List.foldl_append]
    refine ih hindexed hds fun e he hin f hf => ?_
    -- an entry of the larger pool was there before, or is `d`, or is a text
    rw [hmem] at hin ⊢
    rcases hin with hin | hin
    · exact .inl (hclosed e he hin f hf)
    · rcases List.mem_cons.1 hin with rfl | hin
      · exact .inr (List.mem_cons_of_mem e hf)
      · obtain ⟨text, rfl⟩ := Constant.eq_utf8_of_mem_dependencies hd hin
        cases hf

/-- **Registering a new constant enters it and then registers each constant
it refers to**, in a pool that has each of them only with what it refers to
itself. The pool is not closed in between. -/
theorem Indexed.register_eq_foldl (h : pool.Indexed)
    (hclosed : ∀ d ∈ c.dependencies, d ∈ pool.entries → ∀ e ∈ d.dependencies, e ∈ pool.entries)
    (hc : c ∉ pool.entries) :
    pool.register c = c.dependencies.foldl ConstantPool.register (pool.insert c) := by
  rw [(h.insert c).foldl_register (fun d hd => hd)]
  · unfold ConstantPool.register
    rw [if_neg (mt h.contains_iff.1 hc)]
    rfl
  · intro d hd hin e he
    rw [mem_insert_iff h] at hin ⊢
    rcases hin with hin | rfl
    · exact .inl (hclosed d hd hin e he)
    · exact absurd hd (Constant.not_mem_dependencies_self d)

/-! ## The indices of a finalized pool -/

/-- A pool is finalized exactly if it was not and has enough indices. -/
theorem exists_finalize_iff :
    (∃ pool', pool.finalize = .ok pool')
      ↔ pool.numbering = none ∧ 1 + totalWidth pool.entries.toList ≤ 65535 := by
  constructor
  · rintro ⟨pool', h⟩
    obtain ⟨hopen, n, hn, -⟩ := finalize_eq_ok_iff.1 h
    exact ⟨hopen, (numberFrom_fits (by decide) hn).1⟩
  · rintro ⟨hopen, hfit⟩
    obtain ⟨n, hn⟩ := exists_numberFrom #[] hfit
    exact ⟨_, finalize_eq_ok_iff.2 ⟨hopen, n, hn, rfl⟩⟩

/-- **The indices are those of the entries**, one after the other: what
finalizing promises. -/
structure Numbered (pool : ConstantPool) : Prop where
  /-- The first entry has index 1. -/
  first : ∀ c, pool.entries[0]? = some c → pool.indexOf c = .ok 1
  /-- The index of an entry is behind the indices that the one before it
  takes. -/
  next : ∀ k c d, pool.entries[k]? = some c → pool.entries[k + 1]? = some d →
    ∃ i j, pool.indexOf c = .ok i ∧ pool.indexOf d = .ok j ∧ j.toNat = i.toNat + c.width
  /-- The count is one more than all indices taken, which fits in two
  bytes. -/
  count : ∃ total, pool.count = .ok total
    ∧ total.toNat = 1 + (pool.entries.toList.map Constant.width).sum
    ∧ 1 + (pool.entries.toList.map Constant.width).sum ≤ 65535
  /-- Exactly the entries have an index. -/
  registered : ∀ c, (∃ i, pool.indexOf c = .ok i) ↔ c ∈ pool.entries
  /-- The indices that a constant takes lie before or behind those of any
  other constant. -/
  apart : ∀ c d i j, pool.indexOf c = .ok i → pool.indexOf d = .ok j → c ≠ d →
    i.toNat + c.width ≤ j.toNat ∨ j.toNat + d.width ≤ i.toNat

/-- **A finalized pool is numbered.** -/
theorem Reachable.numbered (h : pool.Reachable) {n : Numbering} (hn : pool.numbering = some n) :
    pool.Numbered where
  first c hc := by
    refine (h.indexOf_eq_ok_iff hn).2 ⟨0, hc, ?_⟩
    rw [slot_zero]
    rfl
  next k c d hc hd := by
    obtain ⟨i, hi, hislot⟩ := h.exists_indexOf_slot hn hc
    obtain ⟨j, hj, hjslot⟩ := h.exists_indexOf_slot hn hd
    refine ⟨i, j, hi, hj, ?_⟩
    rw [hislot, hjslot, slot_succ hc]
  count := h.exists_count hn
  registered _ := h.exists_indexOf_iff hn
  apart c d i j hi hj hne := by
    obtain ⟨k, hk, hik⟩ := (h.indexOf_eq_ok_iff hn).1 hi
    obtain ⟨l, hl, hjl⟩ := (h.indexOf_eq_ok_iff hn).1 hj
    rw [hik, hjl]
    -- the one registered first takes up all its indices before the other begins
    rcases Nat.lt_trichotomy k l with hlt | rfl | hlt
    · exact .inl (slot_add_width_le hk hlt)
    · exact absurd (Option.some.inj (hk.symm.trans hl)) hne
    · exact .inr (slot_add_width_le hl hlt)

/-! ## Runs -/

/-- **An operation that can change a pool.** -/
inductive Operation where
  | add (c : Constant)
  | finalize
  deriving DecidableEq, Repr

/-- The outcome of an operation. -/
def Operation.apply : Operation → ConstantPool → Except Fault ConstantPool
  | .add c, pool => pool.add c
  | .finalize, pool => pool.finalize

/-- **The pool after an operation.** One that fails leaves it as it was. -/
def step (pool : ConstantPool) (op : Operation) : ConstantPool :=
  (op.apply pool).toOption.getD pool

/-- **The pool after a run**, which starts with an empty one. -/
def run (ops : List Operation) : ConstantPool := ops.foldl step empty

/-- The constant that an operation adds. -/
def Operation.constant? : Operation → Option Constant
  | .add c => some c
  | .finalize => none

/-- **The constants that operations add.** -/
def added (ops : List Operation) : List Constant := ops.filterMap Operation.constant?

theorem step_of_ok {op : Operation} {pool' : ConstantPool} (h : op.apply pool = .ok pool') :
    pool.step op = pool' := by
  unfold step
  rw [h]
  rfl

theorem step_of_error {op : Operation} {fault : Fault} (h : op.apply pool = .error fault) :
    pool.step op = pool := by
  unfold step
  rw [h]
  rfl

theorem Reachable.step (h : pool.Reachable) (op : Operation) : (pool.step op).Reachable := by
  cases happly : op.apply pool with
  | error fault => rwa [step_of_error happly]
  | ok pool' =>
    rw [step_of_ok happly]
    cases op with
    | add c => exact h.add happly
    | finalize => exact h.finalize happly

theorem Reachable.foldl_step (h : pool.Reachable) (ops : List Operation) :
    (ops.foldl ConstantPool.step pool).Reachable := by
  induction ops generalizing pool with
  | nil => exact h
  | cons op ops ih => exact ih (h.step op)

theorem reachable_run (ops : List Operation) : (run ops).Reachable :=
  Reachable.empty.foldl_step ops

/-- **No operation changes a finalized pool.** -/
theorem step_of_final {n : Numbering} (hn : pool.numbering = some n) (op : Operation) :
    pool.step op = pool := by
  cases happly : op.apply pool with
  | error fault => exact step_of_error happly
  | ok pool' =>
    have hopen : pool.numbering = none := by
      cases op with
      | add c => exact (add_eq_ok_iff.1 happly).1
      | finalize => exact (finalize_eq_ok_iff.1 happly).1
    rw [hn] at hopen
    cases hopen

theorem foldl_step_of_final {n : Numbering} (hn : pool.numbering = some n)
    (ops : List Operation) : ops.foldl step pool = pool := by
  induction ops with
  | nil => rfl
  | cons op ops ih => rw [List.foldl_cons, step_of_final hn, ih]

/-- An operation that leaves the pool open adds its constant, if it has
one. -/
theorem addAll_of_step {op : Operation} (hopen : (pool.step op).numbering = none) :
    pool.addAll op.constant?.toList = .ok (pool.step op) := by
  have hbefore : pool.numbering = none := by
    cases hn : pool.numbering with
    | none => rfl
    | some n => rw [step_of_final hn, hn] at hopen; exact hopen
  cases op with
  | add c =>
    have hadd : pool.add c = .ok (pool.register c) := add_eq_ok_iff.2 ⟨hbefore, rfl⟩
    rw [show pool.step (.add c) = pool.register c from step_of_ok hadd]
    exact (bind_pure (pool.add c)).trans hadd
  | finalize =>
    -- the pool is open afterwards, so it could not be finalized
    cases hfinal : pool.finalize with
    | error fault =>
      have hsame : pool.step .finalize = pool := step_of_error hfinal
      exact congrArg Except.ok hsame.symm
    | ok pool' =>
      obtain ⟨n, hn⟩ := exists_numbering_of_finalize hfinal
      rw [show pool.step .finalize = pool' from step_of_ok hfinal, hn] at hopen
      cases hopen

/-- **As long as a pool is open, it has taken every constant that it was
given.** -/
theorem addAll_of_foldl_step (ops : List Operation)
    (hopen : (ops.foldl step pool).numbering = none) :
    pool.addAll (added ops) = .ok (ops.foldl step pool) := by
  induction ops generalizing pool with
  | nil => rfl
  | cons op ops ih =>
    have hstep : (pool.step op).numbering = none := by
      cases hn : (pool.step op).numbering with
      | none => rfl
      | some n => rw [List.foldl_cons, foldl_step_of_final hn, hn] at hopen; exact hopen
    calc pool.addAll (added (op :: ops))
        = pool.addAll op.constant?.toList >>= fun p => p.addAll (added ops) := by
          unfold addAll added
          rw [← List.foldlM_append, List.filterMap_cons]
          cases op.constant? <;> rfl
      _ = .ok ((op :: ops).foldl step pool) := by
          rw [addAll_of_step hstep]
          exact ih hopen

/-- **The invariant of runs.** After any operations the entries are distinct,
each has its place, and what they refer to is among them; as long as the pool
is open, they are the constants added and all that these lead to. Once
finalizing succeeds, the indices are those of the entries, one after the other
and apart from each other. Exactly the constants registered by then have an
index, and no later operation changes anything. -/
theorem run_invariant (ops later : List Operation) :
    (run ops).entries.toList.Nodup
      ∧ (∀ (c : Constant) (k : Nat),
        (run ops).positions[c]? = some k ↔ (run ops).entries[k]? = some c)
      ∧ (∀ c ∈ (run ops).entries, ∀ d ∈ c.dependencies, d ∈ (run ops).entries)
      ∧ ((run ops).numbering = none →
        ∀ c, c ∈ (run ops).entries ↔ Constant.Registered (added ops) c)
      ∧ ∀ pool, (run ops).finalize = .ok pool →
        pool.Numbered
          ∧ (∀ c, (∃ i, pool.indexOf c = .ok i) ↔ Constant.Registered (added ops) c)
          ∧ run (ops ++ .finalize :: later) = pool := by
  have hreach := reachable_run ops
  have hformed := hreach.wellFormed
  refine ⟨hformed.indexed.nodup, hformed.indexed, hformed.closed, fun hopen => ?_,
    fun pool hfinal => ?_⟩
  · obtain ⟨_, hok, -, -, hmem⟩ := addAll_empty (added ops)
    cases hok.symm.trans (addAll_of_foldl_step ops hopen)
    exact hmem
  · obtain ⟨n, hn⟩ := exists_numbering_of_finalize hfinal
    have hopen : (run ops).numbering = none := (finalize_eq_ok_iff.1 hfinal).1
    refine ⟨(hreach.finalize hfinal).numbered hn,
      fun c => exists_indexOf_iff_registered (addAll_of_foldl_step ops hopen) hfinal, ?_⟩
    calc run (ops ++ .finalize :: later)
        = later.foldl step ((run ops).step .finalize) := by
          unfold run
          rw [List.foldl_append, List.foldl_cons]
      _ = later.foldl step pool := by
          rw [show (run ops).step .finalize = pool from step_of_ok hfinal]
      _ = pool := foldl_step_of_final hn later

/-- A run that adds a field of a class, a `long`, the class once more, and a
text. -/
def mixedRun : List Operation :=
  [.add (.fieldRef ⟨"A", "f", "J"⟩), .add (.long 5), .add (.classRef "A"), .add (.utf8 "t")]

/-- The pool of that run is open, and has the class only once. -/
theorem run_mixedRun : (run mixedRun).numbering = none ∧ (run mixedRun).entries
    = #[.fieldRef ⟨"A", "f", "J"⟩, .classRef "A", .utf8 "A", .nameAndType "f" "J", .utf8 "f",
      .utf8 "J", .long 5, .utf8 "t"] := by
  simp [run, mixedRun, step, Operation.apply, add, checkOpen, isFinal, empty, register, insert,
    Constant.withDependencies, Constant.dependencies, Except.map, Except.toOption]

/-- The text behind the `long` has an index two further on, and keeps it
whatever is tried after finalizing. The type of the field was never added on
its own, but has an index too. -/
theorem run_invariant_mixed : ∃ pool i j k, (run mixedRun).finalize = .ok pool
    ∧ pool.indexOf (.long 5) = .ok i ∧ pool.indexOf (.utf8 "t") = .ok j
    ∧ j.toNat = i.toNat + 2 ∧ pool.indexOf (.utf8 "J") = .ok k
    ∧ run (mixedRun ++ [.finalize, .add (.utf8 "late"), .finalize]) = pool := by
  obtain ⟨hopen, hentries⟩ := run_mixedRun
  obtain ⟨pool, hfinal⟩ : ∃ pool, (run mixedRun).finalize = .ok pool := by
    refine exists_finalize_iff.2 ⟨hopen, ?_⟩
    rw [hentries]
    decide
  obtain ⟨-, -, -, -, hall⟩ := run_invariant mixedRun [.add (.utf8 "late"), .finalize]
  obtain ⟨hnumbered, hregistered, hlater⟩ := hall pool hfinal
  obtain ⟨k, hk⟩ := (hregistered (.utf8 "J")).2
    ⟨.fieldRef ⟨"A", "f", "J"⟩, by decide, Constant.mem_withDependencies_iff.1 (by decide)⟩
  rw [← entries_of_finalize hfinal] at hentries
  obtain ⟨i, j, hi, hj, heq⟩ := hnumbered.next 6 (.long 5) (.utf8 "t")
    (by rw [hentries]; rfl) (by rw [hentries]; rfl)
  exact ⟨pool, i, j, k, hfinal, hi, hj, heq, hk, hlater⟩

end ConstantPool

end BytecodeAssembler
