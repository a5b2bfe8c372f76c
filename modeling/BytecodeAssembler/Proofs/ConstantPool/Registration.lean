import BytecodeAssembler.Attribute
import BytecodeAssembler.Proofs.Outcome
import Mathlib.Logic.Relation

/-!
# What registering constants gives

A pool keeps its constants twice, as a list of entries and as a map from
constants to places in that list. `WellFormed` says that the two agree, that
the list is closed under what its entries refer to, and that the indices,
once given out, are those of the entries. Every pool that its operations can
make is well formed (`Reachable.wellFormed`).

The point of registering is that a finalized pool has an index for whatever
was registered: it **supplies** those constants, and so the entries of the
pool itself can be written too.
-/

namespace BytecodeAssembler

namespace Constant

/-- What is two steps below a constant is a text. -/
theorem eq_utf8_of_mem_dependencies {c d e : Constant} (hd : d ∈ c.dependencies)
    (he : e ∈ d.dependencies) : ∃ text, e = .utf8 text := by
  cases c with
  | utf8 | integer | float | long | double => cases hd
  | classRef | string =>
    obtain rfl := List.mem_singleton.1 hd
    cases he
  | nameAndType name descriptor =>
    simp only [dependencies, List.mem_cons, List.not_mem_nil, or_false] at hd
    rcases hd with rfl | rfl <;> cases he
  | fieldRef m | methodRef m | interfaceMethodRef m =>
    simp only [dependencies, List.mem_cons, List.not_mem_nil, or_false] at hd
    rcases hd with rfl | rfl
    · exact ⟨m.owner, List.mem_singleton.1 he⟩
    · simp only [dependencies, List.mem_cons, List.not_mem_nil, or_false] at he
      rcases he with rfl | rfl
      · exact ⟨m.name, rfl⟩
      · exact ⟨m.descriptor, rfl⟩

/-- **A constant with everything below it is closed** under what constants
refer to. -/
theorem mem_withDependencies_of_mem_dependencies {c d e : Constant}
    (hd : d ∈ c.withDependencies) (he : e ∈ d.dependencies) : e ∈ c.withDependencies := by
  simp only [withDependencies, List.mem_cons, List.mem_flatMap] at hd ⊢
  rcases hd with rfl | ⟨d', hd', rfl | hd⟩
  · exact .inr ⟨e, he, .inl rfl⟩
  · exact .inr ⟨d, hd', .inr he⟩
  · -- `d` is two steps below already, so it is a text and refers to nothing
    obtain ⟨text, rfl⟩ := eq_utf8_of_mem_dependencies hd' hd
    cases he

theorem self_mem_withDependencies (c : Constant) : c ∈ c.withDependencies :=
  List.mem_cons_self

/-- **Everything below a constant** is what can be reached from it by going
on to what constants refer to, in any number of steps. -/
theorem mem_withDependencies_iff {c e : Constant} :
    e ∈ c.withDependencies ↔ Relation.ReflTransGen (fun a b => b ∈ a.dependencies) c e := by
  constructor
  · intro he
    simp only [withDependencies, List.mem_cons, List.mem_flatMap] at he
    rcases he with rfl | ⟨d, hd, rfl | he⟩
    · exact .refl
    · exact .single hd
    · exact .tail (.single hd) he
  · intro h
    induction h with
    | refl => exact self_mem_withDependencies c
    | tail _ he ih => exact mem_withDependencies_of_mem_dependencies ih he

/-- **The constants that adding registers**: those added and all that can be
reached from them. -/
def Registered (added : List Constant) (c : Constant) : Prop :=
  ∃ d ∈ added, Relation.ReflTransGen (fun a b => b ∈ a.dependencies) d c

end Constant

namespace ConstantPool

variable {pool : ConstantPool} {c d : Constant}

/-! ## Entries and places -/

/-- **The places are those of the entries**: a constant has the place `k`
exactly if it is the `k`-th entry. So no constant is entered twice. -/
def Indexed (pool : ConstantPool) : Prop :=
  ∀ (c : Constant) (k : Nat), pool.positions[c]? = some k ↔ pool.entries[k]? = some c

theorem indexed_empty : empty.Indexed := by
  intro c k
  simp [empty]

/-- A constant has a place exactly if it is an entry. -/
theorem Indexed.contains_iff (h : pool.Indexed) :
    pool.positions.contains c = true ↔ c ∈ pool.entries := by
  rw [Std.HashMap.contains_eq_isSome_getElem?, Option.isSome_iff_exists,
    Array.mem_iff_getElem?]
  exact exists_congr fun k => h c k

/-- Entering a constant that is there changes nothing. -/
theorem insert_of_mem (h : pool.Indexed) (hc : c ∈ pool.entries) : pool.insert c = pool :=
  if_pos (h.contains_iff.2 hc)

/-- Entering a new constant puts it last. -/
theorem insert_of_not_mem (h : pool.Indexed) (hc : c ∉ pool.entries) :
    pool.insert c = { pool with
      entries := pool.entries.push c
      positions := pool.positions.insert c pool.entries.size } :=
  if_neg fun hmem => hc (h.contains_iff.1 hmem)

/-- **Entering a constant keeps places and entries in step.** -/
theorem Indexed.insert (h : pool.Indexed) (c : Constant) : (pool.insert c).Indexed := by
  by_cases hc : c ∈ pool.entries
  · rw [insert_of_mem h hc]
    exact h
  · rw [insert_of_not_mem h hc]
    intro d k
    show (pool.positions.insert c pool.entries.size)[d]? = some k
      ↔ (pool.entries.push c)[k]? = some d
    rw [Std.HashMap.getElem?_insert, Array.getElem?_push]
    by_cases hcd : c = d
    · -- the new constant has the new place and no other
      subst hcd
      rw [if_pos (beq_self_eq_true c)]
      by_cases hk : k = pool.entries.size
      · rw [if_pos hk, hk]
        exact ⟨fun _ => rfl, fun _ => rfl⟩
      · rw [if_neg hk]
        refine ⟨fun hsome => absurd (Option.some.inj hsome).symm hk, fun hsome => ?_⟩
        exact absurd (Array.mem_of_getElem? hsome) hc
    · -- any other constant keeps its place, which is not the new one
      rw [if_neg (by simpa using hcd), h d k]
      by_cases hk : k = pool.entries.size
      · rw [if_pos hk, hk, Array.getElem?_size]
        refine ⟨fun hsome => ?_, fun hsome => absurd (Option.some.inj hsome) hcd⟩
        cases hsome
      · rw [if_neg hk]

/-- What is an entry after a constant was entered. -/
theorem mem_insert_iff (h : pool.Indexed) :
    d ∈ (pool.insert c).entries ↔ d ∈ pool.entries ∨ d = c := by
  by_cases hc : c ∈ pool.entries
  · rw [insert_of_mem h hc]
    exact ⟨.inl, fun hd => hd.elim id fun hdc => hdc ▸ hc⟩
  · rw [insert_of_not_mem h hc]
    exact Array.mem_push

theorem numbering_insert (pool : ConstantPool) (c : Constant) :
    (pool.insert c).numbering = pool.numbering := by
  unfold insert
  by_cases hc : pool.positions.contains c
  · rw [if_pos hc]
  · rw [if_neg hc]

/-- **What entering several constants gives**: places and entries in step,
the entries that were there with the new ones, and no indices that were not
there. -/
theorem foldl_insert (cs : List Constant) (h : pool.Indexed) :
    (cs.foldl insert pool).Indexed
      ∧ (∀ d, d ∈ (cs.foldl insert pool).entries ↔ d ∈ pool.entries ∨ d ∈ cs)
      ∧ (cs.foldl insert pool).numbering = pool.numbering := by
  induction cs generalizing pool with
  | nil => exact ⟨h, fun d => by simp, rfl⟩
  | cons c cs ih =>
    obtain ⟨hindexed, hmem, hnumbering⟩ := ih (h.insert c)
    refine ⟨hindexed, fun d => ?_, hnumbering.trans (numbering_insert pool c)⟩
    rw [List.foldl_cons, hmem d, mem_insert_iff h, List.mem_cons, or_assoc]

/-- Entering constants that are all there changes nothing. -/
theorem foldl_insert_of_mem {cs : List Constant} (h : pool.Indexed)
    (hcs : ∀ d ∈ cs, d ∈ pool.entries) : cs.foldl insert pool = pool := by
  induction cs with
  | nil => rfl
  | cons c cs ih =>
    rw [List.forall_mem_cons] at hcs
    rw [List.foldl_cons, insert_of_mem h hcs.1, ih hcs.2]

/-! ## Well-formed pools -/

/-- **What every pool satisfies.** -/
structure WellFormed (pool : ConstantPool) : Prop where
  /-- The places are those of the entries. -/
  indexed : pool.Indexed
  /-- What an entry refers to is an entry. -/
  closed : ∀ c ∈ pool.entries, ∀ d ∈ c.dependencies, d ∈ pool.entries
  /-- The indices, once given out, are those of the entries. -/
  numbered : ∀ n, pool.numbering = some n → numberFrom pool.entries.toList 1 #[] = .ok n

theorem wellFormed_empty : empty.WellFormed where
  indexed := indexed_empty
  closed c hc := by simp [empty] at hc
  numbered n hn := by cases hn

/-- Everything below an entry is an entry. -/
theorem WellFormed.mem_of_mem_withDependencies (h : pool.WellFormed) (hc : c ∈ pool.entries)
    (hd : d ∈ c.withDependencies) : d ∈ pool.entries := by
  simp only [Constant.withDependencies, List.mem_cons, List.mem_flatMap] at hd
  rcases hd with rfl | ⟨d', hd', rfl | hd⟩
  · exact hc
  · exact h.closed c hc d hd'
  · exact h.closed d' (h.closed c hc d' hd') d hd

/-- **Registering a constant enters everything below it.** If the constant is
there, so is all the rest. -/
theorem WellFormed.register_eq (h : pool.WellFormed) (c : Constant) :
    pool.register c = c.withDependencies.foldl ConstantPool.insert pool := by
  unfold ConstantPool.register
  by_cases hc : pool.positions.contains c
  · have hmem : c ∈ pool.entries := h.indexed.contains_iff.1 hc
    rw [if_pos hc, foldl_insert_of_mem h.indexed fun d => h.mem_of_mem_withDependencies hmem]
  · rw [if_neg hc]

/-- **What is an entry after a constant was registered**: what was one
before, and the constant with everything below it. -/
theorem WellFormed.mem_register_iff (h : pool.WellFormed) :
    d ∈ (pool.register c).entries ↔ d ∈ pool.entries ∨ d ∈ c.withDependencies := by
  rw [h.register_eq]
  exact (foldl_insert c.withDependencies h.indexed).2.1 d

theorem numbering_register (h : pool.Indexed) (c : Constant) :
    (pool.register c).numbering = pool.numbering := by
  unfold register
  by_cases hc : pool.positions.contains c
  · rw [if_pos hc]
  · rw [if_neg hc]
    exact (foldl_insert c.withDependencies h).2.2

/-- **Registering a constant keeps a pool well formed**, as long as no
indices have been given out. -/
theorem WellFormed.register (h : pool.WellFormed) (hopen : pool.numbering = none)
    (c : Constant) : (pool.register c).WellFormed where
  indexed := by
    rw [h.register_eq]
    exact (foldl_insert c.withDependencies h.indexed).1
  closed d hd e he := by
    rw [h.mem_register_iff] at hd ⊢
    rcases hd with hd | hd
    · exact .inl (h.closed d hd e he)
    · exact .inr (Constant.mem_withDependencies_of_mem_dependencies hd he)
  numbered n hn := by
    rw [numbering_register h.indexed, hopen] at hn
    cases hn

/-- A constant is added exactly if the pool is still open, and then it is
registered. -/
theorem add_eq_ok_iff {pool' : ConstantPool} :
    pool.add c = .ok pool' ↔ pool.numbering = none ∧ pool' = pool.register c := by
  unfold add checkOpen isFinal
  cases hn : pool.numbering with
  | none =>
    rw [if_neg (by simp)]
    exact ⟨fun h => ⟨rfl, (Except.ok.inj h).symm⟩, fun h => congrArg Except.ok h.2.symm⟩
  | some n =>
    rw [if_pos (by simp)]
    refine ⟨fun h => ?_, fun h => ?_⟩
    · cases h
    · cases h.1

/-- What finalizing gives: the same constants with their indices. -/
theorem finalize_eq_ok_iff {pool' : ConstantPool} :
    pool.finalize = .ok pool' ↔ pool.numbering = none
      ∧ ∃ n, numberFrom pool.entries.toList 1 #[] = .ok n
        ∧ pool' = { pool with numbering := some n } := by
  unfold finalize isFinal
  cases hn : pool.numbering with
  | some n =>
    rw [if_pos (by simp)]
    refine ⟨fun h => ?_, fun h => ?_⟩
    · cases h
    · cases h.1
  | none =>
    rw [if_neg (by simp)]
    cases hfrom : numberFrom pool.entries.toList 1 #[] with
    | error fault =>
      refine ⟨fun h => ?_, fun ⟨_, n, h, _⟩ => ?_⟩
      · cases h
      · cases h
    | ok n =>
      constructor
      · intro h
        exact ⟨rfl, n, rfl, (Except.ok.inj h).symm⟩
      · rintro ⟨-, n', hn', rfl⟩
        cases hn'
        rfl

/-- Finalizing keeps the entries. -/
theorem entries_of_finalize {pool' : ConstantPool} (h : pool.finalize = .ok pool') :
    pool'.entries = pool.entries := by
  obtain ⟨-, n, -, rfl⟩ := finalize_eq_ok_iff.1 h
  rfl

theorem exists_numbering_of_finalize {pool' : ConstantPool} (h : pool.finalize = .ok pool') :
    ∃ n, pool'.numbering = some n := by
  obtain ⟨-, n, -, rfl⟩ := finalize_eq_ok_iff.1 h
  exact ⟨n, rfl⟩

/-- **The pools that the operations can make.** -/
inductive Reachable : ConstantPool → Prop where
  | empty : Reachable empty
  | add {pool pool' : ConstantPool} {c : Constant} (reachable : Reachable pool)
      (added : pool.add c = .ok pool') : Reachable pool'
  | finalize {pool pool' : ConstantPool} (reachable : Reachable pool)
      (finalized : pool.finalize = .ok pool') : Reachable pool'

/-- **Every pool that the operations can make is well formed.** -/
theorem Reachable.wellFormed (h : pool.Reachable) : pool.WellFormed := by
  induction h with
  | empty => exact wellFormed_empty
  | add _ added ih =>
    obtain ⟨hopen, rfl⟩ := add_eq_ok_iff.1 added
    exact ih.register hopen _
  | finalize _ finalized ih =>
    obtain ⟨-, n, hn, rfl⟩ := finalize_eq_ok_iff.1 finalized
    refine ⟨ih.indexed, ih.closed, fun n' hn' => ?_⟩
    cases hn'
    exact hn

/-- **Adding several constants to an open pool succeeds**: the pool stays
open, and its entries are those it had and everything below the new
constants. -/
theorem addAll_eq_ok (cs : List Constant) (h : pool.Reachable) (hopen : pool.numbering = none) :
    ∃ pool', pool.addAll cs = .ok pool' ∧ pool'.Reachable ∧ pool'.numbering = none
      ∧ ∀ d, d ∈ pool'.entries ↔ d ∈ pool.entries ∨ ∃ c ∈ cs, d ∈ c.withDependencies := by
  induction cs generalizing pool with
  | nil => exact ⟨pool, rfl, h, hopen, fun d => by simp⟩
  | cons c cs ih =>
    have hadd : pool.add c = .ok (pool.register c) := add_eq_ok_iff.2 ⟨hopen, rfl⟩
    have hstill : (pool.register c).numbering = none :=
      (numbering_register h.wellFormed.indexed c).trans hopen
    obtain ⟨pool', hall, hreach, hopen', hmem⟩ := ih (h.add hadd) hstill
    refine ⟨pool', ?_, hreach, hopen', fun d => ?_⟩
    · show (do let p ← pool.add c; cs.foldlM add p) = .ok pool'
      rw [hadd]
      exact hall
    · rw [hmem d, h.wellFormed.mem_register_iff, or_assoc]
      simp only [List.mem_cons, exists_eq_or_imp]

/-- **Adding constants to a new pool** enters exactly what they lead to. -/
theorem addAll_empty (cs : List Constant) :
    ∃ pool, empty.addAll cs = .ok pool ∧ pool.Reachable ∧ pool.numbering = none
      ∧ ∀ c, c ∈ pool.entries ↔ Constant.Registered cs c := by
  obtain ⟨pool, hadd, hreach, hopen, hmem⟩ := addAll_eq_ok cs .empty rfl
  refine ⟨pool, hadd, hreach, hopen, fun c => (hmem c).trans ?_⟩
  unfold Constant.Registered
  simp only [Constant.mem_withDependencies_iff]
  exact or_iff_right (Array.not_mem_empty c)

/-! ## What a pool supplies -/

/-- **The pool has an index for each of the constants.** -/
def Supplies (pool : ConstantPool) (cs : List Constant) : Prop :=
  ∀ c ∈ cs, ∃ index, pool.indexOf c = .ok index

/-- A finalized pool has an index for each of its entries. -/
theorem WellFormed.exists_indexOf (h : pool.WellFormed) {n : Numbering}
    (hn : pool.numbering = some n) (hc : c ∈ pool.entries) :
    ∃ index, pool.indexOf c = .ok index := by
  obtain ⟨k, hk⟩ := Array.mem_iff_getElem?.1 hc
  refine ⟨n.indices.getD k 0, ?_⟩
  unfold indexOf
  rw [hn, (h.indexed c k).2 hk]

namespace Supplies

variable {cs ds : List Constant}

theorem subset (h : pool.Supplies cs) (hsub : ∀ c ∈ ds, c ∈ cs) : pool.Supplies ds :=
  fun c hc => h c (hsub c hc)

theorem cons_iff : pool.Supplies (c :: cs) ↔ (∃ i, pool.indexOf c = .ok i) ∧ pool.Supplies cs :=
  List.forall_mem_cons

theorem append_iff : pool.Supplies (cs ++ ds) ↔ pool.Supplies cs ∧ pool.Supplies ds :=
  List.forall_mem_append

/-- What is supplied for the parts of a list is supplied for each part. -/
theorem of_mem_flatMap {α : Type} {xs : List α} {f : α → List Constant} {x : α}
    (h : pool.Supplies (xs.flatMap f)) (hx : x ∈ xs) : pool.Supplies (f x) :=
  h.subset fun _ hc => List.mem_flatMap.2 ⟨x, hx, hc⟩

variable {P : Fault → Prop}

/-- Looking up what is supplied does not fail. -/
theorem indexOf (h : pool.Supplies cs) (hc : c ∈ cs) : FailsOnly P (pool.indexOf c) :=
  .of_eq_ok (h c hc)

theorem utf8Index {text : String} (h : pool.Supplies cs) (hc : .utf8 text ∈ cs) :
    FailsOnly P (pool.utf8Index text) :=
  h.indexOf hc

theorem classIndex {name : String} (h : pool.Supplies cs) (hc : .classRef name ∈ cs) :
    FailsOnly P (pool.classIndex name) :=
  h.indexOf hc

/-- An attribute whose name is supplied fails only by being too long. -/
theorem makeAttribute {name : String} {info : Bytes} (h : pool.Supplies cs)
    (hc : .utf8 name ∈ cs) : FailsOnly Fault.IsNumeric (pool.makeAttribute name info) := by
  refine (h.utf8Index hc).bind fun index _ => ?_
  unfold Attribute.make
  exact FailsOnly.ite (fun _ => .ok _) fun _ => .error rfl

end Supplies

/-! ## Numbering and writing a pool -/

/-- Numbering fails only for want of indices. -/
theorem numberFrom_failsOnly (cs : List Constant) (next : Nat) (done : Array PoolIndex) :
    FailsOnly Fault.IsNumeric (numberFrom cs next done) := by
  induction cs generalizing next done with
  | nil => exact .ok _
  | cons c cs ih => exact FailsOnly.ite (fun _ => ih _ _) fun _ => .error rfl

/-- An open pool is finalized unless there are too few indices. -/
theorem finalize_failsOnly (hopen : pool.numbering = none) :
    FailsOnly Fault.IsNumeric pool.finalize := by
  unfold finalize isFinal
  rw [hopen, if_neg (by simp)]
  have hfrom := numberFrom_failsOnly pool.entries.toList 1 #[]
  cases hn : numberFrom pool.entries.toList 1 #[] with
  | error fault => exact .error (hfrom fault hn)
  | ok n => exact .ok _

/-- An entry can be written once what it refers to is supplied, unless it is
a text that is too long. -/
theorem resolve_failsOnly (h : pool.Supplies c.dependencies) :
    FailsOnly Fault.IsNumeric (pool.resolve c) := by
  cases c with
  | utf8 text => exact FailsOnly.ite (fun _ => .ok _) fun _ => .error rfl
  | integer | float | long | double => exact .ok _
  | classRef name | string text =>
    exact (h.utf8Index List.mem_cons_self).bind fun _ _ => .ok _
  | nameAndType name descriptor =>
    refine (h.utf8Index List.mem_cons_self).bind fun _ _ => ?_
    exact (h.utf8Index (List.mem_cons_of_mem _ List.mem_cons_self)).bind fun _ _ => .ok _
  | fieldRef m | methodRef m | interfaceMethodRef m =>
    refine FailsOnly.bind ?_ fun _ _ => .ok _
    refine (h.classIndex List.mem_cons_self).bind fun _ _ => ?_
    exact (h.indexOf (List.mem_cons_of_mem _ List.mem_cons_self)).bind fun _ _ => .ok _

/-- **The entries of a finalized pool can be written**, unless one of them
is a text that is too long. -/
theorem WellFormed.poolEntries_failsOnly (h : pool.WellFormed) {n : Numbering}
    (hn : pool.numbering = some n) : FailsOnly Fault.IsNumeric pool.poolEntries := by
  refine FailsOnly.mapM fun c hc => resolve_failsOnly fun d hd => ?_
  exact h.exists_indexOf hn (h.closed c (Array.mem_toList_iff.1 hc) d hd)

end ConstantPool

end BytecodeAssembler
