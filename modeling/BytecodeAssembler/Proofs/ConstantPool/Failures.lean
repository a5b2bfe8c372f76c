import BytecodeAssembler.Proofs.ConstantPool.Order

/-!
# Operations that fail

Adding a constant changes a pool step by step: the constant is entered before
the constants it refers to are added in their turn, and each of these could be
refused. Whether a pool is left half changed is a question about operations
**in place**, which give the pool they leave behind also where they fail. This
module carries out the operations in that way (`enter`, `number`) and proves
that they agree with the outcome of `add` and `finalize`: a pool is closed to
the constant itself or to none of those below it, so adding fails at once or
not at all, and numbering gives out no index before it has one for every entry.

Hence failures are exact: what a request is refused for can be read off the
pool, and the pool is as it was before (`failsExactly_of_reachable`).
-/

namespace BytecodeAssembler

namespace Constant

/-- How many steps lead down from a constant. -/
def depth : Constant → Nat
  | .utf8 _ | .integer _ | .float _ | .long _ | .double _ => 0
  | .classRef _ | .string _ | .nameAndType _ _ => 1
  | .fieldRef _ | .methodRef _ | .interfaceMethodRef _ => 2

/-- What a constant refers to is further down. -/
theorem depth_lt_of_mem_dependencies {c d : Constant} (h : d ∈ c.dependencies) :
    d.depth < c.depth := by
  cases c with
  | utf8 | integer | float | long | double => cases h
  | classRef | string =>
    obtain rfl := List.mem_singleton.1 h
    exact Nat.one_pos
  | nameAndType => rcases List.mem_pair.1 h with rfl | rfl <;> exact Nat.one_pos
  | fieldRef | methodRef | interfaceMethodRef =>
    rcases List.mem_pair.1 h with rfl | rfl <;> exact Nat.lt_succ_self 1

end Constant

namespace ConstantPool

variable {pool after : ConstantPool} {c d : Constant} {fault : Fault}

/-! ## Operations in place -/

/-- **Add a constant in place**: check that the pool is open, enter the
constant, and then add what it refers to, one by one. -/
def enter (c : Constant) : EStateM Fault ConstantPool Unit := do
  let pool ← get
  if pool.isFinal then throw (.poolClosed c)
  if !pool.positions.contains c then
    set (pool.insert c)
    c.dependencies.attach.forM fun d => enter d.1
termination_by c.depth
decreasing_by exact Constant.depth_lt_of_mem_dependencies d.2

/-- **Give every constant its index in place**: the pool changes only once
there is an index for each of them. -/
def number : EStateM Fault ConstantPool Unit := do
  let pool ← get
  if pool.isFinal then throw .poolAlreadyFinal
  match numberFrom pool.entries.toList 1 #[] with
  | .error fault => throw fault
  | .ok numbering => set { pool with numbering := some numbering }

/-- Ask a pool for something. -/
def ask {α : Type} (read : ConstantPool → Except Fault α) : EStateM Fault ConstantPool Unit := do
  match read (← get) with
  | .error fault => throw fault
  | .ok _ => pure ()

/-- **What can be requested of a pool.** -/
inductive Request where
  | add (c : Constant)
  | finalize
  | indexOf (c : Constant)
  | count
  | entries
  deriving DecidableEq, Repr

/-- Carry out a request in place. -/
def Request.serve : Request → EStateM Fault ConstantPool Unit
  | .add c => enter c
  | .finalize => number
  | .indexOf c => ask (·.indexOf c)
  | .count => ask ConstantPool.count
  | .entries => ask ConstantPool.poolEntries

/-! ## Adding fails at once or not at all -/

theorem isFinal_eq_false_iff : pool.isFinal = false ↔ pool.numbering = none :=
  Option.isSome_eq_false_iff.trans Option.isNone_iff_eq_none

theorem enter_eq (c : Constant) (pool : ConstantPool) :
    enter c pool = if pool.isFinal then .error (.poolClosed c) pool
      else if pool.positions.contains c then .ok () pool
      else (c.dependencies.attach.forM fun d => enter d.1) (pool.insert c) := by
  rw [enter]
  show EStateM.bind EStateM.get _ pool = _
  unfold EStateM.bind EStateM.get
  dsimp only
  cases pool.isFinal with
  | true => rfl
  | false => cases pool.positions.contains c <;> rfl

theorem Indexed.register (h : pool.Indexed) (c : Constant) : (pool.register c).Indexed := by
  unfold ConstantPool.register
  split
  next => exact h
  next => exact (foldl_insert c.withDependencies h).1

/-- Adding in place what a constant refers to, where each of these is
registered. -/
theorem forM_enter {ds : List { d // d ∈ c.dependencies }} (h : pool.Indexed)
    (hopen : pool.numbering = none)
    (hds : ∀ d ∈ c.dependencies, ∀ pool : ConstantPool, pool.Indexed → pool.numbering = none →
      enter d pool = .ok () (pool.register d)) :
    (ds.forM fun d => enter d.1) pool
      = .ok () ((ds.map Subtype.val).foldl ConstantPool.register pool) := by
  induction ds generalizing pool with
  | nil => rfl
  | cons d ds ih =>
    show EStateM.bind (enter d.1) _ pool = _
    unfold EStateM.bind
    rw [hds d.1 d.2 pool h hopen]
    exact ih (h.register d.1) ((numbering_register h d.1).trans hopen)

/-- **Adding a constant in place to an open pool registers it**, if the pool
has what the constant refers to only with everything below it. -/
theorem Indexed.enter (h : pool.Indexed) (hopen : pool.numbering = none)
    (hclosed : ∀ d ∈ c.dependencies, d ∈ pool.entries →
      ∀ e ∈ d.dependencies, e ∈ pool.entries) :
    ConstantPool.enter c pool = .ok () (pool.register c) := by
  induction c using enter.induct generalizing pool with
  | case1 c ih =>
    rw [enter_eq, isFinal_eq_false_iff.2 hopen, if_neg Bool.false_ne_true]
    by_cases hc : pool.positions.contains c = true
    · unfold ConstantPool.register
      rw [if_pos hc, if_pos hc]
    · -- what is two steps below is a text, so below that nothing can be missing
      have hds : ∀ d ∈ c.dependencies, ∀ pool : ConstantPool, pool.Indexed →
          pool.numbering = none → ConstantPool.enter d pool = .ok () (pool.register d) := by
        intro d hd pool hpool hopen
        refine ih ⟨d, hd⟩ hpool hopen fun e he _ f hf => ?_
        obtain ⟨text, rfl⟩ := Constant.eq_utf8_of_mem_dependencies hd he
        cases hf
      rw [if_neg hc, forM_enter (h.insert c) ((numbering_insert pool c).trans hopen) hds,
        List.attach_map_subtype_val, h.register_eq_foldl hclosed (mt h.contains_iff.2 hc)]

/-- **Adding in place agrees with adding.** -/
theorem WellFormed.enter (h : pool.WellFormed) (c : Constant) :
    ConstantPool.enter c pool = inPlace pool (pool.add c) := by
  cases hfinal : pool.isFinal with
  | true =>
    rw [enter_eq, hfinal, if_pos rfl, add, checkOpen, hfinal]
    rfl
  | false =>
    have hopen := isFinal_eq_false_iff.1 hfinal
    have hclosed := fun d (_ : d ∈ c.dependencies) hin => h.closed d hin
    rw [h.indexed.enter hopen hclosed, add_eq_ok_iff.2 ⟨hopen, rfl⟩]
    rfl

theorem number_eq (pool : ConstantPool) : number pool = inPlace pool pool.finalize := by
  unfold number finalize
  show EStateM.bind EStateM.get _ pool = _
  unfold EStateM.bind EStateM.get
  dsimp only
  cases pool.isFinal with
  | true => rfl
  | false => cases numberFrom pool.entries.toList 1 #[] <;> rfl

/-- Asking does not change a pool. -/
theorem ask_eq {α : Type} (read : ConstantPool → Except Fault α) (pool : ConstantPool) :
    ask read pool = inPlace pool ((read pool).map fun _ => pool) := by
  unfold ask
  show EStateM.bind EStateM.get _ pool = _
  unfold EStateM.bind EStateM.get
  dsimp only
  cases read pool <;> rfl

/-- Every request has an outcome in place. -/
theorem WellFormed.exists_serve_eq (h : pool.WellFormed) (request : Request) :
    ∃ outcome, request.serve pool = inPlace pool outcome := by
  cases request with
  | add c => exact ⟨_, h.enter c⟩
  | finalize => exact ⟨_, number_eq pool⟩
  | indexOf | count | entries => exact ⟨_, ask_eq _ pool⟩

/-! ## What requests are refused for -/

/-- Adding fails exactly if the pool is finalized. -/
theorem add_eq_error_iff :
    pool.add c = .error fault ↔ pool.isFinal = true ∧ fault = .poolClosed c := by
  unfold add checkOpen
  cases pool.isFinal <;> simp [Except.map, eq_comm]

/-- **What finalizing fails with**: it finds that the pool is finalized, or
that the entries take too many indices. -/
theorem exists_finalize_error_iff {kind : FaultKind} :
    (∃ fault, pool.finalize = .error fault ∧ fault.kind = kind)
      ↔ pool.isFinal = true ∧ kind = .internal
        ∨ pool.isFinal = false ∧ 65534 < totalWidth pool.entries.toList ∧ kind = .numeric := by
  cases hfinal : pool.isFinal with
  | true =>
    have hfails : pool.finalize = .error .poolAlreadyFinal := by
      rw [finalize, hfinal, if_pos rfl]
    constructor
    · rintro ⟨fault, hfault, rfl⟩
      rw [hfails] at hfault
      cases hfault
      exact .inl ⟨rfl, rfl⟩
    · rintro (⟨-, rfl⟩ | ⟨hopen, -⟩)
      · exact ⟨_, hfails, rfl⟩
      · cases hopen
  | false =>
    have hopen := isFinal_eq_false_iff.1 hfinal
    constructor
    · rintro ⟨fault, hfault, rfl⟩
      refine .inr ⟨rfl, ?_, (finalize_failsOnly hopen fault hfault).kind_eq⟩
      -- if they took few, finalizing would not have failed
      by_contra hfits
      obtain ⟨pool', hok⟩ := exists_finalize_iff.2 ⟨hopen, show 1 + totalWidth _ ≤ 65535 by omega⟩
      rw [hfault] at hok
      cases hok
    · rintro (⟨hfinal, -⟩ | ⟨-, htotal, rfl⟩)
      · cases hfinal
      · cases hfinalize : pool.finalize with
        | error fault => exact ⟨fault, rfl, (finalize_failsOnly hopen fault hfinalize).kind_eq⟩
        | ok pool' =>
          obtain ⟨-, hfits⟩ := exists_finalize_iff.1 ⟨pool', hfinalize⟩
          omega

theorem number_eq_error_iff :
    number pool = .error fault after ↔ pool.finalize = .error fault ∧ after = pool := by
  rw [number_eq, inPlace_eq_error_iff]

theorem exists_number_error_iff {kind : FaultKind} :
    (∃ fault after, number pool = .error fault after ∧ fault.kind = kind)
      ↔ pool.isFinal = true ∧ kind = .internal
        ∨ pool.isFinal = false ∧ 65534 < totalWidth pool.entries.toList ∧ kind = .numeric := by
  rw [← exists_finalize_error_iff]
  refine exists_congr fun fault => ⟨?_, fun ⟨hfault, hkind⟩ => ?_⟩
  · rintro ⟨after, hfails, hkind⟩
    exact ⟨(number_eq_error_iff.1 hfails).1, hkind⟩
  · exact ⟨pool, number_eq_error_iff.2 ⟨hfault, rfl⟩, hkind⟩

/-- **Failures are exact, and leave the pool as it was.** -/
structure FailsExactly (pool : ConstantPool) : Prop where
  /-- Step by step, adding and finalizing come to the same outcome. -/
  agrees : (∀ c, enter c pool = inPlace pool (pool.add c))
    ∧ number pool = inPlace pool pool.finalize
  /-- Adding a constant fails exactly if the pool is finalized. It is the
  constant itself that is refused then, and none below it. -/
  add : ∀ c fault after, enter c pool = .error fault after
    ↔ pool.isFinal = true ∧ fault = .poolClosed c ∧ after = pool
  /-- Finalizing fails in two ways. -/
  kinds : ∀ fault after, number pool = .error fault after →
    fault.kind = .internal ∨ fault.kind = .numeric
  /-- One is that the pool is finalized. -/
  internal : (∃ fault after, number pool = .error fault after ∧ fault.kind = .internal)
    ↔ pool.isFinal = true
  /-- The other is that the entries take too many indices. -/
  numeric : (∃ fault after, number pool = .error fault after ∧ fault.kind = .numeric)
    ↔ pool.isFinal = false ∧ 65534 < (pool.entries.toList.map Constant.width).sum
  /-- No index given out is wrapped, and neither is the count. -/
  unwrapped : ∀ after, number pool = .ok () after →
    (∀ k c, pool.entries[k]? = some c → ∃ index, after.indexOf c = .ok index
      ∧ index.toNat = 1 + ((pool.entries.toList.take k).map Constant.width).sum)
    ∧ ∃ total, after.count = .ok total
      ∧ total.toNat = 1 + (pool.entries.toList.map Constant.width).sum
  /-- Whatever fails leaves the pool as it was. -/
  unchanged : ∀ (request : Request) fault after, request.serve pool = .error fault after →
    after = pool
  /-- A pool with too many entries keeps them and stays open. -/
  overflowed : ∀ fault after, number pool = .error fault after → fault.kind = .numeric →
    after.isFinal = false ∧ after.entries = pool.entries

/-- **In every pool that the operations can make, failures are exact.** Adding
fails if and only if the pool is finalized; finalizing fails for that reason
too, or because the entries take more than 65534 indices, and for no other; no
index is wrapped; and nothing that fails changes the pool. -/
theorem failsExactly_of_reachable (pool : ConstantPool) (h : pool.Reachable) :
    pool.FailsExactly where
  agrees := ⟨h.wellFormed.enter, number_eq pool⟩
  add c fault after := by
    rw [h.wellFormed.enter, inPlace_eq_error_iff, add_eq_error_iff, and_assoc]
  kinds fault after hfails := by
    rcases exists_number_error_iff.1 ⟨fault, after, hfails, rfl⟩ with ⟨-, hkind⟩ | ⟨-, -, hkind⟩
    · exact .inl hkind
    · exact .inr hkind
  internal := exists_number_error_iff.trans (by simp)
  numeric := exists_number_error_iff.trans (by simp [totalWidth])
  unwrapped after hok := by
    -- the numbering that finalizing chose is that of the entries it was given
    rw [number_eq, inPlace_eq_ok_iff] at hok
    obtain ⟨n, hn⟩ := exists_numbering_of_finalize hok
    rw [← entries_of_finalize hok]
    refine ⟨fun k c hc => (h.finalize hok).exists_indexOf_slot hn hc, ?_⟩
    obtain ⟨total, htotal, hsum, -⟩ := (h.finalize hok).exists_count hn
    exact ⟨total, htotal, hsum⟩
  unchanged request fault after hfails := by
    obtain ⟨outcome, hserve⟩ := h.wellFormed.exists_serve_eq request
    rw [hserve, inPlace_eq_error_iff] at hfails
    exact hfails.2
  overflowed fault after hfails hkind := by
    obtain ⟨-, rfl⟩ := number_eq_error_iff.1 hfails
    rcases exists_number_error_iff.1 ⟨fault, after, hfails, hkind⟩ with ⟨-, hother⟩ | ⟨hopen, -⟩
    · cases hother
    · exact ⟨hopen, rfl⟩

/-- So many numbers, counted from 0. -/
def integers (n : Nat) : List Constant := (List.range n).map fun k => .integer (Int32.ofNat k)

theorem nodup_integers {n : Nat} (hn : n ≤ 2 ^ 31) : (integers n).Nodup := by
  refine List.Nodup.map_on (fun j hj k hk heq => ?_) List.nodup_range
  have hinj := congrArg Int32.toInt (Constant.integer.inj heq)
  rw [List.mem_range] at hj hk
  rw [Int32.toInt_ofNat_of_lt (by omega), Int32.toInt_ofNat_of_lt (by omega)] at hinj
  exact Int.ofNat.inj hinj

/-- **A pool of different numbers takes one index for each of them.** -/
theorem addAll_integers {n : Nat} (hn : n ≤ 2 ^ 31) :
    ∃ pool, empty.addAll (integers n) = .ok pool ∧ pool.Reachable ∧ pool.isFinal = false
      ∧ totalWidth pool.entries.toList = n := by
  obtain ⟨pool, hadd, hreach, hopen, hmem⟩ := addAll_eq_ok (integers n) .empty rfl
  refine ⟨pool, hadd, hreach, isFinal_eq_false_iff.2 hopen, ?_⟩
  have hperm : pool.entries.toList.Perm (integers n) := by
    rw [List.perm_ext_iff_of_nodup hreach.wellFormed.indexed.nodup (nodup_integers hn)]
    intro c
    rw [Array.mem_toList_iff, hmem]
    simp [integers, empty, Constant.withDependencies, Constant.dependencies, eq_comm]
  rw [totalWidth_perm hperm]
  simp [totalWidth, integers, Constant.width, Function.comp_def]

/-- One number more than there are indices: the pool cannot be finalized, and is
left open with all its numbers. -/
theorem failsExactly_of_reachable_integers :
    ∃ pool fault, empty.addAll (integers 65535) = .ok pool ∧ pool.Reachable
      ∧ number pool = .error fault pool ∧ fault.kind = .numeric ∧ pool.isFinal = false := by
  obtain ⟨pool, hadd, hreach, hopen, htotal⟩ := addAll_integers (n := 65535) (by decide)
  have hexact := failsExactly_of_reachable pool hreach
  obtain ⟨fault, after, hfails, hkind⟩ :=
    hexact.numeric.2 ⟨hopen, Nat.lt_of_lt_of_eq (Nat.lt_succ_self 65534) htotal.symm⟩
  obtain rfl := hexact.unchanged .finalize fault after hfails
  exact ⟨after, fault, hadd, hreach, hfails, hkind, hopen⟩

end ConstantPool

end BytecodeAssembler
