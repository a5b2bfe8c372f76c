import BytecodeAssembler.Instruction.Narrow
import Mathlib.Data.List.Forall2

/-!
# Steps that can fail

Encoding a class is a long chain of steps, and any of them can fail. Two
questions are asked of such a chain. When it succeeds, what did each of its
steps give? The `_eq_ok_iff` lemmas take a chain apart for that. When it
fails, which faults can it have failed with? That is `FailsOnly`, which is
proved of a chain by proving it of its steps, one lemma for each way of
putting steps together. A step that changes something in place leaves it alone
where it fails, and comes to the same otherwise (`inPlace`).
-/

namespace BytecodeAssembler

variable {α β : Type}

/-! ## When a chain succeeds -/

/-- A chain of two steps succeeds exactly if both steps do. -/
theorem bind_eq_ok_iff {x : Except Fault α} {f : α → Except Fault β} {b : β} :
    (x >>= f) = .ok b ↔ ∃ a, x = .ok a ∧ f a = .ok b := by
  cases x with
  | error fault =>
    refine ⟨fun h => ?_, fun ⟨a, ha, _⟩ => ?_⟩
    · cases h
    · cases ha
  | ok a =>
    refine ⟨fun h => ⟨a, rfl, h⟩, fun ⟨a', ha, hb⟩ => ?_⟩
    cases ha
    exact hb

/-- A chain whose first step has two branches succeeds exactly if the branch
taken and the second step do. -/
theorem iteBind_eq_ok_iff {c : Prop} [Decidable c] {x y : Except Fault α}
    {f : α → Except Fault β} {b : β} :
    (if c then x >>= f else y >>= f) = .ok b
      ↔ ∃ a, (if c then x else y) = .ok a ∧ f a = .ok b := by
  by_cases hc : c
  · simp only [if_pos hc]
    exact bind_eq_ok_iff
  · simp only [if_neg hc]
    exact bind_eq_ok_iff

/-- A step whose result is changed succeeds exactly if the step does. -/
theorem map_eq_ok_iff {x : Except Fault α} {f : α → β} {b : β} :
    x.map f = .ok b ↔ ∃ a, x = .ok a ∧ f a = b := by
  cases x with
  | error fault =>
    refine ⟨fun h => ?_, fun ⟨a, ha, _⟩ => ?_⟩
    · cases h
    · cases ha
  | ok a =>
    refine ⟨fun h => ⟨a, rfl, Except.ok.inj h⟩, fun ⟨a', ha, hb⟩ => ?_⟩
    cases ha
    exact congrArg Except.ok hb

/-- A step that checks something succeeds exactly if the check does. -/
theorem okIf_eq_ok_iff {c : Prop} [Decidable c] {a b : α} {fault : Fault} :
    (if c then .ok a else .error fault : Except Fault α) = .ok b ↔ c ∧ a = b := by
  by_cases hc : c
  · rw [if_pos hc, Except.ok.injEq, and_iff_right hc]
  · rw [if_neg hc]
    simp [hc]

/-- **A step for each item succeeds exactly if all of them do**, and the
results stand in the order of the items. -/
theorem mapM_eq_ok_iff {f : α → Except Fault β} {xs : List α} {ys : List β} :
    xs.mapM f = .ok ys ↔ List.Forall₂ (fun x y => f x = .ok y) xs ys := by
  induction xs generalizing ys with
  | nil =>
    rw [List.mapM_nil, List.forall₂_nil_left_iff]
    exact ⟨fun h => (Except.ok.inj h).symm, fun h => congrArg Except.ok h.symm⟩
  | cons x xs ih =>
    rw [List.mapM_cons, bind_eq_ok_iff, List.forall₂_cons_left_iff]
    refine exists_congr fun y => ?_
    constructor
    · rintro ⟨hy, h⟩
      obtain ⟨zs, hzs, h⟩ := bind_eq_ok_iff.1 h
      exact ⟨zs, hy, ih.1 hzs, (Except.ok.inj h).symm⟩
    · rintro ⟨zs, hy, hzs, rfl⟩
      exact ⟨hy, bind_eq_ok_iff.2 ⟨zs, ih.2 hzs, rfl⟩⟩

/-- What a step for each item gave, it gave for some item. -/
theorem exists_mem_of_mapM {f : α → Except Fault β} {xs : List α} {ys : List β} {y : β}
    (h : xs.mapM f = .ok ys) (hy : y ∈ ys) : ∃ x ∈ xs, f x = .ok y := by
  have hall := mapM_eq_ok_iff.1 h
  clear h
  induction hall with
  | nil => cases hy
  | @cons x y' xs _ hx _ ih =>
    rcases List.mem_cons.1 hy with rfl | hy
    · exact ⟨x, List.mem_cons_self, hx⟩
    · obtain ⟨z, hz, hzy⟩ := ih hy
      exact ⟨z, List.mem_cons_of_mem x hz, hzy⟩

/-- A step for each item gives as many results as there are items. -/
theorem length_of_mapM {f : α → Except Fault β} {xs : List α} {ys : List β}
    (h : xs.mapM f = .ok ys) : ys.length = xs.length :=
  (mapM_eq_ok_iff.1 h).length_eq.symm

/-- The same step for the same item gives the same result each time. -/
theorem mapM_replicate {f : α → Except Fault β} {x : α} {y : β} (h : f x = .ok y) (n : Nat) :
    (List.replicate n x).mapM f = .ok (List.replicate n y) := by
  refine mapM_eq_ok_iff.2 ?_
  induction n with
  | zero => exact .nil
  | succ n ih => exact .cons h ih

/-! ## When a chain fails -/

/-- **Every fault a step can fail with is one of `P`.** -/
def FailsOnly (P : Fault → Prop) (x : Except Fault α) : Prop :=
  ∀ fault, x = .error fault → P fault

namespace FailsOnly

variable {P Q : Fault → Prop}

/-- A step that gives a result fails with nothing. -/
theorem ok (a : α) : FailsOnly P (.ok a : Except Fault α) := by
  intro fault h
  cases h

/-- A step that fails fails with its own fault. -/
theorem error {fault : Fault} (h : P fault) :
    FailsOnly P (.error fault : Except Fault α) := by
  intro fault' h'
  cases h'
  exact h

/-- A step that is known to succeed fails with nothing. -/
theorem of_eq_ok {x : Except Fault α} (h : ∃ a, x = .ok a) : FailsOnly P x := by
  obtain ⟨a, rfl⟩ := h
  exact ok a

/-- A step that can fail with nothing succeeds. -/
theorem exists_ok {x : Except Fault α} (h : FailsOnly (fun _ => False) x) : ∃ a, x = .ok a := by
  cases x with
  | error fault => exact (h fault rfl).elim
  | ok a => exact ⟨a, rfl⟩

theorem mono {x : Except Fault α} (h : FailsOnly P x) (hPQ : ∀ fault, P fault → Q fault) :
    FailsOnly Q x :=
  fun fault hx => hPQ fault (h fault hx)

theorem map {x : Except Fault α} {f : α → β} (h : FailsOnly P x) :
    FailsOnly P (x.map f) := by
  intro fault hx
  cases x with
  | error fault' =>
    cases hx
    exact h fault rfl
  | ok a => cases hx

/-- **A chain fails as its steps do**, where the second step may rely on
what the first one gave. -/
theorem bind {x : Except Fault α} {f : α → Except Fault β} (hx : FailsOnly P x)
    (hf : ∀ a, x = .ok a → FailsOnly P (f a)) : FailsOnly P (x >>= f) := by
  intro fault h
  cases x with
  | error fault' =>
    cases h
    exact hx fault rfl
  | ok a => exact hf a rfl fault h

theorem mapM {f : α → Except Fault β} {xs : List α} (h : ∀ x ∈ xs, FailsOnly P (f x)) :
    FailsOnly P (xs.mapM f) := by
  induction xs with
  | nil => exact ok []
  | cons x xs ih =>
    rw [List.mapM_cons]
    refine (h x List.mem_cons_self).bind fun y _ => ?_
    refine (ih fun z hz => h z (List.mem_cons_of_mem x hz)).bind fun ys _ => ?_
    exact ok (y :: ys)

/-- What may be absent fails only where it is there. -/
theorem elim {o : Option α} {b : β} {f : α → Except Fault β}
    (h : ∀ a, o = some a → FailsOnly P (f a)) : FailsOnly P (o.elim (.ok b) f) := by
  cases o with
  | none => exact ok b
  | some a => exact h a rfl

theorem ite {c : Prop} [Decidable c] {x y : Except Fault α} (hx : c → FailsOnly P x)
    (hy : ¬c → FailsOnly P y) : FailsOnly P (if c then x else y) := by
  by_cases h : c
  · rw [if_pos h]
    exact hx h
  · rw [if_neg h]
    exact hy h

/-- A chain whose first step has two branches. -/
theorem iteBind {c : Prop} [Decidable c] {x y : Except Fault α} {f : α → Except Fault β}
    (hx : c → FailsOnly P x) (hy : ¬c → FailsOnly P y) (hf : ∀ a, FailsOnly P (f a)) :
    FailsOnly P (if c then x >>= f else y >>= f) :=
  ite (fun h => (hx h).bind fun a _ => hf a) fun h => (hy h).bind fun a _ => hf a

section Simp

variable {x y : Except Fault α} {f : α → Except Fault β}

@[simp]
theorem ok_iff (a : α) : FailsOnly P (.ok a : Except Fault α) ↔ True :=
  iff_true_intro (ok a)

@[simp]
theorem pure_iff (a : α) : FailsOnly P (pure a : Except Fault α) ↔ True :=
  iff_true_intro (ok a)

@[simp]
theorem error_iff (fault : Fault) : FailsOnly P (.error fault : Except Fault α) ↔ P fault :=
  ⟨fun h => h fault rfl, error⟩

@[simp]
theorem throw_iff (fault : Fault) : FailsOnly P (throw fault : Except Fault α) ↔ P fault :=
  error_iff fault

@[simp]
theorem map_iff {f : α → β} : FailsOnly P (x.map f) ↔ FailsOnly P x := by
  cases x with
  | ok a => simp [Except.map]
  | error fault => simp [Except.map]

@[simp]
theorem fmap_iff {f : α → β} : FailsOnly P (f <$> x) ↔ FailsOnly P x :=
  map_iff

@[simp]
theorem ite_iff {c : Prop} [Decidable c] :
    FailsOnly P (if c then x else y) ↔ (c → FailsOnly P x) ∧ (¬c → FailsOnly P y) := by
  split <;> simp_all

@[simp]
theorem bind_iff :
    FailsOnly P (x >>= f) ↔ FailsOnly P x ∧ ∀ a, x = .ok a → FailsOnly P (f a) := by
  refine ⟨fun h => ⟨fun fault hx => h fault ?_, fun a hx fault hf => h fault ?_⟩,
    fun h => h.1.bind h.2⟩
  · rw [hx]
    rfl
  · rw [hx]
    exact hf

end Simp

end FailsOnly

/-! ## Steps in place -/

section InPlace

variable {σ : Type} {s after : σ} {outcome : Except Fault σ} {fault : Fault}

/-- **An outcome in place**: the new state, or the old one if there is none. -/
def inPlace (s : σ) : Except Fault σ → EStateM.Result Fault σ Unit
  | .ok after => .ok () after
  | .error fault => .error fault s

/-- An outcome in place is a failure exactly if there is no new state, and then
the old one stays. -/
theorem inPlace_eq_error_iff :
    inPlace s outcome = .error fault after ↔ outcome = .error fault ∧ after = s := by
  cases outcome <;> simp [inPlace, eq_comm (a := s)]

theorem inPlace_eq_ok_iff : inPlace s outcome = .ok () after ↔ outcome = .ok after := by
  cases outcome <;> simp [inPlace]

end InPlace

/-! ## Values that do not fit -/

/-- **The fault is a value that does not fit its field.** Too many dimensions
are counted as numeric too, but there the text of a descriptor is to blame,
and no field of a class file. -/
def Fault.IsNumeric : Fault → Prop
  | .tooManyDimensions _ => False
  | fault => fault.kind = .numeric

theorem Fault.IsNumeric.kind_eq {fault : Fault} (h : fault.IsNumeric) :
    fault.kind = .numeric := by
  unfold IsNumeric at h
  split at h
  next => exact h.elim
  next => exact h

/-- A count that is too large is a value that does not fit. -/
theorem checkCount_failsOnly (what : String) (count : Nat) :
    FailsOnly Fault.IsNumeric (checkCount what count) := by
  unfold checkCount
  exact FailsOnly.ite (fun _ => .ok ()) fun _ => .error rfl

/-! ## Values that fit -/

variable {what : String} {value : Int64}

/-- A number is narrowed to itself, exactly if it lies between the bounds. -/
theorem narrow_eq_ok_iff {low high n : Int} :
    narrow what low high value = .ok n ↔ (low ≤ value.toInt ∧ value.toInt ≤ high)
      ∧ value.toInt = n :=
  okIf_eq_ok_iff

theorem toNat_of_narrowU1 {n : UInt8} (h : narrowU1 what value = .ok n) :
    (n.toNat : Int) = value.toInt := by
  obtain ⟨k, hk, rfl⟩ := map_eq_ok_iff.1 h
  obtain ⟨hrange, rfl⟩ := narrow_eq_ok_iff.1 hk
  rw [UInt8.toNat_ofNat']
  omega

/-- A number fits an unsigned byte exactly if there is a byte of this value. -/
theorem narrowU1_eq_ok_iff {n : UInt8} :
    narrowU1 what value = .ok n ↔ (n.toNat : Int) = value.toInt := by
  refine ⟨toNat_of_narrowU1, fun h => map_eq_ok_iff.2 ⟨value.toInt, ?_, ?_⟩⟩
  · have hlt := n.toNat_lt
    exact narrow_eq_ok_iff.2 ⟨by omega, rfl⟩
  · rw [← h, Int.toNat_natCast, UInt8.ofNat_toNat]

theorem toNat_of_narrowU2 {n : UInt16} (h : narrowU2 what value = .ok n) :
    (n.toNat : Int) = value.toInt := by
  obtain ⟨k, hk, rfl⟩ := map_eq_ok_iff.1 h
  obtain ⟨hrange, rfl⟩ := narrow_eq_ok_iff.1 hk
  rw [UInt16.toNat_ofNat']
  omega

theorem toInt_of_narrowS4 {n : Int32} (h : narrowS4 what value = .ok n) :
    n.toInt = value.toInt := by
  obtain ⟨k, hk, rfl⟩ := map_eq_ok_iff.1 h
  obtain ⟨⟨hlow, hhigh⟩, rfl⟩ := narrow_eq_ok_iff.1 hk
  exact Int32.toInt_ofInt_of_le hlow (Int.lt_add_one_of_le hhigh)

end BytecodeAssembler
