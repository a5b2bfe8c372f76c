import BytecodeAssembler.Proofs.Outcome

/-!
# Outcomes that differ in texts only

A fault says what it is about: a label by its name, an argument as it was
written. Two computations that differ only in such texts have the **same
outcome**: the same result, or faults of the same kind. Like success and
failure, this is proved of a chain by proving it of its steps.
-/

namespace BytecodeAssembler

variable {α β γ : Type}

/-- Choices by the same test are related if their branches are. -/
theorem rel_ite {R : α → β → Prop} {c : Prop} [Decidable c] {x x' : α} {y y' : β} (h : R x y)
    (h' : R x' y') : R (if c then x else x') (if c then y else y') := by
  by_cases hc : c
  · rwa [if_pos hc, if_pos hc]
  · rwa [if_neg hc, if_neg hc]

/-- **The same result, or faults of the same kind.** -/
inductive SameOutcome : Except Fault α → Except Fault α → Prop where
  | ok (a : α) : SameOutcome (.ok a) (.ok a)
  | error {fault fault' : Fault} (h : fault'.kind = fault.kind) :
    SameOutcome (.error fault) (.error fault')

namespace SameOutcome

variable {x y : Except Fault α}

@[refl] theorem refl (x : Except Fault α) : SameOutcome x x := by
  cases x with
  | error fault => exact .error rfl
  | ok a => exact .ok a

theorem map (h : SameOutcome x y) (f : α → β) : SameOutcome (x.map f) (y.map f) := by
  cases h with
  | ok a => exact .ok (f a)
  | error h => exact .error h

/-- **A chain has the same outcome as its steps do.** -/
theorem bind {f g : α → Except Fault β} (h : SameOutcome x y)
    (hf : ∀ a, SameOutcome (f a) (g a)) : SameOutcome (x >>= f) (y >>= g) := by
  cases h with
  | ok a => exact hf a
  | error h => exact .error h

/-- Behind the same first step, the second one decides. -/
theorem bind_same (x : Except Fault α) {f g : α → Except Fault β}
    (hf : ∀ a, SameOutcome (f a) (g a)) : SameOutcome (x >>= f) (x >>= g) :=
  (refl x).bind hf

/-- A chain whose first step has two branches. -/
theorem iteBind {c : Prop} [Decidable c] {x' y' : Except Fault α} {f g : α → Except Fault β}
    (h : SameOutcome x y) (h' : SameOutcome x' y') (hf : ∀ a, SameOutcome (f a) (g a)) :
    SameOutcome (if c then x >>= f else x' >>= f) (if c then y >>= g else y' >>= g) :=
  rel_ite (h.bind hf) (h'.bind hf)

/-- **A step for each item has the same outcome** if each of the steps does. -/
theorem mapM {f : α → Except Fault γ} {g : β → Except Fault γ} {xs : List α} {ys : List β}
    (h : List.Forall₂ (fun x y => SameOutcome (f x) (g y)) xs ys) :
    SameOutcome (xs.mapM f) (ys.mapM g) := by
  induction h with
  | nil => exact refl _
  | cons hx _ ih =>
    rw [List.mapM_cons, List.mapM_cons]
    exact hx.bind fun _ => ih.bind fun _ => refl _

/-- The same items, and steps that have the same outcome. -/
theorem mapM_same {f g : α → Except Fault β} (xs : List α)
    (h : ∀ x, SameOutcome (f x) (g x)) : SameOutcome (xs.mapM f) (xs.mapM g) :=
  mapM (List.forall₂_same.2 fun x _ => h x)

end SameOutcome

end BytecodeAssembler
