import Mathlib.Tactic.Common

/-!
# What a computation that can fail yields

`Yields A Q r`: the computation `r` returns a value that satisfies `Q`, or it fails with an error that satisfies `A`. One statement of
this form says both what a function leaves and how it can fail, and the rules here compose them along the function's body.
-/

variable {ε α β : Type}

/-- A value that satisfies `Q`, or an error that satisfies `A`. -/
def Yields (A : ε → Prop) (Q : α → Prop) : Except ε α → Prop
  | .ok a => Q a
  | .error e => A e

namespace Yields

variable {A : ε → Prop} {P : α → Prop} {Q : β → Prop} {r : Except ε α}

/-- A value that satisfies the postcondition. -/
theorem ok {a : α} (h : P a) : Yields A P (.ok a) := h

/-- An error that is admitted. -/
theorem error {e : ε} (h : A e) : Yields A P (.error e) := h

/-- One computation after another. -/
theorem bind {f : α → Except ε β} (h : Yields A P r) (hf : ∀ a, P a → Yields A Q (f a)) : Yields A Q (r >>= f) := by
  cases r with
  | ok a => exact hf a h
  | error e => exact h

/-- A weaker postcondition. -/
theorem mono {P' : α → Prop} (h : Yields A P r) (hP : ∀ a, P a → P' a) : Yields A P' r := by
  cases r with
  | ok a => exact hP a h
  | error e => exact h

/-- A function of the result. -/
theorem map {f : α → β} (h : Yields A (fun a => Q (f a)) r) : Yields A Q (r.map f) := by
  cases r with
  | ok a => exact h
  | error e => exact h

/-- The value of a run that returns. -/
theorem value {a : α} (h : Yields A P r) (hr : r = .ok a) : P a := by
  rw [hr] at h
  exact h

/-- The error of a run that fails. -/
theorem failure {e : ε} (h : Yields A P r) (hr : r = .error e) : A e := by
  rw [hr] at h
  exact h

end Yields
