import Mathlib.Logic.Function.Basic

/-!
# Threads

Threads as a family of positions: each thread is somewhere in its program, and a step of one leaves the others where they are.
What an exclusion needs is that some positions are taken by at most one thread.
-/

namespace Threads

variable {κ π : Type} {p q : π → Bool} {f g : κ → π}

/-- At most one thread is at a position that satisfies `p`. -/
def AtMostOne (p : π → Bool) (f : κ → π) : Prop := ∀ i j, p (f i) → p (f j) → i = j

/-- Fewer positions are taken by fewer threads. -/
theorem AtMostOne.of_imp (h : AtMostOne p f) (himp : ∀ i, q (g i) → p (f i)) : AtMostOne q g :=
  fun i j hi hj => h i j (himp i hi) (himp j hj)

/-- Where nobody is, there is at most one thread. -/
theorem AtMostOne.of_none (h : ∀ i, p (f i) = false) : AtMostOne p f := by
  intro i j hi _
  rw [h i] at hi
  simp at hi

/-- Next to a thread at such a position there is no other. -/
theorem AtMostOne.other (h : AtMostOne p f) {i j : κ} (hi : p (f i)) (hij : j ≠ i) : p (f j) = false := by
  by_contra hj
  rw [Bool.not_eq_false] at hj
  exact hij (h j i hj hi)

variable [DecidableEq κ] {i : κ} {a : π}

/-- A thread that moves on among such positions, or away from them, leaves at most one there. -/
theorem AtMostOne.update (h : AtMostOne p f) (ha : p a → p (f i)) : AtMostOne p (Function.update f i a) := by
  refine h.of_imp fun j hj => ?_
  by_cases hij : j = i
  · subst hij
    rw [Function.update_self] at hj
    exact ha hj
  · rwa [Function.update_of_ne hij] at hj

/-- A thread may enter where no other is. -/
theorem AtMostOne.enter (h : ∀ j, j ≠ i → p (f j) = false) (a : π) : AtMostOne p (Function.update f i a) := by
  have hother : ∀ j, j ≠ i → p (Function.update f i a j) = false := by
    intro j hij
    rw [Function.update_of_ne hij]
    exact h j hij
  have hself : ∀ j, p (Function.update f i a j) → j = i := by
    intro j hj
    by_contra hij
    rw [hother j hij] at hj
    simp at hj
  intro j k hj hk
  rw [hself j hj, hself k hk]

end Threads
