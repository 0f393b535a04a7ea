import Mathlib.Data.List.Basic
import Mathlib.Logic.Function.Basic

/-!
# Memory that is copied within itself

Memory is a function from addresses to cells. `slice` is what a range of it holds, `move` is `memmove` and `fill` is `memset`. The
rules say what a slice holds after each of them: inside the range that was written, outside of it, and cut in two.
-/

namespace ByteMemory

variable {β : Type}

/-- What the `n` cells from the address `a` on hold. -/
def slice (m : Nat → β) (a n : Nat) : List β := (List.range n).map fun i => m (a + i)

/-- `memmove`: the ranges may overlap. -/
def move (m : Nat → β) (dst src n : Nat) : Nat → β := fun a => if dst ≤ a ∧ a < dst + n then m (src + (a - dst)) else m a

/-- The bytes of a list are stored one after the other. -/
def store (m : Nat → β) (dst : Nat) (xs : List β) : Nat → β := fun a =>
  if dst ≤ a then xs[a - dst]?.getD (m a) else m a

/-- `memset`. -/
def fill (m : Nat → β) (dst n : Nat) (b : β) : Nat → β := fun a => if dst ≤ a ∧ a < dst + n then b else m a

/-- A slice has the length it is asked for. -/
@[simp] theorem length_slice (m : Nat → β) (a n : Nat) : (slice m a n).length = n := by
  simp [slice]

/-- An empty slice. -/
@[simp] theorem slice_zero (m : Nat → β) (a : Nat) : slice m a 0 = [] := rfl

/-- A slice is two slices, one behind the other. -/
theorem slice_add (m : Nat → β) (a n k : Nat) : slice m a (n + k) = slice m a n ++ slice m (a + n) k := by
  simp only [slice, List.range_add, List.map_append, List.map_map, List.append_cancel_left_eq]
  exact List.map_congr_left fun i _ => by simp only [Function.comp, Nat.add_assoc]

/-- A slice begins with its first byte. -/
theorem slice_succ (m : Nat → β) (a n : Nat) : slice m a (n + 1) = m a :: slice m (a + 1) n := by
  rw [Nat.add_comm n 1, slice_add]
  rfl

/-- The first part of a slice. -/
theorem take_slice (m : Nat → β) (a n k : Nat) : (slice m a n).take k = slice m a (min k n) := by
  rw [slice, ← List.map_take, List.take_range, slice]

/-- The last part of a slice. -/
theorem drop_slice (m : Nat → β) (a n k : Nat) : (slice m a n).drop k = slice m (a + k) (n - k) := by
  by_cases h : k ≤ n
  · obtain ⟨j, rfl⟩ := Nat.exists_eq_add_of_le h
    rw [slice_add, Nat.add_sub_cancel_left]
    exact List.drop_left' (length_slice m a k)
  · rw [Nat.sub_eq_zero_of_le (by omega), slice_zero]
    exact List.drop_eq_nil_of_le (by rw [length_slice]; omega)

/-- Memories that agree on a range hold the same there. -/
theorem slice_congr {m m' : Nat → β} {a n : Nat} (h : ∀ x, a ≤ x → x < a + n → m x = m' x) : slice m a n = slice m' a n := by
  refine List.map_congr_left fun i hi => ?_
  rw [List.mem_range] at hi
  exact h (a + i) (Nat.le_add_right a i) (Nat.add_lt_add_left hi a)

/-! ## Copying -/

/-- The bytes that have been moved, whether or not the places overlap. -/
theorem slice_move (m : Nat → β) (dst src n : Nat) : slice (move m dst src n) dst n = slice m src n := by
  refine List.map_congr_left fun i hi => ?_
  rw [List.mem_range] at hi
  have h : dst ≤ dst + i ∧ dst + i < dst + n := by omega
  simp only [move, if_pos h, Nat.add_sub_cancel_left]

/-- A move changes the destination only. -/
theorem move_of_not_mem {m : Nat → β} {dst src n a : Nat} (h : a < dst ∨ dst + n ≤ a) : move m dst src n a = m a :=
  if_neg (by omega)

/-- A slice beside the destination of a move. -/
theorem slice_move_of_disjoint {m : Nat → β} {dst src n a k : Nat} (h : a + k ≤ dst ∨ dst + n ≤ a) :
    slice (move m dst src n) a k = slice m a k :=
  slice_congr fun x h1 h2 => move_of_not_mem (by omega)

/-! ## Filling -/

/-- A fill changes its place only. -/
theorem fill_of_not_mem {m : Nat → β} {dst n a : Nat} {b : β} (h : a < dst ∨ dst + n ≤ a) : fill m dst n b a = m a :=
  if_neg (by omega)

/-- A slice beside what is filled. -/
theorem slice_fill_of_disjoint {m : Nat → β} {dst n a k : Nat} {b : β} (h : a + k ≤ dst ∨ dst + n ≤ a) :
    slice (fill m dst n b) a k = slice m a k :=
  slice_congr fun x h1 h2 => fill_of_not_mem (by omega)

/-! ## Storing -/

/-- A store changes its place only. -/
theorem store_of_not_mem {m : Nat → β} {dst a : Nat} {xs : List β} (h : a < dst ∨ dst + xs.length ≤ a) :
    store m dst xs a = m a := by
  unfold store
  split_ifs with hd
  · rw [List.getElem?_eq_none (by omega)]
    rfl
  · rfl

/-- The bytes that have been stored. -/
theorem slice_store (m : Nat → β) (dst : Nat) (xs : List β) : slice (store m dst xs) dst xs.length = xs := by
  refine List.ext_getElem (length_slice _ _ _) fun i h1 h2 => ?_
  simp [slice, store, h2]

/-- A slice beside what is stored. -/
theorem slice_store_of_disjoint {m : Nat → β} {dst a k : Nat} {xs : List β} (h : a + k ≤ dst ∨ dst + xs.length ≤ a) :
    slice (store m dst xs) a k = slice m a k :=
  slice_congr fun x h1 h2 => store_of_not_mem (by omega)

/-- A slice beside a byte that is written. -/
theorem slice_update_of_not_mem {m : Nat → β} {a x n : Nat} {b : β} (h : x < a ∨ a + n ≤ x) :
    slice (Function.update m x b) a n = slice m a n :=
  slice_congr fun y h1 h2 => Function.update_of_ne (by omega) b m

end ByteMemory
