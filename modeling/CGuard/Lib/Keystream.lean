import Mathlib.Data.List.Basic

/-!
# Stream ciphers

A text is combined with a keystream byte by byte, from a position on. Doing it twice gives the text back, and it may be done in pieces.
-/

namespace Keystream

/-- The text with the keystream from the position on. -/
def mask (ks : Nat → UInt8) : Nat → List UInt8 → List UInt8
  | _, [] => []
  | p, b :: text => (b ^^^ ks p) :: mask ks (p + 1) text

variable {ks : Nat → UInt8}

@[simp] theorem length_mask (p : Nat) (text : List UInt8) : (mask ks p text).length = text.length := by
  induction text generalizing p with
  | nil => rfl
  | cons b text ih => rw [mask, List.length_cons, ih, List.length_cons]

/-- A text is masked part by part. -/
theorem mask_append (p : Nat) (a b : List UInt8) : mask ks p (a ++ b) = mask ks p a ++ mask ks (p + a.length) b := by
  induction a generalizing p with
  | nil => rfl
  | cons x a ih => rw [List.cons_append, mask, ih, mask, List.cons_append, List.length_cons, Nat.add_right_comm, Nat.add_assoc]

/-- The same keystream gives the text back. -/
theorem mask_mask (p : Nat) (text : List UInt8) : mask ks p (mask ks p text) = text := by
  induction text generalizing p with
  | nil => rfl
  | cons b text ih => rw [mask, mask, ih, UInt8.xor_assoc, UInt8.xor_self, UInt8.xor_zero]

/-- A text and a block of the keystream that is at least as long. -/
theorem zipWith_eq_mask {p : Nat} {text block : List UInt8} (hlen : text.length ≤ block.length)
    (hblock : ∀ i, i < text.length → ks (p + i) = block.getD i 0) : List.zipWith (· ^^^ ·) text block = mask ks p text := by
  induction text generalizing p block with
  | nil => rfl
  | cons b text ih =>
    cases block with
    | nil => cases hlen
    | cons c block =>
      have h0 := hblock 0 (Nat.zero_lt_succ _)
      rw [Nat.add_zero, List.getD_cons_zero] at h0
      rw [List.zipWith_cons_cons, mask, h0]
      refine congrArg _ (ih (Nat.le_of_succ_le_succ hlen) fun i hi => ?_)
      have := hblock (i + 1) (Nat.succ_lt_succ hi)
      rwa [List.getD_cons_succ, ← Nat.add_assoc, Nat.add_right_comm] at this

end Keystream
