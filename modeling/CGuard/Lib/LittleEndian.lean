import Mathlib.Data.Nat.Digits.Lemmas

/-!
# Little-endian numbers

The number that some bytes are, the lowest first, and the bytes of a number.
-/

namespace LittleEndian

/-- The number that the bytes are. -/
def ofBytes (bs : List UInt8) : Nat := Nat.ofDigits 256 (bs.map UInt8.toNat)

/-- The `k` lowest bytes of a number. -/
def toBytes : Nat → Nat → List UInt8
  | 0, _ => []
  | k + 1, n => UInt8.ofNat n :: toBytes k (n / 256)

@[simp] theorem ofBytes_nil : ofBytes [] = 0 := rfl

@[simp] theorem ofBytes_cons (b : UInt8) (bs : List UInt8) : ofBytes (b :: bs) = b.toNat + 256 * ofBytes bs := rfl

/-- The bytes behind others count for more. -/
theorem ofBytes_append (as bs : List UInt8) : ofBytes (as ++ bs) = ofBytes as + 256 ^ as.length * ofBytes bs := by
  rw [ofBytes, List.map_append, Nat.ofDigits_append, List.length_map]
  rfl

/-- The first bytes and the ones after them, whether or not there are that many. -/
theorem ofBytes_take_add (bs : List UInt8) (i j : Nat) :
    ofBytes (bs.take (i + j)) = ofBytes (bs.take i) + 256 ^ i * ofBytes ((bs.drop i).take j) := by
  rw [List.take_add, ofBytes_append, List.length_take]
  rcases Nat.le_total i bs.length with h | h
  · rw [Nat.min_eq_left h]
  · rw [List.drop_eq_nil_of_le h, List.take_nil, ofBytes_nil, Nat.mul_zero, Nat.mul_zero]

@[simp] theorem ofBytes_replicate_zero (n : Nat) : ofBytes (List.replicate n 0) = 0 := by
  induction n with
  | zero => rfl
  | succ n ih => rw [List.replicate_succ, ofBytes_cons, ih]; rfl

@[simp] theorem length_toBytes (k n : Nat) : (toBytes k n).length = k := by
  induction k generalizing n with
  | zero => rfl
  | succ k ih => rw [toBytes, List.length_cons, ih]

/-- The upper digits follow the lower ones. -/
theorem toBytes_append (j k n : Nat) : toBytes (j + k) n = toBytes j n ++ toBytes k (n / 256 ^ j) := by
  induction j generalizing n with
  | zero => simp [toBytes]
  | succ j ih =>
    rw [Nat.add_right_comm, toBytes, ih, toBytes, List.cons_append, Nat.div_div_eq_div_mul, Nat.pow_succ, Nat.mul_comm 256]

/-- Bytes above the ones that are taken do not matter. -/
theorem toBytes_mod {k m : Nat} (h : 256 ^ k ∣ m) (n : Nat) : toBytes k (n % m) = toBytes k n := by
  induction k generalizing n m with
  | zero => rfl
  | succ k ih =>
    obtain ⟨c, rfl⟩ := h
    have hdvd : 256 ∣ 256 ^ (k + 1) * c := Dvd.dvd.mul_right (dvd_pow_self 256 (Nat.succ_ne_zero k)) c
    have hlow : UInt8.ofNat (n % (256 ^ (k + 1) * c)) = UInt8.ofNat n := by
      apply UInt8.toNat_inj.mp
      rw [UInt8.toNat_ofNat', UInt8.toNat_ofNat', Nat.mod_mod_of_dvd]
      exact hdvd
    have hhigh : n % (256 ^ (k + 1) * c) / 256 = n / 256 % (256 ^ k * c) := by
      rw [Nat.pow_succ', Nat.mul_assoc, Nat.mod_mul_right_div_self]
    rw [toBytes, toBytes, hlow, hhigh, ih (Dvd.intro _ rfl)]

end LittleEndian
