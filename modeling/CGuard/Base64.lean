import CGuard.Acl

/-!
# Decoding base64

`mbedtls_base64_decode` of the vendored mbedTLS (base64.c): a first pass that checks the text and computes the length, and a
second pass that writes the bytes.
-/

namespace CGuard

/-- (base64.c) `base64_dec_map`: the value of a character, 64 for the padding and 127 for what is not in the alphabet. -/
def base64DecMap (b : UInt8) : UInt32 :=
  [127, 127, 127, 127, 127, 127, 127, 127, 127, 127, 127, 127, 127, 127, 127, 127, 127, 127, 127, 127,
    127, 127, 127, 127, 127, 127, 127, 127, 127, 127, 127, 127, 127, 127, 127, 127, 127, 127, 127, 127,
    127, 127, 127, 62, 127, 127, 127, 63, 52, 53, 54, 55, 56, 57, 58, 59, 60, 61, 127, 127,
    127, 64, 127, 127, 127, 0, 1, 2, 3, 4, 5, 6, 7, 8, 9, 10, 11, 12, 13, 14,
    15, 16, 17, 18, 19, 20, 21, 22, 23, 24, 25, 127, 127, 127, 127, 127, 127, 26, 27, 28,
    29, 30, 31, 32, 33, 34, 35, 36, 37, 38, 39, 40, 41, 42, 43, 44, 45, 46, 47, 48,
    49, 50, 51, 127, 127, 127, 127, 127].getD b.toNat 127

/-- The bytes the decoder tests for: line feed, carriage return, space and the padding `=`. -/
def lineFeed : UInt8 := 10
def carriageReturn : UInt8 := 13
def space : UInt8 := 32
def padding : UInt8 := 61

/-- (base64.h) `MBEDTLS_ERR_BASE64_BUFFER_TOO_SMALL`. -/
def mbedtlsErrBase64BufferTooSmall : Int := -0x002A

/-- (base64.h) `MBEDTLS_ERR_BASE64_INVALID_CHARACTER`. -/
def mbedtlsErrBase64InvalidCharacter : Int := -0x002C

/-- The first pass of `mbedtls_base64_decode`: `x` spaces since the last other character, `n` characters and `j` paddings so far.
It answers `n` and `j`, or nothing for an invalid character. -/
def firstPass : List UInt8 → (x n j : Nat) → Option (Nat × Nat)
  | [], _, n, j => some (n, j)
  | b :: bs, x, n, j =>
    if b = space then firstPass bs (x + 1) n j
    else if b = carriageReturn ∧ bs.head? = some lineFeed then firstPass bs 0 n j
    else if b = lineFeed then firstPass bs 0 n j
    else if x ≠ 0 then none
    else
      let j := if b = padding then j + 1 else j
      if j > 2 then none
      else if b > 127 ∨ base64DecMap b = 127 then none
      else if base64DecMap b < 64 ∧ j ≠ 0 then none
      else firstPass bs 0 (n + 1) j

/-- The second pass of `mbedtls_base64_decode`: every fourth character writes the `j` bytes that are left after the paddings. -/
def secondPass : List UInt8 → (j : Nat) → (x : UInt32) → (n : Nat) → List UInt8
  | [], _, _, _ => []
  | b :: bs, j, x, n =>
    if b = carriageReturn ∨ b = lineFeed ∨ b = space then secondPass bs j x n
    else
      let j := if base64DecMap b = 64 then j - 1 else j
      let x := (x <<< 6) ||| (base64DecMap b &&& 0x3F)
      if n + 1 = 4 then [(x >>> 16).toUInt8, (x >>> 8).toUInt8, x.toUInt8].take j ++ secondPass bs j x 0
      else secondPass bs j x (n + 1)

/-- What a decoder answers: its return value, the length it stores (if it stores one) and the bytes it writes to `dst`. -/
structure Decoded where
  ret : Int
  olen : Option Nat
  written : List UInt8
  deriving DecidableEq

/-- (base64.c) `mbedtls_base64_decode` of `src` into a buffer of `dlen` bytes. -/
def mbedtlsBase64Decode (dlen : Nat) (src : List UInt8) : Decoded :=
  match firstPass src 0 0 0 with
  | none => { ret := mbedtlsErrBase64InvalidCharacter, olen := none, written := [] }
  | some (n, j) =>
    if n = 0 then { ret := 0, olen := some 0, written := [] }
    else
      let n := 6 * (n / 8) + (6 * (n % 8) + 7) / 8 - j
      if dlen < n then { ret := mbedtlsErrBase64BufferTooSmall, olen := some n, written := [] }
      else
        let out := secondPass src 3 0 0
        { ret := 0, olen := some out.length, written := out }

/-! ## The decoder writes inside its buffer -/

/-- Only the padding has the value 64. -/
theorem base64DecMap_eq_64 (b : UInt8) : base64DecMap b = 64 ↔ b = padding := by
  have hall : ∀ n < 256, base64DecMap (UInt8.ofNat n) = 64 ↔ UInt8.ofNat n = padding := by decide +kernel
  simpa using hall b.toNat b.toNat_lt

/-- How the first pass goes on after a character that it counts. -/
theorem firstPass_counted {b : UInt8} {bs : List UInt8} {x n j N J : Nat}
    (h : firstPass (b :: bs) x n j = some (N, J)) (hb : ¬ (b = carriageReturn ∨ b = lineFeed ∨ b = space)) :
    (if b = padding then j + 1 else j) ≤ 2 ∧ firstPass bs 0 (n + 1) (if b = padding then j + 1 else j) = some (N, J) := by
  simp only [not_or] at hb
  simp only [firstPass, if_neg hb.2.1, if_neg hb.2.2, hb.1, false_and, if_false] at h
  generalize (if b = padding then j + 1 else j) = j' at h ⊢
  split_ifs at h with _ hj
  exact ⟨Nat.le_of_not_gt hj, h⟩

/-- How the first pass goes on after a character that it skips, which is a white space character of the second pass. -/
theorem firstPass_skipped {b : UInt8} {bs : List UInt8} {x n j N J : Nat}
    (h : firstPass (b :: bs) x n j = some (N, J)) (hb : b = carriageReturn ∨ b = lineFeed ∨ b = space) :
    ∃ x', firstPass bs x' n j = some (N, J) := by
  rcases hb with rfl | rfl | rfl
  · have hmap : base64DecMap carriageReturn = 127 := by decide
    simp only [firstPass, hmap, or_true, if_true] at h
    split_ifs at h <;> exact ⟨_, h⟩
  · exact ⟨0, h⟩
  · exact ⟨x + 1, h⟩

/-- After a first pass that found `N` characters and `J` paddings, the second pass writes no more than the length computed from
them. In the group at hand, `k` characters have been read, of which `p` are paddings. -/
theorem secondPass_length (bs : List UInt8) :
    ∀ {x n j N J : Nat} {y : UInt32} {k p : Nat}, firstPass bs x n j = some (N, J) → p ≤ k → k < 4 → p ≤ j → j ≤ 2 →
      n ≤ N ∧ (secondPass bs (3 - j) y k).length + J + p ≤ 3 * ((k + (N - n)) / 4) + (k + (N - n)) % 4 + j := by
  induction bs with
  | nil =>
    intro x n j N J y k p h hpk hk hpj hj
    cases h
    simp only [secondPass, List.length_nil]
    omega
  | cons b bs ih =>
    intro x n j N J y k p h hpk hk hpj hj
    by_cases hb : b = carriageReturn ∨ b = lineFeed ∨ b = space
    · obtain ⟨x', h'⟩ := firstPass_skipped h hb
      simp only [secondPass, if_pos hb]
      exact ih h' hpk hk hpj hj
    · obtain ⟨hj', h'⟩ := firstPass_counted h hb
      have hleft : (if base64DecMap b = 64 then 3 - j - 1 else 3 - j) = 3 - (if b = padding then j + 1 else j) := by
        simp only [base64DecMap_eq_64]
        split_ifs <;> omega
      simp only [secondPass, if_neg hb, hleft]
      generalize hy : (y <<< 6) ||| (base64DecMap b &&& 0x3F) = y'
      by_cases hk3 : k + 1 = 4
      · -- the group is complete: three bytes less the paddings so far
        obtain ⟨hN, hlen⟩ := @ih 0 (n + 1) _ N J y' 0 0 h' (Nat.le_refl 0) (by omega) (Nat.zero_le _) hj'
        simp only [if_pos hk3, List.length_append, List.length_take, List.length_cons, List.length_nil]
        split_ifs at hlen ⊢ <;> omega
      · have hp' : (if b = padding then p + 1 else p) ≤ (if b = padding then j + 1 else j) := by split_ifs <;> omega
        obtain ⟨hN, hlen⟩ := @ih 0 (n + 1) _ N J y' (k + 1) (if b = padding then p + 1 else p) h'
          (by split_ifs <;> omega) (by omega) hp' hj'
        simp only [if_neg hk3]
        split_ifs at hlen ⊢ <;> omega

/-- `mbedtls_base64_decode` never writes past the end of `dst`. -/
theorem mbedtlsBase64Decode_length_le (dlen : Nat) (src : List UInt8) :
    (mbedtlsBase64Decode dlen src).written.length ≤ dlen := by
  unfold mbedtlsBase64Decode
  split
  · exact Nat.zero_le _
  · rename_i N J h
    split_ifs with h0
    · exact Nat.zero_le _
    simp only
    split_ifs with hlen
    · exact Nat.zero_le _
    · have hbound := (@secondPass_length src 0 0 0 N J 0 0 0 h (Nat.le_refl 0) (by omega) (Nat.le_refl 0) (by omega)).2
      simp only [Nat.zero_add, Nat.sub_zero, Nat.add_zero] at hbound
      simp only at hlen ⊢
      omega

/-- The base64 text of the credential of 32 NULs. -/
def base64OfZeros : List UInt8 := List.replicate 43 65 ++ [padding]

example : mbedtlsBase64Decode 32 base64OfZeros = { ret := 0, olen := some 32, written := List.replicate 32 0 } := by decide

end CGuard
