import CGuard.Lemmas.ChaChaPoly

/-!
# The authenticator of a message in pieces

However a message is cut into calls of `mbedtls_poly1305_update`, the words of the context are its polynomial at the clamped point.
-/

namespace CGuard

open LittleEndian

namespace Poly1305Aux

open ChaChaPolyAux

/-- The message that a context has absorbed: the whole blocks are in the accumulator, what is left is in the queue. -/
structure Absorbed (key : List UInt8) (ctx : Poly1305Context) (msg : List UInt8) : Prop where
  clamped : Clamped ctx.r
  r : wordsValue ctx.r = Poly1305.clamp (ofBytes (key.take 16))
  s : wordsValue ctx.s = ofBytes ((key.drop 16).take 16)
  small : ctx.acc.acc4.toNat ≤ 4
  short : ctx.queue.length < 16
  blocks : ∃ whole, msg = whole ++ ctx.queue ∧ 16 ∣ whole.length ∧
    value ctx.acc ≡ Poly1305.absorb (wordsValue ctx.r) 0 whole [MOD Poly1305.prime]

/-- Bits that are kept in two parts of a number. -/
theorem land_add {i x a : Nat} (hx : x < 2 ^ i) (ha : a < 2 ^ i) (y b : Nat) :
    (x + 2 ^ i * y) &&& (a + 2 ^ i * b) = (x &&& a) + 2 ^ i * (y &&& b) := by
  have hxa : x &&& a < 2 ^ i := Nat.and_lt_two_pow x ha
  refine Nat.eq_of_testBit_eq fun j => ?_
  rw [Nat.add_comm x, Nat.add_comm a, Nat.add_comm (x &&& a), Nat.testBit_and, Nat.testBit_two_pow_mul_add y hx,
    Nat.testBit_two_pow_mul_add b ha, Nat.testBit_two_pow_mul_add (y &&& b) hxa]
  split_ifs <;> rw [Nat.testBit_and]

theorem absorbed_starts (key : List UInt8) : Absorbed key (mbedtlsPoly1305Starts key) [] := by
  have hlow : ∀ w : UInt32, ∃ k, (w &&& 0x0FFFFFFC).toNat = 4 * k ∧ k < 2 ^ 26 := by
    intro w
    have hmask : (0x0FFFFFFC : UInt32) = 0xFFFFFFFC &&& 0x0FFFFFFF := by decide
    have hand : (w &&& 0x0FFFFFFC).toNat = 4 * (w.toNat / 4) % 2 ^ 28 := by
      rw [hmask, ← UInt32.and_assoc, UInt32.toNat_and, toNat_and_not_three]
      exact Nat.and_two_pow_sub_one_eq_mod _ 28
    exact ⟨w.toNat / 4 % 2 ^ 26, by rw [hand]; omega, Nat.mod_lt _ (by decide)⟩
  refine ⟨⟨?_, hlow _, hlow _, hlow _⟩, ?_, ?_, Nat.zero_le _, Nat.zero_lt_succ _, [], rfl, dvd_zero 16, ?_⟩
  · simp only [mbedtlsPoly1305Starts, UInt32.toNat_and]
    exact Nat.and_lt_two_pow _ (by decide)
  · have hmask : 0x0ffffffc0ffffffc0ffffffc0fffffff =
        0x0fffffff + 2 ^ 32 * (0x0ffffffc + 2 ^ 32 * (0x0ffffffc + 2 ^ 32 * 0x0ffffffc)) := by decide
    have hwords : ofBytes (key.take 16) = (bytesToU32LE key 0).toNat + 2 ^ 32 * ((bytesToU32LE key 4).toNat +
        2 ^ 32 * ((bytesToU32LE key 8).toNat + 2 ^ 32 * (bytesToU32LE key 12).toNat)) := by
      rw [ofBytes_words]
      omega
    rw [Poly1305.clamp, hmask, hwords, land_add (UInt32.toNat_lt _) (by decide), land_add (UInt32.toNat_lt _) (by decide),
      land_add (UInt32.toNat_lt _) (by decide)]
    simp only [mbedtlsPoly1305Starts, wordsValue, UInt32.toNat_and]
    have m0 : (0x0FFFFFFF : UInt32).toNat = 0x0fffffff := rfl
    have m1 : (0x0FFFFFFC : UInt32).toNat = 0x0ffffffc := rfl
    rw [m0, m1]
    omega
  · have h := ofBytes_words (key.drop 16)
    simp only [toNat_bytesToU32LE, List.drop_drop, Nat.reduceAdd] at h
    simp only [mbedtlsPoly1305Starts, wordsValue, toNat_bytesToU32LE, h]
  · simp [mbedtlsPoly1305Starts, value, Nat.ModEq.refl]

variable {key : List UInt8} {ctx : Poly1305Context} {msg : List UInt8}

/-- The queue and more bytes, whole blocks together, go into the accumulator. -/
theorem Absorbed.process (h : Absorbed key ctx msg) {x : List UInt8} (hdvd : 16 ∣ (ctx.queue ++ x).length) :
    Absorbed key { ctx with acc := poly1305Process ctx.r ctx.acc (ctx.queue ++ x) 1, queue := [] } (msg ++ x) := by
  obtain ⟨whole, rfl, hwhole, hacc⟩ := h.blocks
  obtain ⟨hvalue, hsmall⟩ := value_process h.clamped hdvd h.small
  refine ⟨h.clamped, h.r, h.s, hsmall, Nat.zero_lt_succ _, whole ++ (ctx.queue ++ x), ?_, ?_, ?_⟩
  · rw [List.append_nil, List.append_assoc]
  · rw [List.length_append]
    exact Nat.dvd_add hwhole hdvd
  · rw [Poly1305.absorb_append _ hwhole]
    exact hvalue.trans (Poly1305.absorb_congr hacc)

/-- Too few bytes for a block stay in the queue. -/
theorem Absorbed.enqueue (h : Absorbed key ctx msg) {x : List UInt8} (hx : (ctx.queue ++ x).length < 16) :
    Absorbed key { ctx with queue := ctx.queue ++ x } (msg ++ x) := by
  obtain ⟨whole, rfl, hwhole, hacc⟩ := h.blocks
  exact ⟨h.clamped, h.r, h.s, h.small, hx, whole, List.append_assoc _ _ _, hwhole, hacc⟩

/-- From an empty queue: the whole blocks of the input, then the rest into the queue. -/
theorem Absorbed.blocksAndRest (h : Absorbed key ctx msg) (hempty : ctx.queue = []) (input : List UInt8) :
    Absorbed key
      (let (ctx, input) :=
        if 16 ≤ input.length then
          ({ ctx with acc := poly1305Process ctx.r ctx.acc (input.take (input.length / 16 * 16)) 1 },
            input.drop (input.length / 16 * 16))
        else (ctx, input)
      if 0 < input.length then { ctx with queue := input } else ctx) (msg ++ input) := by
  have hrest : ∀ {ctx : Poly1305Context} {msg x : List UInt8}, Absorbed key ctx msg → ctx.queue = [] → x.length < 16 →
      Absorbed key (if 0 < x.length then { ctx with queue := x } else ctx) (msg ++ x) := by
    intro ctx msg x h hempty hx
    split_ifs with hpos
    · have := h.enqueue (x := x) (by rw [hempty]; exact hx)
      rwa [hempty] at this
    · rw [List.length_eq_zero_iff.mp (Nat.eq_zero_of_not_pos hpos), List.append_nil]
      exact h
  by_cases h16 : 16 ≤ input.length
  · have hlen : (input.take (input.length / 16 * 16)).length = input.length / 16 * 16 := by
      rw [List.length_take]
      omega
    have hblocks := h.process (x := input.take (input.length / 16 * 16)) (by rw [hempty, List.nil_append, hlen]; exact Nat.dvd_mul_left _ _)
    rw [hempty, List.nil_append] at hblocks
    have hsplit : msg ++ input = msg ++ input.take (input.length / 16 * 16) ++ input.drop (input.length / 16 * 16) := by
      rw [List.append_assoc, List.take_append_drop]
    rw [if_pos h16, hsplit]
    simp only
    have := hrest hblocks rfl (x := input.drop (input.length / 16 * 16)) (by rw [List.length_drop]; omega)
    rw [← hempty] at this
    exact this
  · rw [if_neg h16]
    exact hrest h hempty (by omega)

/-- `mbedtls_poly1305_update` absorbs its input. -/
theorem Absorbed.update (h : Absorbed key ctx msg) (input : List UInt8) : Absorbed key (mbedtlsPoly1305Update ctx input) (msg ++ input) := by
  rw [mbedtlsPoly1305Update]
  by_cases hqueue : 0 < input.length ∧ 0 < ctx.queue.length
  · rw [if_pos hqueue]
    by_cases hfew : input.length < 16 - ctx.queue.length
    · simp only [if_pos hfew]
      have := h.short
      have hq := h.enqueue (x := input) (by rw [List.length_append]; omega)
      simpa using hq
    · simp only [if_neg hfew]
      have := h.short
      have hblock := h.process (x := input.take (16 - ctx.queue.length)) (by
        rw [List.length_append, List.length_take]
        exact ⟨1, by omega⟩)
      have := hblock.blocksAndRest rfl (input.drop (16 - ctx.queue.length))
      rwa [List.append_assoc, List.take_append_drop] at this
  · rw [if_neg hqueue]
    by_cases hempty : ctx.queue = []
    · exact h.blocksAndRest hempty input
    · have hpos := List.length_pos_iff.mpr hempty
      have hnil : input = [] := List.length_eq_zero_iff.mp (by omega)
      subst hnil
      simpa using h

/-- `mbedtls_poly1305_finish` makes the authenticator of what was absorbed. -/
theorem Absorbed.finish (h : Absorbed key ctx msg) : mbedtlsPoly1305Finish ctx = Poly1305.mac key msg := by
  obtain ⟨whole, rfl, hwhole, hacc⟩ := h.blocks
  have hprime : 0 < Poly1305.prime := by decide
  have hmac : ∀ {acc : Poly1305Acc}, acc.acc4.toNat ≤ 4 →
      value acc ≡ Poly1305.absorb (wordsValue ctx.r) 0 (whole ++ ctx.queue) [MOD Poly1305.prime] →
      poly1305ComputeMac acc ctx.s = Poly1305.mac key (whole ++ ctx.queue) := by
    intro acc hsmall hvalue
    have hlt : Poly1305.absorb (wordsValue ctx.r) 0 (whole ++ ctx.queue) < Poly1305.prime := Poly1305.absorb_lt hprime
    rw [computeMac_eq hsmall, hvalue, Nat.mod_eq_of_lt hlt, Poly1305.mac, ← h.r, ← h.s]
  rw [mbedtlsPoly1305Finish]
  have hshort := h.short
  by_cases hpos : 0 < ctx.queue.length
  · rw [if_pos hpos]
    have hlen : (ctx.queue ++ [1] ++ List.replicate (16 - (ctx.queue.length + 1)) 0).length = 16 := by
      simp only [List.length_append, List.length_cons, List.length_nil, List.length_replicate]
      omega
    obtain ⟨hlast, hsmall⟩ := value_process_last h.clamped h.small hlen
    refine hmac hsmall ?_
    have hblock : ofBytes (ctx.queue ++ [1] ++ List.replicate (16 - (ctx.queue.length + 1)) 0) = Poly1305.block ctx.queue := by
      rw [ofBytes_append, ofBytes_append, ofBytes_replicate_zero, Nat.mul_zero, Nat.add_zero, Poly1305.block]
      simp
    rw [hblock] at hlast
    rw [Poly1305.absorb_append _ hwhole, Poly1305.absorb_short (List.length_pos_iff.mp hpos) (by omega)]
    exact hlast.trans (((hacc.add_right _).mul_right _).trans (Nat.mod_modEq _ _).symm)
  · rw [if_neg hpos]
    refine hmac h.small ?_
    rw [List.length_eq_zero_iff.mp (Nat.eq_zero_of_not_pos hpos), List.append_nil]
    exact hacc

end Poly1305Aux

open Poly1305Aux

/-- However a message is cut into calls of `mbedtls_poly1305_update`, the words of `poly1305.c` never overflow and
`mbedtls_poly1305_finish` gives the Poly1305 authenticator of the whole. -/
theorem mbedtlsPoly1305_mac (key : List UInt8) (pieces : List (List UInt8)) :
    mbedtlsPoly1305Finish (pieces.foldl mbedtlsPoly1305Update (mbedtlsPoly1305Starts key)) = Poly1305.mac key pieces.flatten := by
  have h : ∀ {ctx : Poly1305Context} {msg : List UInt8}, Absorbed key ctx msg →
      Absorbed key (pieces.foldl mbedtlsPoly1305Update ctx) (msg ++ pieces.flatten) := by
    induction pieces with
    | nil =>
      intro ctx msg h
      simpa using h
    | cons piece pieces ih =>
      intro ctx msg h
      rw [List.foldl_cons, List.flatten_cons, ← List.append_assoc]
      exact ih (h.update piece)
  exact (h (absorbed_starts key)).finish

end CGuard
