import CGuard.Theorems.Poly1305
import CGuard.Lib.Keystream
import CGuard.IpSecurity

/-!
# ChaCha20-Poly1305 as it is meant

The stream that the contexts of `chacha20.c` run through, and the construction: the single shot functions encrypt with the stream, and the
tag is the authenticator of the additional data, the cipher text and both lengths under the first bytes of the stream.
-/

namespace CGuard

open LittleEndian Keystream

namespace ChaCha20Aux

/-- A block of the keystream has 64 bytes. -/
theorem length_chacha20Block (state : Vector UInt32 16) : (chacha20Block state).length = 64 := by
  have h : ∀ ws : List UInt32, (ws.flatMap u32ToBytesLE).length = 4 * ws.length := by
    intro ws
    induction ws with
    | nil => rfl
    | cons w ws ih =>
      rw [List.flatMap_cons, List.length_append, ih, List.length_cons]
      show 4 + 4 * ws.length = _
      omega
  rw [chacha20Block, h, Vector.length_toList]

/-- A context that has used `p` bytes of the stream. -/
structure At (initial : Vector UInt32 16) (p : Nat) (ctx : ChaCha20Context) : Prop where
  used : ctx.keystreamBytesUsed ≤ 64
  block : ∃ k, ctx.state = blockState initial k ∧ p + (64 - ctx.keystreamBytesUsed) = 64 * k ∧
    (ctx.keystreamBytesUsed < 64 → ctx.keystream8 = chacha20Block (blockState initial (k - 1)))

variable {initial : Vector UInt32 16} {p : Nat} {ctx : ChaCha20Context}

/-- The bytes that are left over of a block are used first. -/
theorem useLeftover_spec {input : List UInt8} : ∀ {p : Nat} {ctx : ChaCha20Context}, At initial p ctx →
    ∃ n, (useLeftover ctx input).2.1 = mask (chacha20Keystream initial) p (input.take n) ∧
      (useLeftover ctx input).2.2 = input.drop n ∧ n ≤ input.length ∧ At initial (p + n) (useLeftover ctx input).1 ∧
      (input.drop n ≠ [] → (useLeftover ctx input).1.keystreamBytesUsed = 64) := by
  induction input with
  | nil =>
    intro p ctx h
    exact ⟨0, rfl, rfl, Nat.le_refl _, h, fun hne => absurd rfl hne⟩
  | cons b input ih =>
    intro p ctx h
    by_cases hused : ctx.keystreamBytesUsed < 64
    · obtain ⟨k, hstate, hp, hblock⟩ := h.block
      have hnext : At initial (p + 1) { ctx with keystreamBytesUsed := ctx.keystreamBytesUsed + 1 } :=
        ⟨hused, k, hstate, by simp only; omega, fun hlt => hblock hused⟩
      obtain ⟨n, hout, hrest, hn, hat, hdone⟩ := ih hnext
      have hbyte : ctx.keystream8.getD ctx.keystreamBytesUsed 0 = chacha20Keystream initial p := by
        have hk : p / 64 = k - 1 ∧ p % 64 = ctx.keystreamBytesUsed := by omega
        rw [chacha20Keystream, hk.1, hk.2, hblock hused]
      refine ⟨n + 1, ?_, ?_, Nat.succ_le_succ hn, ?_, ?_⟩
      · rw [useLeftover, if_pos hused, List.take_succ_cons, mask]
        simp only [hout, hbyte]
      · rw [useLeftover, if_pos hused, List.drop_succ_cons]
        exact hrest
      · rw [useLeftover, if_pos hused, Nat.add_comm n, ← Nat.add_assoc]
        exact hat
      · rw [useLeftover, if_pos hused, List.drop_succ_cons]
        exact hdone
    · rw [useLeftover, if_neg hused]
      have h64 : ctx.keystreamBytesUsed = 64 := by
        have := h.used
        omega
      exact ⟨0, rfl, rfl, Nat.zero_le _, h, fun _ => h64⟩

/-- A block of the stream is what a text at its start is combined with. -/
theorem zipWith_block {k : Nat} {text : List UInt8} (hlen : text.length ≤ 64) :
    List.zipWith (· ^^^ ·) text (chacha20Block (blockState initial k)) = mask (chacha20Keystream initial) (64 * k) text := by
  refine zipWith_eq_mask (by rw [length_chacha20Block]; exact hlen) fun i hi => ?_
  have : (64 * k + i) / 64 = k ∧ (64 * k + i) % 64 = i := by omega
  rw [chacha20Keystream, this.1, this.2]

/-- With nothing left over, the next block of the stream is made, and `n` bytes of it are used. -/
theorem At.next (h : At initial p ctx) (h64 : ctx.keystreamBytesUsed = 64) :
    ∃ k, p = 64 * k ∧ ctx.nextBlock.keystream8 = chacha20Block (blockState initial k) ∧
      ∀ n, n ≤ 64 → At initial (p + n) { ctx.nextBlock with keystreamBytesUsed := n } := by
  obtain ⟨k, hstate, hp, -⟩ := h.block
  refine ⟨k, by omega, by rw [ChaCha20Context.nextBlock, hstate], fun n hn => ⟨hn, k + 1, ?_, by simp only; omega, fun _ => ?_⟩⟩
  · simp only [ChaCha20Context.nextBlock, hstate]
    exact blockState_succ initial k
  · simp only [ChaCha20Context.nextBlock, hstate]
    rfl

/-- The full blocks of the input are masked. -/
theorem fullBlocks_spec {input : List UInt8} : ∀ {p : Nat} {ctx : ChaCha20Context}, At initial p ctx → ctx.keystreamBytesUsed = 64 →
    ∃ n, (fullBlocks ctx input).2.1 = mask (chacha20Keystream initial) p (input.take n) ∧
      (fullBlocks ctx input).2.2 = input.drop n ∧ n ≤ input.length ∧ input.length < n + 64 ∧
      At initial (p + n) (fullBlocks ctx input).1 ∧ (fullBlocks ctx input).1.keystreamBytesUsed = 64 := by
  induction hn : input.length using Nat.strongRecOn generalizing input with
  | ind len ih =>
    intro p ctx h h64
    rw [fullBlocks]
    by_cases hshort : input.length < 64
    · rw [if_pos hshort]
      exact ⟨0, rfl, rfl, Nat.zero_le _, by omega, h, h64⟩
    · rw [if_neg hshort]
      obtain ⟨k, hpk, hks, hnext⟩ := h.next h64
      have hat64 := hnext 64 (Nat.le_refl _)
      rw [← h64] at hat64
      obtain ⟨n, hout, hrest, hle, hlt, hat, hused⟩ := @ih (len - 64) (by omega) (input.drop 64) (by rw [List.length_drop, hn])
        (p + 64) ctx.nextBlock (h64 ▸ hat64) h64
      have htake : (input.take 64).length = 64 := by
        rw [List.length_take]
        omega
      refine ⟨64 + n, ?_, ?_, by omega, by omega, ?_, hused⟩
      · simp only [hout, hks]
        rw [zipWith_block (Nat.le_of_eq htake), List.take_add, mask_append, htake, hpk]
      · simp only [hrest, List.drop_drop]
      · rw [← Nat.add_assoc]
        exact hat

/-- `mbedtls_chacha20_update` goes on in the stream where the calls before it have stopped. -/
theorem update_spec (h : At initial p ctx) (input : List UInt8) :
    (mbedtlsChacha20Update ctx input).2 = mask (chacha20Keystream initial) p input ∧
      At initial (p + input.length) (mbedtlsChacha20Update ctx input).1 := by
  obtain ⟨n₁, hout₁, hrest₁, hn₁, hat₁, hdone₁⟩ := @useLeftover_spec initial input p ctx h
  obtain ⟨⟨ctx₁, out₁, rest₁⟩, h₁⟩ : ∃ r, useLeftover ctx input = r := ⟨_, rfl⟩
  simp only [h₁] at hout₁ hrest₁ hat₁ hdone₁
  subst hout₁ hrest₁
  rw [mbedtlsChacha20Update, h₁]
  by_cases hnil : input.drop n₁ = []
  · have hn : n₁ = input.length := by
      have := congrArg List.length hnil
      rw [List.length_drop, List.length_nil] at this
      omega
    have hfull : fullBlocks ctx₁ [] = (ctx₁, [], []) := by
      rw [fullBlocks]
      rfl
    simp only [hnil, hfull, if_true, List.append_nil]
    rw [hn, List.take_length]
    exact ⟨rfl, hn ▸ hat₁⟩
  · obtain ⟨n₂, hout₂, hrest₂, hn₂, hlt₂, hat₂, hdone₂⟩ := @fullBlocks_spec initial (input.drop n₁) _ _ hat₁ (hdone₁ hnil)
    obtain ⟨⟨ctx₂, out₂, rest₂⟩, h₂⟩ : ∃ r, fullBlocks ctx₁ (input.drop n₁) = r := ⟨_, rfl⟩
    simp only [h₂] at hout₂ hrest₂ hat₂ hdone₂ ⊢
    subst hout₂ hrest₂
    rw [List.length_drop] at hn₂ hlt₂
    have htext : mask (chacha20Keystream initial) p input =
        mask (chacha20Keystream initial) p (input.take n₁) ++
          mask (chacha20Keystream initial) (p + n₁) ((input.drop n₁).take n₂) ++
            mask (chacha20Keystream initial) (p + n₁ + n₂) ((input.drop n₁).drop n₂) := by
      have hlen₁ : (input.take n₁).length = n₁ := by rw [List.length_take, Nat.min_eq_left hn₁]
      have hlen₂ : ((input.drop n₁).take n₂).length = n₂ := by rw [List.length_take, List.length_drop, Nat.min_eq_left hn₂]
      conv_lhs => rw [← List.take_append_drop n₁ input, ← List.take_append_drop n₂ (input.drop n₁)]
      rw [mask_append, mask_append, hlen₁, hlen₂, List.append_assoc]
    by_cases hrest : (input.drop n₁).drop n₂ = []
    · have hn : input.length = n₁ + n₂ := by
        have := congrArg List.length hrest
        rw [List.length_drop, List.length_drop, List.length_nil] at this
        omega
      rw [if_pos hrest, htext, hrest, mask, List.append_nil, hn, ← Nat.add_assoc]
      exact ⟨rfl, hat₂⟩
    · obtain ⟨k, hpk, hks, hnext⟩ := hat₂.next hdone₂
      have hlen : ((input.drop n₁).drop n₂).length ≤ 64 := by
        rw [List.length_drop, List.length_drop]
        omega
      rw [if_neg hrest, hks, zipWith_block hlen, htext, hpk]
      refine ⟨rfl, ?_⟩
      have hlast := hnext _ hlen
      have hp : p + n₁ + n₂ + ((input.drop n₁).drop n₂).length = p + input.length := by
        rw [List.length_drop, List.length_drop]
        omega
      simp only [hp, hks] at hlast
      exact hlast

/-- A context that has been started is at the beginning of its keystream. -/
theorem at_starts (key nonce : List UInt8) (counter : UInt32) :
    At (mbedtlsChacha20Starts key nonce counter).state 0 (mbedtlsChacha20Starts key nonce counter) := by
  refine ⟨Nat.le_refl _, 0, ?_, rfl, fun h => absurd h (Nat.lt_irrefl 64)⟩
  simp [blockState]

end ChaCha20Aux

open ChaCha20Aux

/-- The outputs of some calls, one after the other. -/
def chacha20Outputs : ChaCha20Context → List (List UInt8) → List (List UInt8)
  | _, [] => []
  | ctx, piece :: pieces => (mbedtlsChacha20Update ctx piece).2 :: chacha20Outputs (mbedtlsChacha20Update ctx piece).1 pieces

/-- However a text is cut into calls of `mbedtls_chacha20_update`, it is combined with one keystream: that of the counter the context was
started with, block after block. Run over its own outputs, cut in any other way, the same key, nonce and counter give the text back. -/
theorem mbedtlsChacha20_stream (key nonce : List UInt8) (counter : UInt32) (pieces : List (List UInt8)) :
    (chacha20Outputs (mbedtlsChacha20Starts key nonce counter) pieces).flatten =
        mask (chacha20Keystream (mbedtlsChacha20Starts key nonce counter).state) 0 pieces.flatten ∧
      ∀ pieces', pieces'.flatten = (chacha20Outputs (mbedtlsChacha20Starts key nonce counter) pieces).flatten →
        (chacha20Outputs (mbedtlsChacha20Starts key nonce counter) pieces').flatten = pieces.flatten := by
  have hall : ∀ (pieces : List (List UInt8)) {initial : Vector UInt32 16} {p : Nat} {ctx : ChaCha20Context}, At initial p ctx →
      (chacha20Outputs ctx pieces).flatten = mask (chacha20Keystream initial) p pieces.flatten := by
    intro pieces
    induction pieces with
    | nil => exact fun _ => rfl
    | cons piece pieces ih =>
      intro initial p ctx h
      obtain ⟨hout, hat⟩ := update_spec h piece
      rw [chacha20Outputs, List.flatten_cons, List.flatten_cons, hout, ih hat, mask_append]
  refine ⟨hall pieces (at_starts key nonce counter), fun pieces' h => ?_⟩
  rw [hall pieces' (at_starts key nonce counter), h, hall pieces (at_starts key nonce counter), mask_mask]

/-! ## The construction -/

/-- Zeros up to a whole block. -/
def pad16 (n : Nat) : List UInt8 := List.replicate ((16 - n % 16) % 16) 0

/-- The stream of a key and a nonce. -/
def aeadStream (k n : List UInt8) : Nat → UInt8 := chacha20Keystream (mbedtlsChacha20Starts k (padNonce n) 0).state

/-- The text with the stream behind its first block. -/
def aeadCrypt (k n text : List UInt8) : List UInt8 := mask (aeadStream k n) 64 text

/-- The authenticator of the additional data and the cipher text, under the first block of the stream. -/
def aeadTag (k n a c : List UInt8) : List UInt8 :=
  Poly1305.mac (mask (aeadStream k n) 0 (List.replicate 64 0))
    (a ++ pad16 a.length ++ c ++ pad16 c.length ++ (toBytes 8 a.length ++ toBytes 8 c.length))

/-- The construction has the laws that the protocol needs. -/
def mbedTls : ChaCha20Poly1305 where
  encryptAad k n a m := (aeadCrypt k n m, aeadTag k n a (aeadCrypt k n m))
  decryptAad k n a tag c := if tag = aeadTag k n a c then some (aeadCrypt k n c) else none
  length_cipher k n a m := length_mask 64 m
  length_tag k n a m := length_toBytes 16 _
  length_plain k n a tag c m h := by
    split_ifs at h
    cases h
    exact length_mask 64 c
  decrypt_encrypt k n a m := by
    rw [if_pos rfl]
    exact congrArg some (mask_mask 64 m)

namespace ChaChaPolyAux

open Poly1305Aux

/-- The bytes of a length. -/
theorem u64ToBytesLE_eq (n : Nat) : u64ToBytesLE (UInt64.ofNat n) = toBytes 8 n := by
  have hbyte : ∀ (i : UInt64) (m : Nat), i.toNat < 64 → 2 ^ i.toNat = m → 256 * m ∣ 2 ^ 64 →
      (UInt64.ofNat n >>> i).toUInt8 = UInt8.ofNat (n / m) := by
    intro i m hi hm hdvd
    apply UInt8.toNat_inj.mp
    rw [UInt64.toNat_toUInt8, UInt64.toNat_shiftRight, Nat.mod_eq_of_lt hi, Nat.shiftRight_eq_div_pow, UInt8.toNat_ofNat', hm,
      UInt64.toNat_ofNat']
    obtain ⟨c, hc⟩ := hdvd
    rw [hc, Nat.mul_comm 256, Nat.mul_assoc, Nat.mod_mul_right_div_self, Nat.mod_mul_right_mod]
  have h0 : (UInt64.ofNat n).toUInt8 = UInt8.ofNat n := by
    apply UInt8.toNat_inj.mp
    rw [UInt64.toNat_toUInt8, UInt64.toNat_ofNat', UInt8.toNat_ofNat']
    omega
  simp only [u64ToBytesLE, toBytes, Nat.div_div_eq_div_mul]
  rw [h0, hbyte 8 256 (by decide) (by decide) (by decide), hbyte 16 (256 * 256) (by decide) (by decide) (by decide),
    hbyte 24 (256 * 256 * 256) (by decide) (by decide) (by decide),
    hbyte 32 (256 * 256 * 256 * 256) (by decide) (by decide) (by decide),
    hbyte 40 (256 * 256 * 256 * 256 * 256) (by decide) (by decide) (by decide),
    hbyte 48 (256 * 256 * 256 * 256 * 256 * 256) (by decide) (by decide) (by decide),
    hbyte 56 (256 * 256 * 256 * 256 * 256 * 256 * 256) (by decide) (by decide) (by decide)]

variable {key : List UInt8} {msg : List UInt8}

/-- Padding is absorbed like any input. -/
theorem absorbed_pad {ctx : ChachaPolyContext} (h : Absorbed key ctx.poly1305Ctx msg) {len : UInt64} {n : Nat}
    (hn : len = UInt64.ofNat n) : Absorbed key (chachapolyPad ctx len).poly1305Ctx (msg ++ pad16 n) := by
  subst hn
  have hlen : (UInt64.ofNat n).toNat % 16 = n % 16 := by
    rw [UInt64.toNat_ofNat']
    omega
  simp only [chachapolyPad, hlen, pad16]
  split_ifs with h0
  · rw [h0]
    simpa using h
  · rw [Nat.mod_eq_of_lt (show 16 - n % 16 < 16 by omega)]
    exact h.update _

/-- A context that has been started and has absorbed the additional data. -/
structure Prepared (k n a : List UInt8) (mode : ChachaPolyMode) (ctx : ChachaPolyContext) : Prop where
  stream : At (mbedtlsChacha20Starts k (padNonce n) 0).state 64 ctx.chacha20Ctx
  absorbed : Absorbed (mask (aeadStream k n) 0 (List.replicate 64 0)) ctx.poly1305Ctx a
  aadLen : ctx.aadLen = UInt64.ofNat a.length
  ciphertextLen : ctx.ciphertextLen = 0
  state : ctx.state = .aad
  mode : ctx.mode = mode

/-- A context that has been started is prepared for additional data. -/
theorem prepared_starts (k n : List UInt8) (mode : ChachaPolyMode) :
    Prepared k n [] mode (mbedtlsChachapolyStarts k (padNonce n) mode) := by
  obtain ⟨hout, hat⟩ := update_spec (at_starts k (padNonce n) 0) (List.replicate 64 0)
  rw [List.length_replicate, Nat.zero_add] at hat
  refine ⟨hat, ?_, rfl, rfl, rfl, rfl⟩
  simp only [mbedtlsChachapolyStarts, hout]
  exact absorbed_starts _

/-- The additional data are absorbed. -/
theorem Prepared.aad {k n : List UInt8} {mode : ChachaPolyMode} {ctx : ChachaPolyContext} (h : Prepared k n [] mode ctx) (a : List UInt8) :
    ∃ ctx', mbedtlsChachapolyUpdateAad ctx a = some ctx' ∧ Prepared k n a mode ctx' := by
  rw [mbedtlsChachapolyUpdateAad, if_neg (not_not.mpr h.state)]
  refine ⟨_, rfl, h.stream, h.absorbed.update a, ?_, h.ciphertextLen, h.state, h.mode⟩
  simp only [h.aadLen]
  exact UInt64.zero_add _

/-- Padding changes the authenticator only. -/
theorem pad_eq (ctx : ChachaPolyContext) (n : UInt64) :
    chachapolyPad ctx n = { ctx with poly1305Ctx := (chachapolyPad ctx n).poly1305Ctx } := by
  simp only [chachapolyPad]
  split_ifs <;> rfl

/-- A context that has absorbed the additional data and the cipher text, all in whole blocks, makes the tag. -/
theorem final_of_absorbed {k n a c : List UInt8} {ctx ctx' : ChachaPolyContext} (hstate : ctx.state ≠ .init)
    (hpad : (if ctx.state = .aad then chachapolyPad ctx ctx.aadLen
      else if ctx.state = .ciphertext then chachapolyPad ctx ctx.ciphertextLen else ctx) = ctx')
    (habsorbed : Absorbed (mask (aeadStream k n) 0 (List.replicate 64 0)) ctx'.poly1305Ctx
      (a ++ pad16 a.length ++ c ++ pad16 c.length))
    (haad : ctx'.aadLen = UInt64.ofNat a.length) (hcipher : ctx'.ciphertextLen = UInt64.ofNat c.length) :
    chacha20Poly1305Final ctx = .ok (aeadTag k n a c) := by
  rw [chacha20Poly1305Final, mbedtlsChachapolyFinish, if_neg hstate, hpad]
  simp only [haad, hcipher, u64ToBytesLE_eq]
  exact congrArg _ (habsorbed.update _).finish

/-- `mbedtls_chachapoly_update` on a context that has the additional data. -/
theorem Prepared.update {k n a : List UInt8} {mode : ChachaPolyMode} {ctx : ChachaPolyContext} (h : Prepared k n a mode ctx)
    (input : List UInt8) :
    ∃ ctx', mbedtlsChachapolyUpdate ctx input = some (ctx', aeadCrypt k n input) ∧ ctx'.state = .ciphertext ∧
      ctx'.aadLen = UInt64.ofNat a.length ∧ ctx'.ciphertextLen = UInt64.ofNat input.length ∧
      Absorbed (mask (aeadStream k n) 0 (List.replicate 64 0)) ctx'.poly1305Ctx
        (a ++ pad16 a.length ++ if mode = .encrypt then aeadCrypt k n input else input) := by
  obtain ⟨hout, -⟩ := update_spec h.stream input
  have hstate : ¬(ctx.state ≠ .aad ∧ ctx.state ≠ .ciphertext) := fun hn => hn.1 h.state
  have habsorbed := @absorbed_pad _ _ { ctx with state := .ciphertext } h.absorbed _ _ h.aadLen
  rw [mbedtlsChachapolyUpdate, if_neg hstate, if_pos h.state]
  simp only
  rw [pad_eq]
  simp only [hout, h.mode]
  refine ⟨_, rfl, rfl, h.aadLen, ?_, ?_⟩
  · simp only [h.ciphertextLen]
    exact UInt64.zero_add _
  · simp only [h.mode] at habsorbed
    exact habsorbed.update _

/-- The text, then the tag. -/
theorem Prepared.crypt {k n a : List UInt8} {mode : ChachaPolyMode} {ctx : ChachaPolyContext} (h : Prepared k n a mode ctx)
    (input : List UInt8) :
    ∃ ctx', chacha20Poly1305Update (some ctx) mode input n k = .ok (ctx', aeadCrypt k n input) ∧
      chacha20Poly1305Final ctx' = .ok (aeadTag k n a (if mode = .encrypt then aeadCrypt k n input else input)) := by
  by_cases hnil : input = []
  · subst hnil
    have hc : (if mode = ChachaPolyMode.encrypt then aeadCrypt k n [] else []) = [] := by split_ifs <;> rfl
    refine ⟨ctx, rfl, ?_⟩
    rw [hc]
    refine final_of_absorbed (by rw [h.state]; decide) (if_pos h.state) ?_ ?_ ?_
    · have := absorbed_pad h.absorbed h.aadLen
      simpa [pad16] using this
    · rw [pad_eq, h.aadLen]
    · rw [pad_eq, h.ciphertextLen]
      rfl
  · obtain ⟨ctx', hupdate, hstate, haad, hcipher, habsorbed⟩ := h.update input
    have hlen : (if mode = .encrypt then aeadCrypt k n input else input).length = input.length := by
      split_ifs
      · exact length_mask 64 input
      · rfl
    rw [← hlen] at hcipher
    refine ⟨ctx', ?_, ?_⟩
    · rw [chacha20Poly1305Update, if_pos (List.length_pos_iff.mpr hnil), Option.getD_some, hupdate]
    · refine final_of_absorbed (by rw [hstate]; decide) (by rw [hstate]; rfl) (absorbed_pad habsorbed hcipher) ?_ ?_
      · rw [pad_eq, haad]
      · rw [pad_eq, hcipher]

/-- The bytes differ somewhere, or the accumulated difference is zero. -/
theorem hapConstantTimeEqual_eq {x y : List UInt8} (h : x.length = y.length) : hapConstantTimeEqual x y = decide (x = y) := by
  have hfold : ∀ (zs : List UInt8) (acc : UInt8), zs.foldl (· ||| ·) acc = 0 ↔ acc = 0 ∧ ∀ z ∈ zs, z = 0 := by
    intro zs
    induction zs with
    | nil => simp
    | cons z zs ih =>
      intro acc
      rw [List.foldl_cons, ih, UInt8.or_eq_zero_iff]
      simp [and_assoc]
  have hxor : ∀ {x y : List UInt8}, x.length = y.length → ((∀ z ∈ List.zipWith (· ^^^ ·) x y, z = 0) ↔ x = y) := by
    intro x
    induction x with
    | nil =>
      intro y h
      cases y with
      | nil => simp
      | cons b y => cases h
    | cons a x ih =>
      intro y h
      cases y with
      | nil => cases h
      | cons b y =>
        rw [List.zipWith_cons_cons, List.forall_mem_cons, ih (Nat.succ.inj h), UInt8.xor_eq_zero_iff, List.cons.injEq]
  rw [hapConstantTimeEqual, decide_eq_decide, hfold, hxor h]
  simp

end ChaChaPolyAux

open ChaChaPolyAux

/-- The single shot functions never fail an assertion, and are the construction: the stream behind its first block, and the tag under that
block. A tag of another text or of other additional data is told apart byte by byte. -/
theorem hapChacha20Poly1305_construction (k n a : List UInt8) :
    (∀ m, hapChacha20Poly1305EncryptAad k n a m = .ok (mbedTls.encryptAad k n a m)) ∧
      ∀ tag c, tag.length = 16 → hapChacha20Poly1305DecryptAad k n a tag c = .ok (mbedTls.decryptAad k n a tag c) := by
  have hcrypt : ∀ mode input, chacha20Poly1305CryptAad mode k n a input =
      .ok (aeadCrypt k n input, aeadTag k n a (if mode = .encrypt then aeadCrypt k n input else input)) := by
    intro mode input
    rw [chacha20Poly1305CryptAad]
    by_cases ha : 0 < a.length
    · obtain ⟨ctx, hctx, hprepared⟩ := (prepared_starts k n mode).aad a
      obtain ⟨ctx', hupdate, hfinal⟩ := hprepared.crypt input
      have haad : chacha20Poly1305UpdateAad none mode a n k = .ok ctx := by
        simp only [chacha20Poly1305UpdateAad, chacha20Poly1305Update, Option.getD_none, List.length_nil, Nat.lt_irrefl, if_false, bind,
          Except.bind, hctx]
      rw [if_pos ha, haad]
      simp only [Except.map, bind, Except.bind, hupdate, hfinal]
    · have hnil : a = [] := List.length_eq_zero_iff.mp (Nat.eq_zero_of_not_pos ha)
      subst hnil
      obtain ⟨ctx', hupdate, hfinal⟩ := (prepared_starts k n mode).crypt input
      rw [if_neg ha]
      have hnone : chacha20Poly1305Update none mode input n k =
          chacha20Poly1305Update (some (mbedtlsChachapolyStarts k (padNonce n) mode)) mode input n k := rfl
      simp only [bind, Except.bind, hnone, hupdate, hfinal]
  refine ⟨fun m => hcrypt .encrypt m, fun tag c htag => ?_⟩
  have hequal : hapConstantTimeEqual tag (aeadTag k n a c) = decide (tag = aeadTag k n a c) :=
    hapConstantTimeEqual_eq (by rw [htag]; exact (length_toBytes 16 _).symm)
  rw [hapChacha20Poly1305DecryptAad, hcrypt]
  simp only [bind, Except.bind, reduceCtorEq, if_false, hequal, decide_eq_true_eq]
  rfl

end CGuard
