import CGuard.HapServer

/-!
# ChaCha20-Poly1305

`chacha20.c`, `poly1305.c` and `chachapoly.c` of mbed TLS, and the single shot functions that `HAPMbedTLS.c` and `HAPBase+Crypto.c` make of
them. Memory blocks are lists of bytes; a key or a nonce that is too short reads as zeros behind its end.
-/

namespace CGuard

/-- `BYTES_TO_U32_LE`. -/
def bytesToU32LE (data : List UInt8) (offset : Nat) : UInt32 :=
  (data.getD offset 0).toUInt32 ||| (data.getD (offset + 1) 0).toUInt32 <<< 8 ||| (data.getD (offset + 2) 0).toUInt32 <<< 16 |||
    (data.getD (offset + 3) 0).toUInt32 <<< 24

/-- The bytes of a word, the lowest first. -/
def u32ToBytesLE (w : UInt32) : List UInt8 := [w.toUInt8, (w >>> 8).toUInt8, (w >>> 16).toUInt8, (w >>> 24).toUInt8]

/-! ## ChaCha20 -/

/-- `ROTL32`. -/
def rotl32 (value amount : UInt32) : UInt32 := value <<< amount ||| value >>> (32 - amount)

/-- (chacha20.c) `chacha20_quarter_round`. -/
def chacha20QuarterRound (state : Vector UInt32 16) (a b c d : Fin 16) : Vector UInt32 16 :=
  let state := state.set a (state[a] + state[b])
  let state := state.set d (state[d] ^^^ state[a])
  let state := state.set d (rotl32 state[d] 16)
  let state := state.set c (state[c] + state[d])
  let state := state.set b (state[b] ^^^ state[c])
  let state := state.set b (rotl32 state[b] 12)
  let state := state.set a (state[a] + state[b])
  let state := state.set d (state[d] ^^^ state[a])
  let state := state.set d (rotl32 state[d] 8)
  let state := state.set c (state[c] + state[d])
  let state := state.set b (state[b] ^^^ state[c])
  state.set b (rotl32 state[b] 7)

/-- (chacha20.c) `chacha20_inner_block`. -/
def chacha20InnerBlock (state : Vector UInt32 16) : Vector UInt32 16 :=
  let state := chacha20QuarterRound state 0 4 8 12
  let state := chacha20QuarterRound state 1 5 9 13
  let state := chacha20QuarterRound state 2 6 10 14
  let state := chacha20QuarterRound state 3 7 11 15
  let state := chacha20QuarterRound state 0 5 10 15
  let state := chacha20QuarterRound state 1 6 11 12
  let state := chacha20QuarterRound state 2 7 8 13
  chacha20QuarterRound state 3 4 9 14

/-- (chacha20.c) `chacha20_block`. -/
def chacha20Block (initialState : Vector UInt32 16) : List UInt8 :=
  let workingState := chacha20InnerBlock^[10] initialState
  (Vector.zipWith (· + ·) workingState initialState).toList.flatMap u32ToBytesLE

/-- `mbedtls_chacha20_context`. -/
structure ChaCha20Context where
  state : Vector UInt32 16
  keystream8 : List UInt8
  keystreamBytesUsed : Nat

/-- (chacha20.c) `mbedtls_chacha20_setkey` and `mbedtls_chacha20_starts`. -/
def mbedtlsChacha20Starts (key nonce : List UInt8) (counter : UInt32) : ChaCha20Context where
  state := #v[0x61707865, 0x3320646e, 0x79622d32, 0x6b206574,
    bytesToU32LE key 0, bytesToU32LE key 4, bytesToU32LE key 8, bytesToU32LE key 12,
    bytesToU32LE key 16, bytesToU32LE key 20, bytesToU32LE key 24, bytesToU32LE key 28,
    counter, bytesToU32LE nonce 0, bytesToU32LE nonce 4, bytesToU32LE nonce 8]
  keystream8 := List.replicate 64 0
  keystreamBytesUsed := 64

/-- The next keystream block; the counter is incremented. -/
def ChaCha20Context.nextBlock (ctx : ChaCha20Context) : ChaCha20Context :=
  { ctx with keystream8 := chacha20Block ctx.state, state := ctx.state.set 12 (ctx.state[12] + 1) }

/-- The loop of `mbedtls_chacha20_update` that uses the keystream bytes that are left over. -/
def useLeftover (ctx : ChaCha20Context) : List UInt8 → ChaCha20Context × List UInt8 × List UInt8
  | [] => (ctx, [], [])
  | b :: input =>
    if ctx.keystreamBytesUsed < 64 then
      let (ctx', output, rest) := useLeftover { ctx with keystreamBytesUsed := ctx.keystreamBytesUsed + 1 } input
      (ctx', (b ^^^ ctx.keystream8.getD ctx.keystreamBytesUsed 0) :: output, rest)
    else (ctx, [], b :: input)

/-- The loop of `mbedtls_chacha20_update` over the full blocks. -/
def fullBlocks (ctx : ChaCha20Context) (input : List UInt8) : ChaCha20Context × List UInt8 × List UInt8 :=
  if input.length < 64 then (ctx, [], input)
  else
    let ctx := ctx.nextBlock
    let (ctx', output, rest) := fullBlocks ctx (input.drop 64)
    (ctx', List.zipWith (· ^^^ ·) (input.take 64) ctx.keystream8 ++ output, rest)
termination_by input.length
decreasing_by
  rw [List.length_drop]
  omega

/-- (chacha20.c) `mbedtls_chacha20_update`. -/
def mbedtlsChacha20Update (ctx : ChaCha20Context) (input : List UInt8) : ChaCha20Context × List UInt8 :=
  let (ctx, output₁, rest) := useLeftover ctx input
  let (ctx, output₂, rest) := fullBlocks ctx rest
  if rest = [] then (ctx, output₁ ++ output₂)
  else
    let ctx := ctx.nextBlock
    ({ ctx with keystreamBytesUsed := rest.length }, output₁ ++ output₂ ++ List.zipWith (· ^^^ ·) rest ctx.keystream8)

/-- The state of the block with the number `k`, counted from the initial state. -/
def blockState (initial : Vector UInt32 16) (k : Nat) : Vector UInt32 16 := initial.set 12 (initial[12] + UInt32.ofNat k)

/-- The next block has the next number. -/
theorem blockState_succ (initial : Vector UInt32 16) (k : Nat) :
    (blockState initial k).set 12 ((blockState initial k)[12] + 1) = blockState initial (k + 1) := by
  simp only [blockState, Vector.set_set, Vector.getElem_set_self, UInt32.ofNat_add, UInt32.add_assoc]
  rfl

/-- The keystream of an initial state. -/
def chacha20Keystream (initial : Vector UInt32 16) (i : Nat) : UInt8 := (chacha20Block (blockState initial (i / 64))).getD (i % 64) 0

/-! ## Poly1305 -/

/-- (poly1305.c) the accumulator. -/
structure Poly1305Acc where
  acc0 : UInt32
  acc1 : UInt32
  acc2 : UInt32
  acc3 : UInt32
  acc4 : UInt32

/-- (poly1305.c) four words: `r` and `s`. -/
structure Poly1305Words where
  w0 : UInt32
  w1 : UInt32
  w2 : UInt32
  w3 : UInt32

/-- (poly1305.c) `mul64`. -/
def mul64 (a b : UInt32) : UInt64 := a.toUInt64 * b.toUInt64

/-- (poly1305.c) "acc += (padded) block as a 130-bit integer". -/
def poly1305Add (acc : Poly1305Acc) (input : List UInt8) (needsPadding : UInt32) : Poly1305Acc :=
  let d0 := (bytesToU32LE input 0).toUInt64 + acc.acc0.toUInt64
  let d1 := (bytesToU32LE input 4).toUInt64 + (acc.acc1.toUInt64 + d0 >>> 32)
  let d2 := (bytesToU32LE input 8).toUInt64 + (acc.acc2.toUInt64 + d1 >>> 32)
  let d3 := (bytesToU32LE input 12).toUInt64 + (acc.acc3.toUInt64 + d2 >>> 32)
  ⟨d0.toUInt32, d1.toUInt32, d2.toUInt32, d3.toUInt32, acc.acc4 + ((d3 >>> 32).toUInt32 + needsPadding)⟩

/-- (poly1305.c) "acc %= (2^130 - 5) (partial remainder)". -/
def poly1305Reduce (d0 d1 d2 d3 : UInt64) (acc4 : UInt32) : Poly1305Acc :=
  let d1 := d1 + d0 >>> 32
  let d2 := d2 + d1 >>> 32
  let d3 := d3 + d2 >>> 32
  let acc0 := d0.toUInt32
  let acc1 := d1.toUInt32
  let acc2 := d2.toUInt32
  let acc3 := d3.toUInt32
  let acc4 := (d3 >>> 32).toUInt32 + acc4
  let d0 := acc0.toUInt64 + (acc4 >>> 2).toUInt64 + (acc4 &&& 0xFFFFFFFC).toUInt64
  let acc4 := acc4 &&& 3
  let acc0 := d0.toUInt32
  let d0 := acc1.toUInt64 + d0 >>> 32
  let acc1 := d0.toUInt32
  let d0 := acc2.toUInt64 + d0 >>> 32
  let acc2 := d0.toUInt32
  let d0 := acc3.toUInt64 + d0 >>> 32
  let acc3 := d0.toUInt32
  let d0 := acc4.toUInt64 + d0 >>> 32
  ⟨acc0, acc1, acc2, acc3, d0.toUInt32⟩

/-- (poly1305.c) "acc *= r", and the remainder. -/
def poly1305Multiply (r : Poly1305Words) (acc : Poly1305Acc) : Poly1305Acc :=
  let rs1 := r.w1 + r.w1 >>> 2
  let rs2 := r.w2 + r.w2 >>> 2
  let rs3 := r.w3 + r.w3 >>> 2
  let d0 := mul64 acc.acc0 r.w0 + mul64 acc.acc1 rs3 + mul64 acc.acc2 rs2 + mul64 acc.acc3 rs1
  let d1 := mul64 acc.acc0 r.w1 + mul64 acc.acc1 r.w0 + mul64 acc.acc2 rs3 + mul64 acc.acc3 rs2 + mul64 acc.acc4 rs1
  let d2 := mul64 acc.acc0 r.w2 + mul64 acc.acc1 r.w1 + mul64 acc.acc2 r.w0 + mul64 acc.acc3 rs3 + mul64 acc.acc4 rs2
  let d3 := mul64 acc.acc0 r.w3 + mul64 acc.acc1 r.w2 + mul64 acc.acc2 r.w1 + mul64 acc.acc3 r.w0 + mul64 acc.acc4 rs3
  poly1305Reduce d0 d1 d2 d3 (acc.acc4 * r.w0)

/-- (poly1305.c) `poly1305_process`: the full blocks of the input. -/
def poly1305Process (r : Poly1305Words) (acc : Poly1305Acc) (input : List UInt8) (needsPadding : UInt32) : Poly1305Acc :=
  if input.length < 16 then acc
  else poly1305Process r (poly1305Multiply r (poly1305Add acc input needsPadding)) (input.drop 16) needsPadding
termination_by input.length
decreasing_by
  rw [List.length_drop]
  omega

/-- (poly1305.c) `poly1305_compute_mac`. -/
def poly1305ComputeMac (acc : Poly1305Acc) (s : Poly1305Words) : List UInt8 :=
  let d := acc.acc0.toUInt64 + 5
  let g0 := d.toUInt32
  let d := acc.acc1.toUInt64 + d >>> 32
  let g1 := d.toUInt32
  let d := acc.acc2.toUInt64 + d >>> 32
  let g2 := d.toUInt32
  let d := acc.acc3.toUInt64 + d >>> 32
  let g3 := d.toUInt32
  let g4 := acc.acc4 + (d >>> 32).toUInt32
  let mask := (0 : UInt32) - g4 >>> 2
  let maskInv := ~~~mask
  let acc0 := acc.acc0 &&& maskInv ||| g0 &&& mask
  let acc1 := acc.acc1 &&& maskInv ||| g1 &&& mask
  let acc2 := acc.acc2 &&& maskInv ||| g2 &&& mask
  let acc3 := acc.acc3 &&& maskInv ||| g3 &&& mask
  let d := acc0.toUInt64 + s.w0.toUInt64
  let acc0 := d.toUInt32
  let d := acc1.toUInt64 + s.w1.toUInt64 + d >>> 32
  let acc1 := d.toUInt32
  let d := acc2.toUInt64 + s.w2.toUInt64 + d >>> 32
  let acc2 := d.toUInt32
  let acc3 := acc3 + (s.w3 + (d >>> 32).toUInt32)
  u32ToBytesLE acc0 ++ u32ToBytesLE acc1 ++ u32ToBytesLE acc2 ++ u32ToBytesLE acc3

/-- `mbedtls_poly1305_context`; the queue has `queue_len` bytes. -/
structure Poly1305Context where
  r : Poly1305Words
  s : Poly1305Words
  acc : Poly1305Acc
  queue : List UInt8

/-- (poly1305.c) `mbedtls_poly1305_starts`. -/
def mbedtlsPoly1305Starts (key : List UInt8) : Poly1305Context where
  r := ⟨bytesToU32LE key 0 &&& 0x0FFFFFFF, bytesToU32LE key 4 &&& 0x0FFFFFFC, bytesToU32LE key 8 &&& 0x0FFFFFFC,
    bytesToU32LE key 12 &&& 0x0FFFFFFC⟩
  s := ⟨bytesToU32LE key 16, bytesToU32LE key 20, bytesToU32LE key 24, bytesToU32LE key 28⟩
  acc := ⟨0, 0, 0, 0, 0⟩
  queue := []

/-- (poly1305.c) `mbedtls_poly1305_update`. -/
def mbedtlsPoly1305Update (ctx : Poly1305Context) (input : List UInt8) : Poly1305Context :=
  let (ctx, input) :=
    if 0 < input.length ∧ 0 < ctx.queue.length then
      let queueFreeLen := 16 - ctx.queue.length
      if input.length < queueFreeLen then ({ ctx with queue := ctx.queue ++ input }, [])
      else
        ({ ctx with acc := poly1305Process ctx.r ctx.acc (ctx.queue ++ input.take queueFreeLen) 1, queue := [] },
          input.drop queueFreeLen)
    else (ctx, input)
  let (ctx, input) :=
    if 16 ≤ input.length then
      ({ ctx with acc := poly1305Process ctx.r ctx.acc (input.take (input.length / 16 * 16)) 1 }, input.drop (input.length / 16 * 16))
    else (ctx, input)
  if 0 < input.length then { ctx with queue := input } else ctx

/-- (poly1305.c) `mbedtls_poly1305_finish`. -/
def mbedtlsPoly1305Finish (ctx : Poly1305Context) : List UInt8 :=
  let acc :=
    if 0 < ctx.queue.length then
      poly1305Process ctx.r ctx.acc (ctx.queue ++ [1] ++ List.replicate (16 - (ctx.queue.length + 1)) 0) 0
    else ctx.acc
  poly1305ComputeMac acc ctx.s

/-! ## The construction -/

/-- (chachapoly.c) the states of a context. -/
inductive ChachaPolyState where
  | init | aad | ciphertext | finished
  deriving DecidableEq

/-- `mbedtls_chachapoly_mode_t`. -/
inductive ChachaPolyMode where
  | encrypt | decrypt
  deriving DecidableEq

/-- `mbedtls_chachapoly_context`. -/
structure ChachaPolyContext where
  chacha20Ctx : ChaCha20Context
  poly1305Ctx : Poly1305Context
  aadLen : UInt64
  ciphertextLen : UInt64
  state : ChachaPolyState
  mode : ChachaPolyMode

/-- (chachapoly.c) `mbedtls_chachapoly_setkey` and `mbedtls_chachapoly_starts`. -/
def mbedtlsChachapolyStarts (key nonce : List UInt8) (mode : ChachaPolyMode) : ChachaPolyContext :=
  let chacha20Ctx := mbedtlsChacha20Starts key nonce 0
  let (chacha20Ctx, poly1305Key) := mbedtlsChacha20Update chacha20Ctx (List.replicate 64 0)
  ⟨chacha20Ctx, mbedtlsPoly1305Starts poly1305Key, 0, 0, .aad, mode⟩

/-- (chachapoly.c) `chachapoly_pad_aad` and `chachapoly_pad_ciphertext`. -/
def chachapolyPad (ctx : ChachaPolyContext) (len : UInt64) : ChachaPolyContext :=
  let partialBlockLen := len.toNat % 16
  if partialBlockLen = 0 then ctx
  else { ctx with poly1305Ctx := mbedtlsPoly1305Update ctx.poly1305Ctx (List.replicate (16 - partialBlockLen) 0) }

/-- (chachapoly.c) `mbedtls_chachapoly_update_aad`; the only error is `MBEDTLS_ERR_CHACHAPOLY_BAD_STATE`. -/
def mbedtlsChachapolyUpdateAad (ctx : ChachaPolyContext) (aad : List UInt8) : Option ChachaPolyContext :=
  if ctx.state ≠ .aad then none
  else
    some { ctx with
      aadLen := ctx.aadLen + UInt64.ofNat aad.length
      poly1305Ctx := mbedtlsPoly1305Update ctx.poly1305Ctx aad }

/-- (chachapoly.c) `mbedtls_chachapoly_update`. -/
def mbedtlsChachapolyUpdate (ctx : ChachaPolyContext) (input : List UInt8) : Option (ChachaPolyContext × List UInt8) :=
  if ctx.state ≠ .aad ∧ ctx.state ≠ .ciphertext then none
  else
    let ctx := if ctx.state = .aad then chachapolyPad { ctx with state := .ciphertext } ctx.aadLen else ctx
    let ctx := { ctx with ciphertextLen := ctx.ciphertextLen + UInt64.ofNat input.length }
    let (chacha20Ctx, output) := mbedtlsChacha20Update ctx.chacha20Ctx input
    let poly1305Ctx := mbedtlsPoly1305Update ctx.poly1305Ctx (if ctx.mode = .encrypt then output else input)
    some ({ ctx with chacha20Ctx := chacha20Ctx, poly1305Ctx := poly1305Ctx }, output)

/-- The bytes of a length, the lowest first. -/
def u64ToBytesLE (n : UInt64) : List UInt8 :=
  [n.toUInt8, (n >>> 8).toUInt8, (n >>> 16).toUInt8, (n >>> 24).toUInt8, (n >>> 32).toUInt8, (n >>> 40).toUInt8, (n >>> 48).toUInt8,
    (n >>> 56).toUInt8]

/-- (chachapoly.c) `mbedtls_chachapoly_finish`. -/
def mbedtlsChachapolyFinish (ctx : ChachaPolyContext) : Option (ChachaPolyContext × List UInt8) :=
  if ctx.state = .init then none
  else
    let ctx :=
      if ctx.state = .aad then chachapolyPad ctx ctx.aadLen
      else if ctx.state = .ciphertext then chachapolyPad ctx ctx.ciphertextLen
      else ctx
    let ctx := { ctx with state := .finished }
    let lenBlock := u64ToBytesLE ctx.aadLen ++ u64ToBytesLE ctx.ciphertextLen
    let ctx := { ctx with poly1305Ctx := mbedtlsPoly1305Update ctx.poly1305Ctx lenBlock }
    some (ctx, mbedtlsPoly1305Finish ctx.poly1305Ctx)

/-! ## The single shot functions -/

/-- (HAPMbedTLS.c) the nonce with zeros before it. -/
def padNonce (n : List UInt8) : List UInt8 := List.replicate (12 - n.length) 0 ++ n.take 12

/-- (HAPMbedTLS.c) `chacha20_poly1305_update` on a context that there may not be yet. -/
def chacha20Poly1305Update (ctx : Option ChachaPolyContext) (mode : ChachaPolyMode) (input n k : List UInt8) :
    Except HomeKitError (ChachaPolyContext × List UInt8) :=
  let ctx := ctx.getD (mbedtlsChachapolyStarts k (padNonce n) mode)
  if 0 < input.length then
    match mbedtlsChachapolyUpdate ctx input with
    | none => .error .assertion
    | some r => .ok r
  else .ok (ctx, [])

/-- (HAPMbedTLS.c) `chacha20_poly1305_update_aad`. -/
def chacha20Poly1305UpdateAad (ctx : Option ChachaPolyContext) (mode : ChachaPolyMode) (a n k : List UInt8) :
    Except HomeKitError ChachaPolyContext := do
  let (ctx, _) ← chacha20Poly1305Update ctx mode [] n k
  match mbedtlsChachapolyUpdateAad ctx a with
  | none => .error .assertion
  | some ctx => .ok ctx

/-- (HAPMbedTLS.c) `chacha20_poly1305_final`. -/
def chacha20Poly1305Final (ctx : ChachaPolyContext) : Except HomeKitError (List UInt8) :=
  match mbedtlsChachapolyFinish ctx with
  | none => .error .assertion
  | some (_, tag) => .ok tag

/-- (HAPBase+Crypto.c) what `HAP_chacha20_poly1305_encrypt_aad` and `HAP_chacha20_poly1305_decrypt_aad` share: the output and the tag. -/
def chacha20Poly1305CryptAad (mode : ChachaPolyMode) (k n a input : List UInt8) : Except HomeKitError (List UInt8 × List UInt8) := do
  let ctx ← if 0 < a.length then (chacha20Poly1305UpdateAad none mode a n k).map some else .ok none
  let (ctx, output) ← chacha20Poly1305Update ctx mode input n k
  let tag ← chacha20Poly1305Final ctx
  .ok (output, tag)

/-- (HAPBase+Crypto.c) `HAP_chacha20_poly1305_encrypt_aad`. -/
def hapChacha20Poly1305EncryptAad (k n a m : List UInt8) : Except HomeKitError (List UInt8 × List UInt8) :=
  chacha20Poly1305CryptAad .encrypt k n a m

/-- (HAPBase+Crypto.c) `HAP_constant_time_equal` on buffers of one length. -/
def hapConstantTimeEqual (x y : List UInt8) : Bool :=
  (List.zipWith (· ^^^ ·) x y).foldl (· ||| ·) 0 = 0

/-- (HAPBase+Crypto.c) `HAP_chacha20_poly1305_decrypt_aad`: nothing if the tags differ. -/
def hapChacha20Poly1305DecryptAad (k n a tag c : List UInt8) : Except HomeKitError (Option (List UInt8)) := do
  let (m, tag2) ← chacha20Poly1305CryptAad .decrypt k n a c
  .ok (if hapConstantTimeEqual tag tag2 then some m else none)

end CGuard
