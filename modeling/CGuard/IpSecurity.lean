import CGuard.Tlv
import CGuard.HapServer

/-!
# The IP security protocol

`HAPIPSecurityProtocol.c`, the control channels of `HAPSession.c` and the inbound buffer of `HAPIPAccessoryServer.c`: data is sent in
frames of at most 1024 bytes, each with its length before it and an authentication tag behind it, and the frames of a direction are
numbered by the nonce. What arrives is decrypted frame by frame in the buffer it arrives in.
-/

namespace CGuard

open ByteMemory

/-- (HAPCrypto.h) `HAP_chacha20_poly1305_encrypt_aad` and `HAP_chacha20_poly1305_decrypt_aad`, as functions of the key, the nonce, the
additional data and the text: what the protocol needs of them is that they undo each other and keep lengths. -/
structure ChaCha20Poly1305 where
  encryptAad : (k n a m : List UInt8) → List UInt8 × List UInt8
  decryptAad : (k n a tag c : List UInt8) → Option (List UInt8)
  length_cipher : ∀ k n a m, (encryptAad k n a m).1.length = m.length
  length_tag : ∀ k n a m, (encryptAad k n a m).2.length = 16
  length_plain : ∀ k n a tag c m, decryptAad k n a tag c = some m → m.length = c.length
  decrypt_encrypt : ∀ k n a m, decryptAad k n a (encryptAad k n a m).2 (encryptAad k n a m).1 = some m

/-- (HAPSession.h) `HAPSessionChannelState`. -/
structure HAPSessionChannelState where
  key : List UInt8
  nonce : UInt64
  deriving DecidableEq

/-- (HAPSession.h) the `hap` part of `HAPSession`: `pairingID` is the key of the pairing in the store. -/
structure HAPSessionSecurity where
  active : Bool
  isTransient : Bool
  pairingID : Int
  accessoryToController : HAPSessionChannelState
  controllerToAccessory : HAPSessionChannelState
  deriving DecidableEq

/-- The `hap` part with all bytes zero. -/
def HAPSessionSecurity.zero : HAPSessionSecurity where
  active := false
  isTransient := false
  pairingID := 0
  accessoryToController := ⟨List.replicate 32 0, 0⟩
  controllerToAccessory := ⟨List.replicate 32 0, 0⟩

/-- `HAPExpandLittleUInt64`. -/
def hapExpandLittleUInt64 (n : UInt64) : List UInt8 := (List.range 8).map fun i => UInt8.ofNat (n.toNat / 256 ^ i)

/-- (HAPSession.c) `Encrypt`: the tag is appended to the cipher text, and the message counter is incremented. -/
def encrypt (aead : ChaCha20Poly1305) (channel : HAPSessionChannelState) (plaintext aad : List UInt8) :
    List UInt8 × HAPSessionChannelState :=
  let (c, tag) := aead.encryptAad channel.key (hapExpandLittleUInt64 channel.nonce) aad plaintext
  (c ++ tag, { channel with nonce := channel.nonce + 1 })

/-- (HAPSession.c) `Decrypt`. -/
def decrypt (aead : ChaCha20Poly1305) (channel : HAPSessionChannelState) (encrypted aad : List UInt8) :
    Except HAPError (List UInt8 × HAPSessionChannelState) :=
  if encrypted.length < 16 then .error .invalidData
  else
    match aead.decryptAad channel.key (hapExpandLittleUInt64 channel.nonce) aad (encrypted.drop (encrypted.length - 16))
      (encrypted.take (encrypted.length - 16)) with
    | none => .error .invalidData
    | some plaintext => .ok (plaintext, { channel with nonce := channel.nonce + 1 })

/-- (HAPSession.c) `HAPSessionEncryptControlMessageWithAAD`. -/
def hapSessionEncryptControlMessageWithAAD (aead : ChaCha20Poly1305) (session : HAPSessionSecurity) (plaintext aad : List UInt8) :
    Except HAPError (List UInt8 × HAPSessionSecurity) :=
  if session.active = false then .error .invalidState
  else
    let (encrypted, channel) := encrypt aead session.accessoryToController plaintext aad
    .ok (encrypted, { session with accessoryToController := channel })

/-- (HAPSession.c) `HAPSessionDecryptControlMessageWithAAD`: after a failure the session is zeroed. -/
def hapSessionDecryptControlMessageWithAAD (aead : ChaCha20Poly1305) (session : HAPSessionSecurity) (encrypted aad : List UInt8) :
    Except HAPError (List UInt8) × HAPSessionSecurity :=
  if session.active = false then (.error .invalidState, session)
  else
    match decrypt aead session.controllerToAccessory encrypted aad with
    | .error err => (.error err, .zero)
    | .ok (plaintext, channel) => (.ok plaintext, { session with controllerToAccessory := channel })

/-! ## Frames -/

/-- (HAPIP+ByteBuffer.h) `HAPIPByteBuffer`; the data starts at the address 0 of its memory. -/
structure HAPIPByteBuffer where
  data : Mem
  capacity : Nat
  position : Nat
  limit : Nat

/-- How many bytes of data there are, from the position to the limit. -/
def HAPIPByteBuffer.numBytes (buffer : HAPIPByteBuffer) : Nat := buffer.limit - buffer.position

/-- The data, from the position to the limit. -/
def HAPIPByteBuffer.bytes (buffer : HAPIPByteBuffer) : List UInt8 := slice buffer.data buffer.position buffer.numBytes

/-- `kHAPIPSecurityProtocol_MaxFrameBytes`. -/
def maxFrameBytes : Nat := 1024

/-- (HAPIPSecurityProtocol.c) `HAPIPSecurityProtocolGetNumEncryptedBytes`. -/
def hapIPSecurityProtocolGetNumEncryptedBytes (numPlaintextBytes : Nat) : Nat :=
  numPlaintextBytes / maxFrameBytes * (2 + maxFrameBytes + 16) +
    if numPlaintextBytes % maxFrameBytes ≠ 0 then 2 + numPlaintextBytes % maxFrameBytes + 16 else 0

/-- `HAPWriteLittleUInt16`, as the bytes that are written. -/
def hapWriteLittleUInt16 (n : Nat) : List UInt8 := [UInt8.ofNat n, UInt8.ofNat (n / 256)]

/-- `HAPReadLittleUInt16`. -/
def hapReadLittleUInt16 (m : Mem) (a : Nat) : Nat := (m a).toNat + 256 * (m (a + 1)).toNat

/-- The loop of `HAPIPSecurityProtocolEncryptData`. -/
def encryptLoop (aead : ChaCha20Poly1305) (session : HAPSessionSecurity) (data : Mem) (capacity position limit : Nat) :
    Except HomeKitError (Mem × Nat × HAPSessionSecurity) :=
  if position < limit then
    let numFrameBytes := min (limit - position) maxFrameBytes
    let data := move data (position + numFrameBytes + 2 + 16) (position + numFrameBytes) (limit - (position + numFrameBytes))
    let data := move data (position + 2) position numFrameBytes
    let data := store data position (hapWriteLittleUInt16 numFrameBytes)
    match hapSessionEncryptControlMessageWithAAD aead session (slice data (position + 2) numFrameBytes) (slice data position 2) with
    | .error _ => .error .assertion
    | .ok (encrypted, session) =>
      let data := store data (position + 2) encrypted
      if limit + 18 ≤ capacity then encryptLoop aead session data capacity (position + numFrameBytes + 2 + 16) (limit + 18)
      else .error .assertion
  else .ok (data, limit, session)
termination_by limit - position
decreasing_by simp only [maxFrameBytes]; omega

/-- (HAPIPSecurityProtocol.c) `HAPIPSecurityProtocolEncryptData`. -/
def hapIPSecurityProtocolEncryptData (aead : ChaCha20Poly1305) (session : HAPSessionSecurity) (buffer : HAPIPByteBuffer) :
    Except HomeKitError (HAPIPByteBuffer × HAPSessionSecurity) := do
  hapPrecondition (buffer.position ≤ buffer.limit ∧ buffer.limit ≤ buffer.capacity)
  let numEncryptedBytes := hapIPSecurityProtocolGetNumEncryptedBytes (buffer.limit - buffer.position)
  hapAssert (numEncryptedBytes ≤ buffer.capacity ∧ buffer.position ≤ buffer.capacity - numEncryptedBytes)
  let (data, limit, session) ← encryptLoop aead session buffer.data buffer.capacity buffer.position buffer.limit
  .ok ({ buffer with data := data, limit := limit }, session)

/-- (HAPIPSecurityProtocol.c) `HAPIPSecurityProtocolDecryptData`: the frames from the position on that are complete. -/
def hapIPSecurityProtocolDecryptData (aead : ChaCha20Poly1305) (session : HAPSessionSecurity) (data : Mem) (position limit : Nat) :
    HAPError × Mem × Nat × Nat × HAPSessionSecurity :=
  if limit - position < 2 then (.none, data, position, limit, session)
  else
    let numFrameBytes := hapReadLittleUInt16 data position
    if maxFrameBytes < numFrameBytes then (.invalidData, data, position, limit, session)
    else if limit - position < numFrameBytes + 2 + 16 then (.none, data, position, limit, session)
    else
      match hapSessionDecryptControlMessageWithAAD aead session (slice data (position + 2) (numFrameBytes + 16))
        (slice data position 2) with
      | (.error _, session) => (.invalidData, data, position, limit, session)
      | (.ok plaintext, session) =>
        let data := store data position plaintext
        let data := move data (position + numFrameBytes) (position + numFrameBytes + 2 + 16)
          (limit - (position + numFrameBytes + 2 + 16))
        hapIPSecurityProtocolDecryptData aead session data (position + numFrameBytes) (limit - (2 + 16))
termination_by limit - position
decreasing_by omega

/-! ## The inbound buffer -/

/-- (HAPIP+ByteBuffer.c) `HAPIPByteBufferShiftLeft`: only the bytes before the position move. -/
def hapIPByteBufferShiftLeft (buffer : HAPIPByteBuffer) (numBytes : Nat) : HAPIPByteBuffer :=
  { buffer with
    data := move buffer.data 0 numBytes (buffer.position - numBytes)
    position := buffer.position - numBytes
    limit := buffer.limit - numBytes }

/-- The inbound side of a session between two events: the buffer, `inboundBufferMark` and the security of the session. -/
structure Inbound where
  buffer : HAPIPByteBuffer
  inboundBufferMark : Nat
  session : HAPSessionSecurity

/-- Why a session is closed, or the process ends. -/
inductive InboundFault where
  | precondition | decryption | bufferTooSmall
  deriving DecidableEq

/-- What comes in at one event: the bytes that are read, and the request that is complete then, if one is, with its length and the
security that its handler has given the session. -/
structure InboundEvent where
  chunk : List UInt8
  request : Option (Nat × Option HAPSessionSecurity)
  deriving DecidableEq

/-- (HAPIPAccessoryServer.c) `ReadInboundData` and `handle_input`. The output is what the reader of the requests gets to see.

Left out are what `HAPSessionIsSecured` reads of the pairing in the store, which is taken to be there, the assertion that a session that was
secured is still secured, and the requests that the parser does not accept, which close the session. The sending channel of the session,
`accessoryToController`, is the one that the handler of a request has set: that the responses advance it is not modelled. -/
def handleInput (aead : ChaCha20Poly1305) (s : Inbound) (event : InboundEvent) : Except InboundFault (Inbound × List UInt8) :=
  let b := s.buffer
  if b.limit - b.position < event.chunk.length then .error .precondition
  else
    let limit := b.position + event.chunk.length
    let data := store b.data b.position event.chunk
    match if s.session.active then hapIPSecurityProtocolDecryptData aead s.session data s.inboundBufferMark limit
      else (.none, data, limit, limit, s.session) with
    | (.none, data, position, limit, session) =>
      let plaintext := slice data s.inboundBufferMark (position - s.inboundBufferMark)
      let b := { b with data := data, position := position, limit := limit }
      match event.request with
      | none =>
        if limit = b.capacity then .error .bufferTooSmall
        else .ok (⟨{ b with position := limit, limit := b.capacity }, position, session⟩, plaintext)
      | some (n, secured) =>
        if position < n then .error .precondition
        else
          -- the response is pending now, so a full buffer closes nothing
          let b := hapIPByteBufferShiftLeft b n
          .ok (⟨{ b with position := b.limit, limit := b.capacity }, b.position, secured.getD session⟩, plaintext)
    | _ => .error .decryption

end CGuard
