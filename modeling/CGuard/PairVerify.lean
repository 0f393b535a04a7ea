import CGuard.IpSecurity
import CGuard.Pairings

/-!
# Pair Verify

`HAPPairingPairVerify.c` over IP: a controller starts with an ephemeral key (M1), the accessory answers with its own (M2), the controller
proves with its long-term key that it is paired (M3), and the session is secured with what both have agreed on (M4). Pair Resume is for
Bluetooth LE only. The long-term and the ephemeral keys, and the key derivation, are those of the cryptographic library.
-/

namespace CGuard

open ByteMemory

/-- (HAPCrypto.h) the cryptographic functions of the procedure. `HAP_X25519_scalarmult` (HAPMbedTLS.c) ends the process (`none`) if the point
has a low order; two secrets and their public keys give the same shared secret, and a signature is verified with the public key of its
secret key. -/
structure PairVerifyCrypto where
  aead : ChaCha20Poly1305
  x25519ScalarmultBase : (n : List UInt8) → List UInt8
  x25519Scalarmult : (n p : List UInt8) → Option (List UInt8)
  hkdfSha512 : (numBytes : Nat) → (key salt info : List UInt8) → List UInt8
  ed25519PublicKey : (sk : List UInt8) → List UInt8
  ed25519Sign : (m sk pk : List UInt8) → List UInt8
  ed25519Verify : (sig m pk : List UInt8) → Bool
  length_scalarmultBase : ∀ n, (x25519ScalarmultBase n).length = 32
  scalarmult_isSome : ∀ n n', (x25519Scalarmult n (x25519ScalarmultBase n')).isSome
  scalarmult_comm : ∀ n n', x25519Scalarmult n (x25519ScalarmultBase n') = x25519Scalarmult n' (x25519ScalarmultBase n)
  length_publicKey : ∀ sk, (ed25519PublicKey sk).length = 32
  length_sign : ∀ m sk pk, (ed25519Sign m sk pk).length = 64
  verify_sign : ∀ m sk, ed25519Verify (ed25519Sign m sk (ed25519PublicKey sk)) m (ed25519PublicKey sk) = true

/-- A string constant of the source, without its NUL. -/
def stringBytes (s : String) : List UInt8 := s.toList.map fun c => UInt8.ofNat c.toNat

/-- (HAPPairing.h) `HAPPairingMethod` and `HAPPairingTLVType`, what Pair Verify has of its own. -/
def kHAPPairingMethodPairVerify : UInt8 := 0x02
def kHAPPairingMethodPairResume : UInt8 := 0x06
def kHAPPairingTLVTypeEncryptedData : UInt8 := 0x05
def kHAPPairingTLVTypeSignature : UInt8 := 0x0A
def kHAPPairingTLVTypeSessionID : UInt8 := 0x0E

/-! ## Free memory -/

/-- Free memory: where it starts, and how long it is. -/
structure ScratchBytes where
  bytes : Nat
  numBytes : Nat

/-- (HAPTLVMemory.c) `HAPTLVScratchBufferAlloc`, as the memory that is free after it. -/
def hapTLVScratchBufferAlloc (numBytes : Nat) (scratch : ScratchBytes) : Option ScratchBytes :=
  let o := (4 - scratch.bytes % 4) % 4
  if scratch.numBytes = 0 then none
  else if scratch.numBytes < numBytes + o then none
  else some ⟨scratch.bytes + o + numBytes, scratch.numBytes - (o + numBytes)⟩

/-- (HAPTLVMemory.c) `HAPTLVScratchBufferAllocUnaligned`. -/
def hapTLVScratchBufferAllocUnaligned (numBytes : Nat) (scratch : ScratchBytes) : Option ScratchBytes :=
  if scratch.numBytes = 0 then none
  else if scratch.numBytes < numBytes then none
  else some ⟨scratch.bytes + numBytes, scratch.numBytes - numBytes⟩

/-- `HAPTLVWriterGetScratchBytes` of a writer over free memory. -/
def WrittenTLVs.scratchBytes (writer : WrittenTLVs) (bytes : Nat) : ScratchBytes :=
  ⟨bytes + (encodeTLVs writer.tlvs).length, writer.maxBytes - (encodeTLVs writer.tlvs).length⟩

/-! ## The session -/

/-- (HAPSession.h) `state.pairVerify`; `pairingID` is negative without a pairing. -/
structure PairVerifyState where
  state : UInt8
  method : UInt8
  error : UInt8
  sessionKey : List UInt8
  cvPK : List UInt8
  cvSK : List UInt8
  cvKEY : List UInt8
  pairingID : Int
  controllerCvPK : List UInt8
  deriving DecidableEq

/-- (HAPSession.h) `HAPSession`, what Pair Verify uses of it. -/
structure VerifySession where
  hap : HAPSessionSecurity
  pairVerify : PairVerifyState
  deriving DecidableEq

/-- What `HAPPairingPairVerifyReset` leaves. -/
def PairVerifyState.zero : PairVerifyState where
  state := 0
  method := 0
  error := 0
  sessionKey := List.replicate 32 0
  cvPK := List.replicate 32 0
  cvSK := List.replicate 32 0
  cvKEY := List.replicate 32 0
  pairingID := -1
  controllerCvPK := List.replicate 32 0

/-- (HAPPairingPairVerify.c) `HAPPairingPairVerifyReset`. -/
def hapPairingPairVerifyReset (session : VerifySession) : VerifySession := { session with pairVerify := .zero }

/-- (HAPSession.c) `HAPSessionCreate` for IP. -/
def hapSessionCreate : VerifySession := hapPairingPairVerifyReset ⟨.zero, .zero⟩

/-- A key of a control channel. -/
def controlKey (crypto : PairVerifyCrypto) (cvKEY : List UInt8) (info : String) : List UInt8 :=
  crypto.hkdfSha512 32 cvKEY (stringBytes "Control-Salt") (stringBytes info)

/-- (HAPPairingPairVerify.c) `HAPPairingPairVerifyStartSession`. -/
def hapPairingPairVerifyStartSession (crypto : PairVerifyCrypto) (session : VerifySession) : Except HomeKitError VerifySession := do
  hapPrecondition (0 ≤ session.pairVerify.pairingID)
  .ok (hapPairingPairVerifyReset { session with
    hap :=
      { active := true
        isTransient := false
        pairingID := session.pairVerify.pairingID
        accessoryToController := ⟨controlKey crypto session.pairVerify.cvKEY "Control-Read-Encryption-Key", 0⟩
        controllerToAccessory := ⟨controlKey crypto session.pairVerify.cvKEY "Control-Write-Encryption-Key", 0⟩ } })

/-- The next state of the procedure. -/
def VerifySession.next (session : VerifySession) : VerifySession := { session with pairVerify.state := session.pairVerify.state + 1 }

/-- An error that is answered, `kHAPPairingError_Authentication`. -/
def VerifySession.notAuthenticated (session : VerifySession) : VerifySession :=
  { session with pairVerify.error := kHAPPairingErrorAuthentication }

/-! ## Requests -/

/-- The types that `HAPPairingPairVerifyHandleWrite` asks for. -/
def pairVerifyTLVTypes : RequestedTypes :=
  ⟨[kHAPPairingTLVTypeState, kHAPPairingTLVTypePublicKey, kHAPPairingTLVTypeMethod, kHAPPairingTLVTypeSessionID,
    kHAPPairingTLVTypeEncryptedData], by decide⟩

/-- The types of the encrypted part of M3. -/
def pairVerifyM3TLVTypes : RequestedTypes := ⟨[kHAPPairingTLVTypeIdentifier, kHAPPairingTLVTypeSignature], by decide⟩

/-- Where the value of the item of a type is, and how long it is. -/
def itemPlace (items : List HAPTLV) (type : UInt8) : Option (Nat × Nat) :=
  (items.find? fun item => item.type = type).bind fun item => item.bytes.map fun p => (p, item.numBytes)

/-- The TLVs of a request. -/
structure PairVerifyTLVs where
  state : Option (List UInt8)
  publicKey : Option (List UInt8)
  method : Option (List UInt8)
  sessionID : Option (List UInt8)
  encryptedData : Option (Nat × Nat)

/-- The TLVs that `HAPTLVReaderGetAll` has found. -/
def PairVerifyTLVs.ofItems (m : Mem) (items : List HAPTLV) : PairVerifyTLVs where
  state := itemValue m items kHAPPairingTLVTypeState
  publicKey := itemValue m items kHAPPairingTLVTypePublicKey
  method := itemValue m items kHAPPairingTLVTypeMethod
  sessionID := itemValue m items kHAPPairingTLVTypeSessionID
  encryptedData := itemPlace items kHAPPairingTLVTypeEncryptedData

/-- A value of a length. -/
def validateLength (n : Nat) : Option Nat → Except HAPError Unit
  | some k => if k ≠ n then .error .invalidData else .ok ()
  | none => .error .invalidData

/-- "Validate kTLVType_Method." of M1: only Pair Resume has a method, and it is not for IP. -/
def validatePairResume (tlvs : PairVerifyTLVs) : Except HAPError Unit :=
  match tlvs.method with
  | none => .ok ()
  | some _ => do
    let _ ← validateByte (· == kHAPPairingMethodPairResume) tlvs.method
    validateLength 8 (tlvs.sessionID.map List.length)
    validateLength 16 (tlvs.encryptedData.map Prod.snd)
    .error .invalidData

/-- (HAPPairingPairVerify.c) `HAPPairingPairVerifyProcessM1`. -/
def hapPairingPairVerifyProcessM1 (session : VerifySession) (tlvs : PairVerifyTLVs) : Except HAPError VerifySession := do
  let _ ← validateByte (· == 1) tlvs.state
  validatePairResume tlvs
  let publicKey ← validatePublicKey tlvs.publicKey
  .ok { session with
    pairVerify := { session.pairVerify with method := kHAPPairingMethodPairVerify, controllerCvPK := publicKey } }

/-- "Validate kTLVType_State." and "Validate kTLVType_EncryptedData." of M3. -/
def validatePairVerifyM3 (tlvs : PairVerifyTLVs) : Except HAPError (Nat × Nat) := do
  let _ ← validateByte (· == 3) tlvs.state
  match tlvs.encryptedData with
  | some (p, n) => if n < 16 then .error .invalidData else .ok (p, n)
  | none => .error .invalidData

/-- "Validate kTLVType_Signature." -/
def validateSignature : Option (List UInt8) → Except HAPError (List UInt8)
  | some signature => if signature.length ≠ 64 then .error .invalidData else .ok signature
  | none => .error .invalidData

/-- The identifier and the signature of the decrypted part of M3, which is read in place. -/
def readPairVerifyM3 (m : Mem) (bytes numBytes : Nat) : Except HAPError (List UInt8 × List UInt8) := do
  let (items, m, _) ← hapTLVReaderGetAll m ⟨bytes, numBytes, numBytes⟩ pairVerifyM3TLVTypes
  let identifier ← validateIdentifier (itemValue m items kHAPPairingTLVTypeIdentifier)
  let signature ← validateSignature (itemValue m items kHAPPairingTLVTypeSignature)
  .ok (identifier, signature)

/-- The memory for iOSDeviceInfo: its parts lie behind one another. -/
def allocDeviceInfo (scratch : ScratchBytes) (numIdentifierBytes : Nat) : Option ScratchBytes := do
  let scratch ← hapTLVScratchBufferAlloc 32 scratch
  let scratch ← hapTLVScratchBufferAllocUnaligned numIdentifierBytes scratch
  hapTLVScratchBufferAllocUnaligned 32 scratch

/-- The part of `HAPPairingPairVerifyProcessM3` after the validation. -/
def verifyDevice (crypto : PairVerifyCrypto) (w : Disk) (s : Store) (session : VerifySession) (scratch : ScratchBytes)
    (identifier signature : List UInt8) : Except HomeKitError (HAPError × VerifySession) := do
  let (err, found) ← hapPairingFind w s identifier
  if err ≠ .none then do
    hapAssert (err = .unknown)
    .ok (err, session)
  else
    match found with
    | none => .ok (.none, session.notAuthenticated)
    | some (key, pairing) =>
      let session := { session with pairVerify.pairingID := (key.toNat : Int) }
      if (allocDeviceInfo scratch identifier.length).isNone then .ok (.outOfResources, session)
      else if crypto.ed25519Verify signature (session.pairVerify.controllerCvPK ++ identifier ++ session.pairVerify.cvPK)
          pairing.publicKey then
        .ok (.none, session)
      else .ok (.none, session.notAuthenticated)

/-- (HAPPairingPairVerify.c) `HAPPairingPairVerifyProcessM3`: the encrypted part is decrypted in place. -/
def hapPairingPairVerifyProcessM3 (crypto : PairVerifyCrypto) (w : Disk) (s : Store) (session : VerifySession) (m : Mem)
    (scratch : ScratchBytes) (tlvs : PairVerifyTLVs) : Except HomeKitError (HAPError × VerifySession) :=
  match validatePairVerifyM3 tlvs with
  | .error err => .ok (err, session)
  | .ok (p, n) =>
    match crypto.aead.decryptAad session.pairVerify.sessionKey (stringBytes "PV-Msg03") [] (slice m (p + (n - 16)) 16)
      (slice m p (n - 16)) with
    | none => .ok (.none, session.notAuthenticated)
    | some bytes =>
      match readPairVerifyM3 (store m p bytes) p (n - 16) with
      | .error err => do
        hapAssert (err = .invalidData)
        .ok (err, session)
      | .ok (identifier, signature) => verifyDevice crypto w s session scratch identifier signature

/-- The request M1 or M3 by the state. -/
def processPairVerify (crypto : PairVerifyCrypto) (w : Disk) (s : Store) (session : VerifySession) (m : Mem) (scratch : ScratchBytes)
    (tlvs : PairVerifyTLVs) : Except HomeKitError (HAPError × VerifySession) :=
  if session.pairVerify.state = 0 then do
    hapPrecondition (session.pairVerify.error = 0 ∧ session.hap.active = false)
    match hapPairingPairVerifyProcessM1 session.next tlvs with
    | .error err => .ok (err, session.next)
    | .ok session => .ok (.none, session)
  else if session.pairVerify.state = 2 then do
    hapPrecondition (session.pairVerify.error = 0 ∧ session.hap.active = false)
    hapPairingPairVerifyProcessM3 crypto w s session.next m scratch tlvs
  else .ok (.invalidState, session)

/-- (HAPPairingPairVerify.c) `HAPPairingPairVerifyHandleWrite`: M1 starts the procedure anew. -/
def hapPairingPairVerifyHandleWrite (crypto : PairVerifyCrypto) (w : Disk) (s : Store) (session : VerifySession) (m : Mem)
    (requestReader : HAPTLVReader) : Except HomeKitError (HAPError × VerifySession) :=
  match hapTLVReaderGetAll m requestReader pairVerifyTLVTypes with
  | .error err => do
    hapAssert (err = .invalidData)
    .ok (err, hapPairingPairVerifyReset session)
  | .ok (items, m, requestReader) => do
    let tlvs := PairVerifyTLVs.ofItems m items
    let session := if tlvs.state = some [1] then hapPairingPairVerifyReset session else session
    let (err, session) ← processPairVerify crypto w s session m
      ⟨requestReader.bytes + requestReader.numBytes, requestReader.maxBytes - requestReader.numBytes⟩ tlvs
    hapAssert (err = .none ∨ err = .invalidState ∨ err = .invalidData ∨ err = .outOfResources)
    .ok (err, if err ≠ .none then hapPairingPairVerifyReset session else session)

/-! ## Responses -/

/-- What does not change: the long-term key of the accessory, and the scratch buffer. -/
structure PairVerifyServer where
  edLTSK : List UInt8
  scratchBuffer : Nat
  maxScratchBufferBytes : Nat

/-- (HAPAccessoryServer.c) "Load LTSK.": the public key is computed from the secret key. -/
def PairVerifyServer.edLTPK (crypto : PairVerifyCrypto) (server : PairVerifyServer) : List UInt8 := crypto.ed25519PublicKey server.edLTSK

/-- (HAPDeviceID.h) `HAPDeviceIDString`, without its NUL. -/
abbrev HAPDeviceIDString : Type := { stringValue : List UInt8 // stringValue.length = 17 }

/-- What a response needs of its surroundings: `HAPPlatformRandomNumberFill`, and `HAPDeviceIDGetAsString` if it succeeds. -/
structure PairVerifyEnv where
  random : List UInt8
  deviceIDString : Option HAPDeviceIDString

/-- The TLV of the state of the session. -/
def verifyStateTLV (session : VerifySession) : UInt8 × List UInt8 := (kHAPPairingTLVTypeState, [session.pairVerify.state])

/-- The memory for AccessoryInfo and its signature. -/
def allocAccessoryInfo (scratch : ScratchBytes) (numDeviceIDBytes : Nat) : Option ScratchBytes := do
  let scratch ← hapTLVScratchBufferAlloc 32 scratch
  let scratch ← hapTLVScratchBufferAllocUnaligned numDeviceIDBytes scratch
  let scratch ← hapTLVScratchBufferAllocUnaligned 32 scratch
  hapTLVScratchBufferAlloc 64 scratch

/-- The part of M2 that is encrypted: the identifier and the signature of the accessory, in free memory. -/
def accessoryInfoTLVs (crypto : PairVerifyCrypto) (server : PairVerifyServer) (session : VerifySession) (scratch : ScratchBytes)
    (deviceID : List UInt8) : Except HAPError (List (UInt8 × List UInt8)) :=
  match (⟨scratch.numBytes, []⟩ : WrittenTLVs).append [(kHAPPairingTLVTypeIdentifier, deviceID)] with
  | (.none, subWriter) =>
    if (allocAccessoryInfo (subWriter.scratchBytes scratch.bytes) deviceID.length).isNone then .error .outOfResources
    else
      let signature :=
        crypto.ed25519Sign (session.pairVerify.cvPK ++ deviceID ++ session.pairVerify.controllerCvPK) server.edLTSK (server.edLTPK crypto)
      match subWriter.append [(kHAPPairingTLVTypeSignature, signature)] with
      | (.none, subWriter) => .ok subWriter.tlvs
      | (err, _) => .error err
  | (err, _) => .error err

/-- "Create new, random key pair.", "Generate the shared secret." and "Derive the symmetric session encryption key." -/
def generateKeys (crypto : PairVerifyCrypto) (random : List UInt8) (session : VerifySession) : Except HomeKitError VerifySession :=
  match crypto.x25519Scalarmult random session.pairVerify.controllerCvPK with
  | none => .error .assertion
  | some cvKEY =>
    .ok { session with
      pairVerify :=
        { session.pairVerify with
          cvSK := random
          cvPK := crypto.x25519ScalarmultBase random
          cvKEY := cvKEY
          sessionKey := crypto.hkdfSha512 32 cvKEY (stringBytes "Pair-Verify-Encrypt-Salt") (stringBytes "Pair-Verify-Encrypt-Info") } }

/-- The TLVs of M2. -/
def writeM2 (crypto : PairVerifyCrypto) (server : PairVerifyServer) (env : PairVerifyEnv) (session : VerifySession)
    (responseWriter : WrittenTLVs) : HAPError × VerifySession × WrittenTLVs :=
  match responseWriter.append [verifyStateTLV session, (kHAPPairingTLVTypePublicKey, session.pairVerify.cvPK)] with
  | (.none, responseWriter) =>
    let scratch := responseWriter.scratchBytes server.scratchBuffer
    if scratch.numBytes < 16 then (.outOfResources, session, responseWriter)
    else
      match env.deviceIDString with
      | none => (.unknown, session, responseWriter)
      | some deviceID =>
        match accessoryInfoTLVs crypto server session ⟨scratch.bytes, scratch.numBytes - 16⟩ deviceID.1 with
        | .error err => (err, session, responseWriter)
        | .ok tlvs =>
          let (bytes, tag) := crypto.aead.encryptAad session.pairVerify.sessionKey (stringBytes "PV-Msg02") [] (encodeTLVs tlvs)
          let (err, responseWriter) := responseWriter.append [(kHAPPairingTLVTypeEncryptedData, bytes ++ tag)]
          (err, session, responseWriter)
  | (err, responseWriter) => (err, session, responseWriter)

/-- (HAPPairingPairVerify.c) `HAPPairingPairVerifyGetM2`: the session key, which the source derives later, does not depend on what is
written before. -/
def hapPairingPairVerifyGetM2 (crypto : PairVerifyCrypto) (server : PairVerifyServer) (env : PairVerifyEnv) (session : VerifySession)
    (responseWriter : WrittenTLVs) : Except HomeKitError (HAPError × VerifySession × WrittenTLVs) := do
  let session ← generateKeys crypto env.random session
  .ok (writeM2 crypto server env session responseWriter)

/-- (HAPPairingPairVerify.c) `HAPPairingPairVerifyGetM4`. -/
def hapPairingPairVerifyGetM4 (crypto : PairVerifyCrypto) (session : VerifySession) (responseWriter : WrittenTLVs) :
    Except HomeKitError (HAPError × VerifySession × WrittenTLVs) :=
  match responseWriter.append [verifyStateTLV session] with
  | (.none, responseWriter) => do
    let session ← hapPairingPairVerifyStartSession crypto session
    .ok (.none, session, responseWriter)
  | (err, responseWriter) => .ok (err, session, responseWriter)

/-- (HAPPairingPairVerify.c) `HAPPairingPairVerifyGetErrorResponse`, and the reset of the session. -/
def pairVerifyErrorResponse (session : VerifySession) (responseWriter : WrittenTLVs) : HAPError × VerifySession × WrittenTLVs :=
  let r := responseWriter.append [verifyStateTLV session, (kHAPPairingTLVTypeError, [session.pairVerify.error])]
  (r.1, hapPairingPairVerifyReset session, r.2)

/-- The response M2 or M4 by the state. -/
def respondPairVerify (crypto : PairVerifyCrypto) (server : PairVerifyServer) (env : PairVerifyEnv) (session : VerifySession)
    (responseWriter : WrittenTLVs) : Except HomeKitError (HAPError × VerifySession × WrittenTLVs) :=
  if session.pairVerify.state = 1 then do
    hapPrecondition (session.hap.active = false)
    hapPairingPairVerifyGetM2 crypto server env session.next responseWriter
  else if session.pairVerify.state = 3 then do
    hapPrecondition (session.hap.active = false)
    hapPairingPairVerifyGetM4 crypto session.next responseWriter
  else .ok (.invalidState, session, responseWriter)

/-- (HAPPairingPairVerify.c) `HAPPairingPairVerifyHandleRead`. -/
def hapPairingPairVerifyHandleRead (crypto : PairVerifyCrypto) (server : PairVerifyServer) (env : PairVerifyEnv) (session : VerifySession)
    (responseWriter : WrittenTLVs) : Except HomeKitError (HAPError × VerifySession × WrittenTLVs) :=
  if session.pairVerify.error ≠ 0 then
    .ok (pairVerifyErrorResponse session.next responseWriter)
  else do
    let (err, session, responseWriter) ← respondPairVerify crypto server env session responseWriter
    hapAssert (err = .none ∨ err = .invalidState ∨ err = .outOfResources)
    if err ≠ .none then .ok (err, hapPairingPairVerifyReset session, responseWriter)
    else if session.pairVerify.error ≠ 0 then .ok (pairVerifyErrorResponse session responseWriter)
    else .ok (.none, session, responseWriter)

/-! ## A request over a session -/

/-- (HAPIPAccessoryServer.c) `handle_pairing_data` of a request for Pair Verify: `HAPSessionHandlePairVerifyWrite` (HAPSession.c), and if it
returns, `HAPSessionHandlePairVerifyRead`. -/
def handlePairVerify (crypto : PairVerifyCrypto) (server : PairVerifyServer) (w : Disk) (env : PairVerifyEnv) (s : Store)
    (session : VerifySession) (scratch : Mem) (numBytes : Nat) : Except HomeKitError (PairingsResponse × VerifySession) := do
  let (err, session) ← hapPairingPairVerifyHandleWrite crypto w s session scratch
    ⟨server.scratchBuffer, numBytes, server.maxScratchBufferBytes⟩
  if err ≠ .none then .ok (.badRequest, session)
  else do
    let (err, session, responseWriter) ← hapPairingPairVerifyHandleRead crypto server env session ⟨server.maxScratchBufferBytes, []⟩
    if err ≠ .none then .ok (.internalServerError, session) else .ok (.ok responseWriter.tlvs, session)

end CGuard
