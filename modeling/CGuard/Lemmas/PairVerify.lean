import CGuard.Lemmas.PairingRequests
import CGuard.PairVerify

/-!
# What a request for Pair Verify can do

Between two requests a session is in one of three phases (`VerifyPhase`). `handlePairVerify_served` says everything that one request does to
it, whatever the disk answers (`VerifyEffect`), or why the process ends.
-/

namespace CGuard

open ByteMemory

/-! ## The procedure -/

/-- A procedure: the ephemeral key of the controller, the secret of the accessory, and the secret that they share. -/
structure Offer where
  controllerCvPK : List UInt8
  cvSK : List UInt8
  cvKEY : List UInt8
  deriving DecidableEq

/-- The ephemeral key of the accessory. -/
def Offer.cvPK (crypto : PairVerifyCrypto) (o : Offer) : List UInt8 := crypto.x25519ScalarmultBase o.cvSK

/-- The secret is shared by the ephemeral keys. -/
def Offer.Shared (crypto : PairVerifyCrypto) (o : Offer) : Prop := crypto.x25519Scalarmult o.cvSK o.controllerCvPK = some o.cvKEY

/-- The key of the messages M2 and M3. -/
def Offer.sessionKey (crypto : PairVerifyCrypto) (o : Offer) : List UInt8 :=
  crypto.hkdfSha512 32 o.cvKEY (stringBytes "Pair-Verify-Encrypt-Salt") (stringBytes "Pair-Verify-Encrypt-Info")

/-- What the controller signs. -/
def Offer.deviceInfo (crypto : PairVerifyCrypto) (o : Offer) (id : PairingIdentifier) : List UInt8 :=
  o.controllerCvPK ++ id.1 ++ o.cvPK crypto

/-- What the accessory signs. -/
def Offer.accessoryInfo (crypto : PairVerifyCrypto) (o : Offer) (deviceID : List UInt8) : List UInt8 :=
  o.cvPK crypto ++ deviceID ++ o.controllerCvPK

/-- The session that has been verified for the pairing in a slot. -/
def Offer.hap (crypto : PairVerifyCrypto) (o : Offer) (slot : UInt8) : HAPSessionSecurity where
  active := true
  isTransient := false
  pairingID := slot.toNat
  accessoryToController := ⟨controlKey crypto o.cvKEY "Control-Read-Encryption-Key", 0⟩
  controllerToAccessory := ⟨controlKey crypto o.cvKEY "Control-Write-Encryption-Key", 0⟩

/-- A session between two requests. -/
inductive VerifyPhase where
  | idle
  | offered (o : Offer)
  | verified (slot : UInt8) (o : Offer)
  deriving DecidableEq

/-- What a session is in a phase. -/
def VerifyPhase.session (crypto : PairVerifyCrypto) : VerifyPhase → VerifySession
  | .idle => ⟨.zero, .zero⟩
  | .offered o =>
    ⟨.zero,
      { state := 2
        method := kHAPPairingMethodPairVerify
        error := 0
        sessionKey := o.sessionKey crypto
        cvPK := o.cvPK crypto
        cvSK := o.cvSK
        cvKEY := o.cvKEY
        pairingID := -1
        controllerCvPK := o.controllerCvPK }⟩
  | .verified slot o => ⟨o.hap crypto slot, .zero⟩

/-- The session has not been verified. -/
def VerifyPhase.Open : VerifyPhase → Prop
  | .verified _ _ => False
  | _ => True

/-- What remains of a phase when the procedure is reset. -/
def VerifyPhase.reset : VerifyPhase → VerifyPhase
  | .offered _ => .idle
  | phase => phase

/-- A request for Pair Verify, by its TLVs. -/
inductive VerifyRequest where
  | unreadable
  | start (controllerCvPK : PairingPublicKey)
  | badStart
  | finish (encryptedData : List UInt8)
  | other
  deriving DecidableEq

/-- The request that TLVs are. -/
def VerifyRequest.ofList (tlvs : List (UInt8 × List UInt8)) : VerifyRequest :=
  if tlvs.lookup kHAPPairingTLVTypeState = some [1] then
    match tlvs.lookup kHAPPairingTLVTypeMethod, publicKeyOf (tlvs.lookup kHAPPairingTLVTypePublicKey) with
    | none, some controllerCvPK => .start controllerCvPK
    | _, _ => .badStart
  else if tlvs.lookup kHAPPairingTLVTypeState = some [3] then
    match tlvs.lookup kHAPPairingTLVTypeEncryptedData with
    | some encryptedData => if encryptedData.length < 16 then .other else .finish encryptedData
    | none => .other
  else .other

open Classical in
/-- The request that a text is. -/
noncomputable def VerifyRequest.ofText (text : List UInt8) : VerifyRequest :=
  if h : ∃ tlvs, WellFormedRequest pairVerifyTLVTypes.1 text tlvs then .ofList h.choose else .unreadable

/-- The encrypted part of M3, decrypted. -/
def Offer.openM3 (crypto : PairVerifyCrypto) (o : Offer) (encryptedData : List UInt8) : Option (List UInt8) :=
  crypto.aead.decryptAad (o.sessionKey crypto) (stringBytes "PV-Msg03") [] (encryptedData.drop (encryptedData.length - 16))
    (encryptedData.take (encryptedData.length - 16))

/-- The identifier and the signature in TLVs. -/
def proofOfList (tlvs : List (UInt8 × List UInt8)) : Option (PairingIdentifier × List UInt8) :=
  match identifierOf (tlvs.lookup kHAPPairingTLVTypeIdentifier), tlvs.lookup kHAPPairingTLVTypeSignature with
  | some id, some signature => if signature.length = 64 then some (id, signature) else none
  | _, _ => none

open Classical in
/-- The identifier and the signature in the decrypted part of M3. -/
noncomputable def proofOf (text : List UInt8) : Option (PairingIdentifier × List UInt8) :=
  if h : ∃ tlvs, WellFormedRequest pairVerifyM3TLVTypes.1 text tlvs then proofOfList h.choose else none

/-- The response M2. -/
def Offer.response (crypto : PairVerifyCrypto) (server : PairVerifyServer) (o : Offer) (deviceID : List UInt8) : PairingsResponse :=
  let tlvs := [(kHAPPairingTLVTypeIdentifier, deviceID),
    (kHAPPairingTLVTypeSignature, crypto.ed25519Sign (o.accessoryInfo crypto deviceID) server.edLTSK (server.edLTPK crypto))]
  let encrypted := crypto.aead.encryptAad (o.sessionKey crypto) (stringBytes "PV-Msg02") [] (encodeTLVs tlvs)
  .ok [(kHAPPairingTLVTypeState, [2]), (kHAPPairingTLVTypePublicKey, o.cvPK crypto),
    (kHAPPairingTLVTypeEncryptedData, encrypted.1 ++ encrypted.2)]

/-- The response of a request that has not been authenticated. -/
def notAuthenticatedResponse : PairingsResponse :=
  .ok [(kHAPPairingTLVTypeState, [4]), (kHAPPairingTLVTypeError, [kHAPPairingErrorAuthentication])]

/-- The response M4. -/
def verifiedResponse : PairingsResponse := .ok [(kHAPPairingTLVTypeState, [4])]

/-- What a request of `numBytes` bytes does to a session: the response, and the phase. -/
inductive VerifyEffect (crypto : PairVerifyCrypto) (server : PairVerifyServer) (t : PairingTable) (env : PairVerifyEnv) (numBytes : Nat) :
    VerifyPhase → VerifyRequest → PairingsResponse → VerifyPhase → Prop
  | unreadable {phase : VerifyPhase} : VerifyEffect crypto server t env numBytes phase .unreadable .badRequest phase.reset
  | offer {phase : VerifyPhase} {controllerCvPK : PairingPublicKey} {deviceID : HAPDeviceIDString} {o : Offer} :
      phase.Open → env.deviceIDString = some deviceID → o.controllerCvPK = controllerCvPK.1 → o.cvSK = env.random → o.Shared crypto →
      VerifyEffect crypto server t env numBytes phase (.start controllerCvPK) (o.response crypto server deviceID.1) (.offered o)
  | rejected {phase : VerifyPhase} {request : VerifyRequest} : phase.Open → request ≠ .unreadable →
      (∀ controllerCvPK, request ≠ .start controllerCvPK) → (∀ o encryptedData, phase = .offered o → request ≠ .finish encryptedData) →
      VerifyEffect crypto server t env numBytes phase request .badRequest .idle
  | noProof {o : Offer} {encryptedData text : List UInt8} : o.openM3 crypto encryptedData = some text → proofOf text = none →
      VerifyEffect crypto server t env numBytes (.offered o) (.finish encryptedData) .badRequest .idle
  | notOpened {o : Offer} {encryptedData : List UInt8} : o.openM3 crypto encryptedData = none →
      VerifyEffect crypto server t env numBytes (.offered o) (.finish encryptedData) notAuthenticatedResponse .idle
  | unknown {o : Offer} {encryptedData text signature : List UInt8} {id : PairingIdentifier} :
      o.openM3 crypto encryptedData = some text → proofOf text = some (id, signature) → Absent t id →
      VerifyEffect crypto server t env numBytes (.offered o) (.finish encryptedData) notAuthenticatedResponse .idle
  | forged {o : Offer} {encryptedData text signature : List UInt8} {id : PairingIdentifier} {c : Controller} {slot : UInt8} :
      o.openM3 crypto encryptedData = some text → proofOf text = some (id, signature) → t slot = some (id, c) →
      crypto.ed25519Verify signature (o.deviceInfo crypto id) c.1.1 = false →
      VerifyEffect crypto server t env numBytes (.offered o) (.finish encryptedData) notAuthenticatedResponse .idle
  | verified {o : Offer} {encryptedData text signature : List UInt8} {id : PairingIdentifier} {c : Controller} {slot : UInt8} :
      o.openM3 crypto encryptedData = some text → proofOf text = some (id, signature) → t slot = some (id, c) →
      crypto.ed25519Verify signature (o.deviceInfo crypto id) c.1.1 = true →
      VerifyEffect crypto server t env numBytes (.offered o) (.finish encryptedData) verifiedResponse (.verified slot o)
  | requestTooLong {o : Offer} {encryptedData : List UInt8} : server.maxScratchBufferBytes < numBytes + 103 →
      VerifyEffect crypto server t env numBytes (.offered o) (.finish encryptedData) .badRequest .idle
  | responseTooLong {phase : VerifyPhase} {request : VerifyRequest} : phase.Open → server.maxScratchBufferBytes < 1024 →
      VerifyEffect crypto server t env numBytes phase request .internalServerError .idle

/-- Why the process ends during a request: the disk fails, the ephemeral key of the controller gives no shared secret, or the session has
been verified already. -/
inductive VerifyFault (crypto : PairVerifyCrypto) (w : Disk) (env : PairVerifyEnv) : VerifyPhase → VerifyRequest → HomeKitError → Prop
  | disk {o : Offer} {encryptedData : List UInt8} : w.Failing → VerifyFault crypto w env (.offered o) (.finish encryptedData) .assertion
  | sharedSecret {phase : VerifyPhase} {controllerCvPK : PairingPublicKey} : phase.Open →
      crypto.x25519Scalarmult env.random controllerCvPK.1 = none → VerifyFault crypto w env phase (.start controllerCvPK) .assertion
  | deviceID {phase : VerifyPhase} {controllerCvPK : PairingPublicKey} : phase.Open → env.deviceIDString = none →
      VerifyFault crypto w env phase (.start controllerCvPK) .assertion
  | active {slot : UInt8} {o : Offer} {request : VerifyRequest} : request ≠ .unreadable →
      VerifyFault crypto w env (.verified slot o) request .precondition

namespace PairVerifyAux

open TlvReaderAux PairingsAux

variable {crypto : PairVerifyCrypto} {server : PairVerifyServer} {w : Disk} {env : PairVerifyEnv} {s : Store} {t : PairingTable}

/-! ## Reading the request -/

/-- The value of a requested type is that of the list of TLVs. -/
theorem itemValue_eq {m : Mem} {tlvs : List (UInt8 × List UInt8)} : ∀ {items : List HAPTLV} {types : List UInt8},
    items.map HAPTLV.type = types → items.map (HAPTLV.found m) = types.map (tlvs.lookup ·) → ∀ type ∈ types,
    itemValue m items type = tlvs.lookup type := by
  intro items
  induction items with
  | nil =>
    rintro types rfl - type htype
    cases htype
  | cons item items ih =>
    rintro types rfl hfound type htype
    rw [List.map_cons, List.map_cons, List.map_cons, List.cons.injEq] at hfound
    rw [itemValue, List.find?_cons]
    by_cases heq : item.type = type
    · rw [decide_eq_true heq, ← heq, ← hfound.1]
      rfl
    · rw [decide_eq_false heq]
      refine ih rfl hfound.2 type ?_
      rw [List.map_cons, List.mem_cons] at htype
      exact htype.resolve_left fun h => heq h.symm

/-- The place of an item holds its value. -/
theorem itemPlace_eq (m : Mem) (items : List HAPTLV) (type : UInt8) :
    (itemPlace items type).map (fun x => slice m x.1 x.2) = itemValue m items type := by
  rw [itemPlace, itemValue, Option.map_bind]
  refine congrArg _ (funext fun item => ?_)
  rw [Function.comp_apply, Option.map_map]
  rfl

/-- The room for a reader shrinks by what it has read. -/
theorem hapTLVReaderGetNext_maxBytes {m m' : Mem} {reader reader' : HAPTLVReader} {tlv : HAPTLV}
    (h : hapTLVReaderGetNext m reader = .ok (some tlv, m', reader')) :
    reader'.maxBytes = reader.maxBytes - (reader'.bytes - reader.bytes) := by
  unfold hapTLVReaderGetNext at h
  simp only at h
  split_ifs at h
  · cases h
  · obtain ⟨⟨m₁, o, numBytes⟩, -, h⟩ := bind_ok h
    cases h
    show reader.maxBytes - o = reader.maxBytes - (reader.bytes + o - reader.bytes)
    rw [Nat.add_sub_cancel_left]

/-- The free memory behind a request. -/
theorem getAllLoop_scratch {n : Nat} : ∀ {m m' : Mem} {reader reader' : HAPTLVReader} {items items' : List HAPTLV}, reader.numBytes = n →
    getAllLoop m reader items = .ok (items', m', reader') →
    reader'.maxBytes - reader'.numBytes = reader.maxBytes - reader.numBytes := by
  induction n using Nat.strongRecOn with
  | ind n ih =>
    intro m m' reader reader' items items' hn h
    rw [getAllLoop] at h
    split at h
    · cases h
    · rename_i m₁ reader₁ hget
      cases h
      rw [(hapTLVReaderGetNext_none hget).2.2]
    · rename_i tlv m₁ reader₁ hget
      split at h
      · cases h
      · rename_i items₁ _
        have hlt := hapTLVReaderGetNext_lt hget
        obtain ⟨value, hnext⟩ := hapTLVReaderGetNext_some hget
        have hends := hnext.ends
        rw [ih _ (hn ▸ hlt) rfl h, hapTLVReaderGetNext_maxBytes hget]
        have hplace := hnext.place
        omega

/-- What the reader has found, by the list of TLVs that the text is. -/
theorem getAll_values {m m' : Mem} {reader reader' : HAPTLVReader} {requested : RequestedTypes} {items : List HAPTLV}
    (hget : hapTLVReaderGetAll m reader requested = .ok (items, m', reader')) :
    ∃ tlvs, WellFormedRequest requested.1 (slice m reader.bytes reader.numBytes) tlvs ∧
      (∀ type ∈ requested.1, itemValue m' items type = tlvs.lookup type) ∧
      reader'.maxBytes - reader'.numBytes = reader.maxBytes - reader.numBytes := by
  obtain ⟨tlvs, hwell, hfound, -⟩ := getAll_ok hget
  exact ⟨tlvs, hwell, itemValue_eq (getAll_types hget) hfound, getAllLoop_scratch rfl hget⟩

/-- The reader fails on a text that is no list of TLVs, and on no other one. -/
theorem getAll_fails {m : Mem} {reader : HAPTLVReader} {requested : RequestedTypes} {err : HAPError}
    (hget : hapTLVReaderGetAll m reader requested = .error err) :
    err = .invalidData ∧ ¬∃ tlvs, WellFormedRequest requested.1 (slice m reader.bytes reader.numBytes) tlvs := by
  refine ⟨getAllLoop_error rfl (by rw [map_type_initializeTLVs]; exact requested.2) hget, ?_⟩
  rintro ⟨tlvs, hwell⟩
  obtain ⟨r, hr⟩ := getAll_isOk hwell
  rw [hr] at hget
  cases hget

/-! ## The encrypted part of M3 -/

/-- A text is a proof in one way. -/
theorem proofOf_eq {text : List UInt8} {tlvs : List (UInt8 × List UInt8)} (h : WellFormedRequest pairVerifyM3TLVTypes.1 text tlvs) :
    proofOf text = proofOfList tlvs := by
  have hex : ∃ tlvs, WellFormedRequest pairVerifyM3TLVTypes.1 text tlvs := ⟨tlvs, h⟩
  obtain ⟨htext, hsep, -⟩ := hex.choose_spec
  rw [proofOf, dif_pos hex, encodeTLVs_inj (htext.symm.trans h.1) hsep h.2.1]

/-- Reading the decrypted part of M3. -/
theorem readPairVerifyM3_cases (m : Mem) (bytes numBytes : Nat) :
    (∃ id signature, proofOf (slice m bytes numBytes) = some (id, signature) ∧
        readPairVerifyM3 m bytes numBytes = .ok (id.1, signature)) ∨
      proofOf (slice m bytes numBytes) = none ∧ readPairVerifyM3 m bytes numBytes = .error .invalidData := by
  rw [readPairVerifyM3]
  cases hget : hapTLVReaderGetAll m ⟨bytes, numBytes, numBytes⟩ pairVerifyM3TLVTypes with
  | error err =>
    obtain ⟨rfl, hno⟩ := getAll_fails hget
    exact Or.inr ⟨dif_neg hno, rfl⟩
  | ok r =>
    obtain ⟨items, m', reader'⟩ := r
    obtain ⟨tlvs, hwell, hvalues, -⟩ := getAll_values hget
    have hid := hvalues kHAPPairingTLVTypeIdentifier (by simp [pairVerifyM3TLVTypes])
    have hsignature := hvalues kHAPPairingTLVTypeSignature (by simp [pairVerifyM3TLVTypes])
    rw [proofOf_eq hwell, proofOfList]
    simp only [bind, Except.bind, hid, hsignature]
    rcases validateIdentifier_cases (tlvs.lookup kHAPPairingTLVTypeIdentifier) with ⟨id, hof, hrun⟩ | ⟨hof, hrun⟩
    · rw [hof, hrun]
      rcases tlvs.lookup kHAPPairingTLVTypeSignature with _ | signature
      · exact Or.inr ⟨rfl, rfl⟩
      · by_cases hlength : signature.length = 64
        · exact Or.inl ⟨id, signature, if_pos hlength, by simp [validateSignature, hlength]⟩
        · exact Or.inr ⟨if_neg hlength, by simp [validateSignature, hlength]⟩
    · rw [hof, hrun]
      exact Or.inr ⟨rfl, rfl⟩

/-- Enough free memory for iOSDeviceInfo. -/
theorem allocDeviceInfo_isSome {scratch : ScratchBytes} (id : PairingIdentifier) (h : 103 ≤ scratch.numBytes) :
    (allocDeviceInfo scratch id.1.length).isSome := by
  have hid := id.2
  simp only [allocDeviceInfo, hapTLVScratchBufferAlloc, hapTLVScratchBufferAllocUnaligned, bind, Option.bind]
  rw [if_neg (by omega), if_neg (by omega)]
  dsimp only
  rw [if_neg (by omega), if_neg (by omega)]
  dsimp only
  rw [if_neg (by omega), if_neg (by omega)]
  rfl

/-! ## The rest of a request -/

/-- What is answered when M1 or M3 has been processed. -/
def finishPairVerify (crypto : PairVerifyCrypto) (server : PairVerifyServer) (env : PairVerifyEnv) (r : HAPError × VerifySession) :
    Except HomeKitError (PairingsResponse × VerifySession) := do
  hapAssert (r.1 = .none ∨ r.1 = .invalidState ∨ r.1 = .invalidData ∨ r.1 = .outOfResources)
  if r.1 ≠ .none then .ok (.badRequest, hapPairingPairVerifyReset r.2)
  else do
    let (err, session, responseWriter) ← hapPairingPairVerifyHandleRead crypto server env r.2 ⟨server.maxScratchBufferBytes, []⟩
    if err ≠ .none then .ok (.internalServerError, session) else .ok (.ok responseWriter.tlvs, session)

/-- What one request does, given what its processing returns. -/
def VerifyServed (crypto : PairVerifyCrypto) (server : PairVerifyServer) (w : Disk) (t : PairingTable) (env : PairVerifyEnv)
    (numBytes : Nat) (phase : VerifyPhase) (request : VerifyRequest) (r : Except HomeKitError (PairingsResponse × VerifySession)) : Prop :=
  (∃ e, VerifyFault crypto w env phase request e ∧ r = .error e) ∨
    ∃ response phase', VerifyEffect crypto server t env numBytes phase request response phase' ∧ r = .ok (response, phase'.session crypto)

variable {numBytes : Nat} {phase : VerifyPhase} {request : VerifyRequest}

/-- A request that is not accepted. -/
theorem served_badRequest {err : HAPError} {pairVerify : PairVerifyState}
    (herr : err = .invalidState ∨ err = .invalidData ∨ err = .outOfResources)
    (heffect : VerifyEffect crypto server t env numBytes phase request .badRequest .idle) :
    VerifyServed crypto server w t env numBytes phase request (finishPairVerify crypto server env (err, ⟨.zero, pairVerify⟩)) := by
  refine Or.inr ⟨_, _, heffect, ?_⟩
  rcases herr with rfl | rfl | rfl <;> rfl

/-- A request whose disk fails. -/
theorem served_unknown {o : Offer} {encryptedData : List UInt8} (session : VerifySession) (hfail : w.Failing) :
    VerifyServed crypto server w t env numBytes (.offered o) (.finish encryptedData) (finishPairVerify crypto server env (.unknown, session)) :=
  Or.inl ⟨_, .disk hfail, rfl⟩

/-- A request that is answered with the error of the session. -/
theorem served_notAuthenticated {pairVerify : PairVerifyState} (hstate : pairVerify.state = 3) (hopen : phase.Open)
    (heffect : VerifyEffect crypto server t env numBytes phase request notAuthenticatedResponse .idle) :
    VerifyServed crypto server w t env numBytes phase request
      (finishPairVerify crypto server env (.none, VerifySession.notAuthenticated ⟨.zero, pairVerify⟩)) := by
  have herror : kHAPPairingErrorAuthentication ≠ 0 := by decide
  rw [finishPairVerify, VerifySession.notAuthenticated]
  simp only [hapAssert, true_or, if_true, bind, Except.bind, ne_eq, not_true_eq_false, if_false, hapPairingPairVerifyHandleRead, herror,
    not_false_eq_true, pairVerifyErrorResponse, verifyStateTLV, VerifySession.next, hstate]
  rcases append_new server.maxScratchBufferBytes
      [(kHAPPairingTLVTypeState, [3 + 1]), (kHAPPairingTLVTypeError, [kHAPPairingErrorAuthentication])] with
    ⟨-, hrun⟩ | ⟨hroom, writer, hrun⟩
  · rw [hrun]
    exact Or.inr ⟨_, _, heffect, rfl⟩
  · rw [hrun]
    refine Or.inr ⟨_, _, .responseTooLong hopen (hroom.trans_le ?_), rfl⟩
    simp [encodeTLVs, encodeTLV_of_le]

/-- A request that has been authenticated. -/
theorem served_verified {o : Offer} {slot : UInt8}
    (heffect : VerifyEffect crypto server t env numBytes phase request verifiedResponse (.verified slot o)) (hopen : phase.Open) :
    VerifyServed crypto server w t env numBytes phase request (finishPairVerify crypto server env
      (.none, ⟨.zero, { ((VerifyPhase.offered o).session crypto).pairVerify with state := 3, pairingID := slot.toNat }⟩)) := by
  rw [finishPairVerify]
  simp only [hapAssert, true_or, if_true, bind, Except.bind, ne_eq, not_true_eq_false, if_false, hapPairingPairVerifyHandleRead,
    VerifyPhase.session, respondPairVerify, hapPairingPairVerifyGetM4, verifyStateTLV, VerifySession.next]
  rw [if_neg (by decide)]
  simp only [hapPrecondition, HAPSessionSecurity.zero, if_true]
  rcases append_new server.maxScratchBufferBytes [(kHAPPairingTLVTypeState, [3 + 1])] with ⟨-, hrun⟩ | ⟨hroom, writer, hrun⟩
  · rw [hrun]
    refine Or.inr ⟨_, _, heffect, ?_⟩
    simp [hapPairingPairVerifyStartSession, hapPrecondition, bind, Except.bind, hapPairingPairVerifyReset, PairVerifyState.zero,
      VerifyPhase.session, Offer.hap, verifiedResponse]
  · rw [hrun]
    refine Or.inr ⟨_, _, .responseTooLong hopen (hroom.trans_le ?_), ?_⟩
    · simp [encodeTLVs, encodeTLV_of_le]
    · simp [VerifyPhase.session, hapPairingPairVerifyReset, HAPSessionSecurity.zero]

/-! ## M1 and M2 -/

/-- M1 is accepted if it has a public key, and no method. -/
theorem processM1_cases {tlvs : PairVerifyTLVs} (hstate : tlvs.state = some [1]) (session : VerifySession) :
    (∃ controllerCvPK, tlvs.method = none ∧ publicKeyOf tlvs.publicKey = some controllerCvPK ∧
        hapPairingPairVerifyProcessM1 session tlvs = .ok { session with
          pairVerify := { session.pairVerify with method := kHAPPairingMethodPairVerify, controllerCvPK := controllerCvPK.1 } }) ∨
      (tlvs.method ≠ none ∨ publicKeyOf tlvs.publicKey = none) ∧ hapPairingPairVerifyProcessM1 session tlvs = .error .invalidData := by
  have hvalid : validateByte (· == 1) tlvs.state = .ok 1 := by rw [hstate]; rfl
  rw [hapPairingPairVerifyProcessM1, hvalid]
  rcases hmethod : tlvs.method with _ | method
  · rw [validatePairResume, hmethod]
    rcases validatePublicKey_cases tlvs.publicKey with ⟨key, hkey, hrun⟩ | ⟨hkey, hrun⟩
    · exact Or.inl ⟨key, rfl, hkey, by simp only [bind, Except.bind, hrun]⟩
    · exact Or.inr ⟨Or.inr hkey, by simp only [bind, Except.bind, hrun]⟩
  · refine Or.inr ⟨Or.inl (by simp), ?_⟩
    have hresume : validatePairResume tlvs = .error .invalidData := by
      rw [validatePairResume, hmethod]
      rcases validateByte_cases (· == kHAPPairingMethodPairResume) (some method) with ⟨b, -, -, hrun⟩ | ⟨-, hrun⟩
      · simp only [bind, Except.bind, hrun]
        rcases tlvs.sessionID with _ | sessionID
        · rfl
        · by_cases h8 : sessionID.length = 8
          · rcases tlvs.encryptedData with _ | ⟨p, n⟩
            · simp [validateLength, h8]
            · by_cases h16 : n = 16
              · simp [validateLength, h8, h16]
              · simp [validateLength, h8, h16]
          · simp [validateLength, h8]
      · simp only [bind, Except.bind, hrun]
    simp only [bind, Except.bind, hresume]

/-- Enough free memory for AccessoryInfo and its signature. -/
theorem allocAccessoryInfo_isSome {scratch : ScratchBytes} {n : Nat} (h : n + 134 ≤ scratch.numBytes) :
    (allocAccessoryInfo scratch n).isSome := by
  simp only [allocAccessoryInfo, hapTLVScratchBufferAlloc, hapTLVScratchBufferAllocUnaligned, bind, Option.bind]
  rw [if_neg (by omega), if_neg (by omega)]
  dsimp only
  rw [if_neg (by omega), if_neg (by omega)]
  dsimp only
  rw [if_neg (by omega), if_neg (by omega)]
  dsimp only
  rw [if_neg (by omega), if_neg (by omega)]
  rfl

/-- The encrypted part of M2. -/
theorem accessoryInfoTLVs_cases (session : VerifySession) (scratch : ScratchBytes) (deviceID : HAPDeviceIDString) :
    accessoryInfoTLVs crypto server session scratch deviceID.1 = .ok [(kHAPPairingTLVTypeIdentifier, deviceID.1),
        (kHAPPairingTLVTypeSignature, crypto.ed25519Sign (session.pairVerify.cvPK ++ deviceID.1 ++ session.pairVerify.controllerCvPK)
          server.edLTSK (server.edLTPK crypto))] ∨
      scratch.numBytes < 512 ∧ accessoryInfoTLVs crypto server session scratch deviceID.1 = .error .outOfResources := by
  have hid : (encodeTLVs [(kHAPPairingTLVTypeIdentifier, deviceID.1)]).length = 19 := by
    simp [encodeTLVs, encodeTLV_of_le, deviceID.2]
  rw [accessoryInfoTLVs]
  rcases append_new scratch.numBytes [(kHAPPairingTLVTypeIdentifier, deviceID.1)] with ⟨hroom, hrun⟩ | ⟨hroom, writer, hrun⟩
  · rw [hrun]
    dsimp only
    by_cases halloc : (allocAccessoryInfo
        ((⟨scratch.numBytes, [(kHAPPairingTLVTypeIdentifier, deviceID.1)]⟩ : WrittenTLVs).scratchBytes scratch.bytes) deviceID.1.length).isNone
    · rw [if_pos halloc]
      refine Or.inr ⟨Nat.not_le.mp fun hlarge => ?_, rfl⟩
      have hsome := @allocAccessoryInfo_isSome
        ((⟨scratch.numBytes, [(kHAPPairingTLVTypeIdentifier, deviceID.1)]⟩ : WrittenTLVs).scratchBytes scratch.bytes) deviceID.1.length
        (by rw [WrittenTLVs.scratchBytes]; simp only [hid, deviceID.2]; omega)
      rw [Option.isNone_iff_eq_none.mp halloc] at hsome
      cases hsome
    · rw [if_neg halloc]
      rcases append_spec [(kHAPPairingTLVTypeSignature, crypto.ed25519Sign (session.pairVerify.cvPK ++ deviceID.1 ++
          session.pairVerify.controllerCvPK) server.edLTSK (server.edLTPK crypto))] ⟨scratch.numBytes, _⟩ hroom with
        ⟨-, hsign⟩ | ⟨hfull, writer, hsign⟩
      · rw [hsign]
        exact Or.inl rfl
      · rw [hsign]
        refine Or.inr ⟨?_, rfl⟩
        rw [encodeTLVs_append, List.length_append, hid] at hfull
        simp [encodeTLVs, encodeTLV_of_le, crypto.length_sign] at hfull
        omega
  · rw [hrun]
    rw [hid] at hroom
    exact Or.inr ⟨by omega, rfl⟩

/-- The session after M1. -/
def startedSession (controllerCvPK : PairingPublicKey) : VerifySession :=
  ⟨.zero, { PairVerifyState.zero with state := 1, method := kHAPPairingMethodPairVerify, controllerCvPK := controllerCvPK.1 }⟩

/-- What is encrypted in M2. -/
def accessoryProof (crypto : PairVerifyCrypto) (server : PairVerifyServer) (o : Offer) (deviceID : HAPDeviceIDString) :
    List (UInt8 × List UInt8) :=
  [(kHAPPairingTLVTypeIdentifier, deviceID.1),
    (kHAPPairingTLVTypeSignature, crypto.ed25519Sign (o.accessoryInfo crypto deviceID.1) server.edLTSK (server.edLTPK crypto))]

/-- The proof of the accessory has 85 bytes. -/
theorem length_accessoryProof (o : Offer) (deviceID : HAPDeviceIDString) :
    (encodeTLVs (accessoryProof crypto server o deviceID)).length = 85 := by
  simp [accessoryProof, encodeTLVs, encodeTLV_of_le, deviceID.2, crypto.length_sign]

/-- The length of a TLV that is encrypted. -/
theorem length_encryptedTLV (type : UInt8) (k n a m : List UInt8) (h : m.length ≤ 239) :
    (encodeTLVs [(type, (crypto.aead.encryptAad k n a m).1 ++ (crypto.aead.encryptAad k n a m).2)]).length = m.length + 18 := by
  have hlength : ((crypto.aead.encryptAad k n a m).1 ++ (crypto.aead.encryptAad k n a m).2).length = m.length + 16 := by
    rw [List.length_append, crypto.aead.length_cipher, crypto.aead.length_tag]
  rw [encodeTLVs, List.flatMap_singleton, encodeTLV_of_le (by dsimp only; omega), List.length_cons, List.length_cons, hlength]

/-- What is written in M2. -/
theorem writeM2_cases (env : PairVerifyEnv) (o : Offer) :
    env.deviceIDString = none ∧ (∃ session writer, writeM2 crypto server env ((VerifyPhase.offered o).session crypto)
        ⟨server.maxScratchBufferBytes, []⟩ = (.unknown, session, writer)) ∨
      (∃ deviceID tlvs, env.deviceIDString = some deviceID ∧ o.response crypto server deviceID.1 = .ok tlvs ∧
        writeM2 crypto server env ((VerifyPhase.offered o).session crypto) ⟨server.maxScratchBufferBytes, []⟩ =
          (.none, (VerifyPhase.offered o).session crypto, ⟨server.maxScratchBufferBytes, tlvs⟩)) ∨
      server.maxScratchBufferBytes < 1024 ∧ ∃ pairVerify writer, writeM2 crypto server env ((VerifyPhase.offered o).session crypto)
        ⟨server.maxScratchBufferBytes, []⟩ = (.outOfResources, ⟨.zero, pairVerify⟩, writer) := by
  have hfirst : (encodeTLVs [(kHAPPairingTLVTypeState, [2]), (kHAPPairingTLVTypePublicKey, o.cvPK crypto)]).length = 37 := by
    simp [encodeTLVs, encodeTLV_of_le, Offer.cvPK, crypto.length_scalarmultBase]
  rw [writeM2]
  simp only [verifyStateTLV, VerifyPhase.session]
  rcases append_new server.maxScratchBufferBytes [(kHAPPairingTLVTypeState, [2]), (kHAPPairingTLVTypePublicKey, o.cvPK crypto)] with
    ⟨hroom, hrun⟩ | ⟨hroom, writer, hrun⟩
  · rw [hrun]
    simp only [WrittenTLVs.scratchBytes, hfirst]
    by_cases h16 : server.maxScratchBufferBytes - 37 < 16
    · rw [if_pos h16]
      exact Or.inr (Or.inr ⟨by omega, _, _, rfl⟩)
    · rw [if_neg h16]
      rcases hdevice : env.deviceIDString with _ | deviceID
      · exact Or.inl ⟨rfl, _, _, rfl⟩
      · dsimp only
        rcases @accessoryInfoTLVs_cases crypto server ((VerifyPhase.offered o).session crypto)
            ⟨server.scratchBuffer + 37, server.maxScratchBufferBytes - 37 - 16⟩ deviceID with hproof | ⟨hsmall, hproof⟩
        · simp only [VerifyPhase.session] at hproof
          rw [hproof]
          dsimp only
          rcases append_spec [(kHAPPairingTLVTypeEncryptedData, _ ++ _)] ⟨server.maxScratchBufferBytes, _⟩ hroom with
            ⟨-, hlast⟩ | ⟨hfull, writer, hlast⟩
          · rw [hlast]
            exact Or.inr (Or.inl ⟨deviceID, _, rfl, rfl, rfl⟩)
          · rw [hlast]
            refine Or.inr (Or.inr ⟨?_, _, _, rfl⟩)
            have hlength := @length_accessoryProof crypto server o deviceID
            simp only [accessoryProof, Offer.accessoryInfo] at hlength
            rw [encodeTLVs_append, List.length_append, hfirst, length_encryptedTLV _ _ _ _ _ (by rw [hlength]; decide), hlength] at hfull
            dsimp only at hfull
            omega
        · simp only [VerifyPhase.session] at hproof
          rw [hproof]
          dsimp only at hsmall
          exact Or.inr (Or.inr ⟨by omega, _, _, rfl⟩)
  · rw [hrun]
    rw [hfirst] at hroom
    exact Or.inr (Or.inr ⟨by omega, _, _, rfl⟩)

/-- The session before M2. -/
def answeringSession (controllerCvPK : PairingPublicKey) : VerifySession := (startedSession controllerCvPK).next

/-- A key of the controller that gives no shared secret. -/
theorem generateKeys_none {random : List UInt8} {controllerCvPK : PairingPublicKey}
    (h : crypto.x25519Scalarmult random controllerCvPK.1 = none) :
    generateKeys crypto random (answeringSession controllerCvPK) = .error .assertion := by
  have hkey : (answeringSession controllerCvPK).pairVerify.controllerCvPK = controllerCvPK.1 := rfl
  rw [generateKeys, hkey, h]

/-- The keys of a procedure. -/
theorem generateKeys_some {random : List UInt8} {controllerCvPK : PairingPublicKey} {cvKEY : List UInt8}
    (h : crypto.x25519Scalarmult random controllerCvPK.1 = some cvKEY) :
    generateKeys crypto random (answeringSession controllerCvPK) =
      .ok ((VerifyPhase.offered ⟨controllerCvPK.1, random, cvKEY⟩).session crypto) := by
  have hkey : (answeringSession controllerCvPK).pairVerify.controllerCvPK = controllerCvPK.1 := rfl
  rw [generateKeys, hkey, h]
  rfl

/-- A request that starts the procedure. -/
theorem served_start {controllerCvPK : PairingPublicKey} (hopen : phase.Open) :
    VerifyServed crypto server w t env numBytes phase (.start controllerCvPK)
      (finishPairVerify crypto server env (.none, startedSession controllerCvPK)) := by
  have hrespond : respondPairVerify crypto server env (startedSession controllerCvPK) ⟨server.maxScratchBufferBytes, []⟩ =
      hapPairingPairVerifyGetM2 crypto server env (answeringSession controllerCvPK) ⟨server.maxScratchBufferBytes, []⟩ := rfl
  have herror : ¬(startedSession controllerCvPK).pairVerify.error ≠ 0 := fun h => h rfl
  rw [finishPairVerify]
  simp only [hapAssert, true_or, if_true, bind, Except.bind, ne_eq, not_true_eq_false, if_false, hapPairingPairVerifyHandleRead,
    herror, hrespond, hapPairingPairVerifyGetM2]
  rcases hshared : crypto.x25519Scalarmult env.random controllerCvPK.1 with _ | cvKEY
  · rw [generateKeys_none hshared]
    exact Or.inl ⟨_, .sharedSecret hopen hshared, rfl⟩
  · let o : Offer := ⟨controllerCvPK.1, env.random, cvKEY⟩
    rw [generateKeys_some hshared]
    dsimp only
    rcases @writeM2_cases crypto server env o with
      ⟨hdevice, session, writer, hrun⟩ | ⟨deviceID, tlvs, hdevice, hresponse, hrun⟩ | ⟨hsmall, pairVerify, writer, hrun⟩
    · rw [hrun]
      exact Or.inl ⟨_, .deviceID hopen hdevice, rfl⟩
    · rw [hrun]
      refine Or.inr ⟨_, .offered o, .offer hopen hdevice rfl rfl hshared, ?_⟩
      rw [hresponse]
      rfl
    · rw [hrun]
      exact Or.inr ⟨_, _, .responseTooLong hopen hsmall, rfl⟩

/-! ## M3 and M4 -/

/-- The session in M3. -/
def finishingSession (crypto : PairVerifyCrypto) (o : Offer) : VerifySession :=
  ⟨.zero, { ((VerifyPhase.offered o).session crypto).pairVerify with state := 3 }⟩

/-- The encrypted data of M3 lies in the memory, the tag behind the text. -/
theorem openM3_slice (o : Offer) (m : Mem) (p : Nat) {n : Nat} (hlength : 16 ≤ n) :
    o.openM3 crypto (slice m p n) = crypto.aead.decryptAad (o.sessionKey crypto) (stringBytes "PV-Msg03") []
      (slice m (p + (n - 16)) 16) (slice m p (n - 16)) := by
  have h16 : n - (n - 16) = 16 := by omega
  have hmin : min (n - 16) n = n - 16 := by omega
  rw [Offer.openM3, length_slice, drop_slice, take_slice, h16, hmin]

/-- The identifier and the signature of M3 have been read. -/
theorem served_device (h : HoldsPairings s t) {o : Offer} {encryptedData text signature : List UInt8} {id : PairingIdentifier}
    {scratch : ScratchBytes} (hopen : o.openM3 crypto encryptedData = some text) (hproof : proofOf text = some (id, signature))
    (hscratch : scratch.numBytes = server.maxScratchBufferBytes - numBytes) :
    VerifyServed crypto server w t env numBytes (.offered o) (.finish encryptedData)
      ((verifyDevice crypto w s (finishingSession crypto o) scratch id.1 signature).bind (finishPairVerify crypto server env)) := by
  rw [verifyDevice]
  rcases hapPairingFind_spec (w := w) h id with hfind | ⟨hfail, hfind⟩
  · rw [hfind]
    simp only [bind, Except.bind, ne_eq, not_true_eq_false, if_false]
    rcases hf : SlotTable.find t id (s.keysOf kHAPKeyValueStoreDomainPairings (w.order .findPairing)) with _ | ⟨slot, key, admin⟩
    · exact served_notAuthenticated rfl trivial (.unknown hopen hproof (absent_of_find h hf))
    · have hslot := SlotTable.find_some hf
      simp only [Option.map_some]
      by_cases halloc : (allocDeviceInfo scratch id.1.length).isNone
      · rw [if_pos halloc]
        refine served_badRequest (Or.inr (Or.inr rfl)) (.requestTooLong (Nat.not_le.mp fun hlarge => ?_))
        have hsome := @allocDeviceInfo_isSome scratch id (by omega)
        rw [Option.isNone_iff_eq_none.mp halloc] at hsome
        cases hsome
      · have hsigned : (finishingSession crypto o).pairVerify.controllerCvPK ++ id.1 ++ (finishingSession crypto o).pairVerify.cvPK =
            o.deviceInfo crypto id := rfl
        have hkey : (HAPPairing.ofEntry (id, key, admin)).publicKey = key.1 := rfl
        rw [if_neg halloc, hsigned, hkey]
        by_cases hverify : crypto.ed25519Verify signature (o.deviceInfo crypto id) key.1 = true
        · rw [if_pos hverify]
          exact served_verified (.verified hopen hproof hslot hverify) trivial
        · rw [if_neg hverify]
          exact served_notAuthenticated rfl trivial (.forged hopen hproof hslot (Bool.not_eq_true _ ▸ hverify))
  · rw [hfind]
    exact served_unknown _ hfail

/-- A request that finishes the procedure. -/
theorem served_finish (h : HoldsPairings s t) {o : Offer} {m : Mem} {scratch : ScratchBytes} {tlvs : PairVerifyTLVs} {p n : Nat}
    (hvalid : validatePairVerifyM3 tlvs = .ok (p, n)) (hlength : 16 ≤ n)
    (hscratch : scratch.numBytes = server.maxScratchBufferBytes - numBytes) :
    VerifyServed crypto server w t env numBytes (.offered o) (.finish (slice m p n))
      ((hapPairingPairVerifyProcessM3 crypto w s (finishingSession crypto o) m scratch tlvs).bind (finishPairVerify crypto server env)) := by
  have hopened := @openM3_slice crypto o m p n hlength
  rw [hapPairingPairVerifyProcessM3, hvalid]
  dsimp only
  rcases hopen : o.openM3 crypto (slice m p n) with _ | text
  · have hdecrypt := hopened.symm.trans hopen
    have hkey : (finishingSession crypto o).pairVerify.sessionKey = o.sessionKey crypto := rfl
    rw [hkey, hdecrypt]
    exact served_notAuthenticated rfl trivial (.notOpened hopen)
  · have hdecrypt := hopened.symm.trans hopen
    have hkey : (finishingSession crypto o).pairVerify.sessionKey = o.sessionKey crypto := rfl
    have htext : text.length = n - 16 := by rw [crypto.aead.length_plain _ _ _ _ _ _ hdecrypt, length_slice]
    have hread := readPairVerifyM3_cases (store m p text) p (n - 16)
    rw [← htext, slice_store, htext] at hread
    rw [hkey, hdecrypt]
    dsimp only
    rcases hread with ⟨id, signature, hproof, hrun⟩ | ⟨hproof, hrun⟩
    · rw [hrun]
      exact served_device h hopen hproof hscratch
    · rw [hrun]
      exact served_badRequest (Or.inr (Or.inl rfl)) (.noProof hopen hproof)

/-! ## A whole request -/

/-- A text is a request in one way. -/
theorem ofText_verify {text : List UInt8} {tlvs : List (UInt8 × List UInt8)} (h : WellFormedRequest pairVerifyTLVTypes.1 text tlvs) :
    VerifyRequest.ofText text = .ofList tlvs := by
  have hex : ∃ tlvs, WellFormedRequest pairVerifyTLVTypes.1 text tlvs := ⟨tlvs, h⟩
  obtain ⟨htext, hsep, -⟩ := hex.choose_spec
  rw [VerifyRequest.ofText, dif_pos hex, encodeTLVs_inj (htext.symm.trans h.1) hsep h.2.1]

/-- No list of TLVs is unreadable. -/
theorem ofList_ne_unreadable (tlvs : List (UInt8 × List UInt8)) : VerifyRequest.ofList tlvs ≠ .unreadable := by
  rw [VerifyRequest.ofList]
  split_ifs
  · rcases tlvs.lookup kHAPPairingTLVTypeMethod with _ | method
    · rcases publicKeyOf (tlvs.lookup kHAPPairingTLVTypePublicKey) with _ | key <;> simp
    · simp
  · rcases tlvs.lookup kHAPPairingTLVTypeEncryptedData with _ | encryptedData
    · simp
    · dsimp only
      split_ifs <;> simp
  · simp

/-- Only a request of the state 1 starts the procedure. -/
theorem ofList_ne_start {tlvs : List (UInt8 × List UInt8)} (h : tlvs.lookup kHAPPairingTLVTypeState ≠ some [1])
    (controllerCvPK : PairingPublicKey) : VerifyRequest.ofList tlvs ≠ .start controllerCvPK := by
  rw [VerifyRequest.ofList, if_neg h]
  split_ifs
  · rcases tlvs.lookup kHAPPairingTLVTypeEncryptedData with _ | encryptedData
    · simp
    · dsimp only
      split_ifs <;> simp
  · simp

/-- What the validation of M3 lets through. -/
theorem validatePairVerifyM3_cases (tlvs : PairVerifyTLVs) :
    (∃ p n, tlvs.state = some [3] ∧ tlvs.encryptedData = some (p, n) ∧ 16 ≤ n ∧ validatePairVerifyM3 tlvs = .ok (p, n)) ∨
      (tlvs.state = some [3] → ∀ p n, tlvs.encryptedData = some (p, n) → n < 16) ∧ validatePairVerifyM3 tlvs = .error .invalidData := by
  rw [validatePairVerifyM3]
  rcases validateByte_cases (· == 3) tlvs.state with ⟨b, hb, hvalid, hrun⟩ | ⟨hnone, hrun⟩
  · obtain rfl : b = 3 := by simpa using hvalid
    simp only [bind, Except.bind, hrun]
    rcases hdata : tlvs.encryptedData with _ | ⟨p, n⟩
    · exact Or.inr ⟨fun _ p n h => (by cases h), rfl⟩
    · dsimp only
      by_cases h16 : n < 16
      · rw [if_pos h16]
        refine Or.inr ⟨fun _ p' n' h => ?_, rfl⟩
        cases h
        exact h16
      · rw [if_neg h16]
        exact Or.inl ⟨p, n, hb, rfl, by omega, rfl⟩
  · simp only [bind, Except.bind, hrun]
    refine Or.inr ⟨fun hstate => ?_, trivial⟩
    have := hnone 3 hstate
    simp at this

/-- The processing of a request when no procedure is going on. -/
theorem served_idle (hopen : phase.Open) {m : Mem} {scratch : ScratchBytes} {values : PairVerifyTLVs}
    (hstart : ∀ controllerCvPK, values.state = some [1] → values.method = none → publicKeyOf values.publicKey = some controllerCvPK →
      request = .start controllerCvPK)
    (hrejected : values.state ≠ some [1] ∨ values.method ≠ none ∨ publicKeyOf values.publicKey = none →
      VerifyEffect crypto server t env numBytes phase request .badRequest .idle) :
    VerifyServed crypto server w t env numBytes phase request
      ((processPairVerify crypto w s (VerifyPhase.idle.session crypto) m scratch values).bind (finishPairVerify crypto server env)) := by
  have hok : ∀ session, hapPairingPairVerifyProcessM1 (VerifyPhase.idle.session crypto).next values = .ok session →
      processPairVerify crypto w s (VerifyPhase.idle.session crypto) m scratch values = .ok (.none, session) := by
    intro session hr
    rw [processPairVerify, if_pos (by rfl), hr]
    rfl
  have herror : ∀ err, hapPairingPairVerifyProcessM1 (VerifyPhase.idle.session crypto).next values = .error err →
      processPairVerify crypto w s (VerifyPhase.idle.session crypto) m scratch values =
        .ok (err, (VerifyPhase.idle.session crypto).next) := by
    intro err hr
    rw [processPairVerify, if_pos (by rfl), hr]
    rfl
  by_cases hone : values.state = some [1]
  · rcases processM1_cases hone (VerifyPhase.idle.session crypto).next with ⟨key, hmethod, hkey, hrun⟩ | ⟨hbad, hrun⟩
    · rw [hok _ hrun, hstart key hone hmethod hkey]
      exact served_start hopen
    · rw [herror _ hrun]
      exact served_badRequest (Or.inr (Or.inl rfl)) (hrejected (Or.inr hbad))
  · have hrun : hapPairingPairVerifyProcessM1 (VerifyPhase.idle.session crypto).next values = .error .invalidData := by
      rw [hapPairingPairVerifyProcessM1]
      rcases validateByte_cases (· == 1) values.state with ⟨b, hb, hvalid, -⟩ | ⟨-, hinvalid⟩
      · obtain rfl : b = 1 := by simpa using hvalid
        exact absurd hb hone
      · rw [hinvalid]
        rfl
    rw [herror _ hrun]
    exact served_badRequest (Or.inr (Or.inl rfl)) (hrejected (Or.inl hone))

/-- The processing of a request that does not start the procedure, after M2. -/
theorem served_offered (h : HoldsPairings s t) {o : Offer} {m : Mem} {scratch : ScratchBytes} {values : PairVerifyTLVs}
    {tlvs : List (UInt8 × List UInt8)} (hone : tlvs.lookup kHAPPairingTLVTypeState ≠ some [1])
    (hstate : values.state = tlvs.lookup kHAPPairingTLVTypeState)
    (hdata : values.encryptedData.map (fun x => slice m x.1 x.2) = tlvs.lookup kHAPPairingTLVTypeEncryptedData)
    (hscratch : scratch.numBytes = server.maxScratchBufferBytes - numBytes) :
    VerifyServed crypto server w t env numBytes (.offered o) (.ofList tlvs)
      ((processPairVerify crypto w s ((VerifyPhase.offered o).session crypto) m scratch values).bind
        (finishPairVerify crypto server env)) := by
  have hprocess : processPairVerify crypto w s ((VerifyPhase.offered o).session crypto) m scratch values =
      hapPairingPairVerifyProcessM3 crypto w s (finishingSession crypto o) m scratch values := rfl
  rw [hprocess]
  rcases validatePairVerifyM3_cases values with ⟨p, n, hthree, hplace, h16, hvalid⟩ | ⟨hbad, hvalid⟩
  · have hrequest : VerifyRequest.ofList tlvs = .finish (slice m p n) := by
      rw [VerifyRequest.ofList, if_neg hone, if_pos (hstate.symm.trans hthree), ← hdata, hplace]
      exact if_neg (by rw [length_slice]; omega)
    rw [hrequest]
    exact served_finish h hvalid h16 hscratch
  · rw [hapPairingPairVerifyProcessM3, hvalid]
    refine served_badRequest (Or.inr (Or.inl rfl)) (.rejected trivial (ofList_ne_unreadable tlvs) (ofList_ne_start hone)
      fun o' encryptedData _ => ?_)
    rw [VerifyRequest.ofList, if_neg hone]
    split_ifs with hthree
    · rw [← hdata]
      rcases hplace : values.encryptedData with _ | ⟨p, n⟩
      · simp
      · have hlt := hbad (hstate.trans hthree) p n hplace
        simp [length_slice, hlt]
    · simp

/-- The processing of a request by its TLVs. -/
theorem served_process (h : HoldsPairings s t) (phase : VerifyPhase) {m : Mem} {scratch : ScratchBytes} {items : List HAPTLV}
    {tlvs : List (UInt8 × List UInt8)} (hvalues : ∀ type ∈ pairVerifyTLVTypes.1, itemValue m items type = tlvs.lookup type)
    (hscratch : scratch.numBytes = server.maxScratchBufferBytes - numBytes) :
    VerifyServed crypto server w t env numBytes phase (.ofList tlvs)
      ((processPairVerify crypto w s
        (if (PairVerifyTLVs.ofItems m items).state = some [1] then hapPairingPairVerifyReset (phase.session crypto) else phase.session crypto)
        m scratch (.ofItems m items)).bind (finishPairVerify crypto server env)) := by
  have hstate : (PairVerifyTLVs.ofItems m items).state = tlvs.lookup kHAPPairingTLVTypeState := hvalues _ (by simp [pairVerifyTLVTypes])
  have hmethod : (PairVerifyTLVs.ofItems m items).method = tlvs.lookup kHAPPairingTLVTypeMethod := hvalues _ (by simp [pairVerifyTLVTypes])
  have hkey : (PairVerifyTLVs.ofItems m items).publicKey = tlvs.lookup kHAPPairingTLVTypePublicKey :=
    hvalues _ (by simp [pairVerifyTLVTypes])
  have hdata : (PairVerifyTLVs.ofItems m items).encryptedData.map (fun x => slice m x.1 x.2) =
      tlvs.lookup kHAPPairingTLVTypeEncryptedData := by
    rw [PairVerifyTLVs.ofItems, itemPlace_eq]
    exact hvalues _ (by simp [pairVerifyTLVTypes])
  generalize PairVerifyTLVs.ofItems m items = values at hstate hmethod hkey hdata ⊢
  by_cases hverified : ∃ slot o, phase = .verified slot o
  · obtain ⟨slot, o, rfl⟩ := hverified
    refine Or.inl ⟨_, .active (ofList_ne_unreadable tlvs), ?_⟩
    split_ifs <;> rfl
  · have hopen : phase.Open := by
      rcases phase with _ | o | ⟨slot, o⟩
      · trivial
      · trivial
      · exact absurd ⟨slot, o, rfl⟩ hverified
    have hlist : ∀ controllerCvPK, values.state = some [1] → values.method = none → publicKeyOf values.publicKey = some controllerCvPK →
        VerifyRequest.ofList tlvs = .start controllerCvPK := by
      intro controllerCvPK hone hnone hsome
      rw [VerifyRequest.ofList, if_pos (hstate.symm.trans hone), ← hmethod, ← hkey, hnone, hsome]
    by_cases hone : values.state = some [1]
    · have hreset : hapPairingPairVerifyReset (phase.session crypto) = VerifyPhase.idle.session crypto := by
        rcases phase with _ | o | ⟨slot, o⟩
        · rfl
        · rfl
        · exact absurd hopen id
      rw [if_pos hone, hreset]
      refine served_idle hopen hlist fun hbad => ?_
      have hrequest : VerifyRequest.ofList tlvs = .badStart := by
        rw [VerifyRequest.ofList, if_pos (hstate.symm.trans hone), ← hmethod, ← hkey]
        have hbad := hbad.resolve_left fun hne => hne hone
        rcases hnone : values.method with _ | method
        · rw [hbad.resolve_left fun hne => hne hnone]
        · rfl
      rw [hrequest]
      exact .rejected hopen (by simp) (by simp) (by simp)
    · have hstart := ofList_ne_start fun hs => hone (hstate.trans hs)
      rw [if_neg hone]
      rcases phase with _ | o | ⟨slot, o⟩
      · exact served_idle hopen (fun _ hs => absurd hs hone) fun _ => .rejected hopen (ofList_ne_unreadable tlvs) hstart (by simp)
      · exact served_offered h (fun hs => hone (hstate.trans hs)) hstate hdata hscratch
      · exact absurd hopen id

/-- Everything that one request does. -/
theorem handlePairVerify_served (h : HoldsPairings s t) (phase : VerifyPhase) (scratch : Mem) (numBytes : Nat) :
    VerifyServed crypto server w t env numBytes phase (.ofText (slice scratch server.scratchBuffer numBytes))
      (handlePairVerify crypto server w env s (phase.session crypto) scratch numBytes) := by
  cases hget : hapTLVReaderGetAll scratch ⟨server.scratchBuffer, numBytes, server.maxScratchBufferBytes⟩ pairVerifyTLVTypes with
  | error err =>
    obtain ⟨rfl, hno⟩ := getAll_fails hget
    have hreset : hapPairingPairVerifyReset (phase.session crypto) = phase.reset.session crypto := by cases phase <;> rfl
    rw [VerifyRequest.ofText, dif_neg hno, handlePairVerify, hapPairingPairVerifyHandleWrite, hget, ← hreset.symm]
    exact Or.inr ⟨_, _, .unreadable, by rw [← hreset]; rfl⟩
  | ok r =>
    obtain ⟨items, m', reader'⟩ := r
    obtain ⟨tlvs, hwell, hvalues, hscratch⟩ := getAll_values hget
    have hserved := @served_process crypto server w env s t numBytes h phase m'
      ⟨reader'.bytes + reader'.numBytes, reader'.maxBytes - reader'.numBytes⟩ items tlvs hvalues hscratch
    have heq : handlePairVerify crypto server w env s (phase.session crypto) scratch numBytes =
        (processPairVerify crypto w s
          (if (PairVerifyTLVs.ofItems m' items).state = some [1] then hapPairingPairVerifyReset (phase.session crypto)
            else phase.session crypto) m' ⟨reader'.bytes + reader'.numBytes, reader'.maxBytes - reader'.numBytes⟩
          (.ofItems m' items)).bind (finishPairVerify crypto server env) := by
      rw [handlePairVerify, hapPairingPairVerifyHandleWrite, hget]
      dsimp only
      rcases processPairVerify crypto w s (if (PairVerifyTLVs.ofItems m' items).state = some [1] then
          hapPairingPairVerifyReset (phase.session crypto) else phase.session crypto) m'
          ⟨reader'.bytes + reader'.numBytes, reader'.maxBytes - reader'.numBytes⟩ (.ofItems m' items) with e | ⟨err, session⟩
      · rfl
      · simp only [bind, Except.bind, finishPairVerify]
        cases err <;> rfl
    rw [ofText_verify hwell, heq]
    exact hserved

end PairVerifyAux

end CGuard
