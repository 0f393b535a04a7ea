import CGuard.Lemmas.PairVerify
import CGuard.Theorems.ChaChaPoly
import CGuard.Theorems.PairingRegistry

/-!
# Who is behind a verified session

In every run of Pair Verify over any sessions, a session that is verified has been started by a request with an ephemeral key, and the
request that followed in that session has carried a signature of both ephemeral keys by a controller of the store (`Accepts`). If the
accessory does not use an ephemeral key twice, no signed text is accepted twice. And a controller that is paired and follows the protocol is
verified, with the keys that it has computed itself.
-/

namespace CGuard

open Machine PairVerifyAux

/-! ## Runs -/

/-- A request for Pair Verify: what the disk answers, what the response needs, the store, and the scratch buffer with the content. -/
structure VerifyCall where
  disk : Disk
  env : PairVerifyEnv
  store : Store
  scratch : Mem
  numBytes : Nat

/-- What a call asks for. -/
noncomputable def VerifyCall.request (server : PairVerifyServer) (call : VerifyCall) : VerifyRequest :=
  .ofText (ByteMemory.slice call.scratch server.scratchBuffer call.numBytes)

/-- A session is created in a place, or a request comes over the session of a place. -/
inductive VerifyAction where
  | create (i : Nat)
  | request (i : Nat) (call : VerifyCall)

/-- The place of an action. -/
def VerifyAction.place : VerifyAction → Nat
  | .create i => i
  | .request i _ => i

/-- The store of a request holds pairings. -/
def VerifyAction.OverPairings : VerifyAction → Prop
  | .create _ => True
  | .request _ call => ∃ t, HoldsPairings call.store t

/-- One action. The output is the response of a request. -/
def verifyStep (crypto : PairVerifyCrypto) (server : PairVerifyServer) :
    Step (Nat → VerifySession) VerifyAction (Option PairingsResponse) HomeKitError
  | s, .create i => .ok (Function.update s i hapSessionCreate, none)
  | s, .request i call =>
    match handlePairVerify crypto server call.disk call.env call.store (s i) call.scratch call.numBytes with
    | .error e => .error e
    | .ok (response, session) => .ok (Function.update s i session, some response)

/-! ## What has happened -/

/-- A request over the session of a place has started the procedure, and since then nothing has happened in that place. -/
def Began (crypto : PairVerifyCrypto) (server : PairVerifyServer) (i : Nat) (before : List VerifyAction) (o : Offer) : Prop :=
  ∃ pre call controllerCvPK mid, before = pre ++ .request i call :: mid ∧ (∀ a ∈ mid, a.place ≠ i) ∧
    call.request server = .start controllerCvPK ∧ o.controllerCvPK = controllerCvPK.1 ∧ o.cvSK = call.env.random ∧ o.Shared crypto

/-- A request proves that it comes from the controller `id`, whose pairing is in `slot`: the procedure has begun in its session, and its
encrypted data has a signature of both ephemeral keys and the identifier that is verified with the public key of the pairing. -/
structure Accepts (crypto : PairVerifyCrypto) (server : PairVerifyServer) (before : List VerifyAction) (i : Nat) (call : VerifyCall)
    (o : Offer) (slot : UInt8) (id : PairingIdentifier) : Prop where
  began : Began crypto server i before o
  proof : ∃ t encryptedData text signature c, HoldsPairings call.store t ∧ call.request server = .finish encryptedData ∧
    o.openM3 crypto encryptedData = some text ∧ proofOf text = some (id, signature) ∧ t slot = some (id, c) ∧
    crypto.ed25519Verify signature (o.deviceInfo crypto id) c.1.1 = true

/-- How the session of a place has come into its phase. After it has been verified, only requests without TLVs can have come. -/
def VerifyHistory (crypto : PairVerifyCrypto) (server : PairVerifyServer) (i : Nat) (as : List VerifyAction) : VerifyPhase → Prop
  | .idle => True
  | .offered o => Began crypto server i as o
  | .verified slot o =>
    ∃ before call after id, as = before ++ .request i call :: after ∧ Accepts crypto server before i call o slot id ∧
      ∀ a ∈ after, a.place = i → ∃ call', a = .request i call' ∧ call'.request server = .unreadable

/-- No two requests that start the procedure are answered with the same ephemeral key. -/
def FreshKeys (crypto : PairVerifyCrypto) (server : PairVerifyServer) (as : List VerifyAction) : Prop :=
  ∀ (k k' i i' : Nat) (call call' : VerifyCall) (controllerCvPK controllerCvPK' : PairingPublicKey),
    as[k]? = some (.request i call) → as[k']? = some (.request i' call') → call.request server = .start controllerCvPK →
      call'.request server = .start controllerCvPK' →
        crypto.x25519ScalarmultBase call.env.random = crypto.x25519ScalarmultBase call'.env.random → k = k'

namespace PairVerifyRunAux

variable {crypto : PairVerifyCrypto} {server : PairVerifyServer}

/-- The sessions by their phases. -/
def sessions (crypto : PairVerifyCrypto) (phases : Nat → VerifyPhase) : Nat → VerifySession := fun i => (phases i).session crypto

/-- A session goes into another phase. -/
theorem update_sessions (phases : Nat → VerifyPhase) (i : Nat) (phase : VerifyPhase) :
    Function.update (sessions crypto phases) i (phase.session crypto) = sessions crypto (Function.update phases i phase) := by
  funext j
  by_cases hj : j = i
  · subst hj
    rw [Function.update_self, sessions, Function.update_self]
  · rw [Function.update_of_ne hj, sessions, sessions, Function.update_of_ne hj]

/-- A request that is answered changes the phase of its session. -/
theorem verifyStep_request {phases : Nat → VerifyPhase} {i : Nat} {call : VerifyCall} {t : PairingTable} (h : HoldsPairings call.store t)
    {s' : Nat → VerifySession} {o : Option PairingsResponse}
    (hstep : verifyStep crypto server (sessions crypto phases) (.request i call) = .ok (s', o)) :
    ∃ response phase, VerifyEffect crypto server t call.env call.numBytes (phases i) (call.request server) response phase ∧
      s' = sessions crypto (Function.update phases i phase) ∧ o = some response := by
  rw [verifyStep] at hstep
  rcases @handlePairVerify_served crypto server call.disk call.env call.store t h (phases i) call.scratch call.numBytes with
    ⟨e, -, hrun⟩ | ⟨response, phase, heffect, hrun⟩
  · rw [sessions, hrun] at hstep
    cases hstep
  · have hsession : handlePairVerify crypto server call.disk call.env call.store (sessions crypto phases i) call.scratch call.numBytes =
        .ok (response, phase.session crypto) := hrun
    rw [hsession] at hstep
    cases hstep
    exact ⟨response, phase, heffect, update_sessions phases i phase, rfl⟩

/-- What happens in other places. -/
theorem history_other {i : Nat} {as : List VerifyAction} {phase : VerifyPhase} {a : VerifyAction} (ha : a.place ≠ i)
    (h : VerifyHistory crypto server i as phase) : VerifyHistory crypto server i (as ++ [a]) phase := by
  cases phase with
  | idle => trivial
  | offered o =>
    obtain ⟨pre, call, controllerCvPK, mid, rfl, hmid, hstart⟩ := h
    refine ⟨pre, call, controllerCvPK, mid ++ [a], by simp, fun b hb => ?_, hstart⟩
    rcases List.mem_append.mp hb with hb | hb
    · exact hmid b hb
    · rwa [List.mem_singleton.mp hb]
  | verified slot o =>
    obtain ⟨before, call, after, id, rfl, haccepts, hafter⟩ := h
    refine ⟨before, call, after ++ [a], id, by simp, haccepts, fun b hb hplace => ?_⟩
    rcases List.mem_append.mp hb with hb | hb
    · exact hafter b hb hplace
    · rw [List.mem_singleton.mp hb] at hplace
      exact absurd hplace ha

/-- What a request does to its own session. -/
theorem history_request {i : Nat} {as : List VerifyAction} {phase phase' : VerifyPhase} {call : VerifyCall} {t : PairingTable}
    {response : PairingsResponse} (hholds : HoldsPairings call.store t) (h : VerifyHistory crypto server i as phase)
    (heffect : VerifyEffect crypto server t call.env call.numBytes phase (call.request server) response phase') :
    VerifyHistory crypto server i (as ++ [.request i call]) phase' := by
  generalize hrequest : call.request server = request at heffect
  cases heffect with
  | unreadable =>
    cases phase with
    | idle => trivial
    | offered o => trivial
    | verified slot o =>
      obtain ⟨before, m3, after, id, rfl, haccepts, hafter⟩ := h
      refine ⟨before, m3, after ++ [.request i call], id, by simp, haccepts, fun b hb hplace => ?_⟩
      rcases List.mem_append.mp hb with hb | hb
      · exact hafter b hb hplace
      · exact ⟨call, List.mem_singleton.mp hb, hrequest⟩
  | offer _ _ hkey hrandom hshared =>
    exact ⟨as, call, _, [], rfl, fun b hb => absurd hb List.not_mem_nil, hrequest, hkey, hrandom, hshared⟩
  | rejected => trivial
  | noProof => trivial
  | notOpened => trivial
  | unknown => trivial
  | forged => trivial
  | verified hopen hproof hslot hverify =>
    exact ⟨as, call, [], _, rfl, ⟨h, _, _, _, _, _, hholds, hrequest, hopen, hproof, hslot, hverify⟩,
      fun b hb => absurd hb List.not_mem_nil⟩
  | requestTooLong => trivial
  | responseTooLong => trivial

/-- What is known of all sessions after some actions. -/
def Known (crypto : PairVerifyCrypto) (server : PairVerifyServer) (as : List VerifyAction) (s : Nat → VerifySession) : Prop :=
  ∃ phases, s = sessions crypto phases ∧ ∀ i, VerifyHistory crypto server i as (phases i)

/-- One more action. -/
theorem known_step {before : List VerifyAction} {s s' : Nat → VerifySession} {a : VerifyAction} {o : Option PairingsResponse}
    (h : Known crypto server before s) (ha : a.OverPairings) (hstep : verifyStep crypto server s a = .ok (s', o)) :
    Known crypto server (before ++ [a]) s' := by
  obtain ⟨phases, rfl, hphases⟩ := h
  have hother : ∀ {phase : VerifyPhase} {j : Nat}, j ≠ a.place → VerifyHistory crypto server j (before ++ [a])
      (Function.update phases a.place phase j) := by
    intro phase j hj
    rw [Function.update_of_ne hj]
    exact history_other (Ne.symm hj) (hphases j)
  cases a with
  | create i =>
    cases hstep
    refine ⟨Function.update phases i .idle, update_sessions phases i .idle, fun j => ?_⟩
    by_cases hj : j = i
    · rw [hj, Function.update_self]
      trivial
    · exact hother hj
  | request i call =>
    obtain ⟨t, hholds⟩ := ha
    obtain ⟨response, phase, heffect, rfl, -⟩ := verifyStep_request hholds hstep
    refine ⟨_, rfl, fun j => ?_⟩
    by_cases hj : j = i
    · rw [hj, Function.update_self]
      exact history_request hholds (hphases i) heffect
    · exact hother hj

/-- What is known of all sessions after a run. -/
theorem known_run {as : List VerifyAction} {s : Nat → VerifySession} {os : List (Option PairingsResponse)}
    (hstores : ∀ a ∈ as, a.OverPairings) (hrun : run (verifyStep crypto server) (fun _ => hapSessionCreate) as = .ok (s, os)) :
    Known crypto server as s :=
  run_history (fun _ _ _ _ _ h ha hstep => known_step h ha hstep) ⟨fun _ => .idle, rfl, fun _ => trivial⟩ hstores hrun

/-- Only a request that proves who has sent it is answered with M4. -/
theorem accepts_of_response {before : List VerifyAction} {i : Nat} {call : VerifyCall} {t : PairingTable} {phase phase' : VerifyPhase}
    (hholds : HoldsPairings call.store t) (h : VerifyHistory crypto server i before phase)
    (heffect : VerifyEffect crypto server t call.env call.numBytes phase (call.request server) verifiedResponse phase') :
    ∃ o slot id, Accepts crypto server before i call o slot id := by
  generalize hrequest : call.request server = request at heffect
  generalize hresponse : verifiedResponse = response at heffect
  cases heffect with
  | verified hopen hproof hslot hverify => exact ⟨_, _, _, h, _, _, _, _, _, hholds, hrequest, hopen, hproof, hslot, hverify⟩
  | offer => simp [verifiedResponse, Offer.response] at hresponse
  | notOpened => simp [verifiedResponse, notAuthenticatedResponse] at hresponse
  | unknown => simp [verifiedResponse, notAuthenticatedResponse] at hresponse
  | forged => simp [verifiedResponse, notAuthenticatedResponse] at hresponse
  | _ => simp [verifiedResponse] at hresponse

/-- The request that has started a procedure, by its position. -/
theorem began_at {as : List VerifyAction} {n i : Nat} {o : Offer} (h : Began crypto server i (as.take n) o) :
    ∃ k call controllerCvPK, k < n ∧ as[k]? = some (.request i call) ∧ (∀ j a, k < j → j < n → as[j]? = some a → a.place ≠ i) ∧
      call.request server = .start controllerCvPK ∧ o.cvSK = call.env.random := by
  obtain ⟨pre, call, controllerCvPK, mid, hsplit, hmid, hstart, -, hrandom, -⟩ := h
  have hlen : pre.length < n := by
    have hlen := congrArg List.length hsplit
    rw [List.length_take, List.length_append, List.length_cons] at hlen
    omega
  have hat : ∀ j, j < n → as[j]? = (pre ++ .request i call :: mid)[j]? := by
    intro j hj
    rw [← hsplit, List.getElem?_take_of_lt hj]
  refine ⟨pre.length, call, controllerCvPK, hlen, ?_, fun j a hj hjn ha => ?_, hstart, hrandom⟩
  · rw [hat _ hlen, List.getElem?_append_right (Nat.le_refl _), Nat.sub_self, List.getElem?_cons_zero]
  · rw [hat j hjn, List.getElem?_append_right (Nat.le_of_lt hj)] at ha
    obtain ⟨d, hd⟩ : ∃ d, j - pre.length = d + 1 := ⟨j - pre.length - 1, by omega⟩
    rw [hd, List.getElem?_cons_succ] at ha
    exact hmid a (List.mem_of_getElem? ha)

/-- The signed text names the ephemeral key of the accessory. -/
theorem cvPK_of_deviceInfo {o o' : Offer} {id id' : PairingIdentifier} (h : o.deviceInfo crypto id = o'.deviceInfo crypto id') :
    o.cvPK crypto = o'.cvPK crypto :=
  (List.append_inj' h (by rw [Offer.cvPK, Offer.cvPK, crypto.length_scalarmultBase, crypto.length_scalarmultBase])).2

/-- With fresh keys, two requests in a run follow on the same start only if they are the same. -/
theorem began_unique {as : List VerifyAction} (hfresh : FreshKeys crypto server as) {n n' i i' : Nat} {call call' : VerifyCall} {o o' : Offer}
    (hn : as[n]? = some (.request i call)) (hn' : as[n']? = some (.request i' call')) (h : Began crypto server i (as.take n) o)
    (h' : Began crypto server i' (as.take n') o') (hkey : o.cvPK crypto = o'.cvPK crypto) : n' = n := by
  obtain ⟨k, m1, controllerCvPK, hkn, hk, hmid, hstart, hrandom⟩ := began_at h
  obtain ⟨k', m1', controllerCvPK', hkn', hk', hmid', hstart', hrandom'⟩ := began_at h'
  rw [Offer.cvPK, Offer.cvPK, hrandom, hrandom'] at hkey
  obtain rfl := hfresh k k' i i' m1 m1' _ _ hk hk' hstart hstart' hkey
  rw [hk] at hk'
  cases hk'
  rcases Nat.lt_trichotomy n n' with hlt | heq | hlt
  · exact absurd rfl (hmid' n _ hkn hlt hn)
  · exact heq.symm
  · exact absurd rfl (hmid n' _ hkn' hlt hn')

end PairVerifyRunAux

/-! ## A controller that follows the protocol -/

/-- A controller: the secrets of its ephemeral key and of its long-term key, and its identifier. -/
structure VerifyController where
  cvSK : List UInt8
  edLTSK : List UInt8
  id : PairingIdentifier

namespace VerifyController

variable (crypto : PairVerifyCrypto) (c : VerifyController)

/-- The ephemeral key. -/
def cvPK : PairingPublicKey := ⟨crypto.x25519ScalarmultBase c.cvSK, crypto.length_scalarmultBase c.cvSK⟩

/-- The long-term key. -/
def edLTPK : PairingPublicKey := ⟨crypto.ed25519PublicKey c.edLTSK, crypto.length_publicKey c.edLTSK⟩

/-- M1. -/
def m1 : List (UInt8 × List UInt8) := [(kHAPPairingTLVTypeState, [1]), (kHAPPairingTLVTypePublicKey, (c.cvPK crypto).1)]

/-- The key of the messages M2 and M3, with the shared secret. -/
def sessionKey (cvKEY : List UInt8) : List UInt8 :=
  crypto.hkdfSha512 32 cvKEY (stringBytes "Pair-Verify-Encrypt-Salt") (stringBytes "Pair-Verify-Encrypt-Info")

/-- The response is M2 of the accessory `deviceID` whose long-term key is `edLTPK`: the controller computes the shared secret with the
ephemeral key in it, it can decrypt the rest, and the signature of the accessory is verified. -/
def VerifiesM2 (edLTPK deviceID : List UInt8) (response : PairingsResponse) (accessoryCvPK cvKEY : List UInt8) : Prop :=
  ∃ tlvs bytes tag signature, response = .ok tlvs ∧ tlvs.lookup kHAPPairingTLVTypePublicKey = some accessoryCvPK ∧
    crypto.x25519Scalarmult c.cvSK accessoryCvPK = some cvKEY ∧
    tlvs.lookup kHAPPairingTLVTypeEncryptedData = some (bytes ++ tag) ∧ tag.length = 16 ∧
    crypto.aead.decryptAad (sessionKey crypto cvKEY) (stringBytes "PV-Msg02") [] tag bytes =
      some (encodeTLVs [(kHAPPairingTLVTypeIdentifier, deviceID), (kHAPPairingTLVTypeSignature, signature)]) ∧
    crypto.ed25519Verify signature (accessoryCvPK ++ deviceID ++ (c.cvPK crypto).1) edLTPK = true

/-- What the controller signs. -/
def signature (accessoryCvPK : List UInt8) : List UInt8 :=
  crypto.ed25519Sign ((c.cvPK crypto).1 ++ c.id.1 ++ accessoryCvPK) c.edLTSK (c.edLTPK crypto).1

/-- The part of M3 that is encrypted. -/
def proof (accessoryCvPK : List UInt8) : List (UInt8 × List UInt8) :=
  [(kHAPPairingTLVTypeIdentifier, c.id.1), (kHAPPairingTLVTypeSignature, c.signature crypto accessoryCvPK)]

/-- The encrypted data of M3. -/
def encryptedData (accessoryCvPK cvKEY : List UInt8) : List UInt8 :=
  let encrypted := crypto.aead.encryptAad (sessionKey crypto cvKEY) (stringBytes "PV-Msg03") [] (encodeTLVs (c.proof crypto accessoryCvPK))
  encrypted.1 ++ encrypted.2

/-- M3. -/
def m3 (accessoryCvPK cvKEY : List UInt8) : List (UInt8 × List UInt8) :=
  [(kHAPPairingTLVTypeState, [3]), (kHAPPairingTLVTypeEncryptedData, c.encryptedData crypto accessoryCvPK cvKEY)]

/-- The session that the controller expects, for the pairing in a slot. -/
def hap (cvKEY : List UInt8) (slot : UInt8) : HAPSessionSecurity where
  active := true
  isTransient := false
  pairingID := slot.toNat
  accessoryToController := ⟨controlKey crypto cvKEY "Control-Read-Encryption-Key", 0⟩
  controllerToAccessory := ⟨controlKey crypto cvKEY "Control-Write-Encryption-Key", 0⟩

/-- The store has the pairing of the controller, and no identifier in two slots. -/
def PairedIn (store : Store) : Prop :=
  ∃ t m admin, HoldsPairings store t ∧ SlotTable.Tabulates t m ∧ m.lookup c.id = some (c.edLTPK crypto, admin)

end VerifyController

namespace PairVerifyRunAux

variable {crypto : PairVerifyCrypto} {server : PairVerifyServer} (c : VerifyController)

/-- M1 starts the procedure. -/
theorem ofText_m1 : VerifyRequest.ofText (encodeTLVs (c.m1 crypto)) = .start (c.cvPK crypto) := by
  have hnodup : ((c.m1 crypto).map Prod.fst).Nodup := by
    show [kHAPPairingTLVTypeState, kHAPPairingTLVTypePublicKey].Nodup
    decide
  have hkey : publicKeyOf (some (c.cvPK crypto).1) = some (c.cvPK crypto) := dif_pos (c.cvPK crypto).2
  have hstate : (c.m1 crypto).lookup kHAPPairingTLVTypeState = some [1] := rfl
  have hmethod : (c.m1 crypto).lookup kHAPPairingTLVTypeMethod = none := rfl
  have hpublic : (c.m1 crypto).lookup kHAPPairingTLVTypePublicKey = some (c.cvPK crypto).1 := rfl
  rw [ofText_verify (.of_nodup rfl hnodup), VerifyRequest.ofList, if_pos hstate, hmethod, hpublic, hkey]

/-- The encrypted data has a tag of 16 bytes. -/
theorem length_encryptedData (accessoryCvPK cvKEY : List UInt8) : 16 ≤ (c.encryptedData crypto accessoryCvPK cvKEY).length := by
  rw [VerifyController.encryptedData, List.length_append, crypto.aead.length_tag]
  exact Nat.le_add_left _ _

/-- M3 finishes it. -/
theorem ofText_m3 (accessoryCvPK cvKEY : List UInt8) :
    VerifyRequest.ofText (encodeTLVs (c.m3 crypto accessoryCvPK cvKEY)) = .finish (c.encryptedData crypto accessoryCvPK cvKEY) := by
  have hnodup : ((c.m3 crypto accessoryCvPK cvKEY).map Prod.fst).Nodup := by
    show [kHAPPairingTLVTypeState, kHAPPairingTLVTypeEncryptedData].Nodup
    decide
  have hthree : (c.m3 crypto accessoryCvPK cvKEY).lookup kHAPPairingTLVTypeState = some [3] := rfl
  have hdata : (c.m3 crypto accessoryCvPK cvKEY).lookup kHAPPairingTLVTypeEncryptedData =
      some (c.encryptedData crypto accessoryCvPK cvKEY) := rfl
  have hlength := @length_encryptedData crypto c accessoryCvPK cvKEY
  rw [ofText_verify (.of_nodup rfl hnodup), VerifyRequest.ofList, hthree, if_neg (by decide), if_pos rfl, hdata]
  exact if_neg (by omega)

/-- The procedure that a controller and an accessory go through. -/
def offerTo (crypto : PairVerifyCrypto) (random cvKEY : List UInt8) : Offer := ⟨(c.cvPK crypto).1, random, cvKEY⟩

/-- Both compute the same secret. -/
theorem shared_offerTo (random : List UInt8) :
    ∃ cvKEY, (offerTo c crypto random cvKEY).Shared crypto ∧
      crypto.x25519Scalarmult c.cvSK ((offerTo c crypto random cvKEY).cvPK crypto) = some cvKEY := by
  obtain ⟨cvKEY, hshared⟩ := Option.isSome_iff_exists.mp (crypto.scalarmult_isSome random c.cvSK)
  exact ⟨cvKEY, hshared, (crypto.scalarmult_comm c.cvSK random).trans hshared⟩

/-- The controller verifies M2. -/
theorem verifiesM2 {random cvKEY : List UInt8} (deviceID : List UInt8)
    (h : crypto.x25519Scalarmult c.cvSK ((offerTo c crypto random cvKEY).cvPK crypto) = some cvKEY) :
    c.VerifiesM2 crypto (server.edLTPK crypto) deviceID ((offerTo c crypto random cvKEY).response crypto server deviceID)
      ((offerTo c crypto random cvKEY).cvPK crypto) cvKEY :=
  ⟨_, _, _, _, rfl, rfl, h, rfl, crypto.aead.length_tag _ _ _ _, crypto.aead.decrypt_encrypt _ _ _ _, crypto.verify_sign _ _⟩

/-- The accessory decrypts M3. -/
theorem openM3_encryptedData (random cvKEY : List UInt8) :
    (offerTo c crypto random cvKEY).openM3 crypto (c.encryptedData crypto ((offerTo c crypto random cvKEY).cvPK crypto) cvKEY) =
      some (encodeTLVs (c.proof crypto ((offerTo c crypto random cvKEY).cvPK crypto))) := by
  have hkey : (offerTo c crypto random cvKEY).sessionKey crypto = VerifyController.sessionKey crypto cvKEY := rfl
  rw [Offer.openM3, VerifyController.encryptedData, hkey]
  generalize encodeTLVs (c.proof crypto ((offerTo c crypto random cvKEY).cvPK crypto)) = text
  have htag := crypto.aead.length_tag (VerifyController.sessionKey crypto cvKEY) (stringBytes "PV-Msg03") [] text
  rw [List.length_append, htag, Nat.add_sub_cancel, List.drop_left, List.take_left]
  exact crypto.aead.decrypt_encrypt _ _ _ _

/-- The decrypted part of M3 is a proof. -/
theorem proofOf_proof (accessoryCvPK : List UInt8) :
    proofOf (encodeTLVs (c.proof crypto accessoryCvPK)) = some (c.id, c.signature crypto accessoryCvPK) := by
  have hnodup : ((c.proof crypto accessoryCvPK).map Prod.fst).Nodup := by
    show [kHAPPairingTLVTypeIdentifier, kHAPPairingTLVTypeSignature].Nodup
    decide
  have hid : identifierOf (some c.id.1) = some c.id := dif_pos c.id.2
  have hlookup : (c.proof crypto accessoryCvPK).lookup kHAPPairingTLVTypeIdentifier = some c.id.1 := rfl
  have hsignature : (c.proof crypto accessoryCvPK).lookup kHAPPairingTLVTypeSignature = some (c.signature crypto accessoryCvPK) := rfl
  rw [proofOf_eq (.of_nodup rfl hnodup), proofOfList, hlookup, hid, hsignature]
  exact if_pos (crypto.length_sign _ _ _)

/-- A request that is answered is a step. -/
theorem verifyStep_ok {s : Nat → VerifySession} {i : Nat} {call : VerifyCall} {session : VerifySession} {response : PairingsResponse}
    (h : handlePairVerify crypto server call.disk call.env call.store (s i) call.scratch call.numBytes = .ok (response, session)) :
    verifyStep crypto server s (.request i call) = .ok (Function.update s i session, some response) := by
  rw [verifyStep, h]

/-- M1 over a session that has not been verified. -/
theorem start_step {s : Nat → VerifySession} {i : Nat} {phase : VerifyPhase} {m1 : VerifyCall} {t : PairingTable}
    {deviceID : HAPDeviceIDString} {cvKEY : List UInt8} (hphase : s i = phase.session crypto) (hopen : phase.Open)
    (hholds : HoldsPairings m1.store t) (hdevice : m1.env.deviceIDString = some deviceID) (hroom : 1024 ≤ server.maxScratchBufferBytes)
    (hm1 : ByteMemory.slice m1.scratch server.scratchBuffer m1.numBytes = encodeTLVs (c.m1 crypto))
    (hshared : (offerTo c crypto m1.env.random cvKEY).Shared crypto) :
    verifyStep crypto server s (.request i m1) =
      .ok (Function.update s i ((VerifyPhase.offered (offerTo c crypto m1.env.random cvKEY)).session crypto),
        some ((offerTo c crypto m1.env.random cvKEY).response crypto server deviceID.1)) := by
  have hserved := @handlePairVerify_served crypto server m1.disk m1.env m1.store t hholds phase m1.scratch m1.numBytes
  rw [hm1, ofText_m1] at hserved
  refine verifyStep_ok ?_
  rw [hphase]
  rcases hserved with ⟨e, hfault, -⟩ | ⟨response, phase', heffect, hrun⟩
  · cases hfault with
    | sharedSecret _ hnone => cases hshared.symm.trans hnone
    | deviceID _ hnone =>
      rw [hdevice] at hnone
      cases hnone
    | active _ => exact False.elim hopen
  · rw [hrun]
    cases heffect with
    | @offer _ _ _ o _ hdevice' hkey hrandom hshared' =>
      rw [hdevice] at hdevice'
      cases hdevice'
      obtain ⟨controllerCvPK, cvSK, cvKEY'⟩ := o
      dsimp only at hkey hrandom
      subst hkey hrandom
      cases hshared.symm.trans hshared'
      rfl
    | rejected _ _ hstart _ => exact absurd rfl (hstart (c.cvPK crypto))
    | responseTooLong _ hsmall => omega

/-- M3 of a controller that is paired. -/
theorem finish_step {s : Nat → VerifySession} {i : Nat} {random cvKEY : List UInt8} {m3 : VerifyCall}
    (hphase : s i = (VerifyPhase.offered (offerTo c crypto random cvKEY)).session crypto) (hpaired : c.PairedIn crypto m3.store)
    (hok : ¬m3.disk.Failing) (hroom : 1024 ≤ server.maxScratchBufferBytes) (hshort : m3.numBytes + 103 ≤ server.maxScratchBufferBytes)
    (hm3 : ByteMemory.slice m3.scratch server.scratchBuffer m3.numBytes =
      encodeTLVs (c.m3 crypto ((offerTo c crypto random cvKEY).cvPK crypto) cvKEY)) :
    ∃ slot, identifierAt m3.store slot = some c.id ∧ verifyStep crypto server s (.request i m3) =
      .ok (Function.update s i ((VerifyPhase.verified slot (offerTo c crypto random cvKEY)).session crypto), some verifiedResponse) := by
  obtain ⟨t, m, admin, hholds, htable, hlookup⟩ := hpaired
  obtain ⟨slot, hslot⟩ := (htable.lookup c.id (c.edLTPK crypto, admin)).mp hlookup
  refine ⟨slot, by rw [PairingRegistryAux.identifierAt_eq hholds, hslot]; rfl, verifyStep_ok ?_⟩
  have hserved := @handlePairVerify_served crypto server m3.disk m3.env m3.store t hholds (.offered (offerTo c crypto random cvKEY)) m3.scratch
    m3.numBytes
  have hopen := @openM3_encryptedData crypto c random cvKEY
  have hproof := @proofOf_proof crypto c ((offerTo c crypto random cvKEY).cvPK crypto)
  rw [hm3, ofText_m3] at hserved
  rw [hphase]
  rcases hserved with ⟨e, hfault, -⟩ | ⟨response, phase', heffect, hrun⟩
  · cases hfault with
    | disk hfail => exact absurd hfail hok
  · rw [hrun]
    cases heffect with
    | rejected _ _ _ hfinish => exact absurd rfl (hfinish _ _ rfl)
    | noProof hopen' hnone =>
      cases hopen.symm.trans hopen'
      cases hproof.symm.trans hnone
    | notOpened hnone => cases hopen.symm.trans hnone
    | unknown hopen' hproof' habsent =>
      cases hopen.symm.trans hopen'
      cases hproof.symm.trans hproof'
      exact absurd hslot (habsent slot _)
    | forged hopen' hproof' hslot' hforged =>
      cases hopen.symm.trans hopen'
      cases hproof.symm.trans hproof'
      obtain rfl := htable.unique hslot hslot'
      cases hslot.symm.trans hslot'
      cases (crypto.verify_sign _ _).symm.trans hforged
    | verified hopen' hproof' hslot' _ =>
      cases hopen.symm.trans hopen'
      cases hproof.symm.trans hproof'
      obtain rfl := htable.unique hslot hslot'
      rfl
    | requestTooLong hlong => omega
    | responseTooLong _ hsmall => omega

/-- Actions in other places leave a session as it is. -/
theorem run_elsewhere {i : Nat} {as : List VerifyAction} : ∀ {s s' : Nat → VerifySession} {os : List (Option PairingsResponse)},
    (∀ a ∈ as, a.place ≠ i) → run (verifyStep crypto server) s as = .ok (s', os) → s' i = s i := by
  induction as with
  | nil =>
    intro s s' os _ hrun
    cases hrun
    rfl
  | cons a as ih =>
    intro s s' os hplaces hrun
    obtain ⟨s₁, o, os', hstep, hr, -⟩ := run_cons_ok hrun
    have ha : i ≠ a.place := Ne.symm (hplaces a List.mem_cons_self)
    rw [ih (fun b hb => hplaces b (List.mem_cons_of_mem a hb)) hr]
    cases a with
    | create j =>
      cases hstep
      exact Function.update_of_ne ha _ _
    | request j call =>
      rw [verifyStep] at hstep
      rcases hrun' : handlePairVerify crypto server call.disk call.env call.store (s j) call.scratch call.numBytes with e | ⟨response, session⟩ <;>
        rw [hrun'] at hstep
      · cases hstep
      · cases hstep
        exact Function.update_of_ne ha _ _

end PairVerifyRunAux

/-! ## One procedure -/

/-- The bytes of a number, the highest first. -/
def bigEndian (k n : Nat) : List UInt8 := (LittleEndian.toBytes k n).reverse

/-- The ephemeral keys of a procedure: that of the controller, and those of two answers of the accessory. -/
inductive EphemeralKey where
  | controller | first | second | other
  deriving DecidableEq

namespace EphemeralKey

/-- The key with a secret. -/
def ofSecret (n : List UInt8) : EphemeralKey :=
  if n = List.replicate 32 1 then .controller
  else if n = List.replicate 32 9 then .first
  else if n = List.replicate 32 10 then .second
  else .other

/-- The public key. -/
def point : EphemeralKey → List UInt8
  | .controller => bigEndian 32 0xa4e09292b651c278b9772c569f5fa9bb13d906b46ab68c9df9dc2b4409f8a209
  | .first => bigEndian 32 0x57db4b359f23ae5e146e4e2512056704722506348c150c14753d0c933d04d421
  | .second => bigEndian 32 0xf77ff4b10788bfdca62ca0bb160d427cf5762d85f2b5cad6807ec9c3febbde09
  | .other => List.replicate 32 0

/-- The key with a public key. -/
def ofPoint (p : List UInt8) : EphemeralKey :=
  if p = point .controller then .controller
  else if p = point .first then .first
  else if p = point .second then .second
  else .other

/-- The shared secret. -/
def shared : EphemeralKey → EphemeralKey → List UInt8
  | .controller, .first | .first, .controller => bigEndian 32 0x634375b91f57de547bb24e6475f7f89fb24cbaead41002ee0183622090ed5931
  | .controller, .second | .second, .controller => bigEndian 32 0x80b52ecea8daca07a8490e576ec829d0c1e4efa4eb9b05e4b742d571f449690d
  | _, _ => List.replicate 32 0

/-- A public key has 32 bytes. -/
theorem length_point (key : EphemeralKey) : key.point.length = 32 := by
  cases key <;> rfl

/-- The public keys are different. -/
theorem ofPoint_point (key : EphemeralKey) : ofPoint key.point = key := by
  cases key <;> decide +kernel

/-- Both sides share the same secret. -/
theorem shared_comm (key key' : EphemeralKey) : key.shared key' = key'.shared key := by
  cases key <;> cases key' <;> rfl

end EphemeralKey

/-- The keys that HKDF-SHA-512 derives in the procedure. -/
def derivedKeys : List ((List UInt8 × List UInt8 × List UInt8) × List UInt8) :=
  [((EphemeralKey.shared .first .controller, stringBytes "Pair-Verify-Encrypt-Salt", stringBytes "Pair-Verify-Encrypt-Info"),
      bigEndian 32 0xefa22c85408d51b48a2c137bc5834301fce52f4c4d9849f0bcb4622d6d16d04c),
    ((EphemeralKey.shared .second .controller, stringBytes "Pair-Verify-Encrypt-Salt", stringBytes "Pair-Verify-Encrypt-Info"),
      bigEndian 32 0x4642ba4d46005967ffb578b0ce948fbb26a576bc77e2f7fc4280f79fa7423b65),
    ((EphemeralKey.shared .first .controller, stringBytes "Control-Salt", stringBytes "Control-Read-Encryption-Key"),
      bigEndian 32 0xa484409715f640110d74907776388777d3cf5c85e50f352abee24a43ade4c60f),
    ((EphemeralKey.shared .first .controller, stringBytes "Control-Salt", stringBytes "Control-Write-Encryption-Key"),
      bigEndian 32 0x85c0a6a6928edae122924976c765e6fdd80d1faae1b4dfe13749cd5de279ce37)]

/-- The long-term keys of the controller and of the accessory. -/
def longTermKey (sk : List UInt8) : List UInt8 :=
  if sk = List.replicate 32 2 then bigEndian 32 0x8139770ea87d175f56a35466c34c7ecccb8d8a91b4ee37a25df60f5b8fc9b394
  else if sk = List.replicate 32 7 then bigEndian 32 0xea4a6c63e29c520abef5507b132ec5f9954776aebebe7b92421eea691446d22c
  else List.replicate 32 0

/-- The identifier of the accessory. -/
def accessoryID : HAPDeviceIDString := ⟨stringBytes "00:11:22:33:44:55", by rfl⟩

/-- The identifier of the controller. -/
def controllerID : PairingIdentifier := ⟨stringBytes "DCF5B8C4-6A3D-4E22-9D34-0F2C4A1B7E90", by decide⟩

/-- The Ed25519 signatures of the procedure, by the text and the public key. -/
def signatures : List ((List UInt8 × List UInt8) × Nat) :=
  [((EphemeralKey.point .first ++ accessoryID.1 ++ EphemeralKey.point .controller, longTermKey (List.replicate 32 7)),
      0x7a6f40ea4eb05cafe6fe902df18065d99808de45c933a7afc63aff2b4995a8e8e7dedd84af6f8cac591199e08a34b2d7a2b925116fb349b053bc30a7d5a03709),
    ((EphemeralKey.point .second ++ accessoryID.1 ++ EphemeralKey.point .controller, longTermKey (List.replicate 32 7)),
      0x18cc0ead39c9320babaa58b64e3e267d58b1231512c18fac8e280bdacabc61b42712182ff7f318f21551634f94942af19045710de043f9162c7eeab8ee061d02),
    ((EphemeralKey.point .controller ++ controllerID.1 ++ EphemeralKey.point .first, longTermKey (List.replicate 32 2)),
      0xe1b7948f81215fd9a0592755856a11385b8df46bc9bd225cf236c1070e9d9feaee91d62f2ea891ab19c0bbf87d7d66fc6187825294c1347c6a5ebd8c6e801102)]

/-- The signature of a text. -/
def signatureOf (m pk : List UInt8) : List UInt8 := bigEndian 64 ((signatures.lookup (m, pk)).getD 0)

/-- The cryptographic library, with the values of X25519, HKDF-SHA-512 and Ed25519 that the procedure takes. -/
def knownCrypto : PairVerifyCrypto where
  aead := mbedTls
  x25519ScalarmultBase n := (EphemeralKey.ofSecret n).point
  x25519Scalarmult n p := some ((EphemeralKey.ofSecret n).shared (.ofPoint p))
  hkdfSha512 _ key salt info := (derivedKeys.lookup (key, salt, info)).getD []
  ed25519PublicKey := longTermKey
  ed25519Sign m sk _ := signatureOf m (longTermKey sk)
  ed25519Verify sig m pk := sig = signatureOf m pk
  length_scalarmultBase n := EphemeralKey.length_point _
  scalarmult_isSome n n' := rfl
  scalarmult_comm n n' := by
    rw [EphemeralKey.ofPoint_point, EphemeralKey.ofPoint_point, EphemeralKey.shared_comm]
  length_publicKey sk := by
    rw [longTermKey]
    split_ifs <;> rfl
  length_sign m sk pk := by simp [signatureOf, bigEndian]
  verify_sign m sk := decide_eq_true rfl

/-- An accessory with a buffer of the usual size. -/
def knownServer : PairVerifyServer := ⟨List.replicate 32 7, 0, 32768⟩

/-- The controller, as a party of the protocol. -/
def knownController : VerifyController := ⟨List.replicate 32 1, List.replicate 32 2, controllerID⟩

/-- The controller is the administrator of the accessory. -/
def knownStore : Store := singlePairing (controllerID, knownController.edLTPK knownCrypto, true)

/-- A request with a text, for which the accessory takes `random` as its ephemeral secret. -/
def knownCall (random text : List UInt8) : VerifyCall :=
  ⟨.reliable, ⟨random, some accessoryID⟩, knownStore, fun p => text.getD p 0, text.length⟩

/-- M1 of the controller. -/
def firstCall (random : List UInt8) : VerifyCall := knownCall random (encodeTLVs (knownController.m1 knownCrypto))

/-- M3 of the controller, for which the accessory has shown an ephemeral key. -/
def secondCall (accessoryCvPK cvKEY : List UInt8) : VerifyCall :=
  knownCall [] (encodeTLVs (knownController.m3 knownCrypto accessoryCvPK cvKEY))

/-- The controller starts over two sessions, and finishes over the first one. -/
def verifyActions : List VerifyAction :=
  [.request 0 (firstCall (List.replicate 32 9)), .request 1 (firstCall (List.replicate 32 10)),
    .request 0 (secondCall (EphemeralKey.point .first) (EphemeralKey.shared .first .controller))]

namespace PairVerifyRunAux

/-- The text of a request is in its buffer. -/
theorem slice_knownCall (random text : List UInt8) :
    ByteMemory.slice (knownCall random text).scratch knownServer.scratchBuffer (knownCall random text).numBytes = text := by
  refine List.ext_getElem (ByteMemory.length_slice _ _ _) fun n h1 h2 => ?_
  simp [ByteMemory.slice, knownCall, knownServer, h2]

/-- The store holds the pairing of the controller. -/
theorem holds_knownStore :
    HoldsPairings knownStore (Function.update (fun _ => none) 0 (some (controllerID, knownController.edLTPK knownCrypto, true))) :=
  (PairingRegistryAux.holds_singlePairing _).1

/-- The store of every request holds pairings. -/
theorem overPairings_verifyActions : ∀ a ∈ verifyActions, a.OverPairings := by
  intro a ha
  rw [verifyActions, List.mem_cons, List.mem_cons, List.mem_singleton] at ha
  rcases ha with rfl | rfl | rfl <;> exact ⟨_, holds_knownStore⟩

/-- The controller is paired. -/
theorem pairedIn_knownStore : knownController.PairedIn knownCrypto knownStore :=
  ⟨_, _, true, holds_knownStore, (PairingRegistryAux.holds_singlePairing _).2.1, Finmap.lookup_insert _⟩

/-- M3 of the controller has 125 bytes. -/
theorem length_m3 (accessoryCvPK cvKEY : List UInt8) :
    (encodeTLVs (knownController.m3 knownCrypto accessoryCvPK cvKEY)).length = 125 := by
  have hid : knownController.id.1.length = 36 := by decide
  have hproof : (encodeTLVs (knownController.proof knownCrypto accessoryCvPK)).length = 104 := by
    simp [VerifyController.proof, VerifyController.signature, encodeTLVs, encodeTLV_of_le, hid, knownCrypto.length_sign]
  have hdata := @length_encryptedTLV knownCrypto kHAPPairingTLVTypeEncryptedData (VerifyController.sessionKey knownCrypto cvKEY)
    (stringBytes "PV-Msg03") [] (encodeTLVs (knownController.proof knownCrypto accessoryCvPK)) (by omega)
  rw [encodeTLVs, List.flatMap_singleton] at hdata
  rw [VerifyController.m3, VerifyController.encryptedData, encodeTLVs, List.flatMap_cons, List.flatMap_singleton, List.length_append, hdata,
    hproof, encodeTLV_of_le (by decide)]
  rfl

/-- It leaves room in the buffer. -/
theorem numBytes_secondCall (accessoryCvPK cvKEY : List UInt8) :
    (secondCall accessoryCvPK cvKEY).numBytes + 103 ≤ knownServer.maxScratchBufferBytes := by
  have hlength : (secondCall accessoryCvPK cvKEY).numBytes = 125 := length_m3 accessoryCvPK cvKEY
  rw [hlength]
  decide

/-- M1 over a session that has just been created. -/
theorem firstCall_step {s : Nat → VerifySession} {i : Nat} {random cvKEY : List UInt8} (hs : s i = hapSessionCreate)
    (hshared : (offerTo knownController knownCrypto random cvKEY).Shared knownCrypto) :
    ∃ m2, verifyStep knownCrypto knownServer s (.request i (firstCall random)) =
      .ok (Function.update s i ((VerifyPhase.offered (offerTo knownController knownCrypto random cvKEY)).session knownCrypto), some m2) :=
  ⟨_, @start_step knownCrypto knownServer knownController s i .idle _ _ _ _ hs trivial holds_knownStore rfl (by decide)
    (slice_knownCall _ _) hshared⟩

/-- The procedure is finished over the first session. -/
theorem run_verifyActions :
    ∃ s m2 m2' slot, run (verifyStep knownCrypto knownServer) (fun _ => hapSessionCreate) verifyActions =
        .ok (s, [some m2, some m2', some verifiedResponse]) ∧
      (s 0).hap = (offerTo knownController knownCrypto (List.replicate 32 9) (EphemeralKey.shared .first .controller)).hap knownCrypto slot := by
  let o := offerTo knownController knownCrypto (List.replicate 32 9) (EphemeralKey.shared .first .controller)
  let o' := offerTo knownController knownCrypto (List.replicate 32 10) (EphemeralKey.shared .second .controller)
  have hshared : o.Shared knownCrypto := by
    unfold Offer.Shared
    decide +kernel
  have hshared' : o'.Shared knownCrypto := by
    unfold Offer.Shared
    decide +kernel
  let s₁ : Nat → VerifySession := Function.update (fun _ => hapSessionCreate) 0 ((VerifyPhase.offered o).session knownCrypto)
  let s₂ : Nat → VerifySession := Function.update s₁ 1 ((VerifyPhase.offered o').session knownCrypto)
  obtain ⟨m2, h1⟩ := @firstCall_step (fun _ => hapSessionCreate) 0 _ _ rfl hshared
  obtain ⟨m2', h2⟩ := @firstCall_step s₁ 1 _ _ rfl hshared'
  obtain ⟨slot, -, h3⟩ := @finish_step knownCrypto knownServer knownController s₂ 0 (List.replicate 32 9) _
    (secondCall (EphemeralKey.point .first) (EphemeralKey.shared .first .controller)) rfl pairedIn_knownStore
    PairingRegistryAux.reliable_answers (by decide) (numBytes_secondCall _ _) (slice_knownCall _ _)
  exact ⟨_, m2, m2', slot, run_cons h1 (run_cons h2 (run_cons h3 (run_nil _))), rfl⟩

/-- The requests that start the procedure. -/
theorem start_verifyActions {k i : Nat} {call : VerifyCall} {controllerCvPK : PairingPublicKey}
    (hk : verifyActions[k]? = some (.request i call)) (hstart : call.request knownServer = .start controllerCvPK) :
    k = 0 ∧ call.env.random = List.replicate 32 9 ∨ k = 1 ∧ call.env.random = List.replicate 32 10 := by
  rcases k with _ | _ | _ | k
  · cases hk
    exact Or.inl ⟨rfl, rfl⟩
  · cases hk
    exact Or.inr ⟨rfl, rfl⟩
  · cases hk
    rw [VerifyCall.request, secondCall, slice_knownCall, ofText_m3] at hstart
    cases hstart
  · cases hk

/-- The accessory takes two ephemeral keys. -/
theorem freshKeys_verifyActions : FreshKeys knownCrypto knownServer verifyActions := by
  intro k k' i i' call call' controllerCvPK controllerCvPK' hk hk' hstart hstart' hkey
  have hne : knownCrypto.x25519ScalarmultBase (List.replicate 32 9) ≠ knownCrypto.x25519ScalarmultBase (List.replicate 32 10) := by
    decide +kernel
  rcases start_verifyActions hk hstart with ⟨rfl, hrandom⟩ | ⟨rfl, hrandom⟩ <;>
    rcases start_verifyActions hk' hstart' with ⟨rfl, hrandom'⟩ | ⟨rfl, hrandom'⟩
  · rfl
  · rw [hrandom, hrandom'] at hkey
    exact absurd hkey hne
  · rw [hrandom, hrandom'] at hkey
    exact absurd hkey.symm hne
  · rfl

end PairVerifyRunAux

open PairVerifyRunAux

/-! ## The results -/

/-- In every run the session of a place has no keys, or it has been verified: a request has proved that it comes from a controller of the
store (`Accepts`), the keys of the session are those of the procedure that this request has finished, and after it only requests
without TLVs have come in that place. -/
theorem pairVerify_authenticated (crypto : PairVerifyCrypto) (server : PairVerifyServer) {as : List VerifyAction} {s : Nat → VerifySession}
    {os : List (Option PairingsResponse)} (hstores : ∀ a ∈ as, a.OverPairings)
    (hrun : run (verifyStep crypto server) (fun _ => hapSessionCreate) as = .ok (s, os)) (i : Nat) :
    (s i).hap = .zero ∨
      ∃ before call after o slot id, as = before ++ .request i call :: after ∧ Accepts crypto server before i call o slot id ∧
        (s i).hap = o.hap crypto slot ∧
        ∀ a ∈ after, a.place = i → ∃ call', a = .request i call' ∧ call'.request server = .unreadable := by
  obtain ⟨phases, rfl, hphases⟩ := known_run hstores hrun
  have hphase := hphases i
  rw [sessions]
  cases hp : phases i with
  | idle => exact Or.inl rfl
  | offered o => exact Or.inl rfl
  | verified slot o =>
    rw [hp] at hphase
    obtain ⟨before, call, after, id, hsplit, haccepts, hafter⟩ := hphase
    exact Or.inr ⟨before, call, after, o, slot, id, hsplit, haccepts, rfl, hafter⟩

/-- The controller over the first session, while it starts over a second one. -/
theorem pairVerify_authenticated_first :
    ∃ s os, run (verifyStep knownCrypto knownServer) (fun _ => hapSessionCreate) verifyActions = .ok (s, os) ∧ (s 0).hap.active = true ∧
      ∃ before call after o slot id, verifyActions = before ++ .request 0 call :: after ∧
        Accepts knownCrypto knownServer before 0 call o slot id ∧ (s 0).hap = o.hap knownCrypto slot := by
  obtain ⟨s, m2, m2', slot, hrun, hhap⟩ := run_verifyActions
  refine ⟨s, _, hrun, by rw [hhap]; rfl, ?_⟩
  rcases pairVerify_authenticated knownCrypto knownServer overPairings_verifyActions hrun 0 with hzero | hverified
  · rw [hhap] at hzero
    cases congrArg HAPSessionSecurity.active hzero
  · obtain ⟨before, call, after, o, slot', id, hsplit, haccepts, hkeys, -⟩ := hverified
    exact ⟨before, call, after, o, slot', id, hsplit, haccepts, hkeys⟩

/-- Where the accessory uses no ephemeral key twice, each request that is answered with M4 has been accepted for a signed text with which
no other request of the run is accepted. -/
theorem pairVerify_once (crypto : PairVerifyCrypto) (server : PairVerifyServer) {as : List VerifyAction} {s : Nat → VerifySession}
    {os : List (Option PairingsResponse)} (hstores : ∀ a ∈ as, a.OverPairings) (hfresh : FreshKeys crypto server as)
    (hrun : run (verifyStep crypto server) (fun _ => hapSessionCreate) as = .ok (s, os)) {n i : Nat} {call : VerifyCall}
    (hn : as[n]? = some (.request i call)) (hm4 : os[n]? = some (some verifiedResponse)) :
    ∃ o slot id, Accepts crypto server (as.take n) i call o slot id ∧
      ∀ (n' i' : Nat) (call' : VerifyCall) (o' : Offer) (slot' : UInt8) (id' : PairingIdentifier),
        as[n']? = some (.request i' call') → Accepts crypto server (as.take n') i' call' o' slot' id' →
          o'.deviceInfo crypto id' = o.deviceInfo crypto id → n' = n := by
  obtain ⟨s₁, os₁, s₂, hbefore, hstep⟩ := run_at hrun hn hm4
  obtain ⟨phases, rfl, hphases⟩ := known_run (fun a ha => hstores a (List.mem_of_mem_take ha)) hbefore
  obtain ⟨t, hholds⟩ := hstores _ (List.mem_of_getElem? hn)
  obtain ⟨response, phase, heffect, -, ho⟩ := verifyStep_request hholds hstep
  cases ho
  obtain ⟨o, slot, id, haccepts⟩ := accepts_of_response hholds (hphases i) heffect
  refine ⟨o, slot, id, haccepts, fun n' i' call' o' slot' id' hn' haccepts' hsigned => ?_⟩
  exact began_unique hfresh hn hn' haccepts.began haccepts'.began (cvPK_of_deviceInfo hsigned).symm

/-- The request that finishes the procedure over the first session, while another one has begun over the second session. -/
theorem pairVerify_once_first :
    ∃ s os o slot id, run (verifyStep knownCrypto knownServer) (fun _ => hapSessionCreate) verifyActions = .ok (s, os) ∧
      os[2]? = some (some verifiedResponse) ∧
      Accepts knownCrypto knownServer (verifyActions.take 2) 0
        (secondCall (EphemeralKey.point .first) (EphemeralKey.shared .first .controller)) o slot id ∧
      ∀ (n' i' : Nat) (call' : VerifyCall) (o' : Offer) (slot' : UInt8) (id' : PairingIdentifier),
        verifyActions[n']? = some (.request i' call') → Accepts knownCrypto knownServer (verifyActions.take n') i' call' o' slot' id' →
          o'.deviceInfo knownCrypto id' = o.deviceInfo knownCrypto id → n' = 2 := by
  obtain ⟨s, m2, m2', -, hrun, -⟩ := run_verifyActions
  obtain ⟨o, slot, id, hfirst, honce⟩ := @pairVerify_once knownCrypto knownServer verifyActions _ _ overPairings_verifyActions
    freshKeys_verifyActions hrun 2 0 _ rfl rfl
  exact ⟨s, _, o, slot, id, hrun, rfl, hfirst, honce⟩

/-- After any run, over a session that has not been verified: if the accessory knows its identifier and has a buffer of at least 1024 bytes,
M1 of a controller is answered with M2, which the controller verifies. Whatever happens in other places after that, M3 of the controller
is then answered with M4, if its pairing is in the store, the disk answers and the request leaves 103 bytes of the buffer, and the session
is verified for the pairing of the controller, with the keys that the controller has computed. -/
theorem pairVerify_completes (crypto : PairVerifyCrypto) (server : PairVerifyServer) (c : VerifyController) {before : List VerifyAction}
    {s : Nat → VerifySession} {os : List (Option PairingsResponse)} (hstores : ∀ a ∈ before, a.OverPairings)
    (hrun : run (verifyStep crypto server) (fun _ => hapSessionCreate) before = .ok (s, os)) {i : Nat} (hopen : (s i).hap = .zero)
    (hroom : 1024 ≤ server.maxScratchBufferBytes) {m1 : VerifyCall} {deviceID : HAPDeviceIDString} {t : PairingTable}
    (hholds : HoldsPairings m1.store t) (hdevice : m1.env.deviceIDString = some deviceID)
    (hm1 : ByteMemory.slice m1.scratch server.scratchBuffer m1.numBytes = encodeTLVs (c.m1 crypto)) :
    ∃ s₁ m2 accessoryCvPK cvKEY, verifyStep crypto server s (.request i m1) = .ok (s₁, some m2) ∧
      c.VerifiesM2 crypto (server.edLTPK crypto) deviceID.1 m2 accessoryCvPK cvKEY ∧
      ∀ (mid : List VerifyAction) (s₂ : Nat → VerifySession) (os₂ : List (Option PairingsResponse)) (m3 : VerifyCall),
        (∀ a ∈ mid, a.place ≠ i) → run (verifyStep crypto server) s₁ mid = .ok (s₂, os₂) → c.PairedIn crypto m3.store →
        ¬m3.disk.Failing → m3.numBytes + 103 ≤ server.maxScratchBufferBytes →
        ByteMemory.slice m3.scratch server.scratchBuffer m3.numBytes = encodeTLVs (c.m3 crypto accessoryCvPK cvKEY) →
        ∃ s₃ slot, verifyStep crypto server s₂ (.request i m3) = .ok (s₃, some verifiedResponse) ∧
          identifierAt m3.store slot = some c.id ∧ (s₃ i).hap = VerifyController.hap crypto cvKEY slot := by
  obtain ⟨phases, rfl, -⟩ := known_run hstores hrun
  have hphase : (phases i).Open := by
    rw [sessions] at hopen
    cases hp : phases i with
    | idle => trivial
    | offered o => trivial
    | verified slot o =>
      rw [hp] at hopen
      cases congrArg HAPSessionSecurity.active hopen
  obtain ⟨cvKEY, hshared, hcvKEY⟩ := @shared_offerTo crypto c m1.env.random
  have hstep := @start_step crypto server c (sessions crypto phases) i (phases i) m1 t deviceID cvKEY rfl hphase hholds hdevice hroom hm1
    hshared
  refine ⟨_, _, _, cvKEY, hstep, verifiesM2 c deviceID.1 hcvKEY, ?_⟩
  intro mid s₂ os₂ m3 hmid hrun₂ hpaired hok hshort hm3
  have hoffered : s₂ i = (VerifyPhase.offered (offerTo c crypto m1.env.random cvKEY)).session crypto := by
    rw [run_elsewhere hmid hrun₂]
    exact Function.update_self ..
  obtain ⟨slot, hslot, hm4⟩ := finish_step c hoffered hpaired hok hroom hshort hm3
  refine ⟨_, slot, hm4, hslot, ?_⟩
  rw [Function.update_self]
  rfl

/-- The controller over a session that has just been created, while another session is created. -/
theorem pairVerify_completes_first :
    ∃ s₁ s₂ s₃ m2 accessoryCvPK cvKEY slot,
      verifyStep knownCrypto knownServer (fun _ => hapSessionCreate) (.request 0 (firstCall (List.replicate 32 9))) = .ok (s₁, some m2) ∧
      knownController.VerifiesM2 knownCrypto (knownServer.edLTPK knownCrypto) accessoryID.1 m2 accessoryCvPK cvKEY ∧
      verifyStep knownCrypto knownServer s₁ (.create 1) = .ok (s₂, none) ∧
      verifyStep knownCrypto knownServer s₂ (.request 0 (secondCall accessoryCvPK cvKEY)) = .ok (s₃, some verifiedResponse) ∧
      (s₃ 0).hap = VerifyController.hap knownCrypto cvKEY slot := by
  obtain ⟨s₁, m2, accessoryCvPK, cvKEY, hm1, hverifies, hrest⟩ := @pairVerify_completes knownCrypto knownServer knownController []
    (fun _ => hapSessionCreate) [] (fun _ ha => absurd ha List.not_mem_nil) rfl 0 rfl (by decide) (firstCall (List.replicate 32 9)) _ _
    holds_knownStore rfl (slice_knownCall _ _)
  have hother : ∀ a ∈ [VerifyAction.create 1], a.place ≠ 0 := by
    intro a ha
    rw [List.mem_singleton.mp ha]
    exact Nat.one_ne_zero
  obtain ⟨s₃, slot, hm4, -, hkeys⟩ := hrest [.create 1] _ _ (secondCall accessoryCvPK cvKEY) hother rfl pairedIn_knownStore
    PairingRegistryAux.reliable_answers (numBytes_secondCall _ _) (slice_knownCall _ _)
  exact ⟨s₁, _, s₃, m2, accessoryCvPK, cvKEY, slot, hm1, hverifies, rfl, hm4, hkeys⟩

end CGuard
