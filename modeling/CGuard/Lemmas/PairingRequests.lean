import CGuard.Lemmas.Pairings
import CGuard.Theorems.TlvReader

/-!
# What a request for the pairings can do

`handlePairings_cases` says everything that one request does, whatever the disk answers: the answer and the table after it
(`RequestEffect`), or why the process ends.
-/

namespace CGuard

open SlotTable

/-! ## Requests and answers -/

/-- A request for the pairings: its text has no valid method, or lacks a value that its method needs, or it is complete. -/
inductive PairingsRequest where
  | unreadable
  | incomplete
  | add (id : PairingIdentifier) (key : PairingPublicKey) (admin : Bool)
  | remove (id : PairingIdentifier)
  | list
  deriving DecidableEq

/-- A value that is an identifier. -/
def identifierOf : Option (List UInt8) → Option PairingIdentifier
  | some bytes => if h : bytes.length ≤ 36 then some ⟨bytes, h⟩ else none
  | none => none

/-- A value that is a public key. -/
def publicKeyOf : Option (List UInt8) → Option PairingPublicKey
  | some bytes => if h : bytes.length = 32 then some ⟨bytes, h⟩ else none
  | none => none

/-- A value that is one byte of permissions. -/
def adminOf : Option (List UInt8) → Option Bool
  | some [b] => if b = 0 then some false else if b = 1 then some true else none
  | _ => none

/-- The request that values are. -/
def PairingsRequest.ofTLVs (tlvs : PairingTLVs) : PairingsRequest :=
  if tlvs.method = some [kHAPPairingMethodAddPairing] then
    if tlvs.state = some [1] then
      match identifierOf tlvs.identifier, publicKeyOf tlvs.publicKey, adminOf tlvs.permissions with
      | some id, some key, some admin => .add id key admin
      | _, _, _ => .incomplete
    else .incomplete
  else if tlvs.method = some [kHAPPairingMethodRemovePairing] then
    if tlvs.state = some [1] then
      match identifierOf tlvs.identifier with
      | some id => .remove id
      | none => .incomplete
    else .incomplete
  else if tlvs.method = some [kHAPPairingMethodListPairings] then
    if tlvs.state = some [1] then .list else .incomplete
  else .unreadable

/-- The values of a list of TLVs. -/
def PairingTLVs.ofList (tlvs : List (UInt8 × List UInt8)) : PairingTLVs where
  method := tlvs.lookup kHAPPairingTLVTypeMethod
  identifier := tlvs.lookup kHAPPairingTLVTypeIdentifier
  publicKey := tlvs.lookup kHAPPairingTLVTypePublicKey
  state := tlvs.lookup kHAPPairingTLVTypeState
  permissions := tlvs.lookup kHAPPairingTLVTypePermissions

open Classical in
/-- The request that a text is. -/
noncomputable def PairingsRequest.ofText (text : List UInt8) : PairingsRequest :=
  if h : ∃ tlvs, WellFormedRequest pairingTLVTypes.1 text tlvs then .ofTLVs (.ofList h.choose) else .unreadable

/-- The text of a request. -/
def PairingsContent.text (content : PairingsContent) : List UInt8 :=
  ByteMemory.slice content.scratch content.scratchBuffer content.numBytes

/-- What a controller is answered. -/
inductive PairingsAnswer where
  | done
  | failed (error : UInt8)
  | listing (entries : List (PairingIdentifier × Controller))
  | badRequest
  deriving DecidableEq

/-- The TLVs of a listing; each pairing but the first follows a separator. -/
def listingTLVs : Bool → List (PairingIdentifier × Controller) → List (UInt8 × List UInt8)
  | _, [] => []
  | needsSeparator, e :: es =>
    (if needsSeparator then [(kHAPPairingTLVTypeSeparator, [])] else []) ++ (HAPPairing.ofEntry e).tlvs ++ listingTLVs true es

/-- The response that an answer is. -/
def PairingsAnswer.response : PairingsAnswer → PairingsResponse
  | .done => .ok [(kHAPPairingTLVTypeState, [2])]
  | .failed error => .ok [(kHAPPairingTLVTypeState, [2]), (kHAPPairingTLVTypeError, [error])]
  | .listing entries => .ok ((kHAPPairingTLVTypeState, [2]) :: listingTLVs false entries)
  | .badRequest => .badRequest

/-- A response must fit into the buffer. -/
def PairingsResponse.fit (maxBytes : Nat) : PairingsResponse → PairingsResponse
  | .ok tlvs => if (encodeTLVs tlvs).length ≤ maxBytes then .ok tlvs else .internalServerError
  | response => response

/-! ## Effects -/

/-- No slot has an identifier. -/
def Absent (t : PairingTable) (id : PairingIdentifier) : Prop := ∀ key c, t key ≠ some (id, c)

/-- What adding a pairing does: the error that the session answers with, 0 if there is none, and the table. A pairing can have been stored
although the write of its record has failed. -/
inductive AddEffect (w : Disk) (maxPairings : UInt8) (t : PairingTable) (id : PairingIdentifier) (publicKey : PairingPublicKey)
    (admin : Bool) : UInt8 → PairingTable → Prop
  | otherKey {key : UInt8} {c : Controller} : t key = some (id, c) → c.1 ≠ publicKey →
      AddEffect w maxPairings t id publicKey admin kHAPPairingErrorUnknown t
  | updated {key : UInt8} {was : Bool} {t' : PairingTable} : t key = some (id, publicKey, was) →
      Cleaned (Function.update t key (some (id, publicKey, admin))) t' → AddEffect w maxPairings t id publicKey admin 0 t'
  | notCleaned {key : UInt8} {was : Bool} {t' : PairingTable} : t key = some (id, publicKey, was) → w.Failing →
      SubTable t' (Function.update t key (some (id, publicKey, admin))) →
      Cleaned (Function.update t key (some (id, publicKey, admin))) t' ∨ w.CleanupFailing →
      AddEffect w maxPairings t id publicKey admin kHAPPairingErrorUnknown t'
  | full : Absent t id → (∀ key ∈ pairingSlots maxPairings, (t key).isSome) →
      AddEffect w maxPairings t id publicKey admin kHAPPairingErrorMaxPeers t
  | added {key : UInt8} : Absent t id → key ∈ pairingSlots maxPairings → t key = none →
      AddEffect w maxPairings t id publicKey admin 0 (Function.update t key (some (id, publicKey, admin)))
  | notStored : w.Failing → AddEffect w maxPairings t id publicKey admin kHAPPairingErrorUnknown t
  | storedUnsaid {key : UInt8} : w.Failing → Absent t id → key ∈ pairingSlots maxPairings → t key = none →
      AddEffect w maxPairings t id publicKey admin kHAPPairingErrorUnknown (Function.update t key (some (id, publicKey, admin)))

/-- What removing a pairing does. -/
inductive RemoveEffect (w : Disk) (t : PairingTable) (id : PairingIdentifier) : UInt8 → PairingTable → Prop
  | absent : Absent t id → RemoveEffect w t id 0 t
  | removed {key : UInt8} {c : Controller} {t' : PairingTable} : t key = some (id, c) → Cleaned (Function.update t key none) t' →
      RemoveEffect w t id 0 t'
  | notCleaned {key : UInt8} {c : Controller} {t' : PairingTable} : t key = some (id, c) → w.Failing →
      SubTable t' (Function.update t key none) → Cleaned (Function.update t key none) t' ∨ w.CleanupFailing →
      RemoveEffect w t id kHAPPairingErrorUnknown t'
  | notRemoved : w.Failing → RemoveEffect w t id kHAPPairingErrorUnknown t

/-- The answer to a session whose error is `error`. -/
def answerOf (error : UInt8) : PairingsAnswer := if error = 0 then .done else .failed error

/-- What a request over a session for the pairing of `slot` does: the answer, and the table. -/
inductive RequestEffect (w : Disk) (maxPairings : UInt8) (t : PairingTable) (slot : UInt8) :
    PairingsRequest → PairingsAnswer → PairingTable → Prop
  | unreadable : RequestEffect w maxPairings t slot .unreadable .badRequest t
  | notAdmin {request : PairingsRequest} {e : PairingIdentifier × Controller} : request ≠ .unreadable → t slot = some e → e.2.2 = false →
      RequestEffect w maxPairings t slot request (.failed kHAPPairingErrorAuthentication) t
  | incomplete : isAdminSlot t slot → RequestEffect w maxPairings t slot .incomplete .badRequest t
  | addFailed {id : PairingIdentifier} {key : PairingPublicKey} {admin : Bool} {error : UInt8} {t' : PairingTable} :
      isAdminSlot t slot → AddEffect w maxPairings t id key admin error t' → error ≠ 0 →
      RequestEffect w maxPairings t slot (.add id key admin) (.failed error) t'
  | addDone {id : PairingIdentifier} {key : PairingPublicKey} {admin : Bool} {t' : PairingTable} :
      isAdminSlot t slot → AddEffect w maxPairings t id key admin 0 t' → isAdminSlot t' slot →
      RequestEffect w maxPairings t slot (.add id key admin) .done t'
  | addDemoted {id : PairingIdentifier} {key : PairingPublicKey} {admin : Bool} {t' : PairingTable} {e : PairingIdentifier × Controller} :
      isAdminSlot t slot → AddEffect w maxPairings t id key admin 0 t' → t' slot = some e → e.2.2 = false →
      RequestEffect w maxPairings t slot (.add id key admin) (.failed kHAPPairingErrorAuthentication) t'
  | removed {id : PairingIdentifier} {error : UInt8} {t' : PairingTable} :
      isAdminSlot t slot → RemoveEffect w t id error t' →
      RequestEffect w maxPairings t slot (.remove id) (answerOf error) t'
  | listed : isAdminSlot t slot →
      RequestEffect w maxPairings t slot .list
        (.listing (((w.order .listPairings).1.filter fun key => (t key).isSome).filterMap t)) t

/-- Why the process ends during a request: the disk fails, or the pairing of the session is gone, be it that the session has just
demoted the only administrator. -/
inductive RequestFault (w : Disk) (maxPairings : UInt8) (t : PairingTable) (slot : UInt8) : PairingsRequest → Prop
  | disk {request : PairingsRequest} : w.Failing → RequestFault w maxPairings t slot request
  | gone {request : PairingsRequest} : request ≠ .unreadable → t slot = none → RequestFault w maxPairings t slot request
  | demoted {id : PairingIdentifier} {key : PairingPublicKey} {admin : Bool} {t' : PairingTable} :
      isAdminSlot t slot → AddEffect w maxPairings t id key admin 0 t' → t' slot = none →
      RequestFault w maxPairings t slot (.add id key admin)

namespace PairingsAux

variable {w : Disk} {maxPairings : UInt8} {s : Store} {t : PairingTable}

/-! ## Adding and removing -/

/-- What `HAPPairingFind` does not find is in no slot. -/
theorem absent_of_find (h : HoldsPairings s t) {order : DirectoryOrder} {id : PairingIdentifier}
    (hfind : SlotTable.find t id (s.keysOf kHAPKeyValueStoreDomainPairings order) = none) : Absent t id := by
  intro key c hkey
  have hnone := List.findSome?_eq_none_iff.mp hfind key ((mem_keysOf h order key).mpr (by rw [hkey]; rfl))
  rw [hkey] at hnone
  simp at hnone

/-- The search ends at a free slot, unless there is none or the disk fails. -/
theorem findFreeSlot_spec (h : HoldsPairings s t) : ∀ keys : List UInt8,
    findFreeSlot w s keys = .ok none ∧ (∀ key ∈ keys, (t key).isSome) ∨
      (∃ key ∈ keys, findFreeSlot w s keys = .ok (some key) ∧ t key = none) ∨
      w.Failing ∧ findFreeSlot w s keys = .error .unknown := by
  intro keys
  induction keys with
  | nil => exact Or.inl ⟨rfl, by simp⟩
  | cons key keys ih =>
    rw [findFreeSlot, loadPairing_eq h]
    cases hio : w.answers (.slot key) with
    | false => exact Or.inr (Or.inr ⟨⟨_, hio⟩, rfl⟩)
    | true =>
      rcases hk : t key with _ | e
      · exact Or.inr (Or.inl ⟨key, List.mem_cons_self, rfl, hk⟩)
      · rcases ih with ⟨hrun, hall⟩ | ⟨free, hmem, hrun, hfree⟩ | hfail
        · refine Or.inl ⟨hrun, fun k hmem => ?_⟩
          rcases List.mem_cons.mp hmem with rfl | hmem
          · rw [hk]
            rfl
          · exact hall k hmem
        · exact Or.inr (Or.inl ⟨free, List.mem_cons_of_mem _ hmem, hrun, hfree⟩)
        · exact Or.inr (Or.inr hfail)

/-- What `HAPPairingPairingsAddPairingProcessM1` does with valid values. -/
theorem addPairing_effect (h : HoldsPairings s t) (id : PairingIdentifier) (key : PairingPublicKey) (admin : Bool) :
    (∃ s' error t', addPairing w maxPairings s id.1 key.1 (permissionByte admin) = .ok (.none, s', error) ∧ HoldsPairings s' t' ∧
        AddEffect w maxPairings t id key admin error t') ∨
      w.Failing ∧ ∃ s', addPairing w maxPairings s id.1 key.1 (permissionByte admin) = .ok (.unknown, s', 0) := by
  rw [addPairing]
  rcases hapPairingFind_spec (w := w) h id with hfind | ⟨hfail, hfind⟩
  · rw [hfind]
    rcases hf : SlotTable.find t id (s.keysOf kHAPKeyValueStoreDomainPairings (w.order .findPairing)) with _ | ⟨slot, was, wasAdmin⟩
    · have habsent := absent_of_find h hf
      simp only [bind, Except.bind, Option.map_none, ne_eq, not_true_eq_false, if_false]
      rcases findFreeSlot_spec (w := w) h (pairingSlots maxPairings) with ⟨hrun, hall⟩ | ⟨free, hmem, hrun, hfree⟩ | ⟨hfail, hrun⟩
      · rw [hrun]
        exact Or.inl ⟨s, _, t, rfl, h, .full habsent hall⟩
      · rw [hrun]
        simp only [hapPlatformKeyValueStoreSet]
        cases hio : w.answers .set with
        | false =>
          left
          cases w.failedSet with
          | unchanged directory => exact ⟨_, _, t, rfl, holds_unchanged h directory, .notStored ⟨_, hio⟩⟩
          | replaced => exact ⟨_, _, _, rfl, holds_set h free (id, key, admin), .storedUnsaid ⟨_, hio⟩ habsent hmem hfree⟩
        | true => exact Or.inl ⟨_, _, _, rfl, holds_set h free (id, key, admin), .added habsent hmem hfree⟩
      · rw [hrun]
        exact Or.inr ⟨hfail, s, rfl⟩
    · have hslot := find_some hf
      have hpublic : (HAPPairing.ofEntry (id, was, wasAdmin)).publicKey = was.1 := rfl
      have hupdate : ({ HAPPairing.ofEntry (id, was, wasAdmin) with permissions := permissionByte admin } : HAPPairing) =
          .ofEntry (id, was, admin) := rfl
      simp only [bind, Except.bind, Option.map_some, ne_eq, not_true_eq_false, if_false]
      rw [hupdate, hpublic]
      by_cases hkey : was = key
      · subst hkey
        rw [if_neg (fun hne => hne rfl)]
        simp only [hapPlatformKeyValueStoreSet]
        cases hio : w.answers .set with
        | false => exact Or.inr ⟨⟨_, hio⟩, _, rfl⟩
        | true =>
          obtain ⟨err, s', t', hrun, hholds, hsub, hend⟩ := cleanupPairings_spec (w := w) (holds_set h slot (id, was, admin))
          simp only [if_true, hrun]
          refine Or.inl ⟨s', if err ≠ .none then kHAPPairingErrorUnknown else 0, t', rfl, hholds, ?_⟩
          rcases hend with ⟨rfl, hcleaned⟩ | ⟨rfl, hfail, hcleanup⟩
          · exact .updated hslot hcleaned
          · exact .notCleaned hslot hfail hsub hcleanup
      · rw [if_pos (fun heq => hkey (Subtype.ext heq))]
        exact Or.inl ⟨s, _, t, rfl, h, .otherKey hslot hkey⟩
  · rw [hfind]
    exact Or.inr ⟨hfail, s, rfl⟩

/-! ## Responses -/

/-- TLVs are appended as long as their text fits. -/
theorem append_spec : ∀ (tlvs : List (UInt8 × List UInt8)) (writer : WrittenTLVs), (encodeTLVs writer.tlvs).length ≤ writer.maxBytes →
    (encodeTLVs (writer.tlvs ++ tlvs)).length ≤ writer.maxBytes ∧
        writer.append tlvs = (.none, { writer with tlvs := writer.tlvs ++ tlvs }) ∨
      writer.maxBytes < (encodeTLVs (writer.tlvs ++ tlvs)).length ∧ ∃ writer', writer.append tlvs = (.outOfResources, writer') := by
  intro tlvs
  induction tlvs with
  | nil =>
    intro writer hroom
    rw [List.append_nil]
    exact Or.inl ⟨hroom, rfl⟩
  | cons tlv tlvs ih =>
    intro writer hroom
    rw [WrittenTLVs.append, List.append_cons]
    by_cases hfits : (encodeTLVs (writer.tlvs ++ [tlv])).length ≤ writer.maxBytes
    · rw [if_pos hfits]
      exact ih { writer with tlvs := writer.tlvs ++ [tlv] } hfits
    · rw [if_neg hfits]
      refine Or.inr ⟨?_, _, rfl⟩
      rw [encodeTLVs_append, List.length_append]
      omega

/-- What a new writer has appended. -/
theorem append_new (maxBytes : Nat) (tlvs : List (UInt8 × List UInt8)) :
    (encodeTLVs tlvs).length ≤ maxBytes ∧ (⟨maxBytes, []⟩ : WrittenTLVs).append tlvs = (.none, ⟨maxBytes, tlvs⟩) ∨
      maxBytes < (encodeTLVs tlvs).length ∧ ∃ writer, (⟨maxBytes, []⟩ : WrittenTLVs).append tlvs = (.outOfResources, writer) :=
  append_spec tlvs ⟨maxBytes, []⟩ (Nat.zero_le _)

/-- Whether a session is one of an administrator is read off its slot. -/
theorem adminAccessOnly_eq (h : HoldsPairings s t) (session : HAPSession) {slot : UInt8} (hactive : session.active = true)
    (hslot : session.pairingID = some slot) (io : Bool) :
    adminAccessOnly io s session = .ok (if io then
      match t slot with
      | none => .error .unknown
      | some e => .ok e.2.2
    else .error .unknown) := by
  rw [adminAccessOnly, if_pos hactive, hslot]
  simp only [loadPairing_eq h]
  cases io with
  | false => rfl
  | true =>
    rcases t slot with _ | e
    · rfl
    · simp only [if_true, Option.map_some, isAdmin_ofEntry]

/-- A session whose request has been accepted with no error. -/
structure Accepted (session : HAPSession) (slot method : UInt8) : Prop where
  active : session.active = true
  slot : session.pairingID = some slot
  state : session.pairings.state = 1
  method : session.pairings.method = method
  error : session.pairings.error = 0

/-- A pending error is answered. -/
theorem readPairings_error (session : HAPSession) (hstate : session.pairings.state = 1) (herror : session.pairings.error ≠ 0) (n : Nat) :
    readPairings w s session n =
      .ok ((PairingsAnswer.failed session.pairings.error).response.fit n, s, hapPairingPairingsReset session) := by
  have htlvs : [stateTLV { session with pairings.state := session.pairings.state + 1 }, (kHAPPairingTLVTypeError,
      [session.pairings.error])] = [(kHAPPairingTLVTypeState, [2]), (kHAPPairingTLVTypeError, [session.pairings.error])] := by
    rw [stateTLV, hstate]
    rfl
  rw [readPairings, hapPairingPairingsHandleRead, if_pos herror, errorResponse]
  simp only [htlvs, PairingsAnswer.response, PairingsResponse.fit]
  rcases append_new n [(kHAPPairingTLVTypeState, [2]), (kHAPPairingTLVTypeError, [session.pairings.error])] with
    ⟨hfits, happend⟩ | ⟨hfull, writer, happend⟩
  · rw [happend, if_pos hfits]
    rfl
  · rw [happend, if_neg (Nat.not_le.mpr hfull)]
    rfl

/-- What is answered when the response M2 has been made. -/
def finishRead (r : HAPError × Store × HAPSession × WrittenTLVs) : Except HomeKitError (PairingsResponse × Store × HAPSession) :=
  if r.1 ≠ .none then do
    hapAssert (r.1 = .invalidState ∨ r.1 = .outOfResources)
    .ok (.internalServerError, r.2.1, hapPairingPairingsReset r.2.2.1)
  else if r.2.2.1.pairings.error ≠ 0 then
    let r := errorResponse r.2.1 r.2.2.1 r.2.2.2
    if r.1 ≠ .none then do
      hapAssert (r.1 = .invalidState ∨ r.1 = .outOfResources)
      .ok (.internalServerError, r.2.1, r.2.2.1)
    else .ok (.ok r.2.2.2.tlvs, r.2.1, r.2.2.1)
  else .ok (.ok r.2.2.2.tlvs, r.2.1, r.2.2.1)

/-- A response that is one list of TLVs. -/
theorem finishRead_append (n : Nat) (s : Store) (session : HAPSession) (tlvs : List (UInt8 × List UInt8)) :
    (match (⟨n, []⟩ : WrittenTLVs).append tlvs with
      | (.none, writer) => finishRead (.none, s, hapPairingPairingsReset session, writer)
      | (err, writer) => finishRead (err, s, session, writer)) =
      .ok ((PairingsResponse.ok tlvs).fit n, s, hapPairingPairingsReset session) := by
  rw [PairingsResponse.fit]
  rcases append_new n tlvs with ⟨hfits, happend⟩ | ⟨hfull, writer, happend⟩
  · rw [happend, if_pos hfits]
    rfl
  · rw [happend, if_neg (Nat.not_le.mpr hfull)]
    rfl

/-- A response that is an error. -/
theorem finishRead_failed (n : Nat) (s : Store) (session : HAPSession) (hstate : session.pairings.state = 2) {error : UInt8}
    (herror : error ≠ 0) :
    finishRead (.none, s, { session with pairings.error := error }, ⟨n, []⟩) =
      .ok ((PairingsAnswer.failed error).response.fit n, s, hapPairingPairingsReset session) := by
  have htlvs : [stateTLV { session with pairings.error := error }, (kHAPPairingTLVTypeError, [error])] =
      [(kHAPPairingTLVTypeState, [2]), (kHAPPairingTLVTypeError, [error])] := by
    rw [stateTLV]
    show [(_, [session.pairings.state]), _] = _
    rw [hstate]
  rw [finishRead, if_neg (fun hne => hne rfl), if_pos herror, errorResponse]
  simp only [htlvs, PairingsAnswer.response, PairingsResponse.fit]
  rcases append_new n [(kHAPPairingTLVTypeState, [2]), (kHAPPairingTLVTypeError, [error])] with
    ⟨hfits, happend⟩ | ⟨hfull, writer, happend⟩
  · rw [happend, if_pos hfits]
    rfl
  · rw [happend, if_neg (Nat.not_le.mpr hfull)]
    rfl

/-- The pairing of the session is checked again before the response. -/
theorem readPairings_accepted (h : HoldsPairings s t) {session : HAPSession} {slot method : UInt8} (ha : Accepted session slot method)
    (n : Nat) :
    (w.Failing ∨ t slot = none) ∧ readPairings w s session n = .error .assertion ∨
      (∃ e, t slot = some e ∧ e.2.2 = false) ∧ readPairings w s session n =
        .ok ((PairingsAnswer.failed kHAPPairingErrorAuthentication).response.fit n, s, hapPairingPairingsReset session) ∨
      isAdminSlot t slot ∧
        readPairings w s session n = (getM2 w s { session with pairings.state := 2 } ⟨n, []⟩).bind finishRead := by
  have hstate : session.pairings.state + 1 = 2 := by
    rw [ha.state]
    rfl
  have haccess := adminAccessOnly_eq h { session with pairings.state := 2 } ha.active ha.slot (w.answers (.ownPairing true))
  have hread : readPairings w s session n = (handleReadM2 w s session ⟨n, []⟩).bind finishRead := by
    rw [readPairings, hapPairingPairingsHandleRead, if_neg (fun hne => hne ha.error), if_pos ha.state]
    rcases handleReadM2 w s session ⟨n, []⟩ with _ | ⟨err, s', session', writer⟩
    · rfl
    · simp only [bind, Except.bind, finishRead]
      by_cases herr : err = .none
      · by_cases herror : session'.pairings.error = 0
        · simp [herr, herror]
        · simp [herr, herror]
      · simp [herr]
  rw [hread, handleReadM2]
  simp only [hstate, haccess]
  cases hio : w.answers (.ownPairing true) with
  | false => exact Or.inl ⟨Or.inl ⟨_, hio⟩, rfl⟩
  | true =>
    rcases hslot : t slot with _ | e
    · exact Or.inl ⟨Or.inr rfl, rfl⟩
    · cases hadmin : e.2.2 with
      | false =>
        have hne : kHAPPairingErrorAuthentication ≠ 0 := by decide
        refine Or.inr (Or.inl ⟨⟨e, rfl, hadmin⟩, ?_⟩)
        simp only [if_true, bind, Except.bind, hadmin]
        exact finishRead_failed n s { session with pairings.state := 2 } rfl hne
      | true =>
        refine Or.inr (Or.inr ⟨by simp [isAdminSlot, hslot, hadmin], ?_⟩)
        simp only [if_true, bind, Except.bind, hadmin]

/-- The response to Add Pairing. -/
theorem readPairings_add (h : HoldsPairings s t) {session : HAPSession} {slot : UInt8}
    (ha : Accepted session slot kHAPPairingMethodAddPairing) (n : Nat) :
    (w.Failing ∨ t slot = none) ∧ readPairings w s session n = .error .assertion ∨
      (∃ e, t slot = some e ∧ e.2.2 = false) ∧ readPairings w s session n =
        .ok ((PairingsAnswer.failed kHAPPairingErrorAuthentication).response.fit n, s, hapPairingPairingsReset session) ∨
      isAdminSlot t slot ∧ readPairings w s session n = .ok (PairingsAnswer.done.response.fit n, s, hapPairingPairingsReset session) := by
  rcases readPairings_accepted (w := w) h ha n with hend | hauth | ⟨hadmin, hread⟩
  · exact Or.inl hend
  · exact Or.inr (Or.inl hauth)
  · refine Or.inr (Or.inr ⟨hadmin, ?_⟩)
    have hresponse := finishRead_append n s { session with pairings.state := 2 } [(kHAPPairingTLVTypeState, [2])]
    rw [hread, getM2, if_pos ha.method, hapPairingPairingsAddPairingGetM2, stateTLV]
    refine Eq.trans ?_ hresponse
    rcases append_new n [(kHAPPairingTLVTypeState, [2])] with ⟨-, happend⟩ | ⟨-, writer, happend⟩
    · simp only [happend]
      rfl
    · simp only [happend]
      rfl

/-- What `HAPPairingPairingsRemovePairingGetM2` does with the pairing. -/
theorem removePairing_effect (h : HoldsPairings s t) (session : HAPSession) (id : PairingIdentifier)
    (hid : session.pairings.removedPairingID = id.1) (writer : WrittenTLVs) :
    (∃ error s' t', HoldsPairings s' t' ∧ RemoveEffect w t id error t' ∧
        hapPairingPairingsRemovePairingGetM2 w s session writer =
          if error ≠ 0 then .ok (.none, s', { session with pairings.error := error }, writer)
          else
            match writer.append [stateTLV session] with
            | (.none, writer) => .ok (.none, s', hapPairingPairingsReset session, writer)
            | (err, writer) => .ok (err, s', session, writer)) ∨
      w.Failing ∧ hapPairingPairingsRemovePairingGetM2 w s session writer = .ok (.unknown, s, session, writer) := by
  rw [hapPairingPairingsRemovePairingGetM2, hid]
  rcases hapPairingFind_spec (w := w) h id with hfind | ⟨hfail, hfind⟩
  · rw [hfind]
    rcases hf : SlotTable.find t id (s.keysOf kHAPKeyValueStoreDomainPairings (w.order .findPairing)) with _ | ⟨slot, c⟩
    · exact Or.inl ⟨0, s, t, h, .absent (absent_of_find h hf), rfl⟩
    · have hslot := find_some hf
      simp only [bind, Except.bind, Option.map_some, ne_eq, not_true_eq_false, if_false, hapPlatformKeyValueStoreRemove]
      cases hio : w.answers .remove with
      | false => exact Or.inl ⟨_, s, t, h, .notRemoved ⟨_, hio⟩, rfl⟩
      | true =>
        obtain ⟨err, s', t', hrun, hholds, hsub, hend⟩ := cleanupPairings_spec (w := w) (holds_erase h slot)
        simp only [if_true, hrun]
        refine Or.inl ⟨if ¬err = .none then kHAPPairingErrorUnknown else 0, s', t', hholds, ?_, rfl⟩
        rcases hend with ⟨rfl, hcleaned⟩ | ⟨rfl, hfail, hcleanup⟩
        · exact .removed hslot hcleaned
        · exact .notCleaned hslot hfail hsub hcleanup
  · rw [hfind]
    exact Or.inr ⟨hfail, rfl⟩

/-- The response to Remove Pairing. -/
theorem readPairings_remove (h : HoldsPairings s t) {session : HAPSession} {slot : UInt8}
    (ha : Accepted session slot kHAPPairingMethodRemovePairing) {id : PairingIdentifier} (hid : session.pairings.removedPairingID = id.1)
    (n : Nat) :
    (w.Failing ∨ t slot = none) ∧ readPairings w s session n = .error .assertion ∨
      (∃ e, t slot = some e ∧ e.2.2 = false) ∧ readPairings w s session n =
        .ok ((PairingsAnswer.failed kHAPPairingErrorAuthentication).response.fit n, s, hapPairingPairingsReset session) ∨
      isAdminSlot t slot ∧ ∃ error s' t', HoldsPairings s' t' ∧ RemoveEffect w t id error t' ∧
        readPairings w s session n = .ok ((answerOf error).response.fit n, s', hapPairingPairingsReset session) := by
  rcases readPairings_accepted (w := w) h ha n with hend | hauth | ⟨hadmin, hread⟩
  · exact Or.inl hend
  · exact Or.inr (Or.inl hauth)
  obtain ⟨session₂, hsession₂⟩ : ∃ session₂, { session with pairings.state := 2 } = session₂ := ⟨_, rfl⟩
  have hmethod : session₂.pairings.method = kHAPPairingMethodRemovePairing := by
    rw [← hsession₂]
    exact ha.method
  have hreset : hapPairingPairingsReset session₂ = hapPairingPairingsReset session := by rw [← hsession₂, hapPairingPairingsReset]; rfl
  rw [hread, hsession₂, getM2, if_neg (by rw [hmethod]; decide), if_pos hmethod]
  rcases removePairing_effect (w := w) h session₂ id (by rw [← hsession₂]; exact hid) ⟨n, []⟩ with
    ⟨error, s', t', hholds, heffect, hget⟩ | ⟨hfail, hget⟩
  · refine Or.inr (Or.inr ⟨hadmin, error, s', t', hholds, heffect, ?_⟩)
    rw [hget, ← hreset]
    by_cases herror : error = 0
    · subst herror
      have hresponse := finishRead_append n s' session₂ [(kHAPPairingTLVTypeState, [2])]
      refine Eq.trans ?_ hresponse
      have htlv : stateTLV session₂ = (kHAPPairingTLVTypeState, [2]) := by rw [← hsession₂, stateTLV]
      rw [htlv]
      rcases append_new n [(kHAPPairingTLVTypeState, [2])] with ⟨-, happend⟩ | ⟨-, writer, happend⟩
      · simp only [happend]
        rfl
      · simp only [happend]
        rfl
    · rw [if_pos herror, answerOf, if_neg herror]
      exact finishRead_failed n s' session₂ (by rw [← hsession₂]) herror
  · rw [hget]
    exact Or.inl ⟨Or.inl hfail, rfl⟩

/-- Up to where the entries fit they are listed; a failure of the disk ends the list. -/
theorem listPairings_loop (h : HoldsPairings s t) : ∀ (keys : List UInt8) (writer : WrittenTLVs) (needsSeparator : Bool),
    (∀ key ∈ keys, (t key).isSome) → (encodeTLVs writer.tlvs).length ≤ writer.maxBytes →
      (encodeTLVs (writer.tlvs ++ listingTLVs needsSeparator (keys.filterMap t))).length ≤ writer.maxBytes ∧
          (∃ needsSeparator', enumdir (listPairingsEnumerateCallback w s) ⟨writer, needsSeparator, .none⟩ keys =
            .ok (.none, ⟨{ writer with tlvs := writer.tlvs ++ listingTLVs needsSeparator (keys.filterMap t) }, needsSeparator', .none⟩)) ∨
        writer.maxBytes < (encodeTLVs (writer.tlvs ++ listingTLVs needsSeparator (keys.filterMap t))).length ∧
          (∃ c, c.err = .outOfResources ∧
            enumdir (listPairingsEnumerateCallback w s) ⟨writer, needsSeparator, .none⟩ keys = .ok (.none, c)) ∨
        w.Failing ∧ ∃ c, enumdir (listPairingsEnumerateCallback w s) ⟨writer, needsSeparator, .none⟩ keys = .ok (.unknown, c) := by
  intro keys
  induction keys with
  | nil =>
    intro writer needsSeparator _ hroom
    refine Or.inl ⟨?_, needsSeparator, ?_⟩
    · show (encodeTLVs (writer.tlvs ++ [])).length ≤ _
      rw [List.append_nil]
      exact hroom
    · show _ = Except.ok (HAPError.none, (⟨{ writer with tlvs := writer.tlvs ++ [] }, _, _⟩ : ListPairingsEnumerateContext))
      rw [List.append_nil]
      rfl
  | cons key keys ih =>
    intro writer needsSeparator hkeys hroom
    obtain ⟨e, he⟩ := Option.isSome_iff_exists.mp (hkeys key List.mem_cons_self)
    obtain ⟨tlvs, htlvs⟩ : ∃ tlvs, (if needsSeparator = true then [(kHAPPairingTLVTypeSeparator, [])] else []) ++
        (HAPPairing.ofEntry e).tlvs = tlvs := ⟨_, rfl⟩
    have hlist : writer.tlvs ++ listingTLVs needsSeparator ((key :: keys).filterMap t) =
        (writer.tlvs ++ tlvs) ++ listingTLVs true (keys.filterMap t) := by
      rw [List.filterMap_cons_some he, listingTLVs, htlvs, List.append_assoc]
    have hlength : ¬36 < (HAPPairing.ofEntry e).numIdentifierBytes.toNat := by
      show ¬36 < (UInt8.ofNat e.1.1.length).toNat
      rw [toNat_length]
      exact Nat.not_lt.mpr e.1.2
    rw [hlist, enumdir, listPairingsEnumerateCallback, loadPairing_eq h]
    cases hio : w.answers (.file .listPairings key) with
    | false => exact Or.inr (Or.inr ⟨⟨_, hio⟩, _, rfl⟩)
    | true =>
      simp only [he, if_true, Option.map_some, if_neg hlength, htlvs]
      rcases append_spec tlvs writer hroom with ⟨hfits, happend⟩ | ⟨hfull, writer', happend⟩
      · rw [happend]
        exact ih { writer with tlvs := writer.tlvs ++ tlvs } true (fun k hk => hkeys k (List.mem_cons_of_mem _ hk)) hfits
      · rw [happend]
        refine Or.inr (Or.inl ⟨?_, _, rfl, rfl⟩)
        rw [encodeTLVs_append, List.length_append]
        omega

/-- The response to List Pairings. -/
theorem readPairings_list (h : HoldsPairings s t) {session : HAPSession} {slot : UInt8}
    (ha : Accepted session slot kHAPPairingMethodListPairings) (n : Nat) :
    (w.Failing ∨ t slot = none) ∧ readPairings w s session n = .error .assertion ∨
      (∃ e, t slot = some e ∧ e.2.2 = false) ∧ readPairings w s session n =
        .ok ((PairingsAnswer.failed kHAPPairingErrorAuthentication).response.fit n, s, hapPairingPairingsReset session) ∨
      isAdminSlot t slot ∧ readPairings w s session n =
        .ok ((PairingsAnswer.listing (((w.order .listPairings).1.filter fun key => (t key).isSome).filterMap t)).response.fit n, s,
          hapPairingPairingsReset session) := by
  rcases readPairings_accepted (w := w) h ha n with hend | hauth | ⟨hadmin, hread⟩
  · exact Or.inl hend
  · exact Or.inr (Or.inl hauth)
  obtain ⟨session₂, hsession₂⟩ : ∃ session₂, { session with pairings.state := 2 } = session₂ := ⟨_, rfl⟩
  have hmethod : session₂.pairings.method = kHAPPairingMethodListPairings := by
    rw [← hsession₂]
    exact ha.method
  have htlv : stateTLV session₂ = (kHAPPairingTLVTypeState, [2]) := by rw [← hsession₂, stateTLV]
  have hreset : hapPairingPairingsReset session₂ = hapPairingPairingsReset session := by rw [← hsession₂, hapPairingPairingsReset]; rfl
  rw [hread, hsession₂, getM2, if_neg (by rw [hmethod]; decide), if_neg (by rw [hmethod]; decide), hapPairingPairingsListPairingsGetM2,
    htlv, ← hreset]
  obtain ⟨entries, hentries⟩ : ∃ entries, ((w.order .listPairings).1.filter fun key => (t key).isSome).filterMap t = entries := ⟨_, rfl⟩
  have hresponse : (PairingsAnswer.listing entries).response.fit n =
      if (encodeTLVs ([(kHAPPairingTLVTypeState, [2])] ++ listingTLVs false entries)).length ≤ n then
        .ok ([(kHAPPairingTLVTypeState, [2])] ++ listingTLVs false entries)
      else .internalServerError := rfl
  rw [hentries, hresponse]
  rcases append_new n [(kHAPPairingTLVTypeState, [2])] with ⟨hfits, happend⟩ | ⟨hfull, writer, happend⟩
  · have hloop := listPairings_loop (w := w) h (s.keysOf kHAPKeyValueStoreDomainPairings (w.order .listPairings))
      ⟨n, [(kHAPPairingTLVTypeState, [2])]⟩ false (fun key hkey => (mem_keysOf h _ key).mp hkey) hfits
    rw [keysOf_eq h, hentries] at hloop
    rw [happend]
    simp only [enumeratePairings, keysOf_eq h]
    cases hio : w.answers (.directory .listPairings) with
    | false => exact Or.inl ⟨Or.inl ⟨_, hio⟩, rfl⟩
    | true =>
      rw [if_pos rfl]
      rcases hloop with ⟨hroom, needsSeparator, hrun⟩ | ⟨hroom, c, hc, hrun⟩ | ⟨hfail, c, hrun⟩
      · rw [hrun, if_pos hroom]
        exact Or.inr (Or.inr ⟨hadmin, rfl⟩)
      · rw [hrun, if_neg (Nat.not_le.mpr hroom)]
        refine Or.inr (Or.inr ⟨hadmin, ?_⟩)
        simp [bind, Except.bind, hc, hapAssert, finishRead]
      · rw [hrun]
        exact Or.inl ⟨Or.inl hfail, rfl⟩
  · rw [happend, if_neg]
    · exact Or.inr (Or.inr ⟨hadmin, rfl⟩)
    · rw [encodeTLVs_append, List.length_append]
      omega

/-! ## Reading a request -/

/-- A value is one valid byte, or the request is invalid. -/
theorem validateByte_cases (valid : UInt8 → Bool) (value : Option (List UInt8)) :
    (∃ b, value = some [b] ∧ valid b = true ∧ validateByte valid value = .ok b) ∨
      (∀ b, value = some [b] → valid b = false) ∧ validateByte valid value = .error .invalidData := by
  rcases value with _ | ⟨_ | ⟨b, _ | ⟨c, bytes⟩⟩⟩
  · exact Or.inr ⟨by simp, rfl⟩
  · exact Or.inr ⟨by simp, rfl⟩
  · cases hv : valid b with
    | true => exact Or.inl ⟨b, rfl, hv, by simp [validateByte, hv]⟩
    | false => exact Or.inr ⟨by simpa using hv, by simp [validateByte, hv]⟩
  · exact Or.inr ⟨by simp, rfl⟩

/-- The first message of a method has state 1. -/
theorem validateM1_cases {method : UInt8} {tlvs : PairingTLVs} (hmethod : tlvs.method = some [method]) :
    tlvs.state = some [1] ∧ validateM1 method tlvs = .ok () ∨ tlvs.state ≠ some [1] ∧ validateM1 method tlvs = .error .invalidData := by
  rw [validateM1, hmethod]
  rcases validateByte_cases (· == 1) tlvs.state with ⟨b, hb, hvalid, hrun⟩ | ⟨hnone, hrun⟩
  · obtain rfl : b = 1 := by simpa using hvalid
    refine Or.inl ⟨hb, ?_⟩
    rw [hrun]
    simp [validateByte, bind, Except.bind]
  · refine Or.inr ⟨fun hstate => ?_, ?_⟩
    · have := hnone 1 hstate
      simp at this
    · rw [hrun]
      rfl

/-- A value is an identifier, or the request is invalid. -/
theorem validateIdentifier_cases (value : Option (List UInt8)) :
    (∃ id : PairingIdentifier, identifierOf value = some id ∧ validateIdentifier value = .ok id.1) ∨
      identifierOf value = none ∧ validateIdentifier value = .error .invalidData := by
  rcases value with _ | bytes
  · exact Or.inr ⟨rfl, rfl⟩
  · by_cases h : bytes.length ≤ 36
    · exact Or.inl ⟨⟨bytes, h⟩, dif_pos h, if_neg (Nat.not_lt.mpr h)⟩
    · exact Or.inr ⟨dif_neg h, if_pos (Nat.not_le.mp h)⟩

/-- A value is a public key, or the request is invalid. -/
theorem validatePublicKey_cases (value : Option (List UInt8)) :
    (∃ key : PairingPublicKey, publicKeyOf value = some key ∧ validatePublicKey value = .ok key.1) ∨
      publicKeyOf value = none ∧ validatePublicKey value = .error .invalidData := by
  rcases value with _ | bytes
  · exact Or.inr ⟨rfl, rfl⟩
  · by_cases h : bytes.length = 32
    · exact Or.inl ⟨⟨bytes, h⟩, dif_pos h, if_neg (fun hne => hne h)⟩
    · exact Or.inr ⟨dif_neg h, if_pos h⟩

/-- Only the permission bit of an administrator may be set. -/
theorem permissions_valid (b : UInt8) : (b &&& ~~~1 == 0) = (b == 0 || b == 1) := by
  have hall : ∀ n : Fin 256, (UInt8.ofFin n &&& ~~~1 == 0) = (UInt8.ofFin n == 0 || UInt8.ofFin n == 1) := by decide +kernel
  exact hall b.toFin

/-- A value is a byte of permissions, or the request is invalid. -/
theorem validatePermissions_cases (value : Option (List UInt8)) :
    (∃ admin, adminOf value = some admin ∧ validateByte (· &&& ~~~1 == 0) value = .ok (permissionByte admin)) ∨
      adminOf value = none ∧ validateByte (· &&& ~~~1 == 0) value = .error .invalidData := by
  rcases validateByte_cases (· &&& ~~~1 == 0) value with ⟨b, rfl, hvalid, hrun⟩ | ⟨hnone, hrun⟩
  · rw [permissions_valid, Bool.or_eq_true, beq_iff_eq, beq_iff_eq] at hvalid
    rcases hvalid with rfl | rfl
    · exact Or.inl ⟨false, rfl, hrun⟩
    · exact Or.inl ⟨true, rfl, hrun⟩
  · refine Or.inr ⟨?_, hrun⟩
    rcases value with _ | ⟨_ | ⟨b, _ | ⟨c, bytes⟩⟩⟩
    · rfl
    · rfl
    · have := hnone b rfl
      rw [permissions_valid, Bool.or_eq_false_iff, beq_eq_false_iff_ne, beq_eq_false_iff_ne] at this
      rw [adminOf, if_neg this.1, if_neg this.2]
    · rfl

/-- The methods. -/
theorem validateMethod_cases (tlvs : PairingTLVs) :
    tlvs.method = some [kHAPPairingMethodAddPairing] ∧ validateMethod tlvs = .ok kHAPPairingMethodAddPairing ∨
      tlvs.method = some [kHAPPairingMethodRemovePairing] ∧ validateMethod tlvs = .ok kHAPPairingMethodRemovePairing ∨
      tlvs.method = some [kHAPPairingMethodListPairings] ∧ validateMethod tlvs = .ok kHAPPairingMethodListPairings ∨
      PairingsRequest.ofTLVs tlvs = .unreadable ∧ validateMethod tlvs = .error .invalidData := by
  rw [validateMethod]
  rcases validateByte_cases _ tlvs.method with ⟨b, hb, hvalid, hrun⟩ | ⟨hnone, hrun⟩
  · rw [hrun, hb]
    simp only [Bool.or_eq_true, beq_iff_eq] at hvalid
    rcases hvalid with (rfl | rfl) | rfl
    · exact Or.inl ⟨rfl, rfl⟩
    · exact Or.inr (Or.inl ⟨rfl, rfl⟩)
    · exact Or.inr (Or.inr (Or.inl ⟨rfl, rfl⟩))
  · refine Or.inr (Or.inr (Or.inr ⟨?_, hrun⟩))
    rw [PairingsRequest.ofTLVs, if_neg, if_neg, if_neg]
    · intro hm
      have := hnone _ hm
      simp at this
    · intro hm
      have := hnone _ hm
      simp at this
    · intro hm
      have := hnone _ hm
      simp at this

/-- A request to add a pairing is complete, or it is invalid. -/
theorem validateAddPairingM1_cases {tlvs : PairingTLVs} (hmethod : tlvs.method = some [kHAPPairingMethodAddPairing]) :
    (∃ id key admin, PairingsRequest.ofTLVs tlvs = .add id key admin ∧
        validateAddPairingM1 tlvs = .ok (id.1, key.1, permissionByte admin)) ∨
      PairingsRequest.ofTLVs tlvs = .incomplete ∧ validateAddPairingM1 tlvs = .error .invalidData := by
  rw [PairingsRequest.ofTLVs, if_pos hmethod, validateAddPairingM1]
  rcases validateM1_cases hmethod with ⟨hstate, hrun⟩ | ⟨hstate, hrun⟩
  · rw [hrun, if_pos hstate]
    rcases validateIdentifier_cases tlvs.identifier with ⟨id, hid, hrunId⟩ | ⟨hid, hrunId⟩
    · rcases validatePublicKey_cases tlvs.publicKey with ⟨key, hkey, hrunKey⟩ | ⟨hkey, hrunKey⟩
      · rcases validatePermissions_cases tlvs.permissions with ⟨admin, hadmin, hrunAdmin⟩ | ⟨hadmin, hrunAdmin⟩
        · rw [hid, hkey, hadmin]
          exact Or.inl ⟨id, key, admin, rfl, by simp only [bind, Except.bind, hrunId, hrunKey, hrunAdmin]⟩
        · rw [hid, hkey, hadmin]
          exact Or.inr ⟨rfl, by simp only [bind, Except.bind, hrunId, hrunKey, hrunAdmin]⟩
      · rw [hid, hkey]
        exact Or.inr ⟨rfl, by simp only [bind, Except.bind, hrunId, hrunKey]⟩
    · rw [hid]
      exact Or.inr ⟨rfl, by simp only [bind, Except.bind, hrunId]⟩
  · rw [hrun, if_neg hstate]
    exact Or.inr ⟨rfl, rfl⟩

/-- A request to remove a pairing is complete, or it is invalid. -/
theorem validateRemovePairingM1_cases {tlvs : PairingTLVs} (hmethod : tlvs.method = some [kHAPPairingMethodRemovePairing]) :
    (∃ id, PairingsRequest.ofTLVs tlvs = .remove id ∧ validateRemovePairingM1 tlvs = .ok id.1) ∨
      PairingsRequest.ofTLVs tlvs = .incomplete ∧ validateRemovePairingM1 tlvs = .error .invalidData := by
  rw [PairingsRequest.ofTLVs, if_neg (by rw [hmethod]; decide), if_pos hmethod, validateRemovePairingM1]
  rcases validateM1_cases hmethod with ⟨hstate, hrun⟩ | ⟨hstate, hrun⟩
  · rw [hrun, if_pos hstate]
    rcases validateIdentifier_cases tlvs.identifier with ⟨id, hid, hrunId⟩ | ⟨hid, hrunId⟩
    · rw [hid]
      exact Or.inl ⟨id, rfl, hrunId⟩
    · rw [hid]
      exact Or.inr ⟨rfl, hrunId⟩
  · rw [hrun, if_neg hstate]
    exact Or.inr ⟨rfl, rfl⟩

/-- A request to list the pairings is complete, or it is invalid. -/
theorem validateListPairingsM1_cases {tlvs : PairingTLVs} (hmethod : tlvs.method = some [kHAPPairingMethodListPairings]) :
    PairingsRequest.ofTLVs tlvs = .list ∧ hapPairingPairingsListPairingsProcessM1 tlvs = .none ∨
      PairingsRequest.ofTLVs tlvs = .incomplete ∧ hapPairingPairingsListPairingsProcessM1 tlvs = .invalidData := by
  rw [PairingsRequest.ofTLVs, if_neg (by rw [hmethod]; decide), if_neg (by rw [hmethod]; decide), if_pos hmethod,
    hapPairingPairingsListPairingsProcessM1]
  rcases validateM1_cases hmethod with ⟨hstate, hrun⟩ | ⟨hstate, hrun⟩
  · rw [hrun, if_pos hstate]
    exact Or.inl ⟨rfl, rfl⟩
  · rw [hrun, if_neg hstate]
    exact Or.inr ⟨rfl, rfl⟩

/-! ## A whole request -/

/-- A session for the pairing of a slot, between two requests. -/
def readySession (slot : UInt8) : HAPSession := ⟨true, some slot, ⟨0, 0, 0, []⟩⟩

/-- The session after M1, with its method, its error and the identifier of the pairing to remove. -/
def m1Session (slot method error : UInt8) (removedPairingID : List UInt8) : HAPSession :=
  ⟨true, some slot, ⟨1, method, error, removedPairingID⟩⟩

theorem method_m1Session (slot method error : UInt8) (removedPairingID : List UInt8) :
    (m1Session slot method error removedPairingID).pairings.method = method := rfl

theorem accepted_m1Session (slot method : UInt8) (removedPairingID : List UInt8) :
    Accepted (m1Session slot method 0 removedPairingID) slot method :=
  ⟨rfl, rfl, rfl, rfl, rfl⟩

/-- What is answered when the request M1 has been processed. -/
def finishWrite (w : Disk) (n : Nat) (r : HAPError × Store × HAPSession) : Except HomeKitError (PairingsResponse × Store × HAPSession) :=
  if r.1 ≠ .none then do
    hapAssert (r.1 = .invalidState ∨ r.1 = .invalidData)
    .ok (.badRequest, r.2.1, hapPairingPairingsReset r.2.2)
  else readPairings w r.2.1 r.2.2 n

/-- The administrator check of a request with a valid method. -/
theorem handleWriteM1_method (h : HoldsPairings s t) {slot : UInt8} {tlvs : PairingTLVs} {method : UInt8}
    (hmethod : validateMethod tlvs = .ok method) :
    (w.Failing ∨ t slot = none) ∧
        handleWriteM1 w maxPairings s (readySession slot) tlvs = .ok (.unknown, s, m1Session slot method 0 []) ∨
      (∃ e, t slot = some e ∧ e.2.2 = false) ∧ handleWriteM1 w maxPairings s (readySession slot) tlvs =
        .ok (.none, s, m1Session slot method kHAPPairingErrorAuthentication []) ∨
      isAdminSlot t slot ∧
        handleWriteM1 w maxPairings s (readySession slot) tlvs = processM1 w maxPairings s (m1Session slot method 0 []) tlvs := by
  have haccess := adminAccessOnly_eq h (m1Session slot method 0 []) rfl rfl (w.answers (.ownPairing false))
  rw [m1Session] at haccess ⊢
  rw [handleWriteM1, hmethod]
  simp only [readySession, UInt8.zero_add, haccess]
  cases hio : w.answers (.ownPairing false) with
  | false => exact Or.inl ⟨Or.inl ⟨_, hio⟩, rfl⟩
  | true =>
    rcases hslot : t slot with _ | e
    · exact Or.inl ⟨Or.inr rfl, rfl⟩
    · cases hadmin : e.2.2 with
      | false =>
        refine Or.inr (Or.inl ⟨⟨e, rfl, hadmin⟩, ?_⟩)
        simp only [if_true, bind, Except.bind, hadmin]
        rfl
      | true =>
        refine Or.inr (Or.inr ⟨by simp [isAdminSlot, hslot, hadmin], ?_⟩)
        simp only [if_true, bind, Except.bind, hadmin]

/-- What one request does, given what its processing returns. -/
def Served (w : Disk) (maxPairings : UInt8) (t : PairingTable) (slot : UInt8) (request : PairingsRequest) (n : Nat)
    (r : Except HomeKitError (PairingsResponse × Store × HAPSession)) : Prop :=
  RequestFault w maxPairings t slot request ∧ r = .error .assertion ∨
    ∃ answer s' t', HoldsPairings s' t' ∧ RequestEffect w maxPairings t slot request answer t' ∧
      r = .ok (answer.response.fit n, s', readySession slot)

/-- What the administrator check lets through. -/
theorem served_of_method (h : HoldsPairings s t) {slot : UInt8} {tlvs : PairingTLVs} {method : UInt8} {n : Nat}
    (hmethod : validateMethod tlvs = .ok method) (hreadable : PairingsRequest.ofTLVs tlvs ≠ .unreadable)
    (hadmin : isAdminSlot t slot → Served w maxPairings t slot (.ofTLVs tlvs) n
      ((processM1 w maxPairings s (m1Session slot method 0 []) tlvs).bind (finishWrite w n))) :
    Served w maxPairings t slot (.ofTLVs tlvs) n
      ((handleWriteM1 w maxPairings s (readySession slot) tlvs).bind (finishWrite w n)) := by
  rcases @handleWriteM1_method w maxPairings s t h slot tlvs method hmethod with
    ⟨hgone, hrun⟩ | ⟨⟨e, he, hno⟩, hrun⟩ | ⟨hyes, hrun⟩
  · rw [hrun]
    refine Or.inl ⟨?_, rfl⟩
    rcases hgone with hfail | hnone
    · exact .disk hfail
    · exact .gone hreadable hnone
  · rw [hrun]
    refine Or.inr ⟨_, s, t, h, .notAdmin hreadable he hno, ?_⟩
    have hne : kHAPPairingErrorAuthentication ≠ 0 := by decide
    exact readPairings_error (w := w) (s := s) (m1Session slot method kHAPPairingErrorAuthentication []) rfl hne n
  · rw [hrun]
    exact hadmin hyes

/-- A request without a value that it needs. -/
theorem served_incomplete (h : HoldsPairings s t) {slot : UInt8} (hadmin : isAdminSlot t slot) {n : Nat} {pairings : PairingsState} :
    Served w maxPairings t slot .incomplete n (finishWrite w n (.invalidData, s, ⟨true, some slot, pairings⟩)) :=
  Or.inr ⟨_, s, t, h, .incomplete hadmin, rfl⟩

/-- A request to add a pairing is served. -/
theorem served_add (h : HoldsPairings s t) {slot : UInt8} (hadmin : isAdminSlot t slot) {tlvs : PairingTLVs} {n : Nat}
    (hmethod : tlvs.method = some [kHAPPairingMethodAddPairing]) :
    Served w maxPairings t slot (.ofTLVs tlvs) n
      ((processM1 w maxPairings s (m1Session slot kHAPPairingMethodAddPairing 0 []) tlvs).bind (finishWrite w n)) := by
  rw [processM1, if_pos (method_m1Session ..), hapPairingPairingsAddPairingProcessM1]
  rcases validateAddPairingM1_cases hmethod with ⟨id, key, admin, hrequest, hvalues⟩ | ⟨hrequest, hvalues⟩
  · rw [hrequest, hvalues]
    rcases @addPairing_effect w maxPairings s t h id key admin with
      ⟨s', error, t', hrun, hholds, heffect⟩ | ⟨hfail, s', hrun⟩
    · simp only [bind, Except.bind, hrun, hapAssert, true_or, if_true]
      show Served _ _ _ _ _ _ (readPairings w s' (m1Session slot kHAPPairingMethodAddPairing error []) n)
      by_cases herror : error = 0
      · subst herror
        rcases readPairings_add (w := w) hholds (accepted_m1Session slot kHAPPairingMethodAddPairing []) n with
          ⟨hgone, hread⟩ | ⟨⟨e, he, hno⟩, hread⟩ | ⟨hyes, hread⟩
        · refine Or.inl ⟨?_, hread⟩
          rcases hgone with hfail | hnone
          · exact .disk hfail
          · exact .demoted hadmin heffect hnone
        · exact Or.inr ⟨_, s', t', hholds, .addDemoted hadmin heffect he hno, hread⟩
        · exact Or.inr ⟨_, s', t', hholds, .addDone hadmin heffect hyes, hread⟩
      · exact Or.inr ⟨_, s', t', hholds, .addFailed hadmin heffect herror,
          readPairings_error (w := w) (s := s') (m1Session slot kHAPPairingMethodAddPairing error []) rfl herror n⟩
    · simp only [bind, Except.bind, hrun]
      exact Or.inl ⟨.disk hfail, rfl⟩
  · rw [hrequest, hvalues]
    exact served_incomplete h hadmin

/-- A request to remove a pairing is served. -/
theorem served_remove (h : HoldsPairings s t) {slot : UInt8} (hadmin : isAdminSlot t slot) {tlvs : PairingTLVs} {n : Nat}
    (hmethod : tlvs.method = some [kHAPPairingMethodRemovePairing]) :
    Served w maxPairings t slot (.ofTLVs tlvs) n
      ((processM1 w maxPairings s (m1Session slot kHAPPairingMethodRemovePairing 0 []) tlvs).bind (finishWrite w n)) := by
  rw [processM1, if_neg (by rw [method_m1Session]; decide), if_pos (method_m1Session ..), hapPairingPairingsRemovePairingProcessM1]
  rcases validateRemovePairingM1_cases hmethod with ⟨id, hrequest, hvalue⟩ | ⟨hrequest, hvalue⟩
  · rw [hrequest, hvalue]
    show Served _ _ _ _ _ _ (readPairings w s (m1Session slot kHAPPairingMethodRemovePairing 0 id.1) n)
    rcases readPairings_remove (w := w) h (accepted_m1Session slot kHAPPairingMethodRemovePairing id.1) rfl n with
      ⟨hgone, hread⟩ | ⟨⟨e, he, hno⟩, hread⟩ | ⟨-, error, s', t', hholds, heffect, hread⟩
    · refine Or.inl ⟨?_, hread⟩
      rcases hgone with hfail | hnone
      · exact .disk hfail
      · exact .gone (by simp) hnone
    · exact Or.inr ⟨_, s, t, h, .notAdmin (by simp) he hno, hread⟩
    · exact Or.inr ⟨_, s', t', hholds, .removed hadmin heffect, hread⟩
  · rw [hrequest, hvalue]
    exact served_incomplete h hadmin

/-- A request to list the pairings is served. -/
theorem served_list (h : HoldsPairings s t) {slot : UInt8} (hadmin : isAdminSlot t slot) {tlvs : PairingTLVs} {n : Nat}
    (hmethod : tlvs.method = some [kHAPPairingMethodListPairings]) :
    Served w maxPairings t slot (.ofTLVs tlvs) n
      ((processM1 w maxPairings s (m1Session slot kHAPPairingMethodListPairings 0 []) tlvs).bind (finishWrite w n)) := by
  rw [processM1, if_neg (by rw [method_m1Session]; decide), if_neg (by rw [method_m1Session]; decide)]
  rcases validateListPairingsM1_cases hmethod with ⟨hrequest, hvalue⟩ | ⟨hrequest, hvalue⟩
  · rw [hrequest, hvalue]
    show Served _ _ _ _ _ _ (readPairings w s (m1Session slot kHAPPairingMethodListPairings 0 []) n)
    rcases readPairings_list (w := w) h (accepted_m1Session slot kHAPPairingMethodListPairings []) n with
      ⟨hgone, hread⟩ | ⟨⟨e, he, hno⟩, hread⟩ | ⟨-, hread⟩
    · refine Or.inl ⟨?_, hread⟩
      rcases hgone with hfail | hnone
      · exact .disk hfail
      · exact .gone (by simp) hnone
    · exact Or.inr ⟨_, s, t, h, .notAdmin (by simp) he hno, hread⟩
    · exact Or.inr ⟨_, s, t, h, .listed hadmin, hread⟩
  · rw [hrequest, hvalue]
    exact served_incomplete h hadmin

/-- The answer of one request by its values. -/
theorem served_tlvs (h : HoldsPairings s t) (slot : UInt8) (tlvs : PairingTLVs) (n : Nat) :
    Served w maxPairings t slot (.ofTLVs tlvs) n
      ((handleWriteM1 w maxPairings s (readySession slot) tlvs).bind (finishWrite w n)) := by
  rcases validateMethod_cases tlvs with ⟨hm, hv⟩ | ⟨hm, hv⟩ | ⟨hm, hv⟩ | ⟨hrequest, hv⟩
  · refine served_of_method h hv ?_ fun hadmin => served_add h hadmin hm
    rcases validateAddPairingM1_cases hm with ⟨id, key, admin, hrequest, -⟩ | ⟨hrequest, -⟩ <;> rw [hrequest] <;> simp
  · refine served_of_method h hv ?_ fun hadmin => served_remove h hadmin hm
    rcases validateRemovePairingM1_cases hm with ⟨id, hrequest, -⟩ | ⟨hrequest, -⟩ <;> rw [hrequest] <;> simp
  · refine served_of_method h hv ?_ fun hadmin => served_list h hadmin hm
    rcases validateListPairingsM1_cases hm with ⟨hrequest, -⟩ | ⟨hrequest, -⟩ <;> rw [hrequest] <;> simp
  · rw [hrequest, handleWriteM1, hv]
    exact Or.inr ⟨.badRequest, s, t, h, .unreadable, rfl⟩

open TlvReaderAux in
/-- The items that the reader returns have the types that it has been asked for. -/
theorem getAll_types {m m' : Mem} {reader reader' : HAPTLVReader} {requested : RequestedTypes} {items : List HAPTLV}
    (hget : hapTLVReaderGetAll m reader requested = .ok (items, m', reader')) : items.map HAPTLV.type = requested.1 := by
  have htypes := map_type_initializeTLVs requested.1
  obtain ⟨-, -, -, -, hitems, -⟩ := getAllLoop_ok rfl (by rw [htypes]; exact requested.2)
    (found_initializeTLVs m reader.bytes requested.1) (fun _ _ => Nat.zero_le _) hget
  rw [hitems, htypes]

/-- The values of the items are those of the list of TLVs. -/
theorem ofItems_eq {m : Mem} {items : List HAPTLV} {tlvs : List (UInt8 × List UInt8)} (htypes : items.map HAPTLV.type = pairingTLVTypes.1)
    (hfound : items.map (HAPTLV.found m) = pairingTLVTypes.1.map (tlvs.lookup ·)) :
    PairingTLVs.ofItems m items = PairingTLVs.ofList tlvs := by
  rcases items with _ | ⟨a, _ | ⟨b, _ | ⟨c, _ | ⟨d, _ | ⟨e, _ | ⟨f, items⟩⟩⟩⟩⟩⟩ <;>
    simp only [pairingTLVTypes, List.map_cons, List.map_nil, List.cons.injEq, and_true, reduceCtorEq, and_false] at htypes hfound
  obtain ⟨ha, hb, hc, hd, he⟩ := htypes
  obtain ⟨hva, hvb, hvc, hvd, hve⟩ := hfound
  have hitem : ∀ {type : UInt8} {x : HAPTLV} {value : Option (List UInt8)}, ([a, b, c, d, e].find? fun item => item.type = type) = some x →
      HAPTLV.found m x = value → itemValue m [a, b, c, d, e] type = value := by
    rintro type x value hfind rfl
    rw [itemValue, hfind]
    rfl
  rw [PairingTLVs.ofItems, PairingTLVs.ofList, hitem (x := a) (by simp [ha]) hva,
    hitem (x := b) (by simp [ha, hb, kHAPPairingTLVTypeMethod, kHAPPairingTLVTypeIdentifier]) hvb,
    hitem (x := c) (by simp [ha, hb, hc, kHAPPairingTLVTypeMethod, kHAPPairingTLVTypeIdentifier, kHAPPairingTLVTypePublicKey]) hvc,
    hitem (x := d) (by simp [ha, hb, hc, hd, kHAPPairingTLVTypeMethod, kHAPPairingTLVTypeIdentifier, kHAPPairingTLVTypePublicKey,
      kHAPPairingTLVTypeState]) hvd,
    hitem (x := e) (by simp [ha, hb, hc, hd, he, kHAPPairingTLVTypeMethod, kHAPPairingTLVTypeIdentifier, kHAPPairingTLVTypePublicKey,
      kHAPPairingTLVTypeState, kHAPPairingTLVTypePermissions]) hve]

open TlvReaderAux in
/-- A text is a request in one way. -/
theorem ofText_eq {text : List UInt8} {tlvs : List (UInt8 × List UInt8)} (h : WellFormedRequest pairingTLVTypes.1 text tlvs) :
    PairingsRequest.ofText text = .ofTLVs (.ofList tlvs) := by
  have hex : ∃ tlvs, WellFormedRequest pairingTLVTypes.1 text tlvs := ⟨tlvs, h⟩
  obtain ⟨htext, hsep, -⟩ := hex.choose_spec
  rw [PairingsRequest.ofText, dif_pos hex, encodeTLVs_inj (htext.symm.trans h.1) hsep h.2.1]

open TlvReaderAux in
/-- Everything that one request does. -/
theorem handlePairings_served (h : HoldsPairings s t) (slot : UInt8) (content : PairingsContent) :
    Served w maxPairings t slot (.ofText content.text) content.maxScratchBufferBytes
      (handlePairings w maxPairings s (readySession slot) content) := by
  cases hget : hapTLVReaderGetAll content.scratch ⟨content.scratchBuffer, content.numBytes, content.maxScratchBufferBytes⟩ pairingTLVTypes with
  | error err =>
    have herr : err = .invalidData := getAllLoop_error rfl (by rw [map_type_initializeTLVs]; exact pairingTLVTypes.2) hget
    subst herr
    have hunreadable : PairingsRequest.ofText content.text = .unreadable := by
      rw [PairingsRequest.ofText, dif_neg]
      rintro ⟨tlvs, htlvs⟩
      obtain ⟨r, hr⟩ := @getAll_isOk content.scratch ⟨content.scratchBuffer, content.numBytes, content.maxScratchBufferBytes⟩ _ _ htlvs
      rw [hr] at hget
      cases hget
    rw [hunreadable, handlePairings, hapPairingPairingsHandleWrite, hget]
    exact Or.inr ⟨.badRequest, s, t, h, .unreadable, rfl⟩
  | ok r =>
    obtain ⟨items, m', reader'⟩ := r
    obtain ⟨tlvs, hwell, hfound, -⟩ := getAll_ok hget
    have hserved := @served_tlvs w maxPairings s t h slot (.ofItems m' items) content.maxScratchBufferBytes
    have heq : handlePairings w maxPairings s (readySession slot) content =
        (handleWriteM1 w maxPairings s (readySession slot) (.ofItems m' items)).bind (finishWrite w content.maxScratchBufferBytes) := by
      rw [handlePairings, hapPairingPairingsHandleWrite, hget]
      simp only [readySession, if_true]
      rcases handleWriteM1 w maxPairings s ⟨true, some slot, ⟨0, 0, 0, []⟩⟩ (.ofItems m' items) with _ | ⟨err, s', session'⟩
      · rfl
      · simp only [bind, Except.bind, finishWrite]
        by_cases herr : err = .none
        · simp [herr]
        · simp [herr]
    have hrequest : PairingsRequest.ofText content.text = .ofTLVs (.ofItems m' items) := by
      rw [ofItems_eq (getAll_types hget) hfound]
      exact ofText_eq hwell
    rw [heq, hrequest]
    exact hserved

end PairingsAux

end CGuard
