import CGuard.HapPut
import CGuard.Theorems.Credential

/-!
# What a controller is told about its writes

The handler of a write answers `kHAPError_None` whether the write was authorised or not, and nothing after it knows better: a request
with a refused write is answered like one that was carried out. Whether a write is authorised is a matter of its authorization data, of the
length that it has.
-/

namespace CGuard

/-- The request and the value with which an entry reaches the handler of the characteristic, if it gets there: its request is not
rejected, its authorization data decodes, and its value is 0 or 1. -/
def HAPIPPut.handled (put : HAPIPPut) (entry : HAPIPWriteEntry) : Option (HAPBoolCharacteristicWriteRequest × Bool) :=
  let text := entry.authorizationData.getD []
  let decoded := utilBase64Decode text text.length
  match entry.value with
  | .uInt value =>
    if put.rejected = false ∧ decoded.1 = .none ∧ value ≤ 1 then
      some
        ({ characteristic := put.target.characteristic, service := put.target.service, accessory := put.target.accessory
           authorizationData := .inBuffer (entry.authorizationData.map fun _ => decoded.2)
            (Stream'.appendStream' (text.drop decoded.2.length) entry.following) }, value = 1)
    else none
  | _ => none

/-- The authorization data of the request, all of it, is a credential that holds the right to write. -/
def CredentialOnList (d : Device) (request : HAPBoolCharacteristicWriteRequest) : Prop :=
  ∃ m, request.authorizationData.bytes = some m ∧
    ∃ r ∈ d.acl.store writeRight, r.bytes = m.take request.authorizationData.numBytes

/-- The entry is authorised: it reaches the handler with a credential that holds the right to write. A request does not change the
lists, so that they are the same for all its entries. -/
def HAPIPPut.Grants (put : HAPIPPut) (d : Device) (entry : HAPIPWriteEntry) : Prop :=
  ∃ request value, put.handled entry = some (request, value) ∧ CredentialOnList d request

/-- The entry is refused: it reaches the handler without such a credential. -/
def HAPIPPut.Refuses (put : HAPIPPut) (d : Device) (entry : HAPIPWriteEntry) : Prop :=
  ∃ request value, put.handled entry = some (request, value) ∧ ¬ CredentialOnList d request

/-- Success is told for what was authorised: whatever the state of the bulb and of the disk, the handler answers `kHAPError_None` for these
entries and `kHAPError_NotAuthorized` for the refused ones, the request is answered 204 only if all its writes were authorised, and a body
reports exactly the refused ones. -/
structure ToldTruth (put : HAPIPPut) (d : Device) : Prop where
  handler : ∀ entry ∈ put.entries, ∀ request value, put.handled entry = some (request, value) →
    ∀ io d₁ err events d₂, d₁.acl = d.acl → handleLightBulbOnWrite io request value d₁ = .ok (err, events, d₂) →
      (CredentialOnList d request → err = .none) ∧ (¬ CredentialOnList d request → err = .notAuthorized)
  noContent : ∀ out, putCharacteristics put d = .ok (.noContent, out) →
    ∀ entry ∈ put.entries, entry.value ≠ .none → put.Grants d entry
  multiStatus : ∀ statuses out, putCharacteristics put d = .ok (.multiStatus statuses, out) →
    List.Forall₂ (fun entry status => status = kHAPIPAccessoryServerStatusCodeInsufficientAuthorization ↔ put.Refuses d entry)
      put.entries statuses

namespace WriteStatusAux

/-- The handler never answers anything but `kHAPError_None`. -/
theorem handleLightBulbOnWrite_err {io value : Bool} {request : HAPBoolCharacteristicWriteRequest} {d d' : Device}
    {err : HAPError} {events : List Event} (h : handleLightBulbOnWrite io request value d = .ok (err, events, d')) :
    err = .none := by
  unfold handleLightBulbOnWrite at h
  obtain ⟨v, -, h⟩ := bind_ok h
  split_ifs at h
  · obtain ⟨d₁, -, h⟩ := bind_ok h
    cases h
    rfl
  · cases h
    rfl
  · cases h
    rfl

/-- The handler answers `kHAPError_None` where the bulb is at the value already, whoever asks. -/
theorem exists_answer {d : Device} (hd : d.WellFormed) (io : Bool) (request : HAPBoolCharacteristicWriteRequest) (value : Bool) :
    ∃ d₁ : Device, d₁.acl = d.acl ∧ handleLightBulbOnWrite io request value d₁ = .ok (.none, [], d₁) := by
  let d₁ : Device := { d with accessoryConfiguration := { lightBulbOn := boolByte value, keyValueStore := true } }
  have hd₁ : d₁.WellFormed := hd
  refine ⟨d₁, rfl, ?_⟩
  by_cases hr : Authorised d₁ request
  · exact handleLightBulbOnWrite_unchanged hd₁ hr io rfl
  · exact handleLightBulbOnWrite_refused hd₁ hr io value

variable {put : HAPIPPut}

/-- The status of a write: success if it reaches the handler, and otherwise that of an invalid value. -/
theorem handleCharacteristicWriteRequest_status (hput : put.rejected = false) {entry : HAPIPWriteEntry} {value : Nat}
    {d d' : Device} {status : Int} {events : List Event} (hv : entry.value = .uInt value)
    (h : handleCharacteristicWriteRequest entry.io put.target.characteristic put.target.service put.target.accessory
      ⟨value, entry.authorizationData, entry.following⟩ d = .ok (status, events, d')) :
    status = if (put.handled entry).isSome then kHAPIPAccessoryServerStatusCodeSuccess
      else kHAPIPAccessoryServerStatusCodeInvalidValueInWrite := by
  simp only [handleCharacteristicWriteRequest] at h
  simp only [HAPIPPut.handled, hv, hput, true_and]
  split_ifs at h with hdec hval
  · cases h
    simp [hdec]
  · rw [not_not] at hdec
    obtain ⟨⟨err, out⟩, hw, heq⟩ := map_ok h
    cases heq
    obtain rfl := handleLightBulbOnWrite_err hw
    simp [hdec, hval, convertCharacteristicWriteErrorToStatusCode]
  · cases h
    simp [hval]

/-- What a status tells: success is told only for entries that reach the handler, and insufficient authorization for none. -/
def StatusOf (put : HAPIPPut) (entry : HAPIPWriteEntry) (status : Int) : Prop :=
  (status = kHAPIPAccessoryServerStatusCodeSuccess → entry.value ≠ .none → (put.handled entry).isSome = true) ∧
    status ≠ kHAPIPAccessoryServerStatusCodeInsufficientAuthorization

/-- The status of a subscription is none of an insufficient authorization. -/
theorem handleEventNotification_status (target : HAPIPTarget) (ev : HAPIPEventNotificationState) (session : HAPIPSession) :
    (handleEventNotification target ev session).1 ≠ kHAPIPAccessoryServerStatusCodeInsufficientAuthorization := by
  have hsuccess : kHAPIPAccessoryServerStatusCodeSuccess ≠ kHAPIPAccessoryServerStatusCodeInsufficientAuthorization := by
    decide
  cases ev with
  | undefined => exact (by decide : (-70410 : Int) ≠ -70411)
  | disabled => exact hsuccess
  | enabled =>
    simp only [handleEventNotification]
    split_ifs
    · exact hsuccess
    · exact (by decide : (-70407 : Int) ≠ -70411)
    · exact hsuccess

/-- What the status of an entry tells. -/
theorem handleWriteEntry_status (hput : put.rejected = false) {entry : HAPIPWriteEntry} {session session' : HAPIPSession}
    {d d' : Device} {status : Int} {events : List Event}
    (h : handleWriteEntry put.target entry session d = .ok (status, events, session', d')) : StatusOf put entry status := by
  unfold handleWriteEntry at h
  have hinvalid : kHAPIPAccessoryServerStatusCodeInvalidValueInWrite ≠
      kHAPIPAccessoryServerStatusCodeInsufficientAuthorization := by decide
  have hother : StatusOf put entry kHAPIPAccessoryServerStatusCodeInvalidValueInWrite :=
    ⟨fun hs => absurd hs (by decide), hinvalid⟩
  split at h
  · -- a subscription only
    rename_i hv
    cases h
    exact ⟨fun _ hne => absurd hv hne, handleEventNotification_status _ _ _⟩
  · rename_i value hv
    obtain ⟨⟨status', events', d₁⟩, hw, h⟩ := bind_ok h
    have hstatus := handleCharacteristicWriteRequest_status hput hv hw
    simp only at h
    split_ifs at h with hread
    · cases h
      exact ⟨fun hs => absurd hs (by decide), by decide⟩
    · cases h
      cases hsome : (put.handled entry).isSome with
      | true =>
        rw [hsome, if_pos rfl] at hstatus
        subst hstatus
        exact ⟨fun _ _ => hsome, by decide⟩
      | false =>
        rw [hsome, if_neg (by simp)] at hstatus
        subst hstatus
        exact hother
  · cases h
    exact hother

/-- What the statuses of a request tell, and what it means that its return value is 0. -/
theorem handleCharacteristicWriteRequests_statuses (hput : put.rejected = false) {entries : List HAPIPWriteEntry} :
    ∀ {session session' : HAPIPSession} {d d' : Device} {r : Int} {statuses : List Int} {events : List Event},
      handleCharacteristicWriteRequests put.target entries session d = .ok (r, statuses, events, session', d') →
      List.Forall₂ (StatusOf put) entries statuses ∧
        (r = 0 → ∀ entry ∈ entries, entry.value ≠ .none → (put.handled entry).isSome = true) := by
  induction entries with
  | nil =>
    intro session session' d d' r statuses events h
    cases h
    exact ⟨List.Forall₂.nil, fun _ entry hmem => by simp at hmem⟩
  | cons entry entries ih =>
    intro session session' d d' r statuses events h
    obtain ⟨⟨status, events₁, session₁, d₁⟩, hentry, h⟩ := bind_ok h
    obtain ⟨⟨r₂, statuses₂, events₂, session₂, d₂⟩, hrest, h⟩ := bind_ok h
    obtain ⟨hall, hzero⟩ := ih hrest
    have hstatus := handleWriteEntry_status hput hentry
    cases h
    refine ⟨List.Forall₂.cons hstatus hall, fun hr => ?_⟩
    have hgood : status = kHAPIPAccessoryServerStatusCodeSuccess ∧ r₂ = 0 := by
      by_cases hbad : status ≠ kHAPIPAccessoryServerStatusCodeSuccess ∨ entry.response
      · rw [if_pos hbad] at hr
        simp at hr
      · rw [if_neg hbad] at hr
        exact ⟨not_not.mp (not_or.mp hbad).1, hr⟩
    intro entry' hmem hwrite
    rcases List.mem_cons.mp hmem with rfl | hmem
    · exact hstatus.1 hgood.1 hwrite
    · exact hzero hgood.2 entry' hmem hwrite

/-- The answer to a request, whatever becomes of its timed write. -/
theorem putCharacteristics_answer {d d' : Device} {response : HAPIPResponse} {events : List Event} {session' : HAPIPSession}
    (h : putCharacteristics put d = .ok (response, events, session', d')) : ∃ out, put.answer d = .ok (response, out) := by
  obtain ⟨⟨response', events', session₁, d₁⟩, hanswer, h⟩ := bind_ok h
  simp only at h
  split_ifs at h
  · cases h
    exact ⟨_, hanswer⟩
  · cases h
    exact ⟨_, hanswer⟩

/-- The answer 204 is given only if all writes reach the handler. -/
theorem answer_noContent {d : Device} {out : List Event × HAPIPSession × Device} (h : put.answer d = .ok (.noContent, out)) :
    ∀ entry ∈ put.entries, entry.value ≠ .none → (put.handled entry).isSome = true := by
  have hbody : ∀ statuses, writeCharacteristicWriteResponse put statuses ≠ .noContent := by
    intro statuses
    unfold writeCharacteristicWriteResponse
    split_ifs <;> simp
  unfold HAPIPPut.answer at h
  split_ifs at h with hrej hnil
  · simp only [Except.ok.injEq, Prod.mk.injEq] at h
    exact absurd h.1 (hbody _)
  · rw [hnil]
    simp
  · obtain ⟨⟨r, statuses, events, session', d'⟩, hall, h⟩ := bind_ok h
    simp only [Except.ok.injEq, Prod.mk.injEq] at h
    split_ifs at h with hr
    · exact (handleCharacteristicWriteRequests_statuses (by simpa using hrej) hall).2 hr
    · exact absurd h.1 (hbody _)

/-- A body never reports insufficient authorization. -/
theorem answer_multiStatus {d : Device} {statuses : List Int} {out : List Event × HAPIPSession × Device}
    (h : put.answer d = .ok (.multiStatus statuses, out)) :
    List.Forall₂ (fun _ status => status ≠ kHAPIPAccessoryServerStatusCodeInsufficientAuthorization) put.entries statuses := by
  have hbody : ∀ statuses', writeCharacteristicWriteResponse put statuses' = .multiStatus statuses → statuses' = statuses := by
    intro statuses' h
    unfold writeCharacteristicWriteResponse at h
    split_ifs at h
    exact HAPIPResponse.multiStatus.inj h
  unfold HAPIPPut.answer at h
  split_ifs at h with hrej hnil
  · simp only [Except.ok.injEq, Prod.mk.injEq] at h
    obtain rfl := hbody _ h.1
    exact List.forall₂_map_right_iff.mpr (List.forall₂_same.mpr fun _ _ => by decide)
  · cases h
  · obtain ⟨⟨r, statuses', events, session', d'⟩, hall, h⟩ := bind_ok h
    simp only [Except.ok.injEq, Prod.mk.injEq] at h
    split_ifs at h with hr
    · simp at h
    · obtain rfl := hbody _ h.1
      exact (handleCharacteristicWriteRequests_statuses (by simpa using hrej) hall).1.imp fun _ _ hs => hs.2

end WriteStatusAux

open WriteStatusAux

/-- For every well-formed access control list and every request with any list of entries, in any session: what the handler answers
and what the controller is told is what was authorised, if and only if every write that reaches the handler has for its authorization data
a credential on the list. -/
theorem write_status_told_iff (put : HAPIPPut) (d : Device) (hd : d.WellFormed) :
    ToldTruth put d ↔
      ∀ entry ∈ put.entries, ∀ request value, put.handled entry = some (request, value) → CredentialOnList d request := by
  constructor
  · intro h entry hmem request value hreq
    by_contra hr
    obtain ⟨d₁, hacl, hwrite⟩ := exists_answer hd entry.io request value
    have herr := (h.handler entry hmem request value hreq entry.io d₁ _ _ _ hacl hwrite).2 hr
    cases herr
  · intro hall
    have hnone : ∀ entry ∈ put.entries, ¬ put.Refuses d entry := by
      rintro entry hmem ⟨request, value, hreq, hr⟩
      exact hr (hall entry hmem request value hreq)
    refine ⟨fun entry hmem request value hreq io d₁ err events d₂ _ hw => ?_, fun out hput entry hmem hwrite => ?_,
      fun statuses out hput => ?_⟩
    · exact ⟨fun _ => handleLightBulbOnWrite_err hw, fun hr => absurd (hall entry hmem request value hreq) hr⟩
    · obtain ⟨out', hanswer⟩ := putCharacteristics_answer hput
      obtain ⟨⟨request, value⟩, hreq⟩ := Option.isSome_iff_exists.mp (answer_noContent hanswer entry hmem hwrite)
      exact ⟨request, value, hreq, hall entry hmem request value hreq⟩
    · obtain ⟨out', hanswer⟩ := putCharacteristics_answer hput
      have hboth := (List.forall₂_and_left (p := fun entry => ¬ put.Refuses d entry) _ _).mpr
        ⟨hnone, answer_multiStatus hanswer⟩
      exact hboth.imp fun entry status h => iff_of_false h.2 h.1

/-- An entry with this value and authorization data, and a disk that answers. -/
def plainEntry (value : HAPIPWriteValue) (authorizationData : Option (List UInt8)) : HAPIPWriteEntry :=
  ⟨value, .undefined, false, authorizationData, fun _ => 0, true⟩

/-- A request with these entries, on a session without subscriptions. -/
def plainPut (entries : List HAPIPWriteEntry) : HAPIPPut where
  target := ⟨1, 2, 3⟩
  entries := entries
  pid := none
  session := ⟨[], 4, 0, 0⟩
  now := 0
  fits _ := true

/-- The bulb is switched on and off with the text of a credential that holds the right, one value is none of a Bool, and one text is none
of base64. -/
def grantedPut : HAPIPPut :=
  plainPut [plainEntry (.uInt 1) (some base64OfZeros), plainEntry (.uInt 2) (some base64OfZeros), plainEntry (.uInt 0) (some base64OfZeros),
    plainEntry (.uInt 1) (some [33])]

/-- Two writes are carried out, and the two that do not reach the handler are reported as invalid. -/
theorem write_status_told_granted :
    (∃ out, putCharacteristics grantedPut grantedDevice = .ok (.multiStatus [0, -70410, 0, -70410], out)) ∧
      ToldTruth grantedPut grantedDevice := by
  refine ⟨⟨_, rfl⟩, (write_status_told_iff grantedPut _ grantedDevice_wellFormed).mpr ?_⟩
  intro entry hmem request value hreq
  simp only [grantedPut, plainPut, List.mem_cons, List.not_mem_nil, or_false] at hmem
  rcases hmem with rfl | rfl | rfl | rfl
  · cases hreq
    exact ⟨_, rfl, .uniform 0, by decide, rfl⟩
  · cases hreq
  · cases hreq
    exact ⟨_, rfl, .uniform 0, by decide, rfl⟩
  · cases hreq

/-- One write of On = true without any authorization data. -/
def unauthorisedPut : HAPIPPut := plainPut [plainEntry (.uInt 1) none]

/-- One write of On = true with authorization data of 33 NULs. -/
def overlongPut : HAPIPPut := plainPut [plainEntry (.uInt 1) (some (List.replicate 44 65))]

/-- The refused write is answered 204 No Content, and so is the one with a byte more than a credential, which is carried out. -/
theorem write_status_told_not :
    ((∃ out, putCharacteristics unauthorisedPut (Device.start none) = .ok (.noContent, out)) ∧
      ¬ ToldTruth unauthorisedPut (Device.start none)) ∧
    (∃ events session d, putCharacteristics overlongPut grantedDevice = .ok (.noContent, events, session, d) ∧
      d.gLightBulbState = true) ∧ ¬ ToldTruth overlongPut grantedDevice := by
  refine ⟨⟨⟨_, rfl⟩, fun h => ?_⟩, ⟨_, _, _, rfl, rfl⟩, fun h => ?_⟩
  · obtain ⟨request, value, hreq, m, hm, -⟩ := h.noContent _ rfl _ (List.mem_singleton.mpr rfl) (by decide)
    cases hreq
    cases hm
  · obtain ⟨request, value, hreq, m, hm, r, -, hr⟩ := h.noContent _ rfl _ (List.mem_singleton.mpr rfl) (by decide)
    cases hreq
    have hlen := congrArg List.length hr
    rw [r.length_eq, Stream'.length_take] at hlen
    cases hlen

end CGuard
