import CGuard.HapRequest
import CGuard.System

/-!
# How a credential is matched

The write handler passes a pointer on and drops the length, and the list walk compares 32 bytes from there. The verdict is the one
for the request's own bytes exactly when they are a whole credential, or when no record agrees with them as far as both go.
-/

namespace CGuard

/-- A write of the other value is not dropped: the request is taken for an authorised one. -/
def TreatedAsAuthorised (d : Device) (request : HAPBoolCharacteristicWriteRequest) : Prop :=
  handleLightBulbOnWrite true request (d.accessoryConfiguration.lightBulbOn == 0) d ≠ .ok (.none, [], d)

/-- The request with this authorization data in a buffer that goes on with `following`. -/
def HAPBoolCharacteristicWriteRequest.withData (request : HAPBoolCharacteristicWriteRequest) (own : Option (List UInt8))
    (following : Memory) : HAPBoolCharacteristicWriteRequest :=
  { request with authorizationData := .inBuffer own following }

/-- Whatever follows the authorization data, the verdict is the same, and the request is taken for an authorised one exactly when
its data is a whole credential and a record of the list. -/
structure MatchesExactly (d : Device) (request : HAPBoolCharacteristicWriteRequest) (own : Option (List UInt8)) : Prop where
  following : ∀ f g : Memory,
    TreatedAsAuthorised d (request.withData own f) ↔ TreatedAsAuthorised d (request.withData own g)
  exact : ∀ f : Memory,
    TreatedAsAuthorised d (request.withData own f) ↔
      ∃ bytes, own = some bytes ∧ bytes.length = authorizationDataLength ∧ ∃ r ∈ d.acl.store writeRight, r.bytes = bytes

/-- No record of the list agrees with the data as far as both go. -/
def NoOverlap (d : Device) (bytes : List UInt8) : Prop :=
  ∀ r ∈ d.acl.store writeRight, r.bytes.take bytes.length ≠ bytes.take authorizationDataLength

namespace CredentialAux

/-- The handler takes for authorised exactly the requests whose pointer names 32 bytes that are a record. -/
theorem treatedAsAuthorised_iff {d : Device} (hd : d.WellFormed) (request : HAPBoolCharacteristicWriteRequest) :
    TreatedAsAuthorised d request ↔ Authorised d request := by
  unfold TreatedAsAuthorised
  constructor
  · intro h
    by_contra ha
    exact h (handleLightBulbOnWrite_refused hd ha _ _)
  · intro ha h
    rcases handleLightBulbOnWrite_ok hd h with ⟨-, hcached⟩ | ⟨-, -, -, -, hevents⟩
    · exact absurd (hcached ha) (ne_boolByte_beq_zero _)
    · simp at hevents

/-- What the walk compares, for data shorter than a credential: the data, completed from what follows it. -/
theorem credentialAt_short {bytes : List UInt8} {following : Memory} (h : bytes.length ≤ authorizationDataLength) :
    (credentialAt (Stream'.appendStream' bytes following)).bytes =
      bytes ++ following.take (authorizationDataLength - bytes.length) := by
  have hlen : bytes.length + (authorizationDataLength - bytes.length) = authorizationDataLength := by omega
  rw [Stream'.append_take, hlen]
  rfl

/-- What the walk compares, for data at least as long as a credential: its first 32 bytes. -/
theorem credentialAt_long {bytes : List UInt8} {following : Memory} (h : authorizationDataLength ≤ bytes.length) :
    (credentialAt (Stream'.appendStream' bytes following)).bytes = bytes.take authorizationDataLength :=
  Stream'.take_append_of_le_length _ _ _ h

/-- Two credentials with the same bytes are the same. -/
theorem ad_ext {a b : TypeAuthorizationData} (h : a.bytes = b.bytes) : a = b := by
  cases a
  cases b
  cases h
  rfl

/-- What the walk compares agrees with the data as far as both go. -/
theorem credentialAt_overlap (bytes : List UInt8) (following : Memory) :
    (credentialAt (Stream'.appendStream' bytes following)).bytes.take bytes.length = bytes.take authorizationDataLength := by
  rcases Nat.le_total bytes.length authorizationDataLength with h | h
  · rw [credentialAt_short h, List.take_left, List.take_of_length_le h]
  · rw [credentialAt_long h, List.take_of_length_le]
    rw [List.length_take]
    exact Nat.min_le_right _ _

/-- A record that agrees with the data as far as both go is what the walk compares, for some memory after the data. -/
theorem exists_following {bytes : List UInt8} {r : TypeAuthorizationData}
    (h : r.bytes.take bytes.length = bytes.take authorizationDataLength) :
    ∃ following : Memory, credentialAt (Stream'.appendStream' bytes following) = r := by
  have hr := r.length_eq
  refine ⟨Stream'.appendStream' (r.bytes.drop bytes.length) (Stream'.const 0), ad_ext ?_⟩
  rcases Nat.le_total bytes.length authorizationDataLength with hle | hle
  · rw [List.take_of_length_le hle] at h
    rw [credentialAt_short hle, Stream'.take_append_of_le_length _ _ _ (by rw [List.length_drop, hr])]
    rw [List.take_of_length_le (by rw [List.length_drop, hr])]
    conv_rhs => rw [← List.take_append_drop bytes.length r.bytes, h]
  · rw [credentialAt_long hle, ← h, List.take_of_length_le (by omega)]

/-- The request with data is authorised when the walk finds what it compares. -/
theorem authorised_withData_iff {d : Device} {request : HAPBoolCharacteristicWriteRequest} {bytes : List UInt8}
    {following : Memory} :
    Authorised d (request.withData (some bytes) following) ↔
      credentialAt (Stream'.appendStream' bytes following) ∈ d.acl.store writeRight := by
  constructor
  · rintro ⟨m, hm, hmem⟩
    obtain rfl : Stream'.appendStream' bytes following = m := Option.some.inj hm
    exact hmem
  · intro hmem
    exact ⟨_, rfl, hmem⟩

/-- The handler's verdict on a request with data. -/
theorem treatedAsAuthorised_withData {d : Device} (hd : d.WellFormed) {request : HAPBoolCharacteristicWriteRequest}
    {bytes : List UInt8} (f : Memory) :
    TreatedAsAuthorised d (request.withData (some bytes) f) ↔
      credentialAt (Stream'.appendStream' bytes f) ∈ d.acl.store writeRight :=
  (treatedAsAuthorised_iff hd _).trans authorised_withData_iff

/-- A request that is never authorised, and has no whole credential of the list, is matched exactly. -/
theorem matchesExactly_of_refused {d : Device} {request : HAPBoolCharacteristicWriteRequest} {own : Option (List UInt8)}
    (hrefused : ∀ f, ¬ TreatedAsAuthorised d (request.withData own f))
    (hno : ∀ bytes, own = some bytes → bytes.length = authorizationDataLength →
      ¬ ∃ r ∈ d.acl.store writeRight, r.bytes = bytes) :
    MatchesExactly d request own := by
  refine ⟨fun f g => iff_of_false (hrefused f) (hrefused g), fun f => iff_of_false (hrefused f) ?_⟩
  rintro ⟨bytes, hb, hlen, hr⟩
  exact hno bytes hb hlen hr

/-- A request without data is refused. -/
theorem matchesExactly_none {d : Device} (hd : d.WellFormed) (request : HAPBoolCharacteristicWriteRequest) :
    MatchesExactly d request none := by
  refine matchesExactly_of_refused (fun f h => ?_) (fun bytes hb => by simp at hb)
  obtain ⟨m, hm, -⟩ := (treatedAsAuthorised_iff hd _).mp h
  cases hm

/-- For data of the length of a credential the walk compares the data. -/
theorem matchesExactly_of_length {d : Device} (hd : d.WellFormed) (request : HAPBoolCharacteristicWriteRequest)
    {bytes : List UInt8} (hlen : bytes.length = authorizationDataLength) : MatchesExactly d request (some bytes) := by
  have hbytes : ∀ f, (credentialAt (Stream'.appendStream' bytes f)).bytes = bytes := by
    intro f
    rw [credentialAt_long (Nat.le_of_eq hlen.symm), List.take_of_length_le (Nat.le_of_eq hlen)]
  have hexact : ∀ f, TreatedAsAuthorised d (request.withData (some bytes) f) ↔
      ∃ r ∈ d.acl.store writeRight, r.bytes = bytes := by
    intro f
    rw [treatedAsAuthorised_withData hd]
    constructor
    · intro hmem
      exact ⟨_, hmem, hbytes f⟩
    · rintro ⟨r, hr, hrb⟩
      rwa [ad_ext ((hbytes f).trans hrb.symm)]
  refine ⟨fun f g => (hexact f).trans (hexact g).symm, fun f => ?_⟩
  rw [hexact f]
  constructor
  · intro hr
    exact ⟨bytes, rfl, hlen, hr⟩
  · rintro ⟨bytes', hb, -, hr⟩
    rwa [Option.some.inj hb]

/-- Data with which no record agrees is refused, whatever follows it. -/
theorem matchesExactly_of_noOverlap {d : Device} (hd : d.WellFormed) (request : HAPBoolCharacteristicWriteRequest)
    {bytes : List UInt8} (hno : NoOverlap d bytes) : MatchesExactly d request (some bytes) := by
  refine matchesExactly_of_refused (fun f ht => ?_) ?_
  · exact hno _ ((treatedAsAuthorised_withData hd f).mp ht) (credentialAt_overlap bytes f)
  · rintro bytes' hb hlen ⟨r, hr, hrb⟩
    cases hb
    refine hno r hr ?_
    rw [hrb, List.take_length, List.take_of_length_le (Nat.le_of_eq hlen)]

/-- Data with which a record agrees is authorised for some memory after it. -/
theorem exists_authorised {d : Device} (hd : d.WellFormed) (request : HAPBoolCharacteristicWriteRequest)
    {bytes : List UInt8} (h : ¬ NoOverlap d bytes) : ∃ f, TreatedAsAuthorised d (request.withData (some bytes) f) := by
  unfold NoOverlap at h
  push Not at h
  obtain ⟨r, hr, hoverlap⟩ := h
  obtain ⟨f, hf⟩ := exists_following hoverlap
  exact ⟨f, (treatedAsAuthorised_withData hd f).mpr (by rwa [hf])⟩

end CredentialAux

open CredentialAux

/-- For every well-formed access control list and every request, with no data or data of any length: the verdict depends on the
request's own bytes only and accepts exactly the whole credentials on the list, if and only if there is no data, or the data is 32
bytes long, or no record agrees with the data as far as both go. -/
theorem credential_matched_exactly_iff (d : Device) (hd : d.WellFormed) (request : HAPBoolCharacteristicWriteRequest)
    (own : Option (List UInt8)) :
    MatchesExactly d request own ↔
      ∀ bytes, own = some bytes → bytes.length = authorizationDataLength ∨ NoOverlap d bytes := by
  constructor
  · rintro h bytes rfl
    by_contra hnot
    rw [not_or] at hnot
    obtain ⟨f, hf⟩ := exists_authorised hd request hnot.2
    obtain ⟨bytes', hb, hlen, -⟩ := (h.exact f).mp hf
    cases hb
    exact hnot.1 hlen
  · intro h
    cases own with
    | none => exact matchesExactly_none hd request
    | some bytes =>
      rcases h bytes rfl with hlen | hno
      · exact matchesExactly_of_length hd request hlen
      · exact matchesExactly_of_noOverlap hd request hno

/-- The device when the credential of 32 NULs holds the right to write, and the HomeKit channel has been started. -/
def grantedDevice : Device :=
  let d := (iotSubscribeCallbackHandler (.plain 1) (aclPayload "A" base64OfZeros "1 {1}") (Device.start none)).device
  { d with accessoryConfiguration := { lightBulbOn := 0, keyValueStore := true } }

theorem grantedDevice_wellFormed : grantedDevice.WellFormed :=
  (handler_frame (.plain 1) (aclPayload "A" base64OfZeros "1 {1}") (Device.start none)).wellFormed
    (Device.wellFormed_start none)

/-- A credential of the right length is matched exactly. -/
theorem credential_matched_exactly_whole :
    MatchesExactly grantedDevice ⟨1, 2, 3, ⟨none, 0⟩⟩ (some (List.replicate 32 0)) :=
  (credential_matched_exactly_iff grantedDevice grantedDevice_wellFormed ⟨1, 2, 3, ⟨none, 0⟩⟩ (some (List.replicate 32 0))).mpr
    fun bytes hb => Or.inl (by cases hb; rfl)

/-- 44 times the letter A as authorization data: it decodes in place to 33 NULs, and the write takes effect because the first 32
of them are a record. -/
theorem credential_matched_exactly_not :
    utilBase64Decode (List.replicate 44 65) 44 = (.none, List.replicate 33 0) ∧
      (∃ d', handleCharacteristicWriteRequest true 1 2 3 ⟨1, some (List.replicate 44 65), fun _ => 7⟩ grantedDevice =
        .ok (kHAPIPAccessoryServerStatusCodeSuccess, [⟨1, 2, 3⟩], d') ∧ d'.gLightBulbState = true) ∧
      ¬ MatchesExactly grantedDevice ⟨1, 2, 3, ⟨none, 0⟩⟩ (some (List.replicate 33 0)) := by
  refine ⟨by decide, ⟨_, rfl, rfl⟩, fun h => ?_⟩
  have htreated : TreatedAsAuthorised grantedDevice
      ((⟨1, 2, 3, ⟨none, 0⟩⟩ : HAPBoolCharacteristicWriteRequest).withData (some (List.replicate 33 0)) (fun _ => 7)) :=
    (treatedAsAuthorised_iff grantedDevice_wellFormed _).mpr ⟨_, rfl, by decide⟩
  obtain ⟨bytes, hb, hlen, -⟩ := (h.exact fun _ => 7).mp htreated
  cases hb
  cases hlen

end CGuard
