import CGuard.Lemmas.CredentialText
import CGuard.Lemmas.RecordsRun
import CGuard.Theorems.Credential
import CGuard.Theorems.Undecodable

/-!
# One text, two channels

An `A` or `a` command and a HomeKit write decode the text of a credential with two unrelated decoders. For the texts of 32 bytes the two
agree: what one takes for a whole credential the other takes for the same one, and the same texts can stand in for it on both channels. The
error of the one decoder is ignored and the length that the other answers is dropped, so that no other text is safe.
-/

namespace CGuard

open Machine CString Base64Text UndecodableAux CredentialAux

/-- The text is that of a credential for the `A` and `a` commands. -/
def MeansOnAws (t : List UInt8) (ad : TypeAuthorizationData) : Prop :=
  mbedtlsBase64Decode authorizationDataLength t = ⟨0, some authorizationDataLength, ad.bytes⟩

/-- The text is that of a credential for a HomeKit write, which decodes it in place. -/
def MeansOnHap (t : List UInt8) (ad : TypeAuthorizationData) : Prop := utilBase64Decode t t.length = (.none, ad.bytes)

instance (t : List UInt8) (ad : TypeAuthorizationData) : Decidable (MeansOnAws t ad) := by
  unfold MeansOnAws
  infer_instance

instance (t : List UInt8) (ad : TypeAuthorizationData) : Decidable (MeansOnHap t ad) := by
  unfold MeansOnHap
  infer_instance

/-- The authorization data of a HomeKit write that presents the text, in a buffer that goes on with `following`. -/
def presentedData (t : List UInt8) (following : Memory) : AuthorizationData :=
  let written := (utilBase64Decode t t.length).2
  .inBuffer (some written) (Stream'.appendStream' (t.drop written.length) following)

/-- A HomeKit write that presents the text passes the check, whatever its buffer holds after the text. -/
def PassesCheck (t : List UInt8) (d : Device) : Prop :=
  (utilBase64Decode t t.length).1 = .none ∧ ∀ following,
    ccCheckAuthData ((presentedData t following).bytes.map credentialAt) rightLightBulbOnCharacteristicWRITE d.acl = .ok 0

/-- Two texts are interchangeable for the commands: every `A` or `a` command does with the one in its field what it does with the other. -/
def InterchangeableOnAws (t t' : List UInt8) : Prop :=
  ∀ env front rest d, front.length = adOffset → isAclCommand front → d.WellFormed →
    iotSubscribeCallbackHandler env (front ++ t ++ rest) d = iotSubscribeCallbackHandler env (front ++ t' ++ rest) d

/-- Two texts are interchangeable for HomeKit: every write does the same when it presents the one as when it presents the other. -/
def InterchangeableOnHap (t t' : List UInt8) : Prop :=
  ∀ io characteristic service accessory value following d, d.WellFormed →
    handleCharacteristicWriteRequest io characteristic service accessory ⟨value, some t, following⟩ d =
      handleCharacteristicWriteRequest io characteristic service accessory ⟨value, some t', following⟩ d

/-- The channels agree on what a text means: it is that of the same credential for both, and once an `A` command with the text has granted
the right to write, a HomeKit write that presents it passes the check. -/
structure TextAgrees (t : List UInt8) : Prop where
  meaning : ∀ ad, MeansOnAws t ad ↔ MeansOnHap t ad
  granted : ∀ env front rest d rights, d.WellFormed → front.length = adOffset → front.head? = some 'A'.toUInt8 →
    (aclArguments env (front ++ t ++ rest)).map Prod.snd = .ok rights → rightLightBulbOnCharacteristicWRITE ∈ rights →
    (iotSubscribeCallbackHandler env (front ++ t ++ rest) d).ending = .returned →
    PassesCheck t (iotSubscribeCallbackHandler env (front ++ t ++ rest) d).device

/-- The channels agree on two texts: on what each means, and on whether one can stand in for the other. -/
structure ChannelsAgree (t t' : List UInt8) : Prop where
  left : TextAgrees t
  right : TextAgrees t'
  interchangeable : InterchangeableOnAws t t' ↔ InterchangeableOnHap t t'

namespace CredentialTextAux

/-- What one decoder takes for a credential the other takes for the same one. -/
theorem means_iff {t : List UInt8} (ht : t.length = base64AuthorizationDataLength) (ad : TypeAuthorizationData) :
    MeansOnAws t ad ↔ MeansOnHap t ad := by
  unfold MeansOnAws MeansOnHap
  rw [mbedtlsBase64Decode_iff ht, utilBase64Decode_iff ht ad.length_eq]

/-- A text of 32 bytes is that of a credential. -/
theorem exists_means {t : List UInt8} (ht : t.length = base64AuthorizationDataLength) (hp : IsPadded t) : ∃ ad, MeansOnAws t ad :=
  ⟨⟨bytes t, @bytes_length 10 t ht hp⟩, (mbedtlsBase64Decode_iff ht).mpr ⟨hp, rfl⟩⟩

/-- What a HomeKit write with the text of a credential presents is the credential. -/
theorem credentialAt_presented {t : List UInt8} {ad : TypeAuthorizationData} (hmeans : MeansOnHap t ad) (following : Memory) :
    (presentedData t following).bytes.map credentialAt = some ad := by
  simp only [presentedData, show utilBase64Decode t t.length = _ from hmeans, AuthorizationData.inBuffer, Option.map_some]
  refine congrArg some (ad_ext ?_)
  rw [credentialAt_long (Nat.le_of_eq ad.length_eq.symm), List.take_of_length_le (Nat.le_of_eq ad.length_eq)]

/-- Appends that all return 0 put the credential on the list of each of their rights. -/
theorem mem_of_succeeds {env : HandlerEnv} {ad : TypeAuthorizationData} {right : TypeRight} {r : Fin rightNum}
    (hr : rightIndex right = some r) {rights : List TypeRight} :
    ∀ {i : Nat} {s s' : Acl}, Represents s s.store → Succeeds s ((addCalls env ad).calls i rights) s' →
      ad ∈ s.store r ∨ right ∈ rights → ad ∈ s'.store r := by
  induction rights with
  | nil =>
    intro i s s' _ h hmem
    cases h
    exact hmem.resolve_right List.not_mem_nil
  | cons right' rights ih =>
    intro i s s' hs h hmem
    obtain ⟨t, hm, hrest⟩ := succeeds_cons.mp h
    obtain ⟨c, q, hc, hq, -, hstore⟩ := aclStep_append_store hs hm
    cases hc
    refine ih (aclStep_store hs hm).2.2 hrest ?_
    rw [hstore]
    by_cases hqr : r = q
    · subst hqr
      rw [Function.update_self]
      exact Or.inl List.mem_cons_self
    · rw [Function.update_of_ne hqr]
      rcases hmem with hmem | hmem
      · exact Or.inl hmem
      · rcases List.mem_cons.mp hmem with rfl | hmem
        · exact absurd (Option.some.inj (hr.symm.trans hq)) hqr
        · exact Or.inr hmem

/-- An `A` command that returns has put the credential of its field on the list of each of its rights. -/
theorem mem_of_returned {env : HandlerEnv} {payload : List UInt8} {d : Device} {rights : List TypeRight} {ad : TypeAuthorizationData}
    (hd : d.WellFormed) (hadd : payload.head? = some 'A'.toUInt8) (hargs : aclArguments env payload = .ok (ad, rights))
    (hret : (iotSubscribeCallbackHandler env payload d).ending = .returned) {right : TypeRight} (hmem : right ∈ rights)
    {r : Fin rightNum} (hr : rightIndex right = some r) :
    ad ∈ (iotSubscribeCallbackHandler env payload d).device.acl.store r := by
  rw [handler_add env d hadd] at hret ⊢
  simp only [aclCommand, hargs] at hret ⊢
  obtain ⟨k, hk, hsucc, -, hstop⟩ := (addCalls env ad).exists_taken (Call.ccAppendACL ad) rights 0 d.acl
  rcases Nat.lt_or_eq_of_le hk with hlt | rfl
  · have hlast := hstop rights[k] (List.getElem?_eq_getElem hlt)
    rcases hlast with ⟨ret, -, -, hexit⟩ | ⟨f, -, hfault⟩
    · exact absurd (hret.symm.trans hexit) (by simp)
    · exact absurd (hret.symm.trans hfault) (by simp)
  · rw [List.take_length] at hsucc
    exact mem_of_succeeds hr hd hsucc (Or.inr hmem)

/-! ### What an `A` or `a` command reads -/

section Command

variable {front t rest : List UInt8}

/-- The field starts at the text. -/
theorem drop_adOffset (hfront : front.length = adOffset) : (front ++ t ++ rest).drop adOffset = t ++ rest := by
  rw [List.append_assoc]
  exact List.drop_left' hfront

/-- The rights list is in what follows the text. -/
theorem drop_rightsOffset (hfront : front.length = adOffset) (ht : t.length = base64AuthorizationDataLength) :
    (front ++ t ++ rest).drop rightsOffset = rest.drop (ascii " rights: ").length := by
  have hlen : (front ++ t).length = adOffset + base64AuthorizationDataLength := by rw [List.length_append, hfront, ht]
  rw [rightsOffset, ← hlen, ← List.drop_drop, List.drop_left]

/-- The command is the one that its first character names. -/
theorem head?_command (hfront : front.length = adOffset) : (front ++ t ++ rest).head? = front.head? := by
  obtain ⟨b, bs, rfl⟩ : ∃ b bs, front = b :: bs := List.exists_cons_of_length_pos (by rw [hfront]; decide)
  rfl

/-- A command copies the text up to its first NUL into the field. -/
theorem aclArguments_field (env : HandlerEnv) {field : List UInt8} (hfront : front.length = adOffset)
    (ht : t.length = base64AuthorizationDataLength) (hfield : strncpy base64AuthorizationDataLength t = some field) :
    (aclArguments env (front ++ t ++ rest)).toOption =
      (cstring (rest.drop (ascii " rights: ").length)).bind fun text =>
        (commandRights env text).map fun rights => (fieldBuffer env field, rights) := by
  rw [aclArguments_toOption, drop_adOffset hfront, drop_rightsOffset hfront ht, strncpy_append (Nat.le_of_eq ht.symm), hfield]
  rfl

end Command

/-- Two texts that leave the same bytes in the buffer of the credential: a command reads the same from both. -/
theorem aclArguments_congr {env : HandlerEnv} {front t t' rest field field' : List UInt8} (hfront : front.length = adOffset)
    (ht : t.length = base64AuthorizationDataLength) (ht' : t'.length = base64AuthorizationDataLength)
    (hfield : strncpy base64AuthorizationDataLength t = some field) (hfield' : strncpy base64AuthorizationDataLength t' = some field')
    (h : fieldBuffer env field = fieldBuffer env field') :
    aclArguments env (front ++ t ++ rest) = aclArguments env (front ++ t' ++ rest) := by
  unfold fieldBuffer at h
  unfold aclArguments getAdRightArray
  rw [drop_adOffset hfront, drop_adOffset hfront, drop_rightsOffset hfront ht, drop_rightsOffset hfront ht',
    strncpy_append (Nat.le_of_eq ht.symm), strncpy_append (Nat.le_of_eq ht'.symm), hfield, hfield']
  simp only [inBounds, bind, Except.bind, h]

/-- A command that reads the same from both texts does the same. -/
theorem handler_congr {env : HandlerEnv} {payload payload' : List UInt8} (d : Device) (hcmd : isAclCommand payload)
    (hhead : payload'.head? = payload.head?) (h : aclArguments env payload = aclArguments env payload') :
    iotSubscribeCallbackHandler env payload d = iotSubscribeCallbackHandler env payload' d := by
  rcases hcmd with hcmd | hcmd
  · rw [handler_add env d hcmd, handler_add env d (hhead.trans hcmd)]
    unfold aclCommand
    rw [h]
  · rw [handler_remove env d hcmd, handler_remove env d (hhead.trans hcmd)]
    unfold aclCommand
    rw [h]

/-! ### A command that grants the right to write -/

/-- Before the text. -/
def grantFront : List UInt8 := ascii "A ad: "

/-- After the text. -/
def grantRest : List UInt8 := ascii " rights: 1 {1}" ++ [0]

/-- An environment in which nothing fails, with these bytes on the stack. -/
def grantEnv (prior : TypeAuthorizationData) : HandlerEnv := { HandlerEnv.plain 1 with ad := prior }

/-- What the first message leaves when it is the command with this text. -/
def grantOutcome (prior : TypeAuthorizationData) (t : List UInt8) : Outcome :=
  iotSubscribeCallbackHandler (grantEnv prior) (grantFront ++ t ++ grantRest) (Device.start none)

/-- What the command reads: what the field leaves in the buffer, and the right to write. -/
theorem grant_arguments {t field : List UInt8} (ht : t.length = base64AuthorizationDataLength)
    (hfield : strncpy base64AuthorizationDataLength t = some field) (prior : TypeAuthorizationData) :
    aclArguments (grantEnv prior) (grantFront ++ t ++ grantRest) = .ok (fieldBuffer (grantEnv prior) field, [1]) := by
  have hfront : grantFront.length = adOffset := rfl
  have htext : cstring (grantRest.drop (ascii " rights: ").length) = some (ascii "1 {1}") := by decide
  have hrights : commandRights (grantEnv prior) (ascii "1 {1}") = some [1] := by
    change commandRights (.plain 1) (ascii "1 {1}") = some [1]
    decide
  have hargs : (aclArguments (grantEnv prior) (grantFront ++ t ++ grantRest)).toOption =
      some (fieldBuffer (grantEnv prior) field, [1]) := by
    rw [aclArguments_field (grantEnv prior) hfront ht hfield, htext, Option.bind_some, hrights, Option.map_some]
  cases hread : aclArguments (grantEnv prior) (grantFront ++ t ++ grantRest) with
  | error f =>
    rw [hread] at hargs
    cases hargs
  | ok args =>
    rw [hread] at hargs
    exact congrArg Except.ok (Option.some.inj hargs)

/-- The credential that the command puts on the list of the right to write. -/
theorem grant_store {t field : List UInt8} (ht : t.length = base64AuthorizationDataLength)
    (hfield : strncpy base64AuthorizationDataLength t = some field) (prior : TypeAuthorizationData) :
    (grantOutcome prior t).ending = .returned ∧
      (grantOutcome prior t).calls = [.ccAppendACL (fieldBuffer (grantEnv prior) field) 1 (some 0)] ∧
      (grantOutcome prior t).device.acl.store writeRight = [fieldBuffer (grantEnv prior) field] := by
  have hout : grantOutcome prior t =
      (Device.start none).applied (addAclRecords (grantEnv prior) (fieldBuffer (grantEnv prior) field) [1] Acl.start) :=
    (handler_add (grantEnv prior) _ rfl).trans
      (aclCommand_applied (congrArg Except.toOption (grant_arguments ht hfield prior)) (addAclRecords _) (Device.start none))
  rw [hout]
  exact ⟨rfl, rfl, rfl⟩

theorem grantOutcome_wellFormed (prior : TypeAuthorizationData) (t : List UInt8) : (grantOutcome prior t).device.WellFormed :=
  (handler_frame (grantEnv prior) (grantFront ++ t ++ grantRest) (Device.start none)).wellFormed (Device.wellFormed_start none)

/-! ### Texts of no credential -/

/-- The decoder has made 32 bytes only if it says so. -/
theorem mbedtlsBase64Decode_full {field : List UInt8}
    (h : (mbedtlsBase64Decode authorizationDataLength field).written.length = authorizationDataLength) :
    mbedtlsBase64Decode authorizationDataLength field =
      ⟨0, some authorizationDataLength, (mbedtlsBase64Decode authorizationDataLength field).written⟩ := by
  unfold mbedtlsBase64Decode at h ⊢
  split at h
  · cases h
  · simp only at h ⊢
    split_ifs at h ⊢
    · cases h
    · cases h
    · rw [Decoded.mk.injEq]
      exact ⟨rfl, congrArg some h, rfl⟩

/-- A text of which the decoder does not make 32 bytes leaves the last byte of the buffer as it was. -/
theorem fieldBuffer_last {env : HandlerEnv} {field : List UInt8} (hlen : field.length = base64AuthorizationDataLength)
    (hp : ¬ IsPadded field) : (fieldBuffer env field).bytes[31]? = env.ad.bytes[31]? := by
  have hle := mbedtlsBase64Decode_length_le authorizationDataLength field
  have hne : (mbedtlsBase64Decode authorizationDataLength field).written.length ≠ authorizationDataLength := by
    intro h
    refine hp ((mbedtlsBase64Decode_iff (d := (mbedtlsBase64Decode authorizationDataLength field).written) hlen).mp ?_).1
    exact mbedtlsBase64Decode_full h
  have hlt : (mbedtlsBase64Decode authorizationDataLength field).written.length ≤ 31 := by
    change _ ≤ 32 at hle
    change _ ≠ 32 at hne
    omega
  simp only [fieldBuffer, TypeAuthorizationData.overwrite]
  rw [List.getElem?_take_of_lt (by decide), List.getElem?_append_right hlt, List.getElem?_drop, Nat.add_sub_cancel' hlt]

/-- What the command has granted is what the write that presents the text finds. -/
theorem presented_eq {t field : List UInt8} (h : TextAgrees t) (ht : t.length = base64AuthorizationDataLength)
    (hfield : strncpy base64AuthorizationDataLength t = some field) (prior : TypeAuthorizationData) (following : Memory) :
    (presentedData t following).bytes.map credentialAt = some (fieldBuffer (grantEnv prior) field) := by
  have hargs := congrArg (Except.map Prod.snd) (grant_arguments ht hfield prior)
  obtain ⟨hret, -, hstore⟩ := grant_store ht hfield prior
  obtain ⟨-, hpass⟩ := h.granted (grantEnv prior) grantFront grantRest (Device.start none) [1] (Device.wellFormed_start none) rfl rfl
    hargs List.mem_cons_self hret
  obtain ⟨p, hp⟩ : ∃ p, (presentedData t following).bytes.map credentialAt = some p := ⟨_, rfl⟩
  have hcheck := hpass following
  have hd := grantOutcome_wellFormed prior t
  unfold Device.WellFormed at hd
  change ccCheckAuthData _ _ (grantOutcome prior t).device.acl = .ok 0 at hcheck
  rw [hp, hd.check, Except.ok.injEq] at hcheck
  have hmem : p ∈ (grantOutcome prior t).device.acl.store writeRight := by
    by_contra hnot
    have hr : rightIndex rightLightBulbOnCharacteristicWRITE = some writeRight := rfl
    simp [AclStore.check, hr, hnot] at hcheck
  rw [hstore, List.mem_singleton] at hmem
  rw [hp, hmem]

/-- The channels do not agree on a text of no credential: a command for it grants what was in the buffer. -/
theorem isPadded_of_textAgrees {t : List UInt8} (h : TextAgrees t) (ht : t.length = base64AuthorizationDataLength) : IsPadded t := by
  obtain ⟨field, hfield⟩ := Option.isSome_iff_exists.mp (strncpy_isSome (Nat.le_of_eq ht.symm))
  by_contra hp
  have hnot : ¬ IsPadded field := by
    intro hpadded
    rw [← ht] at hfield
    rw [eq_of_strncpy hfield (zero_notMem_of_isPadded hpadded)] at hpadded
    exact hp hpadded
  have hsame := (presented_eq h ht hfield (.uniform 0) (Stream'.const 0)).symm.trans
    (presented_eq h ht hfield (.uniform 1) (Stream'.const 0))
  have hlast := congrArg (fun ad => ad.bytes[31]?) (Option.some.inj hsame)
  simp only [fieldBuffer_last (strncpy_length hfield) hnot] at hlast
  exact absurd hlast (by decide)

/-! ### The text of a credential -/

/-- A command copies all of the text of a credential. -/
theorem strncpy_of_isPadded {t : List UInt8} (ht : t.length = base64AuthorizationDataLength) (hp : IsPadded t) :
    strncpy base64AuthorizationDataLength t = some t := by
  have hcopy := strncpy_of_no_nul (zero_notMem_of_isPadded hp) []
  rwa [List.append_nil, ht] at hcopy

/-- A command with the text of a credential leaves the credential in the buffer. -/
theorem fieldBuffer_of_means {t : List UInt8} {ad : TypeAuthorizationData} (hmeans : MeansOnAws t ad) (env : HandlerEnv) :
    fieldBuffer env t = ad := by
  rw [fieldBuffer, show mbedtlsBase64Decode authorizationDataLength t = _ from hmeans, overwrite_full env.ad ad.length_eq]

/-- The texts of credentials are interchangeable for the commands exactly if they are the text of the same one. -/
theorem interchangeableOnAws_iff {t t' : List UInt8} {ad ad' : TypeAuthorizationData} (ht : t.length = base64AuthorizationDataLength)
    (ht' : t'.length = base64AuthorizationDataLength) (hp : IsPadded t) (hp' : IsPadded t') (hmeans : MeansOnAws t ad)
    (hmeans' : MeansOnAws t' ad') : InterchangeableOnAws t t' ↔ ad = ad' := by
  have hfield := strncpy_of_isPadded ht hp
  have hfield' := strncpy_of_isPadded ht' hp'
  constructor
  · intro h
    have hsame : (grantOutcome (.uniform 0) t).calls = (grantOutcome (.uniform 0) t').calls :=
      congrArg Outcome.calls (h (grantEnv (.uniform 0)) grantFront grantRest (Device.start none) rfl (Or.inl rfl)
        (Device.wellFormed_start none))
    rw [(grant_store ht hfield (.uniform 0)).2.1, (grant_store ht' hfield' (.uniform 0)).2.1, fieldBuffer_of_means hmeans,
      fieldBuffer_of_means hmeans'] at hsame
    cases hsame
    rfl
  · rintro rfl env front rest d hfront hcmd -
    have hbuffer : fieldBuffer env t = fieldBuffer env t' := by rw [fieldBuffer_of_means hmeans, fieldBuffer_of_means hmeans']
    refine handler_congr d ?_ ((head?_command hfront).trans (head?_command hfront).symm)
      (aclArguments_congr hfront ht ht' hfield hfield' hbuffer)
    rwa [isAclCommand, head?_command hfront]

/-- The handler looks at what the authorization data names, and at nothing else of it. -/
theorem handleLightBulbOnWrite_congr {characteristic service accessory : Nat} {data data' : AuthorizationData}
    (h : data.bytes.map credentialAt = data'.bytes.map credentialAt) (io value : Bool) (d : Device) :
    handleLightBulbOnWrite io ⟨characteristic, service, accessory, data⟩ value d =
      handleLightBulbOnWrite io ⟨characteristic, service, accessory, data'⟩ value d := by
  unfold handleLightBulbOnWrite
  rw [h]

/-- A write with a text that decodes. -/
theorem write_of_decoded {t : List UInt8} (hdecoded : (utilBase64Decode t t.length).1 = .none) (io : Bool)
    (characteristic service accessory value : Nat) (following : Memory) (d : Device) :
    handleCharacteristicWriteRequest io characteristic service accessory ⟨value, some t, following⟩ d =
      if value ≤ 1 then
        (handleLightBulbOnWrite io ⟨characteristic, service, accessory, presentedData t following⟩ (value = 1) d).map fun r =>
          (convertCharacteristicWriteErrorToStatusCode r.1, r.2)
      else .ok (kHAPIPAccessoryServerStatusCodeInvalidValueInWrite, [], d) := by
  simp only [handleCharacteristicWriteRequest, Option.getD_some, hdecoded, ne_eq, not_true_eq_false, if_false]
  rfl

/-- Texts that decode to data with the same first 32 bytes are interchangeable for HomeKit. -/
theorem interchangeableOnHap_of_presented {t t' : List UInt8} (ht : (utilBase64Decode t t.length).1 = .none)
    (ht' : (utilBase64Decode t' t'.length).1 = .none)
    (h : ∀ following, (presentedData t following).bytes.map credentialAt = (presentedData t' following).bytes.map credentialAt) :
    InterchangeableOnHap t t' := by
  intro io characteristic service accessory value following d _
  rw [write_of_decoded ht, write_of_decoded ht', handleLightBulbOnWrite_congr (h following)]

/-- The texts of credentials are interchangeable for HomeKit exactly if they are the text of the same one. -/
theorem interchangeableOnHap_iff {t t' : List UInt8} {ad ad' : TypeAuthorizationData} (ht : t.length = base64AuthorizationDataLength)
    (hp : IsPadded t) (hmeans : MeansOnAws t ad) (hhap : MeansOnHap t ad) (hhap' : MeansOnHap t' ad') :
    InterchangeableOnHap t t' ↔ ad = ad' := by
  constructor
  · intro h
    by_contra hne
    -- the device when only the first of the two credentials holds the right to write
    let d : Device := { (grantOutcome (.uniform 0) t).device with accessoryConfiguration := { lightBulbOn := 0, keyValueStore := true } }
    have hd : d.WellFormed := grantOutcome_wellFormed (.uniform 0) t
    have hstore : d.acl.store writeRight = [ad] := by
      rw [← fieldBuffer_of_means hmeans (grantEnv (.uniform 0))]
      exact (grant_store ht (strncpy_of_isPadded ht hp) (.uniform 0)).2.2
    have hrefused : ¬ Authorised d ⟨1, 2, 3, presentedData t' (Stream'.const 0)⟩ := by
      rintro ⟨m, hm, hmem⟩
      have hpresented := credentialAt_presented hhap' (Stream'.const 0)
      rw [show (presentedData t' (Stream'.const 0)).bytes = some m from hm, Option.map_some, Option.some.injEq] at hpresented
      rw [hstore, List.mem_singleton, hpresented] at hmem
      exact hne hmem.symm
    have hauth : Authorised d ⟨1, 2, 3, presentedData t (Stream'.const 0)⟩ := by
      refine ⟨_, rfl, ?_⟩
      have hpresented := Option.some.inj (credentialAt_presented hhap (Stream'.const 0))
      rw [hstore, List.mem_singleton]
      exact hpresented
    have hsame := h true 1 2 3 1 (Stream'.const 0) d hd
    rw [write_of_decoded (Prod.ext_iff.mp hhap).1, write_of_decoded (Prod.ext_iff.mp hhap').1, if_pos (Nat.le_refl 1),
      if_pos (Nat.le_refl 1), handleLightBulbOnWrite_refused hd hrefused] at hsame
    obtain ⟨⟨err, events, d'⟩, hwrite, heq⟩ := map_ok hsame
    rcases handleLightBulbOnWrite_ok hd hwrite with ⟨-, hcached⟩ | ⟨-, -, -, -, hevents⟩
    · have hzero : d.accessoryConfiguration.lightBulbOn ≠ boolByte (decide (1 = 1)) := by
        change (0 : UInt8) ≠ boolByte true
        decide
      exact hzero (hcached hauth)
    · have hnone := congrArg (fun r => r.2.1) heq
      simp [hevents] at hnone
  · rintro rfl
    refine interchangeableOnHap_of_presented (Prod.ext_iff.mp hhap).1 (Prod.ext_iff.mp hhap').1 fun following => ?_
    rw [credentialAt_presented hhap, credentialAt_presented hhap']

/-- The channels agree on the text of a credential. -/
theorem textAgrees_of_isPadded {t : List UInt8} (ht : t.length = base64AuthorizationDataLength) (hp : IsPadded t) : TextAgrees t := by
  refine ⟨means_iff ht, fun env front rest d rights hd hfront hadd hrights hmem hret => ?_⟩
  obtain ⟨ad, hmeans⟩ := exists_means ht hp
  have hhap := (means_iff ht ad).mp hmeans
  obtain ⟨⟨ad', rights'⟩, hargs, rfl⟩ := map_ok hrights
  obtain rfl : ad' = ad := by
    have hread := congrArg Except.toOption hargs
    rw [aclArguments_field env hfront ht (strncpy_of_isPadded ht hp), fieldBuffer_of_means hmeans] at hread
    obtain ⟨text, -, hread⟩ := Option.bind_eq_some_iff.mp hread
    obtain ⟨rights, -, heq⟩ := Option.map_eq_some_iff.mp hread
    exact (Prod.ext_iff.mp heq).1.symm
  have hhead : (front ++ t ++ rest).head? = some 'A'.toUInt8 := (head?_command hfront).trans hadd
  have hon := mem_of_returned hd hhead hargs hret hmem (r := writeRight) rfl
  have hd' := (handler_frame env (front ++ t ++ rest) d).wellFormed hd
  refine ⟨(Prod.ext_iff.mp hhap).1, fun following => ?_⟩
  rw [credentialAt_presented hhap, hd'.check]
  exact congrArg Except.ok (if_pos hon)

end CredentialTextAux

open CredentialTextAux

/-- For every two texts of 44 characters: the channels agree on what each of them means, a credential that an `A` command with one of them
has granted is accepted from a HomeKit write with it, and the two are interchangeable on one channel exactly when they are on the other, if
and only if both are 43 characters of the base64 alphabet and one padding. -/
theorem channels_agree_iff (t t' : List UInt8) (ht : t.length = base64AuthorizationDataLength)
    (ht' : t'.length = base64AuthorizationDataLength) : ChannelsAgree t t' ↔ IsPadded t ∧ IsPadded t' := by
  constructor
  · intro h
    exact ⟨isPadded_of_textAgrees h.left ht, isPadded_of_textAgrees h.right ht'⟩
  · rintro ⟨hp, hp'⟩
    obtain ⟨ad, hmeans⟩ := exists_means ht hp
    obtain ⟨ad', hmeans'⟩ := exists_means ht' hp'
    have hhap := (means_iff ht ad).mp hmeans
    have hhap' := (means_iff ht' ad').mp hmeans'
    refine ⟨textAgrees_of_isPadded ht hp, textAgrees_of_isPadded ht' hp', ?_⟩
    rw [interchangeableOnAws_iff ht ht' hp hp' hmeans hmeans', interchangeableOnHap_iff ht hp hmeans hhap hhap']

/-- The text of 32 NULs with the unused bits of its last character set. -/
def base64OfZerosTrailing : List UInt8 := List.replicate 42 65 ++ [68, padding]

/-- Two texts of the same credential: the channels agree that they are interchangeable. -/
theorem channels_agree_trailing : ChannelsAgree base64OfZeros base64OfZerosTrailing := by
  refine (channels_agree_iff base64OfZeros base64OfZerosTrailing rfl rfl).mpr ⟨⟨List.replicate 43 65, rfl, ?_⟩,
    List.replicate 42 65 ++ [68], rfl, ?_⟩
  · intro b hb
    rw [List.eq_of_mem_replicate hb]
    rfl
  · intro b hb
    rcases List.mem_append.mp hb with hb | hb
    · rw [List.eq_of_mem_replicate hb]
      rfl
    · rw [List.mem_singleton.mp hb]
      rfl

/-- 44 times the letter A: a HomeKit write takes it for the text of 32 NULs, whose length it does not look at, and a command for it is
refused by the decoder and grants what the buffer held. -/
theorem channels_agree_not :
    InterchangeableOnHap (List.replicate 44 65) base64OfZeros ∧ ¬ InterchangeableOnAws (List.replicate 44 65) base64OfZeros ∧
      (grantOutcome (.uniform 9) (List.replicate 44 65)).device.acl.store writeRight = [.uniform 9] ∧
      (grantOutcome (.uniform 9) base64OfZeros).device.acl.store writeRight = [.uniform 0] ∧
      ¬ PassesCheck (List.replicate 44 65) (grantOutcome (.uniform 9) (List.replicate 44 65)).device ∧
      ¬ ChannelsAgree (List.replicate 44 65) base64OfZeros := by
  have hdecoded : utilBase64Decode (List.replicate 44 65) (List.replicate 44 (65 : UInt8)).length = (.none, List.replicate 33 0) := by
    decide
  have hzeros : MeansOnHap base64OfZeros (.uniform 0) := by decide
  have hpresented : ∀ following, (presentedData (List.replicate 44 65) following).bytes.map credentialAt = some (.uniform 0) := by
    intro following
    simp only [presentedData, hdecoded, AuthorizationData.inBuffer, Option.map_some]
    exact congrArg some (ad_ext (credentialAt_long (by decide)))
  have hhap : InterchangeableOnHap (List.replicate 44 65) base64OfZeros := by
    refine interchangeableOnHap_of_presented (Prod.ext_iff.mp hdecoded).1 (Prod.ext_iff.mp hzeros).1 fun following => ?_
    rw [hpresented, credentialAt_presented hzeros]
  have hstack : (grantOutcome (.uniform 9) (List.replicate 44 65)).device.acl.store writeRight = [.uniform 9] := by decide
  have hgranted : (grantOutcome (.uniform 9) base64OfZeros).device.acl.store writeRight = [.uniform 0] := by decide
  have haws : ¬ InterchangeableOnAws (List.replicate 44 65) base64OfZeros := by
    intro h
    have hsame : grantOutcome (.uniform 9) (List.replicate 44 65) = grantOutcome (.uniform 9) base64OfZeros :=
      h (grantEnv (.uniform 9)) grantFront grantRest (Device.start none) rfl (Or.inl rfl) (Device.wellFormed_start none)
    rw [hsame, hgranted] at hstack
    exact absurd hstack (by decide)
  refine ⟨hhap, haws, hstack, hgranted, fun h => ?_, fun h => haws (h.interchangeable.mpr hhap)⟩
  have hcheck := h.2 (Stream'.const 0)
  rw [hpresented] at hcheck
  cases hcheck

end CGuard
