import CGuard.Lemmas.Records
import CGuard.Lemmas.RightsText

/-!
# Credentials that do not decode

The handler prints an error of the base64 decoder and goes on with whatever its buffer holds. An `A` or `a` command for a field
that does not decode to a whole credential leaves the access control list alone exactly when its first entry cannot be applied.
-/

namespace CGuard

open CString

/-- The credential that the 44 characters of the field are the base64 text of, if they are the text of a whole one. -/
def decodedField (payload : List UInt8) : Option TypeAuthorizationData := do
  let base64ad ← strncpy base64AuthorizationDataLength (payload.drop adOffset)
  let decoded := mbedtlsBase64Decode authorizationDataLength base64ad
  if h : decoded.ret = 0 ∧ decoded.written.length = authorizationDataLength then some ⟨decoded.written, h.2⟩ else none

/-- The message is an `A` or an `a` command. -/
def isAclCommand (payload : List UInt8) : Prop := payload.head? = some 'A'.toUInt8 ∨ payload.head? = some 'a'.toUInt8

/-- The lists change only if the field decodes, and only in records of the credential it decodes to. -/
def ChangesOnlyDecoded (payload : List UInt8) (d d' : Device) : Prop :=
  match decodedField payload with
  | some ad => ∀ r, (d'.acl.store r).filter (· ≠ ad) = (d.acl.store r).filter (· ≠ ad)
  | none => d'.acl = d.acl

/-- An entry of the rights list can be applied: it is below `RIGHT_NUM`, and there is memory for a record of an `A` command, or the
list holds a record of the bytes in the buffer for an `a` command. -/
def EntryApplies (env : HandlerEnv) (payload : List UInt8) (d : Device) (ad : TypeAuthorizationData) (right : TypeRight) :
    Prop :=
  ∃ r, rightIndex right = some r ∧
    if payload.head? = some 'A'.toUInt8 then malloc d.acl.heap (env.node 0) ≠ none else ad ∈ d.acl.store r

/-- The rights list is read without a fault, and its first entry can be applied to the bytes in the buffer. -/
def FirstEntryApplies (env : HandlerEnv) (payload : List UInt8) (d : Device) : Prop :=
  ∃ ad right rights, aclArguments env payload = .ok (ad, right :: rights) ∧ EntryApplies env payload d ad right

namespace UndecodableAux

/-- Bytes that fill the buffer replace all of it. -/
theorem overwrite_full (prior : TypeAuthorizationData) {written : List UInt8} (h : written.length = authorizationDataLength) :
    prior.overwrite written = ⟨written, h⟩ := by
  have hdrop : prior.bytes.drop written.length = [] := List.drop_eq_nil_of_le (by rw [prior.length_eq, h])
  simp only [TypeAuthorizationData.overwrite, hdrop, List.append_nil, TypeAuthorizationData.mk.injEq]
  exact List.take_of_length_le (Nat.le_of_eq h)

/-- What the handler reads from a field that decodes is the credential it decodes to. -/
theorem aclArguments_decoded {env : HandlerEnv} {payload : List UInt8} {ad ad' : TypeAuthorizationData}
    {rights : List TypeRight} (h : aclArguments env payload = .ok (ad, rights)) (hd : decodedField payload = some ad') :
    ad = ad' := by
  obtain ⟨-, field, -, hfield, rfl, -⟩ := aclArguments_ok h
  simp only [decodedField, hfield, Option.bind_eq_bind, Option.bind_some] at hd
  split_ifs at hd with hfull
  cases hd
  exact overwrite_full env.ad hfull.2

/-- A command, given which first entries its call can be applied to: those that change the lists. -/
theorem command_changes_iff {env : HandlerEnv} {payload : List UInt8} {d : Device}
    {call : TypeAuthorizationData → Nat → TypeRight → Acl → Except Fault (Int × Acl)}
    {record : TypeAuthorizationData → TypeRight → Option Int → Call} (hd : d.WellFormed)
    (hc : ∀ ad, RecordsCalls (call ad) ad)
    (hchange : ∀ ad right rights, EntryApplies env payload d ad right →
      (recordsLoop (call ad) (record ad) 0 (right :: rights) d.acl).1 ≠ d.acl)
    (hfirst : ∀ ad right s', aclStep d.acl ((hc ad).acl 0 right) = .ok (s', 0) → EntryApplies env payload d ad right) :
    ChangesOnlyDecoded payload d (aclCommand env payload (fun ad => recordsLoop (call ad) (record ad) 0) d).device ↔
      decodedField payload ≠ none ∨ ¬ FirstEntryApplies env payload d := by
  unfold ChangesOnlyDecoded aclCommand
  cases hargs : aclArguments env payload with
  | error f =>
    have hnot : ¬ FirstEntryApplies env payload d := by
      rintro ⟨ad, right, rights, h, -⟩
      exact absurd (hargs.symm.trans h) (by simp)
    cases decodedField payload with
    | some ad => simp
    | none => simp [hnot]
  | ok args =>
    obtain ⟨ad, rights⟩ := args
    cases hfield : decodedField payload with
    | some ad' =>
      obtain rfl := aclArguments_decoded hargs hfield
      simp only [ne_eq, reduceCtorEq, not_false_eq_true, true_or, iff_true]
      exact (hc ad).others _ 0 rights d.acl hd
    | none =>
      simp only [ne_eq, not_true_eq_false, false_or]
      constructor
      · rintro hsame ⟨ad', right, rights', h, happ⟩
        cases hargs.symm.trans h
        exact hchange ad right rights' happ hsame
      · intro hnot
        cases rights with
        | nil => rfl
        | cons right rights =>
          refine (hc ad).first_failed _ fun s' hstep => hnot ?_
          exact ⟨ad, right, rights, hargs, hfirst ad right s' hstep⟩

/-- An append that returns 0 had an index and memory. -/
theorem append_ok {s s' : Acl} {ad : TypeAuthorizationData} {right : TypeRight} {want : Option LinkedHeap.Addr}
    (h : aclStep s (.append (some ad) right want) = .ok (s', 0)) :
    ∃ r, rightIndex right = some r ∧ malloc s.heap want ≠ none := by
  cases hr : rightIndex right with
  | none =>
    simp only [aclStep, ccAppendACL, hr] at h
    cases h
  | some r =>
    refine ⟨r, rfl, fun hm => ?_⟩
    simp only [aclStep, ccAppendACL, hr, hm] at h
    cases h

/-- A delete that returns 0 had an index and a record. -/
theorem delete_ok {s s' : Acl} (hs : Represents s s.store) {ad : TypeAuthorizationData} {right : TypeRight}
    (h : aclStep s (.delete (some ad) right) = .ok (s', 0)) : ∃ r, rightIndex right = some r ∧ ad ∈ s.store r := by
  obtain ⟨-, hret, -⟩ := aclStep_store hs h
  simp only [AclCall.abs, AclStore.step, AclStore.delete] at hret
  cases hr : rightIndex right with
  | none => simp [hr] at hret
  | some r =>
    refine ⟨r, rfl, ?_⟩
    by_contra hmem
    simp [hr, hmem] at hret

end UndecodableAux

open UndecodableAux

/-- For every payload of an `A` or `a` command, every well-formed access control list and every content of the handler's buffers:
the lists change only if the field decodes, and only in records of what it decodes to, if and only if the field decodes to a whole
credential or the first entry of the rights list cannot be applied. -/
theorem acl_changes_only_decoded_iff (env : HandlerEnv) (payload : List UInt8) (d : Device) (hd : d.WellFormed)
    (hcmd : isAclCommand payload) :
    ChangesOnlyDecoded payload d (iotSubscribeCallbackHandler env payload d).device ↔
      decodedField payload ≠ none ∨ ¬ FirstEntryApplies env payload d := by
  rcases hcmd with hcmd | hcmd
  · rw [handler_add env d hcmd]
    refine command_changes_iff hd (addCalls env) ?_ ?_
    · rintro ad right rights ⟨r, hr, happ⟩
      rw [if_pos hcmd] at happ
      exact addAclRecords_ne hd hr happ
    · intro ad right s' hstep
      obtain ⟨r, hr, hroom⟩ := append_ok hstep
      exact ⟨r, hr, by rwa [if_pos hcmd]⟩
  · have hnot : payload.head? ≠ some 'A'.toUInt8 := by
      rw [hcmd]
      decide
    rw [handler_remove env d hcmd]
    refine command_changes_iff hd removeCalls ?_ ?_
    · rintro ad right rights ⟨r, hr, happ⟩
      rw [if_neg hnot] at happ
      exact removeAclRecords_ne hd hr happ
    · intro ad right s' hstep
      obtain ⟨r, hr, hmem⟩ := delete_ok hd hstep
      exact ⟨r, hr, by rwa [if_neg hnot]⟩

/-- A field without padding: the lists stay as they are because its only right is not below `RIGHT_NUM`. -/
theorem acl_changes_only_decoded_no_entry :
    ChangesOnlyDecoded (aclPayload "A" (List.replicate 44 65) "1 {2}") (Device.start none)
      (iotSubscribeCallbackHandler (.plain 1) (aclPayload "A" (List.replicate 44 65) "1 {2}") (Device.start none)).device := by
  refine (acl_changes_only_decoded_iff _ _ _ (Device.wellFormed_start none) (Or.inl rfl)).mpr (Or.inr ?_)
  rintro ⟨ad, right, rights, hargs, r, hr, -⟩
  cases hargs
  cases hr

/-- The same field with a right that exists: the decoder refuses it, and the bytes that were in the buffer become a record. -/
theorem acl_changes_only_decoded_not :
    let payload := aclPayload "A" (List.replicate 44 65) "1 {1}"
    let env := { HandlerEnv.plain 1 with ad := .uniform 9 }
    let d := (iotSubscribeCallbackHandler env payload (Device.start none)).device
    mbedtlsBase64Decode 32 (List.replicate 44 65) = ⟨mbedtlsErrBase64BufferTooSmall, some 33, []⟩ ∧
      decodedField payload = none ∧ d.acl.store writeRight = [.uniform 9] ∧
      ¬ ChangesOnlyDecoded payload (Device.start none) d := by
  intro payload env d
  have hstore : d.acl.store writeRight = [.uniform 9] := by decide
  refine ⟨by decide, rfl, hstore, fun h => ?_⟩
  have hsame : d.acl = (Device.start none).acl := h
  rw [hsame] at hstore
  exact absurd hstore (by decide)

end CGuard
