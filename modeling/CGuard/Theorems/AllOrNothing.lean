import CGuard.Lemmas.RecordsRun
import CGuard.Theorems.Undecodable

/-!
# What a command leaves that cannot be applied

The entries of a rights list are applied one by one, and the first that cannot be applied ends the process: what was applied before
it stays applied. There is no way back, and no next command.
-/

namespace CGuard

open LinkedHeap Machine UndecodableAux

/-- One pair applied to the lists, by an append or by a delete: nothing if the right has no list, or the pair no record to delete. -/
def AclStore.applyPair (add : Bool) (ad : TypeAuthorizationData) (σ : AclStore) (right : TypeRight) : Option AclStore :=
  (rightIndex right).bind fun r =>
    if add then some (Function.update σ r (ad :: σ r))
    else if ad ∈ σ r then some (Function.update σ r ((σ r).erase ad)) else none

/-- All pairs applied, one after the other. -/
def AclStore.applyPairs (add : Bool) (ad : TypeAuthorizationData) (rights : List TypeRight) (σ : AclStore) : Option AclStore :=
  rights.foldlM (AclStore.applyPair add ad) σ

/-- The message is an `A` command. -/
def isAddCommand (payload : List UInt8) : Bool := payload.head? = some 'A'.toUInt8

/-- Entry `i` of the rights list can be applied to the lists: its right is below `RIGHT_NUM`, and there is memory for the record of an
`A` command, or a record for an `a` command. -/
def CanApply (env : HandlerEnv) (payload : List UInt8) (s : Acl) (ad : TypeAuthorizationData) (i : Nat) (right : TypeRight) :
    Prop :=
  AclStore.applyPair (isAddCommand payload) ad s.store right ≠ none ∧
    (isAddCommand payload = true → malloc s.heap (env.node i) ≠ none)

/-- All or nothing: every pair is applied or none is, and the handler returns. -/
def AllOrNothing (payload : List UInt8) (ad : TypeAuthorizationData) (rights : List TypeRight) (d : Device) (out : Outcome) :
    Prop :=
  out.ending = .returned ∧
    (AclStore.applyPairs (isAddCommand payload) ad rights d.acl.store = some out.device.acl.store ∨
      out.device.acl.store = d.acl.store)

/-- What the command does: the first `k` pairs are applied, all of them if the handler returns. Otherwise entry `k` cannot be applied,
and the process ends with `exit(-1)`, unless it ends in a delete from a list without any record. -/
def AppliesPrefix (env : HandlerEnv) (payload : List UInt8) (ad : TypeAuthorizationData) (rights : List TypeRight) (d : Device)
    (out : Outcome) : Prop :=
  ∃ k ≤ rights.length,
    AclStore.applyPairs (isAddCommand payload) ad (rights.take k) d.acl.store = some out.device.acl.store ∧
    (k = rights.length → out.ending = .returned) ∧
    ∀ right, rights[k]? = some right →
      ¬ CanApply env payload out.device.acl ad k right ∧
      ((isAddCommand payload = true ∨ ∀ r, rightIndex right = some r → out.device.acl.store r ≠ []) → out.ending = .exit (-1))

namespace AllOrNothingAux

/-- Calls that each apply one pair apply all of them. -/
theorem applyPairs_of_succeeds {call : Nat → TypeRight → Acl → Except Fault (Int × Acl)} {ad : TypeAuthorizationData}
    {add : Bool} (hc : RecordsCalls call ad)
    (hcall : ∀ i right s s', Represents s s.store → aclStep s (hc.acl i right) = .ok (s', 0) →
      AclStore.applyPair add ad s.store right = some s'.store) {rights : List TypeRight} :
    ∀ {i : Nat} {s s' : Acl}, Represents s s.store → Succeeds s (hc.calls i rights) s' →
      AclStore.applyPairs add ad rights s.store = some s'.store := by
  induction rights with
  | nil =>
    intro i s s' _ h
    cases h
    rfl
  | cons right rights ih =>
    intro i s s' hs h
    obtain ⟨t, hm, hrest⟩ := succeeds_cons.mp h
    simp only [AclStore.applyPairs, List.foldlM_cons, hcall i right s t hs hm]
    exact ih (aclStep_store hs hm).2.2 hrest

/-- An append that returns 0 applies its pair. -/
theorem append_applyPair {env : HandlerEnv} {ad : TypeAuthorizationData} (i : Nat) (right : TypeRight) (s s' : Acl)
    (hs : Represents s s.store) (hm : aclStep s ((addCalls env ad).acl i right) = .ok (s', 0)) :
    AclStore.applyPair true ad s.store right = some s'.store := by
  obtain ⟨c, r, hc, hr, -, hstore⟩ := aclStep_append_store hs hm
  cases hc
  simp only [AclStore.applyPair, hr, Option.bind_some, if_true, hstore]

/-- A delete that returns 0 applies its pair. -/
theorem delete_applyPair {ad : TypeAuthorizationData} (i : Nat) (right : TypeRight) (s s' : Acl)
    (hs : Represents s s.store) (hm : aclStep s ((removeCalls ad).acl i right) = .ok (s', 0)) :
    AclStore.applyPair false ad s.store right = some s'.store := by
  obtain ⟨c, r, hc, hr, hmem, hstore⟩ := aclStep_delete_store hs hm
  cases hc
  simp only [AclStore.applyPair, hr, Option.bind_some, Bool.false_eq_true, if_false, if_pos hmem, hstore]

/-- An append that cannot succeed is of an entry that cannot be applied. -/
theorem not_canApply_add {env : HandlerEnv} {payload : List UInt8} (hadd : isAddCommand payload = true) {s : Acl}
    {ad : TypeAuthorizationData} {i : Nat} {right : TypeRight}
    (h : ∀ s', aclStep s ((addCalls env ad).acl i right) ≠ .ok (s', 0)) : ¬ CanApply env payload s ad i right := by
  rintro ⟨hpair, hroom⟩
  cases hr : rightIndex right with
  | none => simp [AclStore.applyPair, hr] at hpair
  | some r =>
    obtain ⟨s', hm⟩ := @aclStep_append_ok s ad right (env.node i) r hr (hroom hadd)
    exact h s' hm

/-- A delete that cannot succeed is of an entry that cannot be applied. -/
theorem not_canApply_remove {env : HandlerEnv} {payload : List UInt8} (hadd : isAddCommand payload = false) {s : Acl}
    (hs : Represents s s.store) {ad : TypeAuthorizationData} {i : Nat} {right : TypeRight}
    (h : ∀ s', aclStep s ((removeCalls ad).acl i right) ≠ .ok (s', 0)) : ¬ CanApply env payload s ad i right := by
  rintro ⟨hpair, -⟩
  rw [hadd] at hpair
  cases hr : rightIndex right with
  | none => simp [AclStore.applyPair, hr] at hpair
  | some r =>
    by_cases hmem : ad ∈ s.store r
    · obtain ⟨s', hm⟩ := aclStep_delete_ok hs hr hmem
      exact h s' hm
    · simp [AclStore.applyPair, hr, hmem] at hpair

/-- `CC_DeleteACL` returns if the right has no list, or a list with a record. -/
theorem ccDeleteACL_returns {s : Acl} (hs : Represents s s.store) (ad : TypeAuthorizationData) {right : TypeRight}
    (h : ∀ r, rightIndex right = some r → s.store r ≠ []) : ∃ r, ccDeleteACL (some ad) right s = .ok r := by
  have hne : DeleteInhabited s (.delete (some ad) right) := by
    intro r hr hnone
    exact h r hr ((hs.head_none_iff r).mp hnone)
  obtain ⟨s', hdel, -⟩ := hs.delete hne
  exact ⟨_, hdel⟩

end AllOrNothingAux

open AllOrNothingAux

/-- For every `A` or `a` command with a credential that decodes and a rights list that is read, of any length, and every well-formed
access control list: the command applies a prefix of its pairs. Either that is the whole list, and the handler returns; or the next
entry cannot be applied, and the process ends with what the prefix has left. -/
theorem acl_command_applies_prefix (env : HandlerEnv) (payload : List UInt8) (d : Device) (hd : d.WellFormed)
    (hcmd : isAclCommand payload) (ad : TypeAuthorizationData) (hfield : decodedField payload = some ad)
    (rights : List TypeRight) (hrights : (aclArguments env payload).map Prod.snd = .ok rights) :
    AppliesPrefix env payload ad rights d (iotSubscribeCallbackHandler env payload d) := by
  obtain ⟨ad', hargs⟩ : ∃ ad', aclArguments env payload = .ok (ad', rights) := by
    cases h : aclArguments env payload with
    | error f =>
      rw [h] at hrights
      cases hrights
    | ok args =>
      rw [h] at hrights
      cases hrights
      exact ⟨args.1, rfl⟩
  obtain rfl := aclArguments_decoded hargs hfield
  rcases hcmd with hcmd | hcmd
  · have hadd : isAddCommand payload = true := by simp [isAddCommand, hcmd]
    rw [handler_add env d hcmd]
    obtain ⟨k, hk, hsucc, hall, hstop⟩ := (addCalls env ad').exists_taken (Call.ccAppendACL ad') rights 0 d.acl
    simp only [aclCommand, hargs, AppliesPrefix, hadd]
    refine ⟨k, hk, applyPairs_of_succeeds (addCalls env ad') append_applyPair hd hsucc, hall, fun right hright => ?_⟩
    have hs := hstop right hright
    rw [Nat.zero_add] at hs
    exact ⟨not_canApply_add hadd hs.not_ok, fun _ => hs.exit_of_ok rfl⟩
  · have hadd : isAddCommand payload = false := by
      simp only [isAddCommand, hcmd]
      decide
    rw [handler_remove env d hcmd]
    obtain ⟨k, hk, hsucc, hall, hstop⟩ := (removeCalls ad').exists_taken (Call.ccDeleteACL ad') rights 0 d.acl
    simp only [aclCommand, hargs, AppliesPrefix, hadd]
    refine ⟨k, hk, applyPairs_of_succeeds (removeCalls ad') delete_applyPair hd hsucc, hall, fun right hright => ?_⟩
    have hs := hstop right hright
    have hwf := hsucc.represents hd
    refine ⟨not_canApply_remove hadd hwf fun s' => ?_, fun hne => ?_⟩
    · exact hs.not_ok s'
    · obtain ⟨r, hok⟩ := ccDeleteACL_returns hwf ad' (hne.resolve_left (by simp))
      exact hs.exit_of_ok hok

/-- A list of two rights that can both be applied. -/
theorem acl_command_applies_prefix_whole :
    AppliesPrefix (.plain 1) (aclPayload "A" base64OfZeros "2 {1,0}") (.uniform 0) [1, 0] (Device.start none)
      (iotSubscribeCallbackHandler (.plain 1) (aclPayload "A" base64OfZeros "2 {1,0}") (Device.start none)) :=
  acl_command_applies_prefix _ _ _ (Device.wellFormed_start none) (Or.inl rfl) (.uniform 0) (by decide) [1, 0] rfl

/-- The second right is not below `RIGHT_NUM`: the first pair stays applied, and the process ends. -/
theorem acl_command_all_or_nothing_not :
    let payload := aclPayload "A" base64OfZeros "2 {1,5}"
    let out := iotSubscribeCallbackHandler (.plain 1) payload (Device.start none)
    decodedField payload = some (.uniform 0) ∧ (aclArguments (.plain 1) payload).map Prod.snd = .ok [1, 5] ∧
      out.device.acl.store writeRight = [.uniform 0] ∧ out.ending = .exit (-1) ∧
      ¬ AllOrNothing payload (.uniform 0) [1, 5] (Device.start none) out := by
  intro payload out
  have hexit : out.ending = .exit (-1) := by decide
  refine ⟨by decide, rfl, by decide, hexit, fun h => ?_⟩
  have hreturned := h.1
  rw [hexit] at hreturned
  cases hreturned

end CGuard
