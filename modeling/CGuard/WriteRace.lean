import CGuard.System

/-!
# A HomeKit write and a revocation at the same time

The two channels are two threads. The handler of a HomeKit write walks the list first and sets the bulb then, and between the two steps
the thread of the manufacturer's channel may append and delete records: there is no lock that the two threads share for it.
-/

namespace CGuard

open LinkedHeap Machine

/-- A write whose credential has been looked up, with the verdict. -/
structure PendingWrite where
  request : HAPBoolCharacteristicWriteRequest
  value : Bool
  verdict : Int

/-- The first step of `HandleLightBulbOnWrite`: the call of `CC_CheckAuthData`. -/
def decideWrite (request : HAPBoolCharacteristicWriteRequest) (value : Bool) (d : Device) : Except Fault PendingWrite :=
  (ccCheckAuthData (request.authorizationData.bytes.map credentialAt) rightLightBulbOnCharacteristicWRITE d.acl).map
    (PendingWrite.mk request value)

/-- The second step of `HandleLightBulbOnWrite`: what follows the verdict. -/
def applyWrite (io : Bool) (p : PendingWrite) (d : Device) : Except Fault (HAPError × List Event × Device) :=
  if p.verdict = 0 then
    if d.accessoryConfiguration.lightBulbOn ≠ boolByte p.value then do
      let d := { d with accessoryConfiguration.lightBulbOn := boolByte p.value }
      let d ← saveAccessoryState io (operateDevice p.value d)
      .ok (.none, [⟨p.request.characteristic, p.request.service, p.request.accessory⟩], d)
    else .ok (.none, [], d)
  else .ok (.none, [], d)

/-- With nothing in between, the two steps are the handler. -/
theorem handleLightBulbOnWrite_steps (io : Bool) (request : HAPBoolCharacteristicWriteRequest) (value : Bool) (d : Device) :
    handleLightBulbOnWrite io request value d = (decideWrite request value d).bind fun p => applyWrite io p d := by
  unfold handleLightBulbOnWrite decideWrite
  cases ccCheckAuthData (request.authorizationData.bytes.map credentialAt) rightLightBulbOnCharacteristicWRITE d.acl with
  | error f => rfl
  | ok v => rfl

/-- The device, and the write the HomeKit thread is in the middle of. -/
structure WriteRace where
  device : Device
  pending : Option PendingWrite

/-- A step of one of the threads: the next step of a write, or an append or a delete of an `A` or `a` command. -/
inductive RaceAct where
  | homeKit (io : Bool) (request : HAPBoolCharacteristicWriteRequest) (value : Bool)
  | append (ad : TypeAuthorizationData) (right : TypeRight) (want : Option Addr)
  | delete (ad : TypeAuthorizationData) (right : TypeRight)

/-- A call of `add_ACL_records` or `remove_ACL_records`: the process ends if it does not return 0. -/
def recordStep (c : AclCall (Option Addr)) (d : Device) : Except Ending Device :=
  match aclStep d.acl c with
  | .error f => .error (.fault f)
  | .ok (acl, ret) => if ret = 0 then .ok { d with acl := acl } else .error (.exit (-1))

/-- One step. The HomeKit thread finishes the write it is in, or starts the next one. -/
def raceStep : Step WriteRace RaceAct Unit Ending
  | s, .homeKit io request value =>
    match s.pending with
    | none => (orFault (decideWrite request value s.device)).map fun p => ({ s with pending := some p }, ())
    | some p => (orFault (applyWrite io p s.device)).map fun r => ({ device := r.2.2, pending := none }, ())
  | s, .append ad right want =>
    (recordStep (.append (some ad) right want) s.device).map fun d => ({ s with device := d }, ())
  | s, .delete ad right => (recordStep (.delete (some ad) right) s.device).map fun d => ({ s with device := d }, ())

/-! ## What a step does -/

/-- A call on the lists that returns 0 changes the lists only. -/
theorem recordStep_ok {c : AclCall (Option Addr)} {d d' : Device} (h : recordStep c d = .ok d') :
    aclStep d.acl c = .ok (d'.acl, 0) ∧ d' = { d with acl := d'.acl } := by
  unfold recordStep at h
  split at h
  · simp at h
  · rename_i acl ret hm
    split_ifs at h with hret
    cases h
    subst hret
    exact ⟨hm, rfl⟩

theorem orFault_ok {α : Type} {x : Except Fault α} {a : α} (h : orFault x = .ok a) : x = .ok a := by
  cases x with
  | error f => cases h
  | ok b => cases h; rfl

/-- What applying a write does: the lists stay as they are, and the bulb only changes by a write that was let through and carries
another value than the cached one. -/
theorem applyWrite_ok {io : Bool} {p : PendingWrite} {d : Device} {r : HAPError × List Event × Device}
    (h : applyWrite io p d = .ok r) :
    r.2.2.acl = d.acl ∧ (r.2.2.gLightBulbState ≠ d.gLightBulbState →
      p.verdict = 0 ∧ d.accessoryConfiguration.lightBulbOn ≠ boolByte p.value ∧ d.gLightBulbState ≠ p.value) := by
  unfold applyWrite at h
  split_ifs at h with hv hne
  · obtain ⟨d₁, hsave, heq⟩ := bind_ok h
    cases heq
    rw [saveAccessoryState_ok hsave]
    exact ⟨rfl, fun hbulb => ⟨hv, hne, Ne.symm hbulb⟩⟩
  · cases h
    exact ⟨rfl, fun hbulb => absurd rfl hbulb⟩
  · cases h
    exact ⟨rfl, fun hbulb => absurd rfl hbulb⟩

/-- The verdict of the first step is 0 for an authorised request only. -/
theorem decideWrite_ok {request : HAPBoolCharacteristicWriteRequest} {value : Bool} {d : Device} (hd : d.WellFormed)
    {p : PendingWrite} (h : decideWrite request value d = .ok p) :
    p.request = request ∧ p.value = value ∧ (p.verdict = 0 ↔ Authorised d request) := by
  obtain ⟨v, hv, hiff⟩ := ccCheckAuthData_eq hd request
  rw [decideWrite, hv] at h
  cases h
  exact ⟨rfl, rfl, hiff⟩

end CGuard
