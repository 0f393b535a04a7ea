import CGuard.Lemmas.Records

/-!
# The two channels as one machine

The actions are whole calls: a command of the manufacturer's channel that works on the device, a HomeKit read, a HomeKit write,
and the start of the HomeKit channel, which loads the saved state. An action that ends the process or goes wrong ends the run.
-/

namespace CGuard

open Machine

/-- The commands that read or change the device or its access control list. -/
def isDeviceCommand (payload : List UInt8) : Bool := payload.head?.any (· ∈ ascii "nfqmAa")

/-- An action of the system, with what its environment answers. -/
inductive Act where
  | aws (env : HandlerEnv) (payload : List UInt8) (isCommand : isDeviceCommand payload)
  | read
  | write (io : Bool) (request : HAPBoolCharacteristicWriteRequest) (value : Bool)
  | appCreate (io : Bool)

/-- What an action answers: the calls of the handler, or the result of a request with the events it raised. -/
inductive Output where
  | calls (calls : List Call)
  | read (err : HAPError) (value : Bool)
  | written (err : HAPError) (events : List Event)
  | created
  deriving DecidableEq

/-- A fault ends the process. -/
def orFault {α : Type} : Except Fault α → Except Ending α := Except.mapError Ending.fault

/-- One action of the system. -/
def deviceStep : Step Device Act Output Ending
  | d, .aws env payload _ =>
    let out := iotSubscribeCallbackHandler env payload d
    if out.ending = .returned then .ok (out.device, .calls out.calls) else .error out.ending
  | d, .read =>
    let (err, value, d) := handleLightBulbOnRead d
    .ok (d, .read err value)
  | d, .write io request value =>
    (orFault (handleLightBulbOnWrite io request value d)).map fun (err, events, d) => (d, .written err events)
  | d, .appCreate io => (orFault (appCreate io d)).map fun d => (d, .created)

/-- The request carries a credential that holds the right to write. -/
def Authorised (d : Device) (request : HAPBoolCharacteristicWriteRequest) : Prop :=
  ∃ m, request.authorizationData.bytes = some m ∧ credentialAt m ∈ d.acl.store writeRight

instance (d : Device) (request : HAPBoolCharacteristicWriteRequest) : Decidable (Authorised d request) :=
  match h : request.authorizationData.bytes with
  | none => isFalse fun ⟨_, hm, _⟩ => nomatch h.symm.trans hm
  | some m =>
    decidable_of_iff (credentialAt m ∈ d.acl.store writeRight)
      ⟨fun hmem => ⟨m, h, hmem⟩, fun ⟨_, hm, hmem⟩ => by rwa [Option.some.inj (h.symm.trans hm)]⟩

/-! ## What an action does -/

/-- The verdict on a write, read off the store. -/
theorem ccCheckAuthData_eq {d : Device} (hd : d.WellFormed) (request : HAPBoolCharacteristicWriteRequest) :
    ∃ v, ccCheckAuthData (request.authorizationData.bytes.map credentialAt) rightLightBulbOnCharacteristicWRITE d.acl = .ok v ∧
      (v = 0 ↔ Authorised d request) := by
  refine ⟨_, hd.check _ _, ?_⟩
  unfold Authorised
  cases request.authorizationData.bytes with
  | none =>
    have hneg : AclStore.check none rightLightBulbOnCharacteristicWRITE d.acl.store = -1 := rfl
    simp [hneg]
  | some m =>
    have hr : rightIndex rightLightBulbOnCharacteristicWRITE = some writeRight := rfl
    simp only [Option.map_some, AclStore.check, hr, Option.some.injEq]
    by_cases hmem : credentialAt m ∈ d.acl.store writeRight
    · simp [hmem]
    · simp [hmem]

/-- A write that is not authorised changes nothing and raises no event. -/
theorem handleLightBulbOnWrite_refused {d : Device} (hd : d.WellFormed) {request : HAPBoolCharacteristicWriteRequest}
    (hr : ¬ Authorised d request) (io value : Bool) :
    handleLightBulbOnWrite io request value d = .ok (.none, [], d) := by
  obtain ⟨v, hv, hiff⟩ := ccCheckAuthData_eq hd request
  have hne : v ≠ 0 := fun h => hr (hiff.mp h)
  simp only [handleLightBulbOnWrite, hv, bind, Except.bind, if_neg hne]

/-- A write that is authorised and carries the cached value changes nothing and raises no event. -/
theorem handleLightBulbOnWrite_unchanged {d : Device} (hd : d.WellFormed) {request : HAPBoolCharacteristicWriteRequest}
    (hr : Authorised d request) (io : Bool) {value : Bool} (hvalue : d.accessoryConfiguration.lightBulbOn = boolByte value) :
    handleLightBulbOnWrite io request value d = .ok (.none, [], d) := by
  obtain ⟨v, hv, hiff⟩ := ccCheckAuthData_eq hd request
  simp only [handleLightBulbOnWrite, hv, bind, Except.bind, hiff.mpr hr, if_true, hvalue, ne_eq, not_true_eq_false, if_false]

/-! ## What the handler of the manufacturer's channel does -/

/-- The state of the bulb after a message. -/
def bulbAfter (payload : List UInt8) (bulb : Bool) : Bool :=
  match payload.head? with
  | some cmd => if cmd = 'n'.toUInt8 then true else if cmd = 'f'.toUInt8 then false else bulb
  | none => bulb

/-- What a message does to the device: the bulb, and the lists, which stay well formed. -/
structure HandlerFrame (payload : List UInt8) (d d' : Device) : Prop where
  bulb : d'.gLightBulbState = bulbAfter payload d.gLightBulbState
  accessoryConfiguration : d'.accessoryConfiguration = d.accessoryConfiguration
  store : d'.store = d.store
  wellFormed : d.WellFormed → d'.WellFormed

/-- An `A` or `a` command changes the lists only. -/
theorem aclCommand_frame {records : TypeAuthorizationData → List TypeRight → Acl → Acl × List Call × Ending}
    (hrecords : ∀ ad rights s, Represents s s.store → Represents (records ad rights s).1 (records ad rights s).1.store)
    (env : HandlerEnv) {payload : List UInt8} {d : Device}
    (hbulb : bulbAfter payload d.gLightBulbState = d.gLightBulbState) :
    HandlerFrame payload d (aclCommand env payload records d).device := by
  unfold aclCommand
  split
  · exact ⟨hbulb.symm, rfl, rfl, id⟩
  · exact ⟨hbulb.symm, rfl, rfl, hrecords _ _ _⟩

/-- What any message does to the device. -/
theorem handler_frame (env : HandlerEnv) (payload : List UInt8) (d : Device) :
    HandlerFrame payload d (iotSubscribeCallbackHandler env payload d).device := by
  cases payload with
  | nil => exact ⟨rfl, rfl, rfl, id⟩
  | cons cmd bytes =>
    by_cases hn : cmd = 'n'.toUInt8
    · subst hn
      exact ⟨rfl, rfl, rfl, id⟩
    by_cases hf : cmd = 'f'.toUInt8
    · subst hf
      exact ⟨rfl, rfl, rfl, id⟩
    have hbulb : bulbAfter (cmd :: bytes) d.gLightBulbState = d.gLightBulbState := by
      simp only [bulbAfter, List.head?_cons, if_neg hn, if_neg hf]
    have hsame : HandlerFrame (cmd :: bytes) d d := ⟨hbulb.symm, rfl, rfl, id⟩
    have hflag : ∀ flag, HandlerFrame (cmd :: bytes) d { d with gisHomeKitEnabled := flag } :=
      fun _ => ⟨hbulb.symm, rfl, rfl, id⟩
    simp only [iotSubscribeCallbackHandler, List.head?_cons, if_neg hn, if_neg hf]
    split_ifs
    · exact hsame
    · split
      · exact hsame
      · exact hsame
    · exact hsame
    · exact hsame
    · exact hflag true
    · exact hsame
    · exact hsame
    · exact hflag false
    · exact aclCommand_frame (fun ad => (addCalls env ad).represents _ 0) env hbulb
    · exact aclCommand_frame (fun ad => (removeCalls ad).represents _ 0) env hbulb
    · exact hsame

/-! ## What a step of the system does -/

/-- Saving the state changes the store only. -/
theorem saveAccessoryState_ok {io : Bool} {d d' : Device} (h : saveAccessoryState io d = .ok d') :
    d' = { d with store := d'.store } := by
  unfold saveAccessoryState at h
  split at h
  · simp at h
  · split at h
    · cases h
      rfl
    · simp at h

/-- Loading the state changes the cached state only. -/
theorem loadAccessoryState_ok {io : Bool} {d d' : Device} (h : loadAccessoryState io d = .ok d') :
    d' = { d with accessoryConfiguration := d'.accessoryConfiguration } := by
  unfold loadAccessoryState at h
  split at h
  · simp at h
  · split at h
    · simp at h
    · cases h
      rfl
    · cases h
      rfl

/-- What a HomeKit write that returns has done: nothing, or the value is in effect. -/
theorem handleLightBulbOnWrite_ok {io : Bool} {request : HAPBoolCharacteristicWriteRequest} {value : Bool} {d d' : Device}
    (hd : d.WellFormed) {err : HAPError} {events : List Event}
    (h : handleLightBulbOnWrite io request value d = .ok (err, events, d')) :
    (d' = d ∧ (Authorised d request → d.accessoryConfiguration.lightBulbOn = boolByte value)) ∨
    (Authorised d request ∧ d.accessoryConfiguration.lightBulbOn ≠ boolByte value ∧ d'.acl = d.acl ∧ d'.gLightBulbState = value ∧
      events = [⟨request.characteristic, request.service, request.accessory⟩]) := by
  obtain ⟨v, hv, hiff⟩ := ccCheckAuthData_eq hd request
  simp only [handleLightBulbOnWrite, hv, bind, Except.bind] at h
  split_ifs at h with h0 hne
  · split at h
    · simp at h
    · rename_i d₁ hsave
      have hsaved := saveAccessoryState_ok hsave
      cases h
      rw [hsaved]
      exact Or.inr ⟨hiff.mp h0, hne, rfl, rfl, rfl⟩
  · cases h
    exact Or.inl ⟨rfl, fun _ => not_not.mp hne⟩
  · cases h
    exact Or.inl ⟨rfl, fun ha => absurd (hiff.mpr ha) h0⟩

/-- A step that is a call of the handler. -/
theorem deviceStep_aws {env : HandlerEnv} {payload : List UInt8} {hc : isDeviceCommand payload} {d d' : Device} {o : Output}
    (h : deviceStep d (.aws env payload hc) = .ok (d', o)) :
    d' = (iotSubscribeCallbackHandler env payload d).device := by
  simp only [deviceStep] at h
  split_ifs at h
  cases h
  rfl

/-- A step that is a HomeKit write. -/
theorem deviceStep_write {io : Bool} {request : HAPBoolCharacteristicWriteRequest} {value : Bool} {d d' : Device} {o : Output}
    (h : deviceStep d (.write io request value) = .ok (d', o)) :
    ∃ err events, handleLightBulbOnWrite io request value d = .ok (err, events, d') := by
  simp only [deviceStep] at h
  cases hw : handleLightBulbOnWrite io request value d with
  | error f => rw [hw] at h; cases h
  | ok r =>
    rw [hw] at h
    cases h
    exact ⟨_, _, rfl⟩

/-- A step that is the start of the HomeKit channel. -/
theorem deviceStep_appCreate {io : Bool} {d d' : Device} {o : Output} (h : deviceStep d (.appCreate io) = .ok (d', o)) :
    d' = { d with accessoryConfiguration := d'.accessoryConfiguration } := by
  simp only [deviceStep] at h
  cases hc : appCreate io d with
  | error f => rw [hc] at h; cases h
  | ok r =>
    rw [hc] at h
    cases h
    have hload := loadAccessoryState_ok hc
    rw [hload]

/-- Every step keeps the lists well formed. -/
theorem deviceStep_wellFormed (d : Device) (a : Act) (d' : Device) (o : Output) (hd : d.WellFormed)
    (h : deviceStep d a = .ok (d', o)) : d'.WellFormed := by
  cases a with
  | aws env payload hc =>
    rw [deviceStep_aws h]
    exact (handler_frame env payload d).wellFormed hd
  | read =>
    cases h
    exact hd
  | write io request value =>
    obtain ⟨err, events, hw⟩ := deviceStep_write h
    rcases handleLightBulbOnWrite_ok hd hw with ⟨rfl, -⟩ | ⟨-, -, hacl, -, -⟩
    · exact hd
    · simpa only [Device.WellFormed, hacl] using hd
  | appCreate io =>
    rw [deviceStep_appCreate h]
    exact hd

end CGuard
