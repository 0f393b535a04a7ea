import CGuard.System

/-!
# The two channels and a monitor with one bulb

The monitor holds one bulb state: a command of the manufacturer's channel or an authorised HomeKit write sets it. The device
compares a HomeKit write with its cached copy of the state first, and a run simulates the monitor exactly when each authorised
write finds a cached copy that differs from the value, or the bulb already there.
-/

namespace CGuard

open Machine

/-- The monitor: the bulb after an action, given whether the action is authorised. -/
def monitorStep (bulb : Bool) (authorised : Bool) : Act → Bool
  | .aws _ payload _ => bulbAfter payload bulb
  | .write _ _ value => if authorised then value else bulb
  | .read | .appCreate _ => bulb

/-- Whether an action is authorised: every action is but a HomeKit write without the right to write. -/
def actAuthorised (d : Device) : Act → Bool
  | .write _ request _ => Authorised d request
  | _ => true

/-- The action, if it returns, leaves the bulb as the monitor does; an authorised HomeKit write leaves it at its value. -/
def SimulatesMonitor (d : Device) (a : Act) : Prop :=
  ∀ d' o, deviceStep d a = .ok (d', o) → d'.gLightBulbState = monitorStep d.gLightBulbState (actAuthorised d a) a

/-- An authorised HomeKit write finds a cached state that is not its value, or the bulb already at its value. -/
def FreshWrite (d : Device) : Act → Prop
  | .write _ request value =>
    Authorised d request → d.accessoryConfiguration.lightBulbOn ≠ boolByte value ∨ d.gLightBulbState = value
  | _ => True

/-- One action leaves the bulb as the monitor does exactly when it is no write that the cached state hides. -/
theorem simulatesMonitor_iff (d : Device) (a : Act) (hd : d.WellFormed) : SimulatesMonitor d a ↔ FreshWrite d a := by
  cases a with
  | aws env payload hc =>
    refine ⟨fun _ => trivial, fun _ d' o h => ?_⟩
    rw [deviceStep_aws h]
    exact (handler_frame env payload d).bulb
  | read =>
    refine ⟨fun _ => trivial, fun _ d' o h => ?_⟩
    cases h
    rfl
  | appCreate io =>
    refine ⟨fun _ => trivial, fun _ d' o h => ?_⟩
    rw [deviceStep_appCreate h]
    rfl
  | write io request value =>
    constructor
    · intro hsim ha
      by_contra hstale
      rw [not_or, not_not] at hstale
      obtain ⟨hcached, hbulb⟩ := hstale
      have hw := handleLightBulbOnWrite_unchanged hd ha io hcached
      have hstep : deviceStep d (.write io request value) = .ok (d, .written .none []) := by
        simp only [deviceStep, hw, orFault]
        rfl
      have := hsim d _ hstep
      simp only [monitorStep, actAuthorised, ha, decide_true, if_true] at this
      exact hbulb this
    · intro hfresh d' o h
      obtain ⟨err, events, hw⟩ := deviceStep_write h
      rcases handleLightBulbOnWrite_ok hd hw with ⟨rfl, hcached⟩ | ⟨ha, -, -, hbulb, -⟩
      · by_cases ha : Authorised d' request
        · simp only [monitorStep, actAuthorised, ha, decide_true, if_true]
          exact (hfresh ha).resolve_left (not_not.mpr (hcached ha))
        · simp [monitorStep, actAuthorised, ha]
      · simp only [monitorStep, actAuthorised, ha, decide_true, if_true]
        exact hbulb

/-- Every run from the start of the process, on any disk: the device simulates the monitor along the run, so that each authorised
HomeKit write that returns leaves the bulb at its value, if and only if each authorised write of the run finds a cached state that
is not its value or the bulb already at its value. -/
theorem run_simulates_monitor_iff (store : Store) (as : List Act) :
    Guarded deviceStep SimulatesMonitor (Device.start store) as ↔ Guarded deviceStep FreshWrite (Device.start store) as :=
  guarded_iff deviceStep_wellFormed simulatesMonitor_iff as _ (Device.wellFormed_start store)

/-- A HomeKit write of true, an `f` command and the same HomeKit write again, with a credential that holds the right throughout:
the second write returns without an error and the bulb stays off. -/
theorem run_simulates_monitor_not :
    let request : HAPBoolCharacteristicWriteRequest := ⟨1, 2, 3, ⟨some (fun _ => 0), 32⟩⟩
    ∃ d d' os, run deviceStep (Device.start none)
        [.appCreate true, .aws (.plain 1) (aclPayload "A" base64OfZeros "1 {1}") rfl, .write true request true,
          .aws (.plain 1) (ascii "f") rfl] = .ok (d, os) ∧
      Authorised d request ∧
      deviceStep d (.write true request true) = .ok (d', .written .none []) ∧
      d'.gLightBulbState = false ∧ ¬ SimulatesMonitor d (.write true request true) := by
  intro request
  refine ⟨_, _, _, rfl, by decide, rfl, rfl, fun h => ?_⟩
  have hbulb := h _ _ rfl
  cases hbulb

end CGuard
