import CGuard.System

/-!
# Complete mediation

A HomeKit write without the right to write cannot be seen by anything that happens later: the run without it has the same
states and the same answers.
-/

namespace CGuard

open Machine

/-- A HomeKit write whose credential is null or not, at that moment, on the list of the right to write. -/
def refusedWrite (d : Device) : Act → Bool
  | .write _ request _ => !decide (Authorised d request)
  | _ => false

/-- The events that an action has raised. -/
def Output.events : Output → List Event
  | .written _ events => events
  | _ => []

/-- The events of a run, in the order in which they are raised. -/
def raisedEvents (entries : List (Entry Act Device Output)) : List Event := entries.flatMap fun e => e.output.events

/-- A refused write returns without an error, raises no event, and leaves everything as it was. -/
theorem deviceStep_refused (d : Device) (a : Act) (hd : d.WellFormed) (h : refusedWrite d a = true) :
    deviceStep d a = .ok (d, .written .none []) := by
  cases a with
  | write io request value =>
    have hr : ¬ Authorised d request := by simpa [refusedWrite] using h
    simp only [deviceStep, handleLightBulbOnWrite_refused hd hr, orFault]
    rfl
  | aws env payload hc => cases h
  | read => cases h
  | appCreate io => cases h

/-- From any device whose lists are well formed, and for every run: without the refused HomeKit writes, the run has the entries
of the trace that remain (each with the device after it and with its answer) and ends the same way, it raises all the events of the
run in their order, and it leaves the same device. -/
theorem refused_writes_invisible (d : Device) (hd : d.WellFormed) (as : List Act) :
    trace deviceStep d (purge deviceStep refusedWrite d as) =
        (remaining deviceStep refusedWrite d as, (trace deviceStep d as).2) ∧
      raisedEvents (trace deviceStep d (purge deviceStep refusedWrite d as)).1 = raisedEvents (trace deviceStep d as).1 ∧
      lastState d (trace deviceStep d (purge deviceStep refusedWrite d as)).1 = lastState d (trace deviceStep d as).1 := by
  have htrace := trace_purge deviceStep_wellFormed (fun s a hs ha => ⟨_, deviceStep_refused s a hs ha⟩) as d hd
  refine ⟨htrace, ?_, ?_⟩
  · rw [htrace]
    refine flatMap_remaining Output.events deviceStep_wellFormed (fun s a s' o hs ha hm => ?_) as d hd
    cases (deviceStep_refused s a hs ha).symm.trans hm
    rfl
  · rw [htrace]
    refine lastState_remaining deviceStep_wellFormed (fun s a s' o hs ha hm => ?_) as d hd
    cases (deviceStep_refused s a hs ha).symm.trans hm
    rfl

/-- The credential of 32 NULs is granted the right to write, and revoked; it writes in between and afterwards, and a credential that has
never been granted writes too. -/
def grantAndRevoke : List Act :=
  let zeros : HAPBoolCharacteristicWriteRequest := ⟨1, 2, 3, ⟨some (fun _ => 0), 32⟩⟩
  let sevens : HAPBoolCharacteristicWriteRequest := ⟨1, 2, 3, ⟨some (fun _ => 7), 32⟩⟩
  [.appCreate true, .write true zeros true, .aws (.plain 1) (aclPayload "A" base64OfZeros "1 {1}") rfl, .write true sevens true,
    .write true zeros true, .read, .aws (.plain 1) (aclPayload "a" base64OfZeros "1 {1}") rfl, .write true zeros false, .read]

/-- Three of the four writes are refused; the one that is granted raises its event in both runs, and the bulb stays on. -/
theorem refused_writes_invisible_start :
    (purge deviceStep refusedWrite (Device.start none) grantAndRevoke).length = 6 ∧
      raisedEvents (trace deviceStep (Device.start none) (purge deviceStep refusedWrite (Device.start none) grantAndRevoke)).1 =
        [⟨1, 2, 3⟩] ∧
      (lastState (Device.start none)
        (trace deviceStep (Device.start none) (purge deviceStep refusedWrite (Device.start none) grantAndRevoke)).1).gLightBulbState = true ∧
      trace deviceStep (Device.start none) (purge deviceStep refusedWrite (Device.start none) grantAndRevoke) =
        (remaining deviceStep refusedWrite (Device.start none) grantAndRevoke, (trace deviceStep (Device.start none) grantAndRevoke).2) := by
  obtain ⟨htrace, hevents, hlast⟩ := refused_writes_invisible (Device.start none) (Device.wellFormed_start none) grantAndRevoke
  refine ⟨by decide, ?_, ?_, htrace⟩
  · rw [hevents]
    decide
  · rw [hlast]
    decide

end CGuard
