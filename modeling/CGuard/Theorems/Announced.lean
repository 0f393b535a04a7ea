import CGuard.Theorems.Credential

/-!
# Changes of the bulb and events

An event is raised by the handler of a HomeKit write and by nothing else, and the handler looks at its cached copy of the state. Every
change of the bulb has its event, and every event its change, exactly when no command of the manufacturer's channel changes the bulb
and no authorised write finds a cached copy that is out of date.
-/

namespace CGuard

open Machine

/-- The answer comes with an event. -/
def Output.raises : Output → Bool
  | .written _ events => !events.isEmpty
  | _ => false

/-- Between two states of a run with different states of the bulb an event has been raised with the bulb in the later state, and a
step that raises an event changes the bulb. -/
structure Announced (d : Device) (as : List Act) : Prop where
  missed : ∀ pre mid post d₁ os₁ d₂ os₂, as = pre ++ (mid ++ post) → run deviceStep d pre = .ok (d₁, os₁) →
    run deviceStep d₁ mid = .ok (d₂, os₂) → d₁.gLightBulbState ≠ d₂.gLightBulbState →
    ∃ mid₁ a mid₂ d₃ os₃ d₄ o, mid = mid₁ ++ a :: mid₂ ∧ run deviceStep d₁ mid₁ = .ok (d₃, os₃) ∧
      deviceStep d₃ a = .ok (d₄, o) ∧ o.raises = true ∧ d₄.gLightBulbState = d₂.gLightBulbState
  spurious : ∀ pre a post d₁ os₁ d₂ o, as = pre ++ a :: post → run deviceStep d pre = .ok (d₁, os₁) →
    deviceStep d₁ a = .ok (d₂, o) → o.raises = true → d₁.gLightBulbState ≠ d₂.gLightBulbState

/-- A command of the manufacturer's channel finds the bulb in the state it asks for, and an authorised HomeKit write of another value
than the cached one finds the bulb in the other state. -/
def Announces (d : Device) : Act → Prop
  | .aws _ payload _ => bulbAfter payload d.gLightBulbState = d.gLightBulbState
  | .write _ request value =>
    Authorised d request → d.accessoryConfiguration.lightBulbOn ≠ boolByte value → d.gLightBulbState ≠ value
  | _ => True

namespace AnnouncedAux

/-- The step changes the bulb exactly when it raises an event. -/
def Tells (d : Device) (a : Act) : Prop :=
  ∀ d' o, deviceStep d a = .ok (d', o) → (d.gLightBulbState ≠ d'.gLightBulbState ↔ o.raises = true)

/-- A HomeKit write that returns: an authorised one of another value than the cached one sets the bulb and raises an event, and every
other one does nothing. -/
theorem deviceStep_write_tells {d d' : Device} (hd : d.WellFormed) {io : Bool} {request : HAPBoolCharacteristicWriteRequest}
    {value : Bool} {o : Output} (h : deviceStep d (.write io request value) = .ok (d', o)) :
    if Authorised d request ∧ d.accessoryConfiguration.lightBulbOn ≠ boolByte value then
      d'.gLightBulbState = value ∧ o.raises = true
    else d' = d ∧ o.raises = false := by
  simp only [deviceStep] at h
  by_cases ha : Authorised d request
  · by_cases hcached : d.accessoryConfiguration.lightBulbOn = boolByte value
    · rw [handleLightBulbOnWrite_unchanged hd ha io hcached] at h
      cases h
      simp [hcached, Output.raises]
    · cases hw : handleLightBulbOnWrite io request value d with
      | error f =>
        rw [hw] at h
        cases h
      | ok r =>
        obtain ⟨err, events, d₁⟩ := r
        rw [hw] at h
        cases h
        rw [if_pos ⟨ha, hcached⟩]
        rcases handleLightBulbOnWrite_ok hd hw with ⟨-, hsame⟩ | ⟨-, -, -, hbulb, rfl⟩
        · exact absurd (hsame ha) hcached
        · exact ⟨hbulb, rfl⟩
  · rw [handleLightBulbOnWrite_refused hd ha] at h
    cases h
    simp [ha, Output.raises]

/-- A step that returns changes the bulb exactly when it raises an event, if and only if it meets the condition. -/
theorem tells_iff (d : Device) (a : Act) (d' : Device) (o : Output) (hd : d.WellFormed) (h : deviceStep d a = .ok (d', o)) :
    Tells d a ↔ Announces d a := by
  have hthis : Tells d a ↔ (d.gLightBulbState ≠ d'.gLightBulbState ↔ o.raises = true) := by
    refine ⟨fun ht => ht d' o h, fun hiff d'' o' h' => ?_⟩
    cases h.symm.trans h'
    exact hiff
  rw [hthis]
  cases a with
  | aws env payload hc =>
    have hraises : o.raises = false := by
      simp only [deviceStep] at h
      split_ifs at h
      cases h
      rfl
    rw [deviceStep_aws h, (handler_frame env payload d).bulb, hraises]
    simp only [Announces, Bool.false_eq_true, iff_false, not_not]
    exact eq_comm
  | read =>
    cases h
    simp [Announces, Output.raises]
  | appCreate io =>
    have hraises : o.raises = false := by
      simp only [deviceStep] at h
      obtain ⟨d₁, -, heq⟩ := map_ok h
      cases heq
      rfl
    rw [deviceStep_appCreate h, hraises]
    simp [Announces]
  | write io request value =>
    have htells := deviceStep_write_tells hd h
    simp only [Announces]
    split_ifs at htells with hset
    · rw [htells.1, htells.2]
      simp [hset]
    · rw [htells.1, htells.2]
      simp only [ne_eq, not_true_eq_false, Bool.false_eq_true, true_iff]
      exact fun ha hne => absurd ⟨ha, hne⟩ hset

/-- In a run whose steps each change the bulb exactly when they raise an event, the last change of the bulb has its event. -/
theorem exists_event {as : List Act} :
    ∀ {d d' : Device} {os : List Output}, Guarded deviceStep Tells d as → run deviceStep d as = .ok (d', os) →
      d.gLightBulbState ≠ d'.gLightBulbState →
      ∃ as₁ a as₂ d₃ os₃ d₄ o, as = as₁ ++ a :: as₂ ∧ run deviceStep d as₁ = .ok (d₃, os₃) ∧
        deviceStep d₃ a = .ok (d₄, o) ∧ o.raises = true ∧ d₄.gLightBulbState = d'.gLightBulbState := by
  induction as with
  | nil =>
    intro d d' os _ h hne
    cases h
    exact absurd rfl hne
  | cons a as ih =>
    intro d d' os hg h hne
    obtain ⟨d₁, o, os', hm, hrest, -⟩ := run_cons_ok h
    by_cases hlater : d₁.gLightBulbState = d'.gLightBulbState
    · -- the bulb has its last state from this step on
      rw [← hlater] at hne
      exact ⟨[], a, as, d, [], d₁, o, rfl, rfl, hm, (hg.1 d₁ o hm).mp hne, hlater⟩
    · obtain ⟨as₁, b, as₂, d₃, os₃, d₄, o', rfl, hrun, hstep, hraises, hlast⟩ := ih (hg.2 d₁ o hm) hrest hlater
      exact ⟨a :: as₁, b, as₂, d₃, o :: os₃, d₄, o', rfl, run_cons hm hrun, hstep, hraises, hlast⟩

/-- The changes of a run are announced, and its events announce changes, exactly when each step does both. -/
theorem announced_iff_tells {d : Device} {as : List Act} : Announced d as ↔ Guarded deviceStep Tells d as := by
  constructor
  · intro h
    refine guarded_iff_split.mpr fun pre a post d₁ os₁ has hpre d' o hm => ⟨fun hne => ?_, ?_⟩
    · have hrun : run deviceStep d₁ [a] = .ok (d', [o]) := run_cons hm rfl
      obtain ⟨mid₁, b, mid₂, d₃, os₃, d₄, o', hmid, hmid₁, hstep, hraises, -⟩ :=
        h.missed pre [a] post d₁ os₁ d' [o] has hpre hrun hne
      cases mid₁ with
      | nil =>
        rw [List.nil_append, List.cons.injEq] at hmid
        obtain ⟨rfl, rfl⟩ := hmid
        cases hmid₁
        cases hm.symm.trans hstep
        exact hraises
      | cons c cs => simp at hmid
    · exact h.spurious pre a post d₁ os₁ d' o has hpre hm
  · intro h
    refine ⟨fun pre mid post d₁ os₁ d₂ os₂ has hpre hmid hne => ?_, fun pre a post d₁ os₁ d₂ o has hpre hm hraises => ?_⟩
    · subst has
      exact exists_event (h.right hpre).left hmid hne
    · exact (guarded_iff_split.mp h pre a post d₁ os₁ has hpre d₂ o hm).mpr hraises

end AnnouncedAux

open AnnouncedAux

/-- For every run that returns, of commands, reads and writes in any order, from any device whose lists are well formed: between any
two states of the bulb that differ an event has been raised, and every event follows a change, if and only if no command changes the
bulb and every authorised write of another value than the cached one changes it. -/
theorem changes_announced_iff (d : Device) (hd : d.WellFormed) (as : List Act) (d' : Device) (os : List Output)
    (hrun : run deviceStep d as = .ok (d', os)) : Announced d as ↔ Guarded deviceStep Announces d as := by
  rw [announced_iff_tells]
  exact guarded_iff_of_run deviceStep_wellFormed tells_iff hd hrun

/-- A HomeKit write and a read. -/
theorem changes_announced_write :
    Announced grantedDevice [.write true ⟨1, 2, 3, ⟨some (fun _ => 0), 32⟩⟩ true, .read] := by
  refine (changes_announced_iff grantedDevice grantedDevice_wellFormed _ _ _ rfl).mpr ⟨fun _ _ => by decide, ?_⟩
  rintro d' o -
  exact ⟨trivial, fun _ _ _ => trivial⟩

/-- The command `n` turns the bulb on, and no event is raised. -/
theorem changes_announced_not :
    (∃ d' os, run deviceStep grantedDevice [.aws (.plain 1) (ascii "n") rfl] = .ok (d', os) ∧
      grantedDevice.gLightBulbState = false ∧ d'.gLightBulbState = true) ∧
    ¬ Announced grantedDevice [.aws (.plain 1) (ascii "n") rfl] := by
  refine ⟨⟨_, _, rfl, rfl, rfl⟩, fun h => ?_⟩
  have htells := announced_iff_tells.mp h
  have hraises := (htells.1 _ _ rfl).mp (by decide)
  cases hraises

end CGuard
