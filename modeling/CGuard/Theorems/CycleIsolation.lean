import CGuard.Lemmas.Lifecycle

/-!
# One cycle after another

Every disable of the HomeKit channel ends with a factory reset, so that the next enable finds nothing of the cycle before it: the
domains of the application, of the configuration and of the pairings are empty, and only provisioning entries remain.
-/

namespace CGuard

open Machine

/-- What is true between cycles and at their ends. -/
structure Isolated (s : Lifecycle) : Prop where
  /-- Each cycle is entered, resets once, then leaves the run loop, then ends, and only then is the next one entered. -/
  history : ∃ n, s.homeKit.history <+: (List.replicate n cycle).flatten
  /-- `HomekitMainFunction` is entered. -/
  entry : s.thread = .runLoopCreate →
    s.homeKit.device.store.EmptyIn resetDomains ∧ s.homeKit.gHAPrequestedFactoryReset = false
  /-- The run loop stops right after the reset. -/
  stops : s.thread = .runLoop → s.homeKit.runLoop.state ≠ .running → s.homeKit.history.getLast? = some .factoryReset
  /-- Nothing is in the domains of a reset but from the start of the server to the reset. -/
  empty : s.thread ≠ .runLoopRun → ¬ (s.thread = .runLoop ∧ s.homeKit.runLoop.state = .running) →
    s.homeKit.device.store.EmptyIn resetDomains

namespace CycleIsolationAux

theorem agreesBut_mono {changed changed' : FileName → Prop} {s s' : Store} (h : s.AgreesBut changed s')
    (hc : ∀ name, changed name → changed' name) : s.AgreesBut changed' s' :=
  fun name hd hn => h name hd fun hch => hn (hc name hch)

/-- A run that returns changes only the files that one of its actions writes. -/
theorem run_files {fresh : Prop} {as : List LifecycleAct} {s s' : Lifecycle} {os : List Unit} (hi : Invariant fresh s)
    (h : run lifecycleStep s as = .ok (s', os)) :
    s.homeKit.device.store.AgreesBut (fun name => ∃ a ∈ as, a.Writes name) s'.homeKit.device.store := by
  induction as generalizing s os with
  | nil =>
    cases h
    exact Store.AgreesBut.refl _
  | cons a as ih =>
    obtain ⟨t, o, os', hm, hr, -⟩ := run_cons_ok h
    have hstep := lifecycleStep_keeps hi hm
    refine (agreesBut_mono hstep.files fun name ha => ⟨a, List.mem_cons_self, ha⟩).trans
      (agreesBut_mono (ih hstep.invariant hr) fun name => ?_)
    rintro ⟨b, hb, hw⟩
    exact ⟨b, List.mem_cons_of_mem a hb, hw⟩

/-- Where the run loop does not run, the reset has been done. -/
theorem reset_of_serving {fresh : Prop} {n : Nat} {s : HomeKit} (h : Serving fresh (reported n 1) s)
    (hrun : s.runLoop.state ≠ .running) :
    s.device.store.EmptyIn resetDomains ∧ s.history = reported n 1 ++ [.factoryReset] := by
  rcases h with hu | ⟨-, -, -, hloop, -⟩ | ⟨-, -, -, -, hempty, htold⟩ | ⟨-, -, -, hloop, -⟩
  · exact absurd hu.runLoop hrun
  · exact absurd hloop hrun
  · exact ⟨hempty, htold⟩
  · exact absurd hloop hrun

/-- What has been reported in the run loop. -/
theorem reported_of_serving {fresh : Prop} {n : Nat} {s : HomeKit} (h : Serving fresh (reported n 1) s) :
    ∃ n k, s.history = reported n k := by
  rcases h with hu | ⟨-, -, -, -, htold⟩ | ⟨-, -, -, -, -, htold⟩ | ⟨-, -, -, -, htold⟩
  · exact ⟨n, 1, hu.told⟩
  · exact ⟨n, 1, htold⟩
  · exact ⟨n, 2, htold.trans (by simp [reported, cycle])⟩
  · exact ⟨n, 1, htold⟩

/-- What has been reported at a place of the thread. -/
theorem reported_of_stage {fresh : Prop} {n : Nat} {s : HomeKit} {pc : HomeKitPc} (h : Stage fresh n s pc) :
    ∃ n k, s.history = reported n k := by
  cases pc with
  | notCreated | prepare | setEnabled | clearReset | returned => exact ⟨_, _, h.told⟩
  | callMain | runLoopCreate | serverCreate | mainReturn => exact ⟨_, _, h.1.told⟩
  | serverRelease | runLoopRelease => exact ⟨_, _, h.told⟩
  | serverStart => exact ⟨_, _, h.2.2.2.2.2⟩
  | runLoopRun =>
    have hreported := reported_of_serving h.1
    exact hreported
  | runLoop => exact reported_of_serving h
  | serverStop | deregister => exact absurd h id

/-- The invariant, on a store that was empty, says that the cycles are isolated. -/
theorem isolated_of_invariant {s : Lifecycle} (h : Invariant True s) : Isolated s := by
  obtain ⟨n, hstage⟩ := h.stage
  refine ⟨?_, fun hpc => ?_, fun hpc hrun => ?_, fun hpc hrun => ?_⟩
  · obtain ⟨m, k, hk⟩ := reported_of_stage hstage
    exact ⟨m + 1, hk ▸ reported_prefix m k⟩
  · rw [hpc] at hstage
    exact ⟨hstage.1.store trivial, hstage.2⟩
  · rw [hpc] at hstage
    rw [(reset_of_serving hstage hrun).2, List.getLast?_append]
    rfl
  · cases hat : s.thread with
    | notCreated | prepare | setEnabled | clearReset | returned | runLoopRelease =>
      rw [hat] at hstage
      exact hstage.store trivial
    | callMain | runLoopCreate | serverCreate | mainReturn =>
      rw [hat] at hstage
      exact hstage.1.store trivial
    | serverStart =>
      rw [hat] at hstage
      exact hstage.2.2.2.2.1 trivial
    | runLoopRun => exact absurd hat hpc
    | runLoop =>
      rw [hat] at hstage
      exact (reset_of_serving hstage fun hr => hrun ⟨hat, hr⟩).1
    | serverRelease =>
      rw [hat] at hstage
      exact Exited.store hstage
    | serverStop | deregister =>
      rw [hat] at hstage
      exact absurd hstage id

end CycleIsolationAux

open CycleIsolationAux

/-- For every store without an entry in the domains of a reset and every run from it, of any number of cycles, with any requests of the
controllers: the cycles are isolated at the end, and so at each of its states, and from any state of the run on no file outside these
domains changes but those that an action of the rest of the run writes. -/
theorem cycles_isolated {store : Store} (hstore : store.EmptyIn resetDomains) {as : List LifecycleAct} {s : Lifecycle}
    {os : List Unit} (h : run lifecycleStep (.start store) as = .ok (s, os)) :
    Isolated s ∧ ∀ pre post t ps, as = pre ++ post → run lifecycleStep (.start store) pre = .ok (t, ps) →
      Isolated t ∧
        t.homeKit.device.store.AgreesBut (fun name => ∃ a ∈ post, a.Writes name) s.homeKit.device.store := by
  have hstart : Invariant True (.start store) := invariant_start store fun _ => hstore
  have hinv : ∀ {as : List LifecycleAct} {t : Lifecycle} {ps : List Unit}, run lifecycleStep (.start store) as = .ok (t, ps) →
      Invariant True t :=
    fun hrun => run_invariant (fun _ _ _ _ hi hm => (lifecycleStep_keeps hi hm).invariant) hstart hrun
  refine ⟨isolated_of_invariant (hinv h), ?_⟩
  rintro pre post t ps rfl hpre
  obtain ⟨t', os₁, os₂, h₁, h₂, -⟩ := run_split h
  cases hpre.symm.trans h₁
  exact ⟨isolated_of_invariant (hinv hpre), run_files (hinv hpre) h₂⟩

/-! ### A run of two cycles -/

/-- Surroundings in which nothing fails and no session is idle for too long. -/
def calm : Surroundings where
  io := true
  fuel := 1
  srp := fun _ _ _ => Vector.replicate _ 0
  random := fun n => if n % 2 = 0 then 1 else 2
  adminFound := some true
  idleTooLong := fun _ => false
  notificationDue := fun _ => true
  notificationFits := fun _ => true

/-- A store that holds a setup info of an earlier start and nothing else. -/
def provisioned : Store := some ((∅ : Finmap _).insert setupInfoFile [7])

theorem provisioned_emptyIn : provisioned.EmptyIn resetDomains := by
  intro name hname
  have hne : name ≠ setupInfoFile := by
    rintro rfl
    exact absurd hname (by decide)
  rw [provisioned, Store.file_insert, if_neg hne]
  exact Finmap.lookup_empty name

/-- The channel is enabled, and the HomeKit thread takes this many steps. -/
def enabling (steps : Nat) : List LifecycleAct :=
  [.command .enable, .aws true, .aws true] ++ List.replicate steps (.homeKit calm)

/-- A session that reads on: nothing but what is given here happens. -/
def plainEvent : SessionEvent where
  writes := []
  bulb := none
  raises := []
  pairing := none
  reportsState := false
  closes := false
  writing := false
  inboundEmpty := true
  numEventNotificationFlags := 0

/-- A controller pairs and switches the bulb on. -/
def pairing : List LifecycleAct :=
  [.timer calm (1, .callbackTimerExpired), .listener calm,
    .session calm 0 { plainEvent with writes := [⟨(0xA0, 0x00), some [1]⟩], bulb := some (.write true) }]

/-- The channel is disabled, and the HomeKit thread reads the request. -/
def disabling : List LifecycleAct := [.command .disable, .aws true, .aws true, .selfPipe calm]

/-- A cycle with a pairing. -/
def pairedCycle : List LifecycleAct :=
  enabling 8 ++ pairing ++ disabling ++
    [.timer calm (2, .callbackTimerExpired), .timer calm (3, .handleServerStateTransitionTimer),
      .timer calm (4, .handleGarbageCollectionTimer), .timer calm (5, .callbackTimerExpired)] ++ List.replicate 4 (.homeKit calm)

/-- The first cycle leaves a pairing and the state of the bulb in the store, and the second one finds neither. -/
theorem cycles_isolated_paired :
    (∃ t ps, run lifecycleStep (.start provisioned) (enabling 8 ++ pairing) = .ok (t, ps) ∧
      t.homeKit.device.store.file (0xA0, 0x00) = some [1] ∧ t.homeKit.device.store.file (0x00, 0x00) = some [1]) ∧
    ∃ s os, run lifecycleStep (.start provisioned) (pairedCycle ++ enabling 4) = .ok (s, os) ∧ s.thread = .runLoopCreate ∧
      Isolated s := by
  refine ⟨⟨_, _, rfl, by decide, by decide⟩, ?_⟩
  obtain ⟨s, os, hrun, hpc⟩ : ∃ s os, run lifecycleStep (.start provisioned) (pairedCycle ++ enabling 4) = .ok (s, os) ∧
      s.thread = .runLoopCreate := ⟨_, _, rfl, rfl⟩
  exact ⟨s, os, hrun, hpc, (cycles_isolated provisioned_emptyIn hrun).1⟩

end CGuard
