import CGuard.Theorems.CycleIsolation

/-!
# Starting the server again

Between two cycles the run loop, the pipe, the server engine and the server are as at the start of the process. One object is not: the
timer of the event notifications stays with the platform when the server stops, while the server forgets it.
-/

namespace CGuard

open Machine

/-- What the preconditions and assertions along `HomekitMainFunction` ask of the objects at the places of the thread. -/
structure Restartable (s : Lifecycle) : Prop where
  /-- `HAPPlatformRunLoopCreate` finds no pipe, and the rest is as at the start of the process. -/
  entry : s.thread = .runLoopCreate → s.homeKit.runLoop.selfPipe = none ∧ s.homeKit.runLoop.state = .idle ∧
    s.homeKit.serverEngine = false ∧ s.homeKit.server.state = .idle ∧ s.homeKit.server.primaryAccessory = false
  /-- `HAPAccessoryServerInstallServerEngine` -/
  installs : s.thread = .serverCreate → s.homeKit.serverEngine = false
  /-- `HAPAccessoryServerStart` -/
  starts : s.thread = .serverStart → s.homeKit.server.state = .idle ∧ s.homeKit.server.primaryAccessory = false
  /-- `HAPPlatformRunLoopRun` -/
  runs : s.thread = .runLoopRun → s.homeKit.runLoop.state = .idle
  /-- `engine_deinit` -/
  exit : s.thread = .serverRelease → s.homeKit.server.ipState = .idle
  /-- No part of a message is in the buffer of the pipe. -/
  buffer : s.homeKit.runLoop.numSelfPipeBytes = 0

namespace RestartAux

/-- The invariant of the runs in which no timer is left pending. -/
def TidyInvariant (s : Lifecycle) : Prop := Invariant False s ∧ Tidy s.homeKit s.thread

theorem tidyInvariant_start (store : Store) : TidyInvariant (.start store) :=
  ⟨invariant_start store False.elim, OwnedTimers.owned_start, fun h => absurd h (by simp [Lifecycle.start])⟩

/-- A step that leaves no timer fails only if the store does. -/
theorem step_tidy {s : Lifecycle} {a : LifecycleAct} (h : TidyInvariant s) (ha : LeavesNoTimer s a) :
    Safe (fun r => TidyInvariant r.1) (lifecycleStep s a) := by
  refine (lifecycleStep_safe h.1 a ?_).mono fun r hr => ⟨hr.invariant, hr.tidy h.2 ha⟩
  rintro w t - hmem
  exact h.2.1 t hmem

theorem restartable_of_tidy {s : Lifecycle} (h : TidyInvariant s) : Restartable s := by
  obtain ⟨hinv, -⟩ := h
  obtain ⟨n, hstage⟩ := hinv.stage
  refine ⟨fun hpc => ?_, fun hpc => ?_, fun hpc => ?_, fun hpc => ?_, fun hpc => ?_, hinv.numSelfPipeBytes⟩ <;> rw [hpc] at hstage
  · obtain ⟨hfresh, -⟩ := hstage
    rw [hfresh.server]
    exact ⟨hfresh.selfPipe, hfresh.runLoop, hfresh.serverEngine, rfl, rfl⟩
  · exact hstage.2.1
  · exact ⟨hstage.2.1, hstage.2.2.1⟩
  · exact hstage.2
  · have hexited : Exited (reported n 3) s.homeKit := hstage
    exact hexited.ipState

instance : ∀ (s : Lifecycle) (a : LifecycleAct), Decidable (LeavesNoTimer s a)
  | s, .homeKit _ => inferInstanceAs (Decidable (s.thread = .runLoop → s.homeKit.runLoop.state ≠ .running →
      ∀ p ∈ s.homeKit.timers.pending, p.2 ≠ .handleEventNotificationTimer))
  | _, .command _ | _, .message _ _ | _, .aws _ | _, .timer _ _ | _, .selfPipe _ | _, .listener _ | _, .session _ _ _ => isTrue trivial

end RestartAux

open RestartAux

/-- For every store and every run of any number of cycles in which the run loop is never left while the timer of the event
notifications is pending: no precondition and no assertion fails, a run that ends early does so because an action is not one of its
state or because the store fails, and the objects are as they have to be in every state of the run. -/
theorem server_restarts {store : Store} {as : List LifecycleAct} (h : Guarded lifecycleStep LeavesNoTimer (.start store) as) :
    (∀ e, run lifecycleStep (.start store) as = .error e → e.Excused) ∧
      ∀ pre post t os, as = pre ++ post → run lifecycleStep (.start store) pre = .ok (t, os) → Restartable t := by
  have hruns : ∀ {as : List LifecycleAct}, Guarded lifecycleStep LeavesNoTimer (.start store) as →
      Safe (fun r => TidyInvariant r.1) (run lifecycleStep (.start store) as) :=
    fun hg => run_yields (fun _ _ hi ha => step_tidy hi ha) (tidyInvariant_start store) hg
  refine ⟨fun e he => (hruns h).failure he, ?_⟩
  rintro pre post t os rfl hpre
  exact restartable_of_tidy ((hruns h.left).value hpre)

/-- Two cycles, of which the first has had a session. -/
theorem server_restarts_paired :
    (∃ s os, run lifecycleStep (.start provisioned) (pairedCycle ++ enabling 8) = .ok (s, os) ∧ s.thread = .runLoop) ∧
      ∀ pre post t os, pairedCycle ++ enabling 8 = pre ++ post → run lifecycleStep (.start provisioned) pre = .ok (t, os) →
        Restartable t :=
  ⟨⟨_, _, rfl, rfl⟩, (server_restarts (by decide)).2⟩

/-- Two sessions, of which the second gets an event, and another one before a second has passed: its timer is pending. -/
def notifying : List LifecycleAct :=
  [.timer calm (1, .callbackTimerExpired), .listener calm, .listener calm,
    .session calm 0 { plainEvent with raises := [1], writing := true }, .timer calm (2, .handleEventNotificationTimer),
    .session calm 1 plainEvent, .session calm 0 plainEvent,
    .session calm 0 { plainEvent with raises := [1], writing := true },
    .timer { calm with notificationDue := fun _ => false } (3, .handleEventNotificationTimer), .session calm 0 plainEvent]

/-- A cycle with these sessions. -/
def notifiedCycle : List LifecycleAct :=
  enabling 8 ++ notifying ++ disabling ++
    [.timer calm (5, .callbackTimerExpired), .timer calm (6, .handleServerStateTransitionTimer),
      .timer calm (7, .handleGarbageCollectionTimer), .timer calm (8, .callbackTimerExpired)] ++ List.replicate 4 (.homeKit calm)

/-- The cycle ends with the thread, and the timer of the second event expires in the next cycle, whose server does not know it: the
precondition of its callback fails. -/
theorem server_restarts_not :
    (∃ s os, run lifecycleStep (.start provisioned) notifiedCycle = .ok (s, os) ∧ s.thread = .returned ∧
      s.homeKit.history = cycle) ∧
    (∃ s os, run lifecycleStep (.start provisioned) (notifiedCycle ++ enabling 8) = .ok (s, os) ∧ s.thread = .runLoop ∧
      (4, .handleEventNotificationTimer) ∈ s.homeKit.timers.pending) ∧
    run lifecycleStep (.start provisioned)
        (notifiedCycle ++ enabling 8 ++ [.timer calm (9, .callbackTimerExpired), .timer calm (4, .handleEventNotificationTimer)]) =
      .error .precondition ∧
    ¬ HomeKitError.precondition.Excused :=
  ⟨⟨_, _, rfl, rfl, rfl⟩, ⟨_, _, rfl, rfl, by decide⟩, rfl, by simp [HomeKitError.Excused]⟩

end CGuard
