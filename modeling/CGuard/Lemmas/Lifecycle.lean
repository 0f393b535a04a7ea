import CGuard.Lifecycle
import CGuard.Lemmas.HapSessions

/-!
# What a cycle keeps

The invariant of the whole process: what holds at each place of the HomeKit thread (`Stage`), and what the pipe holds. Each action of
the thread leads from one place's part to the next one's, and each callback keeps the part of the run loop.
-/

namespace CGuard

variable {fresh : Prop} {told : List CycleEvent} {changed : FileName → Prop} {s s' : HomeKit}

/-! ## Callbacks -/

/-- A timer that expires is the one that its owner holds. -/
def TimerOwned (a : LifecycleAct) (s : HomeKit) : Prop :=
  ∀ w t, a = .timer w t → t ∈ s.timers.pending → s.timers.owner t.2 = some t.1

/-- The files outside the domains of a reset that an action may change. -/
def LifecycleAct.Writes (a : LifecycleAct) (name : FileName) : Prop :=
  match a with
  | .session _ _ e => ∃ x ∈ e.writes, x.name = name
  | .homeKit _ => name = setupInfoFile
  | _ => False

/-- A callback whose timer has just been removed. -/
theorem run_safe (h : Serving fresh told s) {k : TimerCallback} (hk : s.timers.owner k ≠ none) (w : Surroundings) :
    Safe (fun s' => Serving fresh told s' ∧ Keeps changed s s')
      (k.run w { s with timers := s.timers.remove k }) := by
  have hremoved := h.remove k
  have hkeep : Keeps changed s { s with timers := s.timers.remove k } := keeps_remove s k
  have hnone := OwnedTimers.remove_owner_self s.timers k
  -- while the server is down, only two timers can expire
  have hup : k ≠ .callbackTimerExpired → k ≠ .handleEventNotificationTimer → Up told { s with timers := s.timers.remove k } := by
    intro hcb hev
    have hu : Up told s := h.up_or_down.resolve_right fun hd => hk (hd.timer k hcb hev)
    exact hu.remove k
  cases k with
  | callbackTimerExpired =>
    have hloop : s.runLoop.state = .running := by
      rcases h with hu | ⟨-, -, -, hloop, -⟩ | ⟨-, -, -, hcb, -⟩ | ⟨-, -, -, hloop, -⟩
      · exact hu.runLoop
      · exact hloop
      · exact absurd hcb hk
      · exact hloop
    exact (callbackTimerExpired_safe hremoved hloop hnone w.io).mono fun s' hs' => ⟨hs'.1, hkeep.trans hs'.2⟩
  | handleServerStateTransitionTimer =>
    have hu := hup (by simp) (by simp)
    have hstop : s.server.ipState = .stopping := by
      rcases h.up_or_down with hu | hd
      · rcases hu.mode with ⟨-, -, -, -, ht⟩ | ⟨hip, -⟩
        · exact absurd ht hk
        · exact hip
      · exact absurd (hd.timer _ (by simp) (by simp)) hk
    refine safe_assert hstop ?_
    exact (scheduleMaxIdleTimeTimer_safe hu w).mono fun s' hs' => ⟨.up hs'.1, hkeep.trans hs'.2⟩
  | handleMaxIdleTimeTimer =>
    exact (scheduleMaxIdleTimeTimer_safe (hup (by simp) (by simp)) w).mono fun s' hs' => ⟨.up hs'.1, hkeep.trans hs'.2⟩
  | handleGarbageCollectionTimer =>
    exact (collectGarbage_safe (hup (by simp) (by simp))).mono fun s' hs' => ⟨hs'.1, hkeep.trans hs'.2⟩
  | handleEventNotificationTimer =>
    rcases h.up_or_down with hu | hd
    · exact (scheduleEventNotifications_safe changed (hu.remove _) w).mono fun s' hs' => ⟨.up hs'.1.1, hkeep.trans hs'.1.2⟩
    · have hdown := scheduleEventNotifications_down (hd.remove .handleEventNotificationTimer) w
      change Safe _ (scheduleEventNotifications w { s with timers := s.timers.remove .handleEventNotificationTimer })
      rw [hdown]
      exact ⟨hremoved.remove _, hkeep.trans (keeps_remove _ _)⟩

/-- A pending timer expires. -/
theorem processExpiredTimer_safe (h : Serving fresh told s) (w : Surroundings) {t : Nat × TimerCallback}
    (ht : t ∈ s.timers.pending → s.timers.owner t.2 = some t.1) :
    Safe (fun s' => Serving fresh told s' ∧ Keeps changed s s') (processExpiredTimer w t s) := by
  unfold processExpiredTimer
  by_cases hmem : t ∈ s.timers.pending
  · have hpop := s.timers.pop_disown (ht hmem) hmem
    unfold OwnedTimers.pop at hpop ⊢
    rw [if_pos hmem] at hpop ⊢
    refine safe_precondition (ht hmem) ?_
    rw [Option.some.inj hpop]
    exact run_safe h (by simp [ht hmem]) w
  · unfold OwnedTimers.pop
    rw [if_neg hmem]
    exact safe_notEnabled

/-- The listener is open only while the server is up. -/
theorem handleListener_safe (h : Serving fresh told s) (w : Surroundings) :
    Safe (fun s' => Serving fresh told s' ∧ Keeps changed s s') (handleListener w s) := by
  unfold handleListener
  split_ifs with hl
  · have hu : Up told s := h.up_or_down.resolve_right fun hd => absurd (hd.listener.symm.trans hl) (by simp)
    exact (handlePendingTCPStream_safe hu w).mono fun s' hs' => ⟨.up hs'.1, hs'.2⟩
  · exact safe_notEnabled

/-- What a step does to the pipe and the flag of the channel, to the buffer of the pipe, and to the files. -/
structure KeepsPipe (changed : FileName → Prop) (s s' : HomeKit) : Prop where
  pipe : (s'.runLoop.selfPipe = s.runLoop.selfPipe ∧ s'.device.gisHomeKitEnabled = s.device.gisHomeKitEnabled) ∨
    ∀ b, s'.runLoop.selfPipe = some b → b = 0
  numSelfPipeBytes : s.runLoop.numSelfPipeBytes = 0 → s'.runLoop.numSelfPipeBytes = 0
  files : s.device.store.AgreesBut changed s'.device.store

theorem Keeps.keepsPipe (h : Keeps changed s s') : KeepsPipe changed s s' :=
  ⟨Or.inl ⟨h.selfPipe, h.enabled⟩, fun h0 => h.numSelfPipeBytes.trans h0, h.files⟩

theorem handleStopRequests_safe (changed : FileName → Prop) (io : Bool) (n : Nat) {s : HomeKit} (h : Serving fresh told s) :
    Safe (fun s' => Serving fresh told s' ∧ Keeps changed s s') (handleStopRequests io n s) := by
  induction n generalizing s with
  | zero => exact ⟨h, Keeps.refl s⟩
  | succ n ih =>
    exact (doHAPAccessoryServerStop_safe h io).bind fun s₁ h₁ => (ih h₁.1).mono fun s' hs' => ⟨hs'.1, h₁.2.trans hs'.2⟩

/-- What the AWS thread can change, and the buffer of the pipe, in any state of the server. -/
theorem Serving.outside (h : Serving fresh told s) (acl : Acl) (lamp enabled : Bool) (selfPipe : Option Nat) (n : Nat) :
    Serving fresh told { s with
      device.acl := acl, device.gLightBulbState := lamp, device.gisHomeKitEnabled := enabled
      runLoop.selfPipe := selfPipe, runLoop.numSelfPipeBytes := n } := by
  rcases h with hu | ⟨hd, hstate, hflag, hloop, htold⟩ | ⟨hd, hstate, hloop, hcb, hempty, htold⟩ |
    ⟨hfresh, hd, hstate, hloop, htold⟩
  · exact .up { hu with mode := hu.mode.congr ⟨rfl, rfl, rfl⟩ id fun _ hl ht => ⟨hl, ht⟩ }
  · exact .drained { hd with } hstate hflag hloop htold
  · exact .shutDown { hd with } hstate hloop hcb hempty htold
  · exact .notStarted hfresh { hd with } hstate hloop htold

theorem Serving.withPipe (h : Serving fresh told s) (selfPipe : Option Nat) (n : Nat) :
    Serving fresh told { s with runLoop.selfPipe := selfPipe, runLoop.numSelfPipeBytes := n } :=
  h.outside s.device.acl s.device.gLightBulbState s.device.gisHomeKitEnabled selfPipe n

/-- The pipe holds one stop request or nothing: it is read whole, and no part of a message remains in the buffer. -/
theorem handleSelfPipe_safe (h : Serving fresh told s) (io : Bool)
    (hpipe : ∀ b, s.runLoop.selfPipe = some b → b = 0 ∨ b = selfPipeMessageBytes) (hbuffer : s.runLoop.numSelfPipeBytes = 0) :
    Safe (fun s' => Serving fresh told s' ∧ KeepsPipe changed s s' ∧ (s.timers.Owned → s'.timers.Owned)) (handleSelfPipe io s) := by
  unfold handleSelfPipe
  split
  · exact safe_notEnabled
  · exact safe_notEnabled
  · rename_i bytes hne hsome
    obtain rfl : bytes = selfPipeMessageBytes := (hpipe bytes hsome).resolve_left hne
    rw [hbuffer]
    refine safe_assert (by decide) ((handleStopRequests_safe changed io 1 (h.withPipe (some 0) 0)).mono fun s' hs' => ?_)
    obtain ⟨hserving, hkeep⟩ := hs'
    refine ⟨hserving, ⟨Or.inr fun b hb => ?_, fun _ => hkeep.numSelfPipeBytes, hkeep.files⟩, hkeep.owned⟩
    exact (Option.some.inj (hkeep.selfPipe.symm.trans hb)).symm

/-- A callback of the run loop. -/
theorem callback_safe (h : Serving fresh told s) (a : LifecycleAct) (hto : TimerOwned a s)
    (hpipe : ∀ b, s.runLoop.selfPipe = some b → b = 0 ∨ b = selfPipeMessageBytes) (hbuffer : s.runLoop.numSelfPipeBytes = 0) :
    Safe (fun s' => Serving fresh told s' ∧ KeepsPipe a.Writes s s' ∧ (s.timers.Owned → s'.timers.Owned)) (callback a s) := by
  have hkept : ∀ {r : Except HomeKitError HomeKit}, Safe (fun s' => Serving fresh told s' ∧ Keeps a.Writes s s') r →
      Safe (fun s' => Serving fresh told s' ∧ KeepsPipe a.Writes s s' ∧ (s.timers.Owned → s'.timers.Owned)) r :=
    fun hr => hr.mono fun s' hs' => ⟨hs'.1, hs'.2.keepsPipe, hs'.2.owned⟩
  cases a with
  | timer w t => exact hkept (processExpiredTimer_safe h w (hto w t rfl))
  | selfPipe w => exact handleSelfPipe_safe h w.io hpipe hbuffer
  | listener w => exact hkept (handleListener_safe h w)
  | session w slot e => exact hkept (handleTCPStreamEvent_safe h w slot e fun x hx => ⟨x, hx, rfl⟩)
  | command _ => exact safe_notEnabled
  | message _ _ => exact safe_notEnabled
  | aws _ => exact safe_notEnabled
  | homeKit _ => exact safe_notEnabled

/-! ## Starting the server -/

/-- The timers, but the one of the report, and the files outside the domains of a reset are as before, and so is all else but the
store. -/
structure Prepared (changed : FileName → Prop) (s s' : HomeKit) : Prop where
  eq : ∃ t store, s' = { s with timers := t, device.store := store }
  sound : s.timers.Sound → s'.timers.Sound
  owned : s.timers.Owned → s'.timers.Owned
  owner : ∀ k, k ≠ .callbackTimerExpired → s'.timers.owner k = s.timers.owner k
  files : s.device.store.AgreesBut changed s'.device.store

theorem Prepared.trans {s s' s'' : HomeKit} (h : Prepared changed s s') (h' : Prepared changed s' s'') : Prepared changed s s'' := by
  obtain ⟨t', store', rfl⟩ := h.eq
  obtain ⟨t'', store'', rfl⟩ := h'.eq
  exact ⟨⟨t'', store'', rfl⟩, fun hs => h'.sound (h.sound hs), fun ho => h'.owned (h.owned ho),
    fun k hk => (h'.owner k hk).trans (h.owner k hk), h.files.trans h'.files⟩

theorem prepared_store {store : Store} (h : s.device.store.AgreesBut changed store) :
    Prepared changed s { s with device.store := store } := ⟨⟨s.timers, store, rfl⟩, id, id, fun _ _ => rfl, h⟩

theorem prepared_delegate (s : HomeKit) : Prepared changed s (hapAccessoryServerDelegateScheduleHandleUpdatedState s) := by
  obtain ⟨t, ht, hsound, hown, howner⟩ := delegate_timers s
  rw [ht]
  exact ⟨⟨t, s.device.store, rfl⟩, hsound, hown, howner, Store.AgreesBut.refl _⟩

theorem cleanupPairings_safe (changed : FileName → Prop) (w : Surroundings) (s : HomeKit) :
    Safe (Prepared changed s) (hapAccessoryServerCleanupPairings w s) := by
  unfold hapAccessoryServerCleanupPairings
  split
  · exact safe_storeFailed
  · split_ifs
    · dsimp only
      refine (purge_safe w.io _ _).bind fun store hstore => ?_
      have hdelegate : Prepared changed s _ := prepared_delegate s
      obtain ⟨t, store₀, heq⟩ := hdelegate.eq
      refine hdelegate.trans (prepared_store ?_)
      rw [hstore, heq]
      exact Store.agreesBut_purge _ (by decide)
    · exact prepared_store (Store.AgreesBut.refl _)

/-- The server before its engine has been started. -/
structure Created (s : HomeKit) : Prop extends Down s where
  ipNextState : s.server.ipNextState = .undefined
  isServiceDiscoverable : s.server.isServiceDiscoverable = false

/-- A server whose start is being prepared. -/
theorem Created.prepared (h : Created s) (hp : Prepared changed s s')
    (hkv : s'.device.accessoryConfiguration.keyValueStore = s.device.accessoryConfiguration.keyValueStore) : Created s' := by
  obtain ⟨t, store, rfl⟩ := hp.eq
  exact { h with
    sound := hp.sound h.sound
    keyValueStore := hkv.trans h.keyValueStore
    timer := fun k hc he => (hp.owner k hc).trans (h.timer k hc he) }

/-- Publishing the service only writes the configuration. -/
theorem publishHomeKitService_safe (changed : FileName → Prop) (w : Surroundings)
    (hdisc : s.server.isServiceDiscoverable = false) (hl : s.listener = true) :
    Safe (fun s' => ∃ store, s.device.store.AgreesBut changed store ∧
      s' = { s with device.store := store, server.discoverableService := true, server.isServiceDiscoverable := true })
      (publishHomeKitService w s) := by
  unfold publishHomeKitService
  refine safe_assert hdisc (safe_assert hl ?_)
  have hload : ∀ (key : UInt8) (value : List UInt8) (store : Store),
      Safe (store.AgreesBut changed) (loadOrStore w.io key value .ok store) :=
    fun key value store => loadOrStore_safe w.io key value store (Store.AgreesBut.refl store)
  refine (hload 0x20 [1, 0, 0, 0] _).bind fun store₁ h₁ => ?_
  refine (hload 0x00 (w.random.take 6) _).bind fun store₂ h₂ => ?_
  exact ⟨store₂, h₁.trans h₂, rfl⟩

/-- The engine starts, and the server is up once the run loop runs. -/
theorem engineStart_safe (changed : FileName → Prop) (h : Created s) (hstate : s.server.state = .running) (w : Surroundings) :
    Safe (fun s' => (Up s.history { s' with runLoop.state := .running } ∧ s'.runLoop.state = s.runLoop.state) ∧ Keeps changed s s')
      (engineStart w s) := by
  unfold engineStart
  refine safe_assert h.ipState ?_
  obtain ⟨t, ht, hsound, hown, howner⟩ := delegate_timers { s with server.ipState := .running }
  dsimp only
  rw [ht]
  refine safe_assert h.listener (Yields.mono (publishHomeKitService_safe changed w ?_ rfl) ?_)
  · exact h.isServiceDiscoverable
  rintro s' ⟨store, hstore, rfl⟩
  have hnone : t.owner .handleServerStateTransitionTimer = none := (howner _ (by simp)).trans (h.timer _ (by simp) (by simp))
  refine ⟨⟨{ h.toWired with
    sound := hsound h.sound
    count := by
      change s.server.numSessions = s.sessions.length
      rw [h.numSessions, h.sessions]
      rfl
    nodup := by
      change (s.sessions.map _).Nodup
      rw [h.sessions]
      exact List.nodup_nil
    slots := fun x hx => absurd (h.sessions ▸ hx) List.not_mem_nil
    pairing := fun j hj => absurd (h.pairing.symm.trans hj) (by simp)
    mode := .running rfl h.ipNextState hstate rfl hnone
    runLoop := rfl
    told := rfl }, rfl⟩, ⟨rfl, rfl, rfl, hown, hstore⟩⟩

/-- The start of a server is prepared, or its firmware may not start: never on a store that was empty. -/
theorem hapAccessoryServerPrepareStart_safe (changed : FileName → Prop) (h : Created s) (hstate : s.server.state = .idle)
    (hprimary : s.server.primaryAccessory = false) (hfresh : fresh → s.device.store.EmptyIn resetDomains) (w : Surroundings) :
    Safe (fun s' => (Created s' ∧ Keeps changed s s') ∧ (s'.server.state = .running ∨ s'.server.state = .idle ∧ ¬ fresh) ∧
      s'.runLoop = s.runLoop ∧ s'.history = s.history) (hapAccessoryServerPrepareStart w s) := by
  unfold hapAccessoryServerPrepareStart
  refine safe_precondition hstate (safe_precondition hprimary ?_)
  obtain ⟨t, ht, hsound, hown, howner⟩ := delegate_timers { s with server.state := .running }
  dsimp only
  rw [ht]
  refine (firmwareVersionCheck_safe changed w.io s.device.store).bind fun found hfound => ?_
  cases found with
  | none =>
    have hdown : Created { s with server.state := .idle, timers := t, sessions := [] } :=
      { h with sound := hsound h.sound, sessions := rfl, timer := fun k hc he => (howner k hc).trans (h.timer k hc he) }
    exact ⟨⟨hdown, ⟨rfl, rfl, rfl, hown, Store.AgreesBut.refl _⟩⟩, Or.inr ⟨rfl, fun hf => hfound.2 (hfresh hf) rfl⟩, rfl, rfl⟩
  | some store =>
    refine (loadLTSK_safe changed w store).bind fun store' hstore' => ?_
    have hcreated : Created { s with
        server.state := .running, server.primaryAccessory := true, timers := t, sessions := [], device.store := store' } :=
      { h with sound := hsound h.sound, sessions := rfl, timer := fun k hc he => (howner k hc).trans (h.timer k hc he) }
    have hkeep : Keeps changed s { s with
        server.state := .running, server.primaryAccessory := true, timers := t, sessions := [], device.store := store' } :=
      ⟨rfl, rfl, rfl, hown, (hfound.1 store rfl).trans hstore'⟩
    refine (cleanupPairings_safe changed w _).mono fun s' hp => ?_
    obtain ⟨t', store'', rfl⟩ := hp.eq
    exact ⟨⟨hcreated.prepared hp rfl, hkeep.trans ⟨rfl, rfl, rfl, hp.owned, hp.files⟩⟩, Or.inl rfl, rfl, rfl⟩

/-- A server that has been created starts, or its firmware may not. -/
theorem hapAccessoryServerStart_safe (changed : FileName → Prop) (h : Created s) (hstate : s.server.state = .idle)
    (hprimary : s.server.primaryAccessory = false) (hfresh : fresh → s.device.store.EmptyIn resetDomains) (w : Surroundings) :
    Safe (fun s' => (Serving fresh s.history { s' with runLoop.state := .running } ∧ s'.runLoop.state = s.runLoop.state) ∧
      Keeps changed s s') (hapAccessoryServerStart w s) := by
  unfold hapAccessoryServerStart
  refine (hapAccessoryServerPrepareStart_safe changed h hstate hprimary hfresh w).bind fun s₁ hs₁ => ?_
  obtain ⟨⟨hcreated, hkeep⟩, hor, hloop, htold⟩ := hs₁
  rcases hor with hrun | ⟨hidle, hnot⟩
  · rw [if_neg (by simp [hrun]), if_pos hcreated.hasEngine]
    refine (engineStart_safe changed hcreated hrun w).mono fun s' hs' => ?_
    rw [htold, hloop] at hs'
    exact ⟨⟨.up hs'.1.1, hs'.1.2⟩, hkeep.trans hs'.2⟩
  · rw [if_pos (by simp [hidle])]
    refine safe_assert hidle ⟨⟨.notStarted hnot { hcreated.toDown with } hidle rfl htold, ?_⟩, hkeep⟩
    rw [hloop]

/-! ## The places of the HomeKit thread -/

/-- What one cycle reports: "EnableChannel", "Start factory reset.", "Exiting run loop." and "HomeKit Thread ENDED". -/
def cycle : List CycleEvent := [.entered, .factoryReset, .exitingRunLoop, .ended]

/-- `n` cycles, and the first `k` reports of the next one. -/
def reported (n k : Nat) : List CycleEvent := (List.replicate n cycle).flatten ++ cycle.take k

theorem reported_entered (n : Nat) : reported n 0 ++ [.entered] = reported n 1 := by
  simp [reported, cycle]

theorem reported_exiting (n : Nat) : (reported n 1 ++ [.factoryReset]) ++ [.exitingRunLoop] = reported n 3 := by
  simp [reported, cycle]

theorem reported_ended (n : Nat) : reported n 3 ++ [.ended] = reported (n + 1) 0 := by
  simp [reported, cycle, List.replicate_succ']

/-- What has been reported is the start of some number of cycles. -/
theorem reported_prefix (n k : Nat) : reported n k <+: (List.replicate (n + 1) cycle).flatten := by
  rw [List.replicate_succ', List.flatten_append, List.flatten_singleton]
  exact (List.prefix_append_right_inj _).mpr (List.take_prefix k cycle)

/-- The objects while there is no server: it is zeroed, holds no timer, and the run loop is Idle. -/
structure Released (fresh : Prop) (told : List CycleEvent) (s : HomeKit) : Prop where
  server : s.server = .zero
  owner : ∀ k, s.timers.owner k = none
  sound : s.timers.Sound
  runLoop : s.runLoop.state = .idle
  store : fresh → s.device.store.EmptyIn resetDomains
  told : s.history = told

/-- The objects before a run loop and a server engine have been created. -/
structure Fresh (fresh : Prop) (told : List CycleEvent) (s : HomeKit) : Prop extends Released fresh told s where
  selfPipe : s.runLoop.selfPipe = none
  serverEngine : s.serverEngine = false

/-- The objects after the run loop: the reset has been done, and the server engine is Idle. -/
structure Exited (told : List CycleEvent) (s : HomeKit) : Prop extends Down s where
  state : s.server.state = .idle
  runLoop : s.runLoop.state = .idle
  callbackTimer : s.timers.owner .callbackTimerExpired = none
  store : s.device.store.EmptyIn resetDomains
  told : s.history = told

/-- What holds at each place of the thread in cycle `n`. -/
def Stage (fresh : Prop) (n : Nat) (s : HomeKit) : HomeKitPc → Prop
  | .notCreated | .prepare | .setEnabled | .clearReset => Fresh fresh (reported n 0) s
  | .callMain => Fresh fresh (reported n 0) s ∧ s.gHAPrequestedFactoryReset = false
  | .runLoopCreate => Fresh fresh (reported n 1) s ∧ s.gHAPrequestedFactoryReset = false
  | .serverCreate => Released fresh (reported n 1) s ∧ s.serverEngine = false ∧ s.listener = false
  | .serverStart =>
    Created s ∧ s.server.state = .idle ∧ s.server.primaryAccessory = false ∧ s.runLoop.state = .idle ∧
      (fresh → s.device.store.EmptyIn resetDomains) ∧ s.history = reported n 1
  | .runLoopRun => Serving fresh (reported n 1) { s with runLoop.state := .running } ∧ s.runLoop.state = .idle
  | .runLoop => Serving fresh (reported n 1) s
  | .serverRelease => Exited (reported n 3) s
  | .runLoopRelease => Released fresh (reported n 3) s
  | .mainReturn => Released fresh (reported n 3) s ∧ s.runLoop.selfPipe = none
  | .returned => Fresh fresh (reported (n + 1) 0) s
  | .serverStop | .deregister => False

/-- Every pending timer is known to the server, and when the server is released none is pending. -/
def Tidy (s : HomeKit) (pc : HomeKitPc) : Prop := s.timers.Owned ∧ (pc = .serverRelease → s.timers.pending = [])

/-- What an action of the thread does. -/
structure ThreadStep (fresh : Prop) (s : HomeKit) (pc : HomeKitPc) (r : HomeKit × HomeKitPc) : Prop where
  stage : ∃ n, Stage fresh n r.1 r.2
  keeps : KeepsPipe (· = setupInfoFile) s r.1
  tidy : Tidy s pc → (pc = .runLoop → s.runLoop.state ≠ .running → ∀ p ∈ s.timers.pending, p.2 ≠ .handleEventNotificationTimer) →
    Tidy r.1 r.2

/-- The start of the process. -/
theorem stage_start (store : Store) (h : fresh → store.EmptyIn resetDomains) : Stage fresh 0 (.start store) .notCreated :=
  ⟨⟨rfl, fun _ => rfl, OwnedTimers.sound_start, rfl, h, rfl⟩, rfl, rfl⟩

/-- An empty directory has no files. -/
theorem file_removeStore (s : Store) (name : FileName) : (removeStore s).file name = s.file name := by
  unfold removeStore
  cases s with
  | none => rfl
  | some files =>
    by_cases he : files = ∅
    · subst he
      rfl
    · rw [Option.filter_some, if_pos (decide_eq_true he)]

/-- `CS_EnableChannel` only writes the setup info. -/
theorem prepareStore_safe (w : Surroundings) (s : HomeKit) :
    Safe (fun s' => ∃ store, s' = { s with device.store := store } ∧
      ∀ name, name ≠ setupInfoFile → store.file name = s.device.store.file name) (prepareStore w s) := by
  unfold prepareStore
  split
  · exact safe_notEnabled
  · rename_i code salt ret store hprep
    refine ⟨store, rfl, fun name hname => ?_⟩
    rw [← file_removeStore s.device.store name]
    unfold prepareNewSetupCode writeFile at hprep
    obtain ⟨r, -, hprep⟩ := Option.bind_eq_some_iff.mp hprep
    cases hs : removeStore s.device.store with
    | none =>
      rw [hs] at hprep
      cases hprep
      rfl
    | some files =>
      rw [hs] at hprep
      cases hprep
      rw [Store.file_insert, if_neg hname]

/-- A server is created where there is none. -/
theorem create_safe (h : Released fresh told s) (hengine : s.serverEngine = false) (hl : s.listener = false) (io : Bool) :
    Safe (fun s' => (Created s' ∧ s'.server.state = .idle ∧ s'.server.primaryAccessory = false) ∧
      ∃ device : Device, device.store = s.device.store ∧ device.gisHomeKitEnabled = s.device.gisHomeKitEnabled ∧
        s' = { s with
          device := device, timers := s.timers.disownAll, serverEngine := true, sessions := []
          server := { HAPAccessoryServer.zero with transportsIP := true, ipState := .idle } })
      (hapAccessoryServerCreate s >>= (·.appCreate io)) := by
  refine Yields.bind (P := fun s' => s' = { s with
    timers := s.timers.disownAll, serverEngine := true, sessions := []
    server := { HAPAccessoryServer.zero with transportsIP := true, ipState := .idle } }) ?_ ?_
  · exact safe_precondition hengine (safe_assert rfl rfl)
  · rintro _ rfl
    refine (appCreate_safe io _).mono ?_
    rintro _ ⟨device, rfl, hstore, henabled, hkv⟩
    have hcreated : Created { s with
        device := device, timers := s.timers.disownAll, serverEngine := true, sessions := []
        server := { HAPAccessoryServer.zero with transportsIP := true, ipState := .idle } } :=
      { transportsIP := rfl, serverEngine := rfl, keyValueStore := hkv, sound := h.sound.disownAll, ipState := rfl
        numSessions := rfl, sessions := rfl, pairing := rfl, listener := hl, discoverableService := rfl
        timer := fun _ _ _ => rfl, ipNextState := rfl, isServiceDiscoverable := rfl }
    exact ⟨⟨hcreated, rfl, rfl⟩, device, hstore, henabled, rfl⟩

/-- The run loop is left only after the reset. -/
theorem runLoopExit_safe (h : Serving fresh told s) :
    Safe (fun s' => (s.runLoop.state ≠ .running ∧ Exited (told ++ [.factoryReset] ++ [.exitingRunLoop]) s') ∧ s'.timers = s.timers ∧
      s'.runLoop.selfPipe = s.runLoop.selfPipe ∧ s'.runLoop.numSelfPipeBytes = s.runLoop.numSelfPipeBytes ∧ s'.device = s.device)
      (runLoopExit s) := by
  unfold runLoopExit
  split_ifs with hrun
  · exact safe_notEnabled
  rcases h with hu | ⟨-, -, -, hloop, -⟩ | ⟨hd, hstate, hloop, hcb, hempty, htold⟩ | ⟨-, -, -, hloop, -⟩
  · exact absurd hu.runLoop hrun
  · exact absurd hloop hrun
  · refine safe_assert hloop ?_
    have hexited : Exited (told ++ [.factoryReset] ++ [.exitingRunLoop])
        { s with runLoop.state := .idle, history := s.history ++ [.exitingRunLoop] } :=
      { hd with state := hstate, runLoop := rfl, callbackTimer := hcb, store := hempty, told := by rw [← htold] }
    exact ⟨⟨hrun, hexited⟩, rfl, rfl, rfl, rfl⟩
  · exact absurd hloop hrun

/-- With no timer pending but those the server knows, none is pending after the run loop: the notifications' timer is the only one
that a stop leaves. -/
theorem Exited.pending_eq_nil (h : Exited told s) (ho : s.timers.Owned)
    (hevent : ∀ p ∈ s.timers.pending, p.2 ≠ .handleEventNotificationTimer) : s.timers.pending = [] := by
  refine ho.pending_eq_nil fun p hp => ?_
  by_cases hcb : p.2 = .callbackTimerExpired
  · rw [hcb]
    exact h.callbackTimer
  · exact h.timer p.2 hcb (hevent p hp)

/-- The server is released, and its timers with it. -/
theorem release_safe (fresh : Prop) (h : Exited told s) (io : Bool) :
    Safe (fun s' => Released fresh told s' ∧ s' = { s with server := .zero, timers := s.timers.disownAll })
      (hapAccessoryServerRelease io s) := by
  unfold hapAccessoryServerRelease
  rw [stop_idle io h.state]
  change Safe _ (HomeKit.deregister _ s >>= _)
  rw [deregister_eq h.sound, OwnedTimers.remove_of_none _ _ h.callbackTimer]
  change Safe _ (if s.hasEngine = true then _ else _)
  rw [if_pos h.hasEngine]
  refine safe_assert h.ipState ⟨⟨rfl, fun _ => rfl, h.sound.disownAll, h.runLoop, fun _ => h.store, h.told⟩, rfl⟩

/-- An action that does not lead to the release of the server. -/
theorem threadStep_of {n : Nat} {pc pc' : HomeKitPc} (hstage : Stage fresh n s' pc') (hkeeps : KeepsPipe (· = setupInfoFile) s s')
    (howned : Tidy s pc → s'.timers.Owned) (hpc : pc' ≠ .serverRelease) : ThreadStep fresh s pc (s', pc') :=
  ⟨⟨n, hstage⟩, hkeeps, fun ht _ => ⟨howned ht, fun he => absurd he hpc⟩⟩

/-- An action that changes neither the pipe nor a file. -/
theorem keepsPipe_of_eq (hpipe : s'.runLoop.selfPipe = s.runLoop.selfPipe)
    (hbuffer : s'.runLoop.numSelfPipeBytes = s.runLoop.numSelfPipeBytes)
    (henabled : s'.device.gisHomeKitEnabled = s.device.gisHomeKitEnabled) (hstore : s'.device.store = s.device.store) :
    KeepsPipe changed s s' :=
  ⟨Or.inl ⟨hpipe, henabled⟩, fun h0 => hbuffer.trans h0, hstore ▸ Store.AgreesBut.refl _⟩

/-- Where no owner holds a timer, all pending timers can be forgotten. -/
theorem Released.disownAll (h : Released fresh told s) (ho : s.timers.Owned) : s.timers.disownAll.Owned :=
  .disownAll (ho.pending_eq_nil fun p _ => h.owner p.2)

/-- Every action of the thread leads to the next place. -/
theorem homeKitThread_safe (w : Surroundings) {n : Nat} {pc : HomeKitPc} (h : Stage fresh n s pc) :
    Safe (ThreadStep fresh s pc) (homeKitThread w s pc) := by
  cases pc with
  | notCreated => exact safe_notEnabled
  | returned => exact safe_notEnabled
  | serverStop | deregister => exact safe_notEnabled
  | prepare =>
    refine ((prepareStore_safe w s).mono ?_).map
    rintro s' ⟨store, rfl, hfile⟩
    have hempty : fresh → store.EmptyIn resetDomains := by
      intro hf name hname
      rw [hfile name]
      · exact h.store hf name hname
      · rintro rfl
        exact absurd hname (by decide)
    exact threadStep_of (n := n) { h with store := hempty } ⟨Or.inl ⟨rfl, rfl⟩, id, fun name _ hc => hfile name hc⟩ (·.1) (by simp)
  | setEnabled =>
    refine threadStep_of (n := n) { h with } ⟨Or.inr fun b hb => ?_, id, Store.AgreesBut.refl _⟩ (·.1) (by simp)
    exact absurd (h.selfPipe.symm.trans hb) (by simp)
  | clearReset => exact threadStep_of (n := n) ⟨{ h with }, rfl⟩ (keepsPipe_of_eq rfl rfl rfl rfl) (·.1) (by simp)
  | callMain =>
    obtain ⟨hfresh, hflag⟩ := h
    have htold : s.history ++ [.entered] = reported n 1 := by rw [hfresh.told, reported_entered]
    exact threadStep_of (n := n) ⟨{ hfresh with told := htold }, hflag⟩ (keepsPipe_of_eq rfl rfl rfl rfl) (·.1) (by simp)
  | runLoopCreate =>
    obtain ⟨hfresh, -⟩ := h
    refine Yields.map (safe_precondition hfresh.selfPipe ?_)
    refine threadStep_of (n := n) ⟨{ hfresh.toReleased with runLoop := rfl }, hfresh.serverEngine, rfl⟩
      ⟨Or.inr fun b hb => ?_, id, Store.AgreesBut.refl _⟩ (·.1) (by simp)
    exact (Option.some.inj hb).symm
  | serverCreate =>
    obtain ⟨hreleased, hengine, hl⟩ := h
    refine ((create_safe hreleased hengine hl w.io).mono ?_).map
    rintro s' ⟨⟨hcreated, hstate, hprimary⟩, device, hstore, henabled, rfl⟩
    have hempty : fresh → device.store.EmptyIn resetDomains := hstore ▸ hreleased.store
    exact threadStep_of (n := n) ⟨hcreated, hstate, hprimary, hreleased.runLoop, hempty, hreleased.told⟩
      (keepsPipe_of_eq rfl rfl henabled hstore) (fun ht => hreleased.disownAll ht.1) (by simp)
  | serverStart =>
    obtain ⟨hcreated, hstate, hprimary, hloop, hempty, htold⟩ := h
    refine ((hapAccessoryServerStart_safe (· = setupInfoFile) hcreated hstate hprimary hempty w).mono ?_).map
    rintro s' ⟨⟨hserving, hloop'⟩, hkeep⟩
    exact threadStep_of (n := n) ⟨htold ▸ hserving, hloop'.trans hloop⟩ hkeep.keepsPipe (fun ht => hkeep.owned ht.1) (by simp)
  | runLoopRun =>
    obtain ⟨hserving, hloop⟩ := h
    refine Yields.map (safe_precondition hloop ?_)
    exact threadStep_of (n := n) hserving (keepsPipe_of_eq rfl rfl rfl rfl) (·.1) (by simp)
  | runLoop =>
    refine ((runLoopExit_safe h).mono ?_).map
    rintro s' ⟨⟨hrun, hexited⟩, htimers, hpipe, hbuffer, hdevice⟩
    rw [reported_exiting] at hexited
    refine ⟨⟨n, hexited⟩, keepsPipe_of_eq hpipe hbuffer (by rw [hdevice]) (by rw [hdevice]), fun ht hevent => ?_⟩
    have howned : s'.timers.Owned := htimers ▸ ht.1
    exact ⟨howned, fun _ => hexited.pending_eq_nil howned (htimers ▸ hevent rfl hrun)⟩
  | serverRelease =>
    refine ((release_safe fresh h w.io).mono ?_).map
    rintro s' ⟨hreleased, rfl⟩
    exact threadStep_of (n := n) hreleased (keepsPipe_of_eq rfl rfl rfl rfl) (fun ht => .disownAll (ht.2 rfl)) (by simp)
  | runLoopRelease =>
    refine threadStep_of (n := n) ⟨{ h with runLoop := rfl }, rfl⟩ ⟨Or.inr fun b hb => ?_, id, Store.AgreesBut.refl _⟩ (·.1) (by simp)
    exact absurd hb (by simp [deinitializePlatform])
  | mainReturn =>
    obtain ⟨hreleased, hpipe⟩ := h
    have htold : s.history ++ [.ended] = reported (n + 1) 0 := by rw [hreleased.told, reported_ended]
    exact threadStep_of (n := n) (Fresh.mk { hreleased with told := htold } hpipe rfl) (keepsPipe_of_eq rfl rfl rfl rfl) (·.1) (by simp)

/-! ## The invariant -/

/-- The invariant of the process: what holds at the place of the HomeKit thread, that the pipe holds at most the stop request of the
message being handled or of the last one, that no part of a message is in its buffer, and that a thread is created only when there is
none. -/
structure Invariant (fresh : Prop) (s : Lifecycle) : Prop where
  stage : ∃ n, Stage fresh n s.homeKit s.thread
  pipe : ∀ b, s.homeKit.runLoop.selfPipe = some b → b = 0 ∨ b = selfPipeMessageBytes ∧
    (s.aws = .clearEnabled ∨ s.aws = .idle ∧ s.homeKit.device.gisHomeKitEnabled = false)
  numSelfPipeBytes : s.homeKit.runLoop.numSelfPipeBytes = 0
  created : s.aws = .createThread → s.thread.live = false

theorem invariant_start (store : Store) (h : fresh → store.EmptyIn resetDomains) : Invariant fresh (.start store) where
  stage := ⟨0, stage_start store h⟩
  pipe := fun b hb => absurd hb (by simp [Lifecycle.start, HomeKit.start])
  numSelfPipeBytes := rfl
  created := fun h => absurd h (by simp [Lifecycle.start])

/-- What holds at a place does not depend on what the AWS thread changes, as long as it does not make a pipe. -/
theorem Stage.outside {n : Nat} {pc : HomeKitPc} (h : Stage fresh n s pc) (acl : Acl) (lamp enabled : Bool) (selfPipe : Option Nat)
    (hpipe : s.runLoop.selfPipe = none → selfPipe = none) :
    Stage fresh n { s with
      device.acl := acl, device.gLightBulbState := lamp, device.gisHomeKitEnabled := enabled, runLoop.selfPipe := selfPipe } pc := by
  have hfresh : ∀ {told}, Fresh fresh told s → Fresh fresh told { s with
      device.acl := acl, device.gLightBulbState := lamp, device.gisHomeKitEnabled := enabled, runLoop.selfPipe := selfPipe } :=
    fun hf => { hf with selfPipe := hpipe hf.selfPipe }
  cases pc with
  | notCreated | prepare | setEnabled | clearReset | returned => exact hfresh h
  | callMain | runLoopCreate => exact ⟨hfresh h.1, h.2⟩
  | serverCreate => exact ⟨{ h.1 with }, h.2⟩
  | serverStart => exact ⟨{ h.1 with }, h.2⟩
  | runLoopRun => exact ⟨Serving.outside h.1 acl lamp enabled selfPipe _, h.2⟩
  | runLoop => exact Serving.outside h acl lamp enabled selfPipe _
  | serverRelease => exact { h with }
  | runLoopRelease => exact { h with }
  | mainReturn => exact ⟨{ h.1 with }, hpipe h.2⟩
  | serverStop | deregister => exact h

/-- Where there is no thread, the objects wait for the next cycle. -/
theorem Stage.fresh_of_not_live {n : Nat} {pc : HomeKitPc} (h : Stage fresh n s pc) (hlive : pc.live = false) :
    ∃ n, Fresh fresh (reported n 0) s := by
  cases pc with
  | notCreated => exact ⟨n, h⟩
  | returned => exact ⟨n + 1, h⟩
  | _ => exact absurd hlive (by decide)

/-- The run loop is not left while the timer of the event notifications is pending. -/
def LeavesNoTimer (s : Lifecycle) (a : LifecycleAct) : Prop :=
  match a with
  | .homeKit _ =>
    s.thread = .runLoop → s.homeKit.runLoop.state ≠ .running → ∀ p ∈ s.homeKit.timers.pending, p.2 ≠ .handleEventNotificationTimer
  | _ => True

/-- What a step keeps. -/
structure StepKeeps (fresh : Prop) (s : Lifecycle) (a : LifecycleAct) (s' : Lifecycle) : Prop where
  invariant : Invariant fresh s'
  files : s.homeKit.device.store.AgreesBut a.Writes s'.homeKit.device.store
  tidy : Tidy s.homeKit s.thread → LeavesNoTimer s a → Tidy s'.homeKit s'.thread

variable {l l' : Lifecycle}

theorem StepKeeps.refl (h : Invariant fresh l) (a : LifecycleAct) : StepKeeps fresh l a l := ⟨h, Store.AgreesBut.refl _, fun ht _ => ht⟩

/-- Until a stop is requested the pipe is empty. -/
theorem Invariant.pipe_empty (h : Invariant fresh l) (hclear : l.aws ≠ .clearEnabled)
    (hidle : l.aws = .idle → l.homeKit.device.gisHomeKitEnabled = true) {b : Nat} (hb : l.homeKit.runLoop.selfPipe = some b) :
    b = 0 := by
  rcases h.pipe b hb with h0 | ⟨-, hc | ⟨haws, hoff⟩⟩
  · exact h0
  · exact absurd hc hclear
  · exact absurd (hoff.symm.trans (hidle haws)) (by simp)

theorem lifecycleCommand_safe (h : Invariant fresh l) (c : ChannelCommand) :
    Safe (StepKeeps fresh l (.command c)) (lifecycleCommand c l) := by
  unfold lifecycleCommand
  split
  · split_ifs with hflag hlive
    · exact .refl h _
    · exact safe_notEnabled
    · rw [Bool.not_eq_true] at hlive
      obtain ⟨n, hstage⟩ := h.stage
      obtain ⟨m, hfresh⟩ := hstage.fresh_of_not_live hlive
      exact ⟨{ h with pipe := fun b hb => absurd (hfresh.selfPipe.symm.trans hb) (by simp), created := fun _ => hlive },
        Store.AgreesBut.refl _, fun ht _ => ht⟩
  · rename_i haws
    split_ifs with hflag
    · exact .refl h _
    · have hempty : ∀ b, l.homeKit.runLoop.selfPipe = some b → b = 0 :=
        fun b hb => h.pipe_empty (by simp [haws]) (fun _ => by simpa using hflag) hb
      exact ⟨{ h with pipe := fun b hb => Or.inl (hempty b hb), created := fun he => absurd he (by simp) },
        Store.AgreesBut.refl _, fun ht _ => ht⟩
  · exact safe_notEnabled

/-- The AWS thread writes one stop request into an empty pipe, if there is one. -/
theorem lifecycleAws_safe (h : Invariant fresh l) (threadCreated : Bool) :
    Safe (StepKeeps fresh l (.aws threadCreated)) (lifecycleAws threadCreated l) := by
  obtain ⟨n, hstage⟩ := h.stage
  unfold lifecycleAws
  split
  · exact safe_notEnabled
  · exact safe_notEnabled
  · rename_i haws
    obtain ⟨m, hfresh⟩ := hstage.fresh_of_not_live (h.created haws)
    have hnone : ∀ b, l.homeKit.runLoop.selfPipe ≠ some b := fun b hb => absurd (hfresh.selfPipe.symm.trans hb) (by simp)
    split_ifs
    · refine ⟨⟨⟨m, hfresh⟩, fun b hb => absurd hb (hnone b), h.numSelfPipeBytes, fun he => ?_⟩, Store.AgreesBut.refl _, fun ht _ => ?_⟩
      · exact absurd he (by simp)
      · exact ⟨ht.1, fun he => absurd he (by simp)⟩
    · exact ⟨{ h with pipe := fun b hb => absurd hb (hnone b), created := fun he => absurd he (by simp) },
        Store.AgreesBut.refl _, fun ht _ => ht⟩
  · rename_i haws
    have hempty : ∀ b, l.homeKit.runLoop.selfPipe = some b → b = 0 :=
      fun b hb => h.pipe_empty (by simp [haws]) (fun he => absurd (haws.symm.trans he) (by simp)) hb
    have hstage' := hstage.outside l.homeKit.device.acl l.homeKit.device.gLightBulbState true _ id
    exact ⟨⟨⟨n, hstage'⟩, fun b hb => Or.inl (hempty b hb), h.numSelfPipeBytes, fun he => absurd he (by simp)⟩,
      Store.AgreesBut.refl _, fun ht _ => ht⟩
  · rename_i haws
    have hstage' := hstage.outside l.homeKit.device.acl l.homeKit.device.gLightBulbState l.homeKit.device.gisHomeKitEnabled
      (l.homeKit.runLoop.selfPipe.map (· + selfPipeMessageBytes)) fun hnone => by rw [hnone]; rfl
    refine ⟨⟨⟨n, hstage'⟩, fun b hb => Or.inr ⟨?_, Or.inl rfl⟩, h.numSelfPipeBytes, fun he => absurd he (by simp)⟩,
      Store.AgreesBut.refl _, fun ht _ => ht⟩
    obtain ⟨b', hb', rfl⟩ := Option.map_eq_some_iff.mp hb
    rw [h.pipe_empty (by simp [haws]) (fun he => absurd (haws.symm.trans he) (by simp)) hb', Nat.zero_add]
  · have hstage' := hstage.outside l.homeKit.device.acl l.homeKit.device.gLightBulbState false _ id
    refine ⟨⟨⟨n, hstage'⟩, fun b hb => ?_, h.numSelfPipeBytes, fun he => absurd he (by simp)⟩,
      Store.AgreesBut.refl _, fun ht _ => ht⟩
    rcases h.pipe b hb with h0 | ⟨hbytes, -⟩
    · exact Or.inl h0
    · exact Or.inr ⟨hbytes, Or.inr ⟨rfl, rfl⟩⟩

/-- The part of the invariant about the pipe, over a step of the HomeKit thread. -/
theorem Invariant.homeKit (h : Invariant fresh l) {pc : HomeKitPc} (hstage : ∃ n, Stage fresh n s pc)
    (hkeeps : KeepsPipe changed l.homeKit s) (hlive : l.thread.live = true) : Invariant fresh { l with homeKit := s, thread := pc } := by
  refine ⟨hstage, fun b hb => ?_, hkeeps.numSelfPipeBytes h.numSelfPipeBytes, fun he => ?_⟩
  · rcases hkeeps.pipe with ⟨hpipe, henabled⟩ | hempty
    · rcases h.pipe b (hpipe.symm.trans hb) with h0 | ⟨hbytes, hclear | ⟨hidle, hoff⟩⟩
      · exact Or.inl h0
      · exact Or.inr ⟨hbytes, Or.inl hclear⟩
      · exact Or.inr ⟨hbytes, Or.inr ⟨hidle, henabled.trans hoff⟩⟩
    · exact Or.inl (hempty b hb)
  · exact absurd (hlive.symm.trans (h.created he)) (by simp)

/-- The HomeKit thread goes on. -/
theorem homeKit_safe (h : Invariant fresh l) (w : Surroundings) :
    Safe (fun r => StepKeeps fresh l (.homeKit w) r.1) (lifecycleStep l (.homeKit w)) := by
  obtain ⟨n, hstage⟩ := h.stage
  change Safe _ ((homeKitThread w l.homeKit l.thread).map _)
  by_cases hlive : l.thread.live = true
  · refine ((homeKitThread_safe w hstage).mono ?_).map
    rintro r ⟨hstage', hkeeps, htidy⟩
    exact ⟨h.homeKit hstage' hkeeps hlive, hkeeps.files, htidy⟩
  · cases hpc : l.thread with
    | notCreated | returned => exact safe_notEnabled
    | _ => exact absurd (hpc ▸ rfl) hlive

/-- A callback in the run loop. -/
theorem runLoop_safe (h : Invariant fresh l) (a : LifecycleAct) (hto : TimerOwned a l.homeKit) :
    Safe (fun r => StepKeeps fresh l a r.1)
      (if l.thread = .runLoop then (callback a l.homeKit).map fun homeKit => ({ l with homeKit := homeKit }, ())
      else .error .notEnabled) := by
  split_ifs with hrun
  · obtain ⟨n, hstage⟩ := h.stage
    have hserving : Serving fresh (reported n 1) l.homeKit := by
      rw [hrun] at hstage
      exact hstage
    have hpipe : ∀ b, l.homeKit.runLoop.selfPipe = some b → b = 0 ∨ b = selfPipeMessageBytes :=
      fun b hb => (h.pipe b hb).imp id (·.1)
    refine ((callback_safe hserving a hto hpipe h.numSelfPipeBytes).mono ?_).map
    rintro s' ⟨hserving', hkeeps, howned⟩
    have hstage' : Stage fresh n s' l.thread := by
      rw [hrun]
      exact hserving'
    exact ⟨h.homeKit ⟨n, hstage'⟩ hkeeps (by rw [hrun]; rfl), hkeeps.files, fun ht _ => ⟨howned ht.1, fun he =>
      absurd (hrun.symm.trans he) (by simp)⟩⟩
  · exact safe_notEnabled

/-- Every step keeps the invariant, if a timer that expires is the one that its owner holds. -/
theorem lifecycleStep_safe (h : Invariant fresh l) (a : LifecycleAct) (hto : TimerOwned a l.homeKit) :
    Safe (fun r => StepKeeps fresh l a r.1) (lifecycleStep l a) := by
  cases a with
  | command c => exact Yields.map (lifecycleCommand_safe h c)
  | message acl lamp =>
    change Safe _ (if l.aws = .idle then _ else _)
    split_ifs with haws
    · obtain ⟨n, hstage⟩ := h.stage
      have hstage' := hstage.outside acl lamp l.homeKit.device.gisHomeKitEnabled _ id
      exact ⟨{ h with stage := ⟨n, hstage'⟩ }, Store.AgreesBut.refl _, fun ht _ => ht⟩
    · exact safe_notEnabled
  | aws threadCreated => exact Yields.map (lifecycleAws_safe h threadCreated)
  | homeKit w => exact homeKit_safe h w
  | timer w t => exact runLoop_safe h _ hto
  | selfPipe w => exact runLoop_safe h _ hto
  | listener w => exact runLoop_safe h _ hto
  | session w slot e => exact runLoop_safe h _ hto

/-- A step that returns has run no callback of a timer that its owner does not hold. -/
theorem timerOwned_of_ok {a : LifecycleAct} {o : Unit} (hok : lifecycleStep l a = .ok (l', o)) : TimerOwned a l.homeKit := by
  rintro w t rfl hmem
  by_contra hne
  have herror : callback (.timer w t) l.homeKit = .error .precondition := by
    change processExpiredTimer w t l.homeKit = _
    unfold processExpiredTimer OwnedTimers.pop hapPrecondition
    rw [if_pos hmem]
    dsimp only
    rw [if_neg hne]
    rfl
  change (if l.thread = .runLoop then (callback (.timer w t) l.homeKit).map _ else .error .notEnabled) = _ at hok
  rw [herror] at hok
  split_ifs at hok
  cases hok

/-- What every step that returns keeps. -/
theorem lifecycleStep_keeps (h : Invariant fresh l) {a : LifecycleAct} {o : Unit} (hok : lifecycleStep l a = .ok (l', o)) :
    StepKeeps fresh l a l' := (lifecycleStep_safe h a (timerOwned_of_ok hok)).value hok

end CGuard
