import CGuard.HapServer
import CGuard.Lib.Yields

/-!
# What the accessory server keeps

The invariant of the global objects inside the run loop (`Serving`): the server is up, or its engine is idle and the factory reset is
to come, or it has been done and nothing more happens. For every function one statement says what it keeps of this, what else it
leaves alone (`Keeps`), and that it fails only if the store does.
-/

namespace CGuard

/-- An error that no precondition and no assertion is behind: the step is not one of the state, or the store fails. -/
def HomeKitError.Excused (e : HomeKitError) : Prop := e = .notEnabled ∨ e = .storeFailed

/-- The function fails only with such an error, and what it returns satisfies `Q`. -/
abbrev Safe {α : Type} (Q : α → Prop) (r : Except HomeKitError α) : Prop := Yields HomeKitError.Excused Q r

/-- A step that the state does not allow. -/
theorem safe_notEnabled {α : Type} {Q : α → Prop} : Safe Q (.error .notEnabled) := Or.inl rfl

/-- A store that fails. -/
theorem safe_storeFailed {α : Type} {Q : α → Prop} : Safe Q (.error .storeFailed) := Or.inr rfl

/-- A precondition that is met. -/
theorem safe_precondition {α : Type} {p : Prop} [Decidable p] {Q : α → Prop} {f : Unit → Except HomeKitError α} (hp : p)
    (h : Safe Q (f ())) : Safe Q (hapPrecondition p >>= f) := by
  unfold hapPrecondition
  rw [if_pos hp]
  exact h

/-- An assertion that is met. -/
theorem safe_assert {α : Type} {p : Prop} [Decidable p] {Q : α → Prop} {f : Unit → Except HomeKitError α} (hp : p)
    (h : Safe Q (f ())) : Safe Q (hapAssert p >>= f) := by
  unfold hapAssert
  rw [if_pos hp]
  exact h

/-! ## The store -/

/-- The domains that a factory reset purges. -/
def resetDomains : List UInt8 := kAppKeyValueStoreDomainConfiguration :: domainsToPurge

/-- The configuration is in the domains of a factory reset. -/
theorem configuration_mem : kHAPKeyValueStoreDomainConfiguration ∈ resetDomains := by decide

/-- The store has no file of these domains. -/
def Store.EmptyIn (domains : List UInt8) (s : Store) : Prop := ∀ name, name.1 ∈ domains → s.file name = none

/-- Outside the domains of a factory reset only these files differ. -/
def Store.AgreesBut (changed : FileName → Prop) (s s' : Store) : Prop :=
  ∀ name, name.1 ∉ resetDomains → ¬ changed name → s'.file name = s.file name

variable {changed : FileName → Prop}

/-- A store agrees with itself. -/
theorem Store.AgreesBut.refl (s : Store) : s.AgreesBut changed s := fun _ _ _ => rfl

/-- Two changes, one after the other. -/
theorem Store.AgreesBut.trans {s s' s'' : Store} (h : s.AgreesBut changed s') (h' : s'.AgreesBut changed s'') :
    s.AgreesBut changed s'' := fun name hd hc => (h' name hd hc).trans (h name hd hc)

/-- A purge in the domains of a reset changes no others. -/
theorem Store.agreesBut_purge (s : Store) {domain : UInt8} (hd : domain ∈ resetDomains) : s.AgreesBut changed (s.purge domain) := by
  intro name hname _
  rw [Store.file_purge, if_neg]
  rintro rfl
  exact hname hd

/-- An absent directory has no files, and neither has an empty one. -/
theorem Store.file_getD (s : Store) (name : FileName) : Store.file (some (s.getD ∅)) name = s.file name := by
  cases s <;> rfl

/-- A write in the domains of a reset, or of a file that may change. -/
theorem Store.agreesBut_insert (s : Store) {name : FileName} (bytes : List UInt8) (hd : name.1 ∈ resetDomains ∨ changed name) :
    s.AgreesBut changed (some ((s.getD ∅).insert name bytes)) := by
  intro other hother hc
  rw [Store.file_insert, if_neg, Store.file_getD]
  rintro rfl
  exact hd.elim hother hc

/-- `HAPPlatformKeyValueStorePurgeDomain` purges the domain, or the store fails. -/
theorem purge_safe (io : Bool) (s : Store) (domain : UInt8) :
    Safe (fun s' => s' = s.purge domain) (ofStore (hapPlatformKeyValueStorePurgeDomain io s domain)) := by
  cases io
  · exact safe_storeFailed
  · exact rfl

/-- `HAPRestoreFactorySettings` purges its three domains. -/
theorem restore_safe (io : Bool) (s : Store) :
    Safe (fun s' => s' = ((s.purge 0x90).purge 0x92).purge 0xA0) (ofStore (hapRestoreFactorySettings io s)) := by
  cases io
  · exact safe_storeFailed
  · exact rfl

/-- `HAPPlatformKeyValueStoreGet` reads the file, or the store fails. -/
theorem get_safe (io : Bool) (s : Store) (domain key : UInt8) (n : Nat) :
    Safe (fun r => r = (s.file (domain, key)).map (List.take n)) (ofStore (hapPlatformKeyValueStoreGet io s domain key n)) := by
  cases io
  · exact safe_storeFailed
  · exact rfl

/-- A write replaces the file, or the store fails. -/
theorem storeSet_safe (io : Bool) (s : Store) (domain key : UInt8) (bytes : List UInt8) :
    Safe (fun s' => s' = some ((s.getD ∅).insert (domain, key) bytes)) (storeSet io s domain key bytes) := by
  cases io
  · exact safe_storeFailed
  · exact rfl

/-- A value of the configuration is stored in its domain. -/
theorem loadOrStore_safe (io : Bool) (key : UInt8) (value : List UInt8) {missing : Store → Except HomeKitError Store} (s : Store)
    (hmissing : Safe (s.AgreesBut changed) (missing s)) : Safe (s.AgreesBut changed) (loadOrStore io key value missing s) := by
  unfold loadOrStore
  refine (get_safe io s _ key _).bind fun found _ => ?_
  cases found with
  | none =>
    refine hmissing.bind fun s' hs' => (storeSet_safe io s' _ _ _).mono ?_
    rintro s'' rfl
    exact hs'.trans (Store.agreesBut_insert s' _ (Or.inl configuration_mem))
  | some bytes =>
    dsimp only
    split_ifs
    · exact Store.AgreesBut.refl s
    · exact safe_storeFailed

/-- The key of the accessory is loaded, or a new one is stored after the pairings have been purged. -/
theorem loadLTSK_safe (changed : FileName → Prop) (w : Surroundings) (s : Store) :
    Safe (s.AgreesBut changed) (hapAccessoryServerLoadLTSK w s) := by
  refine loadOrStore_safe w.io _ _ s ((purge_safe w.io s _).mono ?_)
  rintro s' rfl
  exact Store.agreesBut_purge s (by decide)

/-- The firmware may start on a store without a version, and where it starts only the configuration is written. -/
theorem firmwareVersionCheck_safe (changed : FileName → Prop) (io : Bool) (s : Store) :
    Safe (fun r => (∀ s', r = some s' → s.AgreesBut changed s') ∧ (s.EmptyIn resetDomains → r ≠ none))
      (firmwareVersionCheck io s) := by
  have hsave : ∀ s₁ : Store, s.AgreesBut changed s₁ →
      Safe (fun s' => s.AgreesBut changed s')
        (storeSet io s₁ kHAPKeyValueStoreDomainConfiguration 0x10 (firmwareVersion.flatMap hapWriteLittleUInt32)) := by
    intro s₁ h
    refine (storeSet_safe io s₁ _ _ _).mono ?_
    rintro s' rfl
    exact h.trans (Store.agreesBut_insert s₁ _ (Or.inl configuration_mem))
  unfold firmwareVersionCheck
  dsimp only
  refine (get_safe io s _ _ _).bind fun found hfound => ?_
  cases found with
  | none => exact (hsave s (Store.AgreesBut.refl s)).bind fun s' hs' =>
      ⟨fun s'' h => Option.some.inj h ▸ hs', fun _ => by simp⟩
  | some bytes =>
    have hnot : ¬ s.EmptyIn resetDomains := by
      intro he
      rw [he _ (by decide)] at hfound
      cases hfound
    dsimp only
    split_ifs
    · exact safe_storeFailed
    · exact ⟨fun s' h => Option.some.inj h ▸ Store.AgreesBut.refl s, fun he => absurd he hnot⟩
    · exact ⟨fun s' h => absurd h (by simp), fun he => absurd he hnot⟩
    · refine Yields.bind (P := s.AgreesBut changed) ?_ fun s₁ h₁ =>
        (hsave s₁ h₁).bind fun s' hs' => ⟨fun s'' h => Option.some.inj h ▸ hs', fun he => absurd he hnot⟩
      unfold hapAccessoryServerIncrementCN
      refine (get_safe io s _ _ _).bind fun found _ => (storeSet_safe io s _ _ _).mono ?_
      rintro s' rfl
      exact Store.agreesBut_insert s _ (Or.inl configuration_mem)

/-! ## The invariant -/

/-- What a function leaves alone: the pipe and its buffer, the flag of the channel, and the files outside the domains of a reset, but
those that it is allowed to change. And it orphans no timer. -/
structure Keeps (changed : FileName → Prop) (s s' : HomeKit) : Prop where
  selfPipe : s'.runLoop.selfPipe = s.runLoop.selfPipe
  numSelfPipeBytes : s'.runLoop.numSelfPipeBytes = s.runLoop.numSelfPipeBytes
  enabled : s'.device.gisHomeKitEnabled = s.device.gisHomeKitEnabled
  owned : s.timers.Owned → s'.timers.Owned
  files : s.device.store.AgreesBut changed s'.device.store

/-- The server has its transport and its engine, the application its store, and the timers are in order. -/
structure Wired (s : HomeKit) : Prop where
  transportsIP : s.server.transportsIP = true
  serverEngine : s.serverEngine = true
  keyValueStore : s.device.accessoryConfiguration.keyValueStore = true
  sound : s.timers.Sound

/-- The sessions are counted, each has a place of its own in the storage, and the pairing session is open. -/
structure Sessions (s : HomeKit) : Prop where
  count : s.server.numSessions = s.sessions.length
  nodup : (s.sessions.map (·.slot)).Nodup
  slots : ∀ x ∈ s.sessions, x.slot < numSessionSlots
  pairing : ∀ j, s.server.sessionThatIsCurrentlyPairing = some j → ∃ x ∈ s.sessions, x.slot = j ∧ x.state ≠ .idle

/-- The server engine is Running, or it is Stopping after a stop request. -/
inductive Mode (s : HomeKit) : Prop where
  | running : s.server.ipState = .running → s.server.ipNextState = .undefined → s.server.state = .running → s.listener = true →
      s.timers.owner .handleServerStateTransitionTimer = none → Mode s
  | stopping : s.server.ipState = .stopping → s.server.ipNextState = .idle → s.server.state = .stopping →
      s.gHAPrequestedFactoryReset = true → Mode s

/-- The server is up, and `told` has been reported. -/
structure Up (told : List CycleEvent) (s : HomeKit) : Prop extends Wired s, Sessions s where
  mode : Mode s
  runLoop : s.runLoop.state = .running
  told : s.history = told

/-- The server engine is Idle: there is no session, no listener and no service, and no timer but two can be pending. -/
structure Down (s : HomeKit) : Prop extends Wired s where
  ipState : s.server.ipState = .idle
  numSessions : s.server.numSessions = 0
  sessions : s.sessions = []
  pairing : s.server.sessionThatIsCurrentlyPairing = none
  listener : s.listener = false
  discoverableService : s.server.discoverableService = false
  timer : ∀ k, k ≠ .callbackTimerExpired → k ≠ .handleEventNotificationTimer → s.timers.owner k = none

/-- The global objects inside the run loop. `told` is what had been reported when it was entered; on a store that was empty in the
domains of a reset (`fresh`) the server has been started. -/
inductive Serving (fresh : Prop) (told : List CycleEvent) (s : HomeKit) : Prop where
  | up : Up told s → Serving fresh told s
  | drained : Down s → s.server.state = .stopping → s.gHAPrequestedFactoryReset = true → s.runLoop.state = .running →
      s.history = told → Serving fresh told s
  | shutDown : Down s → s.server.state = .idle → s.runLoop.state = .stopping → s.timers.owner .callbackTimerExpired = none →
      s.device.store.EmptyIn resetDomains → s.history = told ++ [.factoryReset] → Serving fresh told s
  | notStarted : ¬ fresh → Down s → s.server.state = .idle → s.runLoop.state = .running → s.history = told → Serving fresh told s

/-- Nothing has happened. -/
theorem Keeps.refl (s : HomeKit) : Keeps changed s s := ⟨rfl, rfl, rfl, id, Store.AgreesBut.refl _⟩

/-- Two functions, one after the other. -/
theorem Keeps.trans {s s' s'' : HomeKit} (h : Keeps changed s s') (h' : Keeps changed s' s'') : Keeps changed s s'' :=
  ⟨h'.selfPipe.trans h.selfPipe, h'.numSelfPipeBytes.trans h.numSelfPipeBytes, h'.enabled.trans h.enabled,
    fun ho => h'.owned (h.owned ho), h.files.trans h'.files⟩

variable {fresh : Prop} {told : List CycleEvent} {s : HomeKit}

/-- The server engine is there. -/
theorem Wired.hasEngine (h : Wired s) : s.hasEngine = true := by
  simp only [HomeKit.hasEngine, h.transportsIP, h.serverEngine, Bool.and_self]

/-- The server is up, or its engine is Idle. -/
theorem Serving.up_or_down (h : Serving fresh told s) : Up told s ∨ Down s := by
  rcases h with hu | ⟨hd, -⟩ | ⟨hd, -⟩ | ⟨-, hd, -⟩
  · exact Or.inl hu
  all_goals exact Or.inr hd

/-- Where the states of the server and its engine are the same, the mode is, if the request of a reset and the listener stay. -/
theorem Mode.congr {s' : HomeKit} (h : Mode s)
    (hserver : s'.server.ipState = s.server.ipState ∧ s'.server.ipNextState = s.server.ipNextState ∧
      s'.server.state = s.server.state)
    (hreset : s.gHAPrequestedFactoryReset = true → s'.gHAPrequestedFactoryReset = true)
    (hrunning : s.server.ipState = .running → s.listener = true → s.timers.owner .handleServerStateTransitionTimer = none →
      s'.listener = true ∧ s'.timers.owner .handleServerStateTransitionTimer = none) : Mode s' := by
  obtain ⟨hs₁, hs₂, hs₃⟩ := hserver
  rcases h with ⟨hip, hnext, hstate, hl, ht⟩ | ⟨hip, hnext, hstate, hflag⟩
  · obtain ⟨hl', ht'⟩ := hrunning hip hl ht
    exact .running (hs₁.trans hip) (hs₂.trans hnext) (hs₃.trans hstate) hl' ht'
  · exact .stopping (hs₁.trans hip) (hs₂.trans hnext) (hs₃.trans hstate) (hreset hflag)

/-- The listener is open while the engine is Running. -/
theorem Up.stopping_of_listener (h : Up told s) (hl : s.listener = false) : s.server.ipState = .stopping := by
  rcases h.mode with ⟨-, -, -, hopen, -⟩ | ⟨hip, -⟩
  · exact absurd (hl.symm.trans hopen) (by simp)
  · exact hip

/-! ## Timers -/

/-- Other timers, in which nothing is registered that was not. -/
theorem Up.withTimers (h : Up told s) {t : OwnedTimers TimerCallback} (hs : t.Sound)
    (ht : s.server.ipState = .running → t.owner .handleServerStateTransitionTimer = none) : Up told { s with timers := t } :=
  { h with sound := hs, mode := h.mode.congr ⟨rfl, rfl, rfl⟩ id fun hip hl _ => ⟨hl, ht hip⟩ }

/-- While the engine is Running, no transition is scheduled. -/
theorem Up.noTransition (h : Up told s) (hr : s.server.ipState = .running) :
    s.timers.owner .handleServerStateTransitionTimer = none := by
  rcases h.mode with ⟨-, -, -, -, ht⟩ | ⟨hip, -⟩
  · exact ht
  · exact absurd (hip.symm.trans hr) (by simp)

/-- Other timers, in which at most the callback is registered anew. -/
theorem Down.withTimers (h : Down s) {t : OwnedTimers TimerCallback} (hs : t.Sound)
    (ht : ∀ k, k ≠ .callbackTimerExpired → s.timers.owner k = none → t.owner k = none) : Down { s with timers := t } :=
  { h with sound := hs, timer := fun k hc he => ht k hc (h.timer k hc he) }

/-- Other timers, with their owners. -/
theorem Keeps.withTimers {t : OwnedTimers TimerCallback} (ht : s.timers.Owned → t.Owned) : Keeps changed s { s with timers := t } :=
  ⟨rfl, rfl, rfl, ht, Store.AgreesBut.refl _⟩

/-- A timer that is none of the engine. -/
theorem Up.register (h : Up told s) {k : TimerCallback} (hk : k ≠ .handleServerStateTransitionTimer) : Up told (s.register k) :=
  h.withTimers h.sound.register fun hr => by
    rw [OwnedTimers.register_owner_of_ne _ _ _ hk.symm]
    exact h.noTransition hr

/-- A timer whose owner had none. -/
theorem keeps_register {k : TimerCallback} (hk : s.timers.owner k = none) : Keeps changed s (s.register k) :=
  .withTimers fun ho => ho.register hk

/-- Timers in order can be deregistered. -/
theorem deregister_eq (h : s.timers.Sound) (k : TimerCallback) : s.deregister k = .ok { s with timers := s.timers.remove k } := by
  unfold HomeKit.deregister
  rw [h.deregister]

/-- Removing a timer gives no owner one. -/
theorem remove_owner_none {t : OwnedTimers TimerCallback} {k j : TimerCallback} (h : t.owner j = none) :
    (t.remove k).owner j = none := by
  by_cases hjk : j = k
  · rw [hjk]
    exact OwnedTimers.remove_owner_self t k
  · rw [OwnedTimers.remove_owner_of_ne t k j hjk]
    exact h

/-- A timer fewer, while the server is up. -/
theorem Up.remove (h : Up told s) (k : TimerCallback) : Up told { s with timers := s.timers.remove k } :=
  h.withTimers h.sound.remove fun hr => remove_owner_none (h.noTransition hr)

/-- A timer fewer, while the engine is Idle. -/
theorem Down.remove (h : Down s) (k : TimerCallback) : Down { s with timers := s.timers.remove k } :=
  h.withTimers h.sound.remove fun _ _ => remove_owner_none

/-- A timer fewer, with its owner told. -/
theorem keeps_remove (s : HomeKit) (k : TimerCallback) : Keeps changed s { s with timers := s.timers.remove k } :=
  .withTimers fun ho => ho.remove

/-- A timer fewer, in any state of the server. -/
theorem Serving.remove (h : Serving fresh told s) (k : TimerCallback) : Serving fresh told { s with timers := s.timers.remove k } := by
  rcases h with hu | ⟨hd, hstate, hflag, hloop, htold⟩ | ⟨hd, hstate, hloop, hcb, hempty, htold⟩ |
    ⟨hfresh, hd, hstate, hloop, htold⟩
  · exact .up (hu.remove k)
  · exact .drained (hd.remove k) hstate hflag hloop htold
  · exact .shutDown (hd.remove k) hstate hloop (remove_owner_none hcb) hempty htold
  · exact .notStarted hfresh (hd.remove k) hstate hloop htold

/-- A report of the state is scheduled at most once. -/
theorem delegate_timers (s : HomeKit) :
    ∃ t, hapAccessoryServerDelegateScheduleHandleUpdatedState s = { s with timers := t } ∧ (s.timers.Sound → t.Sound) ∧
      (s.timers.Owned → t.Owned) ∧ ∀ k, k ≠ .callbackTimerExpired → t.owner k = s.timers.owner k := by
  unfold hapAccessoryServerDelegateScheduleHandleUpdatedState
  split_ifs with hsome
  · exact ⟨s.timers, rfl, id, id, fun _ _ => rfl⟩
  · refine ⟨s.timers.register .callbackTimerExpired, rfl, OwnedTimers.Sound.register, fun ho => ho.register ?_, fun k hk => ?_⟩
    · exact Option.not_isSome_iff_eq_none.mp hsome
    · exact OwnedTimers.register_owner_of_ne _ _ _ hk

/-- Scheduling a report keeps everything else. -/
theorem delegate_keeps (s : HomeKit) : Keeps changed s (hapAccessoryServerDelegateScheduleHandleUpdatedState s) := by
  obtain ⟨t, ht, -, hown, -⟩ := delegate_timers s
  rw [ht]
  exact .withTimers hown

/-- A report is scheduled while the server is up. -/
theorem Up.delegate (h : Up told s) : Up told (hapAccessoryServerDelegateScheduleHandleUpdatedState s) := by
  obtain ⟨t, ht, hsound, -, howner⟩ := delegate_timers s
  rw [ht]
  refine h.withTimers (hsound h.sound) fun hr => ?_
  rw [howner _ (by simp)]
  exact h.noTransition hr

/-! ## The factory reset -/

/-- While the engine is Idle, so is the server. -/
theorem getState_down (h : Down s) : hapAccessoryServerGetState s = .ok .idle := by
  unfold hapAccessoryServerGetState
  rw [if_pos h.hasEngine, h.ipState]

/-- While the server is up, its state is Running or Stopping. -/
theorem getState_up (h : Up told s) :
    (s.server.ipState = .running ∧ hapAccessoryServerGetState s = .ok .running) ∨
      (s.server.ipState = .stopping ∧ hapAccessoryServerGetState s = .ok .stopping) := by
  unfold hapAccessoryServerGetState
  rw [if_pos h.toWired.hasEngine]
  rcases h.mode with ⟨hip, -⟩ | ⟨hip, hnext, -⟩
  · exact Or.inl ⟨hip, by rw [hip]⟩
  · refine Or.inr ⟨hip, ?_⟩
    rw [hip]
    simp [hnext, hapAssert, bind, Except.bind]

/-- While the server is up, a report of its state changes nothing. -/
theorem handleUpdatedState_up (h : Up told s) (io : Bool) : handleUpdatedState io s = .ok s := by
  unfold handleUpdatedState
  rcases getState_up h with ⟨-, hget⟩ | ⟨-, hget⟩ <;> rw [hget] <;> rfl

/-- The saved state is loaded, if the disk answers; the store and the flag of the channel stay. -/
theorem appCreate_safe (io : Bool) (s : HomeKit) :
    Safe (fun s' => ∃ device : Device, s' = { s with device := device } ∧ device.store = s.device.store ∧
      device.gisHomeKitEnabled = s.device.gisHomeKitEnabled ∧ device.accessoryConfiguration.keyValueStore = true)
      (s.appCreate io) := by
  unfold HomeKit.appCreate
  refine Yields.bind (P := fun device : Device => device.store = s.device.store ∧
    device.gisHomeKitEnabled = s.device.gisHomeKitEnabled ∧ device.accessoryConfiguration.keyValueStore = true) ?_
    fun device hd => ⟨device, rfl, hd⟩
  unfold appCreate loadAccessoryState hapPlatformKeyValueStoreGet
  cases io with
  | false => exact safe_storeFailed
  | true =>
    simp only [Bool.not_true, Bool.false_eq_true, if_false, if_true]
    split
    · exact safe_storeFailed
    · exact ⟨rfl, rfl, rfl⟩
    · exact ⟨rfl, rfl, rfl⟩

/-- The reset: the server is down and its state Idle, and afterwards it is shut down. -/
theorem factoryReset_safe (h : Down s) (hstate : s.server.state = .idle) (hloop : s.runLoop.state = .running)
    (hcb : s.timers.owner .callbackTimerExpired = none) (htold : s.history = told) (io : Bool) :
    Safe (fun s' => Serving fresh told s' ∧ Keeps changed s s') (factoryReset io s) := by
  unfold factoryReset
  refine (purge_safe io _ _).bind fun store₁ h₁ => (restore_safe io _).bind fun store₂ h₂ => ?_
  subst h₁ h₂
  generalize hstore : (((s.device.store.purge kAppKeyValueStoreDomainConfiguration).purge 0x90).purge 0x92).purge 0xA0 = store
  refine (appCreate_safe io _).bind ?_
  rintro s' ⟨device, rfl, hds, hde, hdk⟩
  have hempty : device.store.EmptyIn resetDomains := by
    intro name hname
    rw [hds]
    change store.file name = none
    rw [← hstore]
    simp only [Store.file_purge]
    simp only [resetDomains, domainsToPurge, List.mem_cons, List.not_mem_nil, or_false] at hname
    rcases hname with hname | hname | hname | hname <;> simp [hname]
  have hfiles : s.device.store.AgreesBut changed device.store := by
    rw [hds]
    change s.device.store.AgreesBut changed store
    rw [← hstore]
    exact (((Store.agreesBut_purge _ (by decide)).trans (Store.agreesBut_purge _ (by decide))).trans
      (Store.agreesBut_purge _ (by decide))).trans (Store.agreesBut_purge _ (by decide))
  refine ⟨.shutDown { h with keyValueStore := hdk } hstate ?_ hcb hempty ?_, ⟨rfl, rfl, hde, id, hfiles⟩⟩
  · change s.runLoop.state.stop = .stopping
    rw [hloop]
    rfl
  · change s.history ++ [.factoryReset] = told ++ [.factoryReset]
    rw [htold]

/-- The server reports Idle: the reset follows if it is requested. -/
theorem handleUpdatedState_down (h : Down s) (hstate : s.server.state = .idle) (hloop : s.runLoop.state = .running)
    (hcb : s.timers.owner .callbackTimerExpired = none) (htold : s.history = told)
    (hreset : s.gHAPrequestedFactoryReset = false → ¬ fresh) (io : Bool) :
    Safe (fun s' => Serving fresh told s' ∧ Keeps changed s s') (handleUpdatedState io s) := by
  unfold handleUpdatedState
  rw [getState_down h]
  change Safe _ (if HAPAccessoryServerState.idle = .idle ∧ s.gHAPrequestedFactoryReset = true then factoryReset io s else .ok s)
  split_ifs with hflag
  · exact factoryReset_safe h hstate hloop hcb htold io
  · have hoff : s.gHAPrequestedFactoryReset = false := by simpa using hflag
    exact ⟨.notStarted (hreset hoff) h hstate hloop htold, Keeps.refl s⟩

/-- The shutdown is completed: the state is Idle, and it is reported. -/
theorem completeShutdown_safe (h : Down s) (hloop : s.runLoop.state = .running)
    (hcb : s.timers.owner .callbackTimerExpired = none) (htold : s.history = told)
    (hreset : s.gHAPrequestedFactoryReset = false → ¬ fresh) (io : Bool) :
    Safe (fun s' => Serving fresh told s' ∧ Keeps changed s s') (completeShutdown io s) := by
  unfold completeShutdown
  refine safe_assert h.pairing (safe_assert h.discoverableService ?_)
  exact (handleUpdatedState_down (s := { s with server.primaryAccessory := false, server.state := .idle }) { h with } rfl hloop hcb
    htold hreset io).mono fun s' hs' => ⟨hs'.1, { hs'.2 with }⟩

/-- The callback of the server, once its timer has been cleared. -/
theorem callbackTimerExpired_safe (h : Serving fresh told s) (hloop : s.runLoop.state = .running)
    (hcb : s.timers.owner .callbackTimerExpired = none) (io : Bool) :
    Safe (fun s' => Serving fresh told s' ∧ Keeps changed s s') (callbackTimerExpired io s) := by
  unfold callbackTimerExpired
  have hdown : Down s → s.history = told → (s.gHAPrequestedFactoryReset = false → ¬ fresh) →
      Safe (fun s' => Serving fresh told s' ∧ Keeps changed s s')
        (if s.hasEngine = true then do
          if (← hapAccessoryServerGetState s) = .idle then completeShutdown io s else handleUpdatedState io s
        else handleUpdatedState io s) := by
    intro hd htold hreset
    rw [if_pos hd.hasEngine, getState_down hd]
    exact completeShutdown_safe hd hloop hcb htold hreset io
  rcases h with hu | ⟨hd, -, hflag, -, htold⟩ | ⟨-, -, hstopping, -⟩ | ⟨hfresh, hd, -, -, htold⟩
  · rw [if_pos hu.toWired.hasEngine]
    have hkept : Safe (fun s' => Serving fresh told s' ∧ Keeps changed s s') (handleUpdatedState io s) := by
      rw [handleUpdatedState_up hu]
      exact ⟨.up hu, Keeps.refl s⟩
    rcases getState_up hu with ⟨-, hget⟩ | ⟨-, hget⟩ <;> rw [hget] <;> exact hkept
  · exact hdown hd htold fun hoff => absurd (hflag.symm.trans hoff) (by simp)
  · exact absurd (hstopping.symm.trans hloop) (by simp)
  · exact hdown hd htold fun _ => hfresh

/-! ## Stopping -/

/-- An idle server is not stopped again. -/
theorem stop_idle (io : Bool) (hstate : s.server.state = .idle) : hapAccessoryServerStop io s = .ok s := by
  unfold hapAccessoryServerStop
  rw [if_pos hstate]

/-- A stop of a running server stops its engine. -/
theorem stop_running (io : Bool) (hw : Wired s) (hstate : s.server.state = .running) :
    hapAccessoryServerStop io s = engineStop { s with server.state := .stopping } := by
  have he : HomeKit.hasEngine { s with server.state := .stopping } = true := hw.hasEngine
  unfold hapAccessoryServerStop
  simp only [hstate, he, hapAssert, bind, Except.bind, if_true, ne_eq, reduceCtorEq, not_false_eq_true, if_false]

/-- A stop of a server that stops asks its engine again. -/
theorem stop_stopping (io : Bool) (hw : Wired s) (hstate : s.server.state = .stopping) :
    hapAccessoryServerStop io s = engineStop s := by
  unfold hapAccessoryServerStop
  simp only [hstate, hw.hasEngine, bind, Except.bind, if_true, ne_eq, reduceCtorEq, not_true_eq_false, if_false]

/-- The engine goes from Running to Stopping, and its transition is scheduled. -/
theorem engineStop_running (h : Up told s) (hip : s.server.ipState = .running) (hflag : s.gHAPrequestedFactoryReset = true) :
    Safe (fun s' => Up told s' ∧ Keeps changed s s') (engineStop { s with server.state := .stopping }) := by
  rcases h.mode with ⟨-, hnext, -⟩ | ⟨hstop, -⟩
  · unfold engineStop
    simp only [hip]
    refine safe_assert hnext ?_
    generalize hs₁ : ({ s with server := { s.server with state := .stopping, ipState := .stopping, ipNextState := .idle } } : HomeKit)
      = s₁
    have hup : Up told s₁ := by
      subst hs₁
      exact { h with mode := .stopping rfl rfl rfl hflag }
    have hkeep : Keeps changed s s₁ := by
      subst hs₁
      exact { Keeps.refl s with }
    have hip₁ : s₁.server.ipState = .stopping := by rw [← hs₁]
    obtain ⟨t, ht, hsound, hown, howner⟩ := delegate_timers s₁
    have hkeep₂ : Keeps changed s { s₁ with timers := t } := hkeep.trans (.withTimers hown)
    have hup₂ : Up told { s₁ with timers := t } :=
      hup.withTimers (hsound hup.sound) fun hr => absurd (hip₁.symm.trans hr) (by simp)
    simp only [ht]
    split_ifs with hnone
    · exact ⟨hup₂.withTimers hup₂.sound.register fun hr => absurd (hip₁.symm.trans hr) (by simp),
        hkeep₂.trans (keeps_register hnone)⟩
    · exact ⟨hup₂, hkeep₂⟩
  · exact absurd (hstop.symm.trans hip) (by simp)

/-- A stop request: a running server starts to stop, and in any other state nothing but the flag changes. -/
theorem doHAPAccessoryServerStop_safe (h : Serving fresh told s) (io : Bool) :
    Safe (fun s' => Serving fresh told s' ∧ Keeps changed s s') (doHAPAccessoryServerStop io s) := by
  unfold doHAPAccessoryServerStop
  have hkeep : Keeps changed s { s with gHAPrequestedFactoryReset := true } := { Keeps.refl s with }
  rcases h with hu | ⟨hd, hstate, hflag, hloop, htold⟩ | ⟨hd, hstate, hloop, hcb, hempty, htold⟩ |
    ⟨hfresh, hd, hstate, hloop, htold⟩
  · have hup : Up told { s with gHAPrequestedFactoryReset := true } :=
      { hu with mode := hu.mode.congr ⟨rfl, rfl, rfl⟩ (fun _ => rfl) fun _ hl ht => ⟨hl, ht⟩ }
    rcases hu.mode with ⟨hip, -, hstate, -⟩ | ⟨hip, hnext, hstate, -⟩
    · rw [stop_running io hup.toWired hstate]
      exact (engineStop_running hup hip rfl).mono fun s' hs' => ⟨.up hs'.1, hkeep.trans hs'.2⟩
    · rw [stop_stopping io hup.toWired hstate]
      unfold engineStop
      simp only [hip, hnext]
      exact safe_assert trivial ⟨.up hup, hkeep⟩
  · rw [stop_stopping (s := { s with gHAPrequestedFactoryReset := true }) io { hd.toWired with } hstate]
    unfold engineStop
    simp only [hd.ipState]
    exact ⟨.drained { hd with } hstate rfl hloop htold, hkeep⟩
  · rw [stop_idle (s := { s with gHAPrequestedFactoryReset := true }) io hstate]
    exact ⟨.shutDown { hd with } hstate hloop hcb hempty htold, hkeep⟩
  · rw [stop_idle (s := { s with gHAPrequestedFactoryReset := true }) io hstate]
    exact ⟨.notStarted hfresh { hd with } hstate hloop htold, hkeep⟩

end CGuard
