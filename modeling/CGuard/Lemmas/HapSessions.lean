import CGuard.Lemmas.HapServer

/-!
# What the sessions keep

The functions of the server engine over the sessions of the storage (closing, garbage collection, idle times, event notifications, new
sessions and their requests), each on a server that is up.
-/

namespace CGuard

variable {fresh : Prop} {told : List CycleEvent} {changed : FileName → Prop} {s s' : HomeKit}

/-- Sessions that change in place, where the pairing session, if there is one, stays open. -/
theorem Sessions.map (h : Sessions s) {f : HAPIPSessionDescriptor → HAPIPSessionDescriptor} (hf : ∀ x, (f x).slot = x.slot)
    (hs : s'.sessions = s.sessions.map f) (hn : s'.server.numSessions = s.server.numSessions)
    (hp : ∀ j, s'.server.sessionThatIsCurrentlyPairing = some j → ∃ x ∈ s.sessions, x.slot = j ∧ (f x).state ≠ .idle) :
    Sessions s' := by
  have hmap : s'.sessions.map (·.slot) = s.sessions.map (·.slot) := by
    rw [hs, List.map_map]
    exact List.map_congr_left fun x _ => hf x
  refine ⟨?_, hmap ▸ h.nodup, fun y hy => ?_, fun j hj => ?_⟩
  · rw [hs, hn, List.length_map]
    exact h.count
  · rw [hs] at hy
    obtain ⟨x, hx, rfl⟩ := List.mem_map.mp hy
    rw [hf x]
    exact h.slots x hx
  · obtain ⟨x, hx, hslot, hopen⟩ := hp j hj
    exact ⟨f x, by rw [hs]; exact List.mem_map_of_mem hx, (hf x).trans hslot, hopen⟩

/-- The place of a session determines it. -/
theorem Sessions.unique (h : Sessions s) {x y : HAPIPSessionDescriptor} (hx : x ∈ s.sessions) (hy : y ∈ s.sessions)
    (hxy : x.slot = y.slot) : x = y := List.inj_on_of_nodup_map h.nodup hx hy hxy

/-- A server that is up, with other sessions. -/
theorem Up.withSessions (h : Up told s) {xs : List HAPIPSessionDescriptor} {pairing : Option Nat} {n : Nat}
    (hs : Sessions { s with
      sessions := xs, server.sessionThatIsCurrentlyPairing := pairing, server.numSessions := n }) :
    Up told { s with sessions := xs, server.sessionThatIsCurrentlyPairing := pairing, server.numSessions := n } :=
  { h with
    count := hs.count, nodup := hs.nodup, slots := hs.slots, pairing := hs.pairing
    mode := h.mode.congr ⟨rfl, rfl, rfl⟩ id fun _ hl ht => ⟨hl, ht⟩ }

/-- Other sessions, another server and another listener. -/
theorem keeps_sessions (changed : FileName → Prop) (s : HomeKit) (xs : List HAPIPSessionDescriptor)
    (server : HAPAccessoryServer) (listener : Bool) :
    Keeps changed s { s with sessions := xs, server := server, listener := listener } :=
  ⟨rfl, rfl, rfl, id, Store.AgreesBut.refl _⟩

/-- Closing open sessions: each waits for the garbage collection then. -/
theorem closeSessions_safe (changed : FileName → Prop) (h : Up told s) {chosen : HAPIPSessionDescriptor → Bool}
    (hchosen : ∀ x ∈ s.sessions, chosen x = true → x.state ≠ .idle) :
    Safe (fun s' => (Up told s' ∧ Keeps changed s s') ∧ s'.server.ipState = s.server.ipState ∧
      (∀ k, k ≠ .handleGarbageCollectionTimer → s'.timers.owner k = s.timers.owner k) ∧
      ((∃ x ∈ s.sessions, chosen x = true) → (s'.timers.owner .handleGarbageCollectionTimer).isSome = true))
      (closeSessions chosen s) := by
  unfold closeSessions
  refine safe_assert hchosen ?_
  dsimp only
  have hsessions : Sessions { s with
      sessions := s.sessions.map fun x => if chosen x then { x with state := .idle, numEventNotificationFlags := 0 } else x
      server.sessionThatIsCurrentlyPairing :=
        s.server.sessionThatIsCurrentlyPairing.filter fun slot => !((s.sessions.filter chosen).map (·.slot)).contains slot } := by
    refine h.toSessions.map (fun x => ?_) rfl rfl fun j hj => ?_
    · split_ifs <;> rfl
    · obtain ⟨hj, hnot⟩ := Option.filter_eq_some_iff.mp hj
      obtain ⟨x, hx, hslot, hopen⟩ := h.pairing j hj
      have hc : ¬ chosen x = true := by
        intro hc
        simp only [Bool.not_eq_true', List.contains_eq_mem, decide_eq_false_iff_not] at hnot
        exact hnot (List.mem_map.mpr ⟨x, List.mem_filter.mpr ⟨hx, hc⟩, hslot⟩)
      exact ⟨x, hx, hslot, by rw [if_neg hc]; exact hopen⟩
  have hup := h.withSessions hsessions
  split_ifs with hreg
  · refine ⟨⟨hup.register (by simp), ?_⟩, rfl, fun k hk => OwnedTimers.register_owner_of_ne _ _ _ hk, fun _ => ?_⟩
    · exact (keeps_sessions changed s _ _ _).trans (keeps_register hreg.2)
    · change ((s.timers.register _).owner _).isSome = true
      rw [OwnedTimers.register_owner_self]
      rfl
  · refine ⟨⟨hup, keeps_sessions changed s _ _ _⟩, rfl, fun _ _ => rfl, fun hex => ?_⟩
    obtain ⟨x, hx, hc⟩ := hex
    have hne : s.sessions.filter chosen ≠ [] := List.ne_nil_of_mem (List.mem_filter.mpr ⟨hx, hc⟩)
    have hgc : s.timers.owner .handleGarbageCollectionTimer ≠ none := fun hnone => hreg ⟨by simpa using hne, hnone⟩
    exact Option.isSome_iff_ne_none.mpr hgc

/-- The timers of the idle times and of the garbage collection are set as needed. -/
theorem scheduleMaxIdleTimeTimer_safe (h : Up told s) (w : Surroundings) :
    Safe (fun s' => Up told s' ∧ Keeps changed s s') (scheduleMaxIdleTimeTimer w s) := by
  unfold scheduleMaxIdleTimeTimer
  rw [deregister_eq h.sound]
  change Safe _ (closeSessions _ _ >>= _)
  generalize hs₁ : ({ s with
    timers := s.timers.remove .handleMaxIdleTimeTimer
    listener := s.listener && s.server.ipState ≠ .stopping } : HomeKit) = s₁
  have hup : Up told s₁ := by
    subst hs₁
    -- the listener is closed only while the engine stops
    exact { h.remove .handleMaxIdleTimeTimer with
      mode := h.mode.congr ⟨rfl, rfl, rfl⟩ id fun hip hl ht => ⟨by simp [hip, hl], remove_owner_none ht⟩ }
  have hkeep : Keeps changed s s₁ := by
    subst hs₁
    exact (keeps_remove s _).trans (keeps_sessions changed _ _ _ _)
  have hnone : s₁.timers.owner .handleMaxIdleTimeTimer = none := by
    rw [← hs₁]
    exact OwnedTimers.remove_owner_self _ _
  refine Yields.bind (closeSessions_safe changed hup fun x _ hc => ?_) ?_
  · -- only a session that reads or writes is closed
    have : x.state = .reading ∨ x.state ≠ .idle := by
      simp only [HomeKit.closesAtOnce, Bool.or_eq_true, Bool.and_eq_true, decide_eq_true_eq] at hc
      rcases hc with ⟨⟨hr, -⟩, -⟩ | ⟨⟨⟨-, hopen⟩, -⟩, -⟩
      · exact Or.inl hr
      · exact Or.inr hopen
    rcases this with hr | hopen
    · simp [hr]
    · exact hopen
  · rintro s₂ ⟨⟨hup₂, hkeep₂⟩, -, howner, -⟩
    have hnone₂ : s₂.timers.owner .handleMaxIdleTimeTimer = none := by
      rw [howner _ (by simp)]
      exact hnone
    have hgc : ∀ s₃ : HomeKit, Up told s₃ → Keeps changed s s₃ →
        Safe (fun s' => Up told s' ∧ Keeps changed s s')
          (.ok (if s₃.timers.owner .handleGarbageCollectionTimer = none then s₃.register .handleGarbageCollectionTimer else s₃)) := by
      intro s₃ hup₃ hkeep₃
      split_ifs with hn
      · exact ⟨hup₃.register (by simp), hkeep₃.trans (keeps_register hn)⟩
      · exact ⟨hup₃, hkeep₃⟩
    dsimp only
    refine hgc _ ?_ ?_
    · split_ifs
      · exact hup₂.register (by simp)
      · exact hup₂
    · split_ifs
      · exact (hkeep.trans hkeep₂).trans (keeps_register hnone₂)
      · exact hkeep.trans hkeep₂

/-- The end of a stop: the engine is Idle, and its report is scheduled. -/
theorem completeStateTransition_safe (h : Up told s) (hl : s.listener = false) (hn : s.server.numSessions = 0)
    (hgc : s.timers.owner .handleGarbageCollectionTimer = none) :
    Safe (fun s' => Serving fresh told s' ∧ Keeps changed s s') (completeStateTransition s) := by
  unfold completeStateTransition
  have hstop := h.stopping_of_listener hl
  refine safe_assert hstop ?_
  rw [deregister_eq h.sound]
  change Safe _ (HomeKit.deregister _ _ >>= _)
  rw [deregister_eq h.sound.remove]
  rcases h.mode with ⟨hip, -⟩ | ⟨-, hnext, hstate, hflag⟩
  · exact absurd (hip.symm.trans hstop) (by simp)
  · change Safe _ (if s.server.ipNextState = .running then _ else _)
    rw [if_neg (by simp [hnext])]
    refine safe_assert hnext ?_
    generalize hs₁ : ({ s with
      timers := (s.timers.remove .handleServerStateTransitionTimer).remove .handleMaxIdleTimeTimer
      server := { s.server with
        ipState := .idle, ipNextState := .undefined, isServiceDiscoverable := false, discoverableService := false } } : HomeKit) = s₁
    have hnil : s.sessions = [] := List.length_eq_zero_iff.mp (h.count.symm.trans hn)
    have hpair : s.server.sessionThatIsCurrentlyPairing = none := by
      refine Option.eq_none_iff_forall_not_mem.mpr fun j hj => ?_
      obtain ⟨x, hx, -⟩ := h.pairing j hj
      rw [hnil] at hx
      exact absurd hx List.not_mem_nil
    have hkeep : Keeps changed s s₁ := by
      subst hs₁
      exact ((keeps_remove s _).trans (keeps_remove _ _)).trans (keeps_sessions changed _ _ _ _)
    have hdown : Down s₁ := by
      subst hs₁
      refine { h.toWired with
        ipState := rfl, numSessions := hn, sessions := hnil, pairing := hpair, listener := hl, discoverableService := rfl
        sound := h.sound.remove.remove, timer := fun k hc he => ?_ }
      cases k with
      | callbackTimerExpired => exact absurd rfl hc
      | handleServerStateTransitionTimer => exact remove_owner_none (OwnedTimers.remove_owner_self _ _)
      | handleMaxIdleTimeTimer => exact OwnedTimers.remove_owner_self _ _
      | handleGarbageCollectionTimer => exact remove_owner_none (remove_owner_none hgc)
      | handleEventNotificationTimer => exact absurd rfl he
    have hrest : s₁.server.state = .stopping ∧ s₁.gHAPrequestedFactoryReset = true ∧ s₁.runLoop.state = .running ∧
        s₁.history = told := by
      subst hs₁
      exact ⟨hstate, hflag, h.runLoop, h.told⟩
    obtain ⟨t, ht, hsound, hown, howner⟩ := delegate_timers s₁
    change Safe _ (.ok (hapAccessoryServerDelegateScheduleHandleUpdatedState _))
    rw [ht]
    exact ⟨.drained (hdown.withTimers (hsound hdown.sound) fun k hc hk => (howner k hc).trans hk) hrest.1 hrest.2.1 hrest.2.2.1
      hrest.2.2.2, hkeep.trans (.withTimers hown)⟩

/-- With a session left, or the listener open, the server stays up, and otherwise the stop ends. -/
theorem collected_safe (h : Up told s) (hgc : s.timers.owner .handleGarbageCollectionTimer = none) :
    Safe (fun s' => Serving fresh told s' ∧ Keeps changed s s')
      (if s.listener = true ∨ s.server.numSessions ≠ 0 then .ok s else completeStateTransition s) := by
  split_ifs with hrest
  · exact ⟨.up h, Keeps.refl s⟩
  · rw [not_or, Bool.not_eq_true, not_not] at hrest
    exact completeStateTransition_safe h hrest.1 hrest.2 hgc

/-- Closed sessions are freed; when the last one is gone and the listener is closed, the stop ends. -/
theorem collectGarbage_safe (h : Up told s) : Safe (fun s' => Serving fresh told s' ∧ Keeps changed s s') (collectGarbage s) := by
  unfold collectGarbage
  rw [deregister_eq h.sound]
  change Safe _ (hapAssert _ >>= _)
  have hlen : (s.sessions.filter (·.state = .idle)).length + (s.sessions.filter (·.state ≠ .idle)).length = s.server.numSessions := by
    rw [h.count, List.length_eq_length_filter_add (l := s.sessions) fun x => decide (x.state = .idle)]
    simp
  have hclosed : (s.sessions.filter (·.state = .idle)).length ≤ s.server.numSessions := by omega
  have hopen : (s.sessions.filter (·.state ≠ .idle)).length =
      s.server.numSessions - (s.sessions.filter (·.state = .idle)).length := by omega
  refine safe_assert hclosed (safe_assert hopen ?_)
  have hsessions : Sessions { s with
      timers := s.timers.remove .handleGarbageCollectionTimer
      sessions := s.sessions.filter (·.state ≠ .idle)
      server.numSessions := s.server.numSessions - (s.sessions.filter (·.state = .idle)).length } := by
    refine ⟨hopen.symm, h.nodup.sublist (List.filter_sublist.map _), fun x hx => h.slots x (List.mem_filter.mp hx).1, fun j hj => ?_⟩
    obtain ⟨x, hx, hslot, hne⟩ := h.pairing j hj
    exact ⟨x, List.mem_filter.mpr ⟨hx, decide_eq_true hne⟩, hslot, hne⟩
  have hgc := OwnedTimers.remove_owner_self s.timers .handleGarbageCollectionTimer
  exact (collected_safe ((h.remove .handleGarbageCollectionTimer).withSessions hsessions) hgc).mono fun s' hs' =>
    ⟨hs'.1, ((keeps_remove s _).trans (keeps_sessions changed _ _ _ _)).trans hs'.2⟩

/-! ## Open sessions -/

/-- The session of a place is open. -/
def HomeKit.Opened (slot : Nat) (s : HomeKit) : Prop := ∃ x ∈ s.sessions, x.slot = slot ∧ x.state ≠ .idle

section

variable {f : HAPIPSessionDescriptor → HAPIPSessionDescriptor} (hf : ∀ x, (f x).slot = x.slot)
  (hopen : ∀ x, x.state ≠ .idle → (f x).state ≠ .idle)

include hf hopen

/-- A session stays open when all sessions are changed. -/
theorem opened_map {slot : Nat} (h : s.Opened slot) (hs : s'.sessions = s.sessions.map f) : s'.Opened slot := by
  obtain ⟨x, hx, hslot, hne⟩ := h
  exact ⟨f x, hs ▸ List.mem_map_of_mem hx, (hf x).trans hslot, hopen x hne⟩

/-- Sessions that change in place, of which none is closed. -/
theorem Up.mapSessions (h : Up told s) : Up told { s with sessions := s.sessions.map f } := by
  refine h.withSessions (h.toSessions.map hf rfl rfl fun j hj => ?_)
  obtain ⟨x, hx, hslot, hne⟩ := h.pairing j hj
  exact ⟨x, hx, hslot, hopen x hne⟩

end

/-- What is written of the device while the server is up. -/
theorem Up.withDevice (h : Up told s) (device : Device) (hkv : device.accessoryConfiguration.keyValueStore = true) :
    Up told { s with device := device } :=
  { h with keyValueStore := hkv, mode := h.mode.congr ⟨rfl, rfl, rfl⟩ id fun _ hl ht => ⟨hl, ht⟩ }

/-- With the timer of a kind removed, one of that kind is registered. -/
theorem Up.reregister (h : Up told s) {k : TimerCallback} (hk : k ≠ .handleServerStateTransitionTimer) :
    Up told (HomeKit.register k { s with timers := s.timers.remove k }) := (h.remove k).register hk

/-- A timer is removed and registered again. -/
theorem keeps_reregister (s : HomeKit) (k : TimerCallback) :
    Keeps changed s (HomeKit.register k { s with timers := s.timers.remove k }) :=
  (keeps_remove s k).trans (keeps_register (OwnedTimers.remove_owner_self _ _))

/-! ## Event notifications -/

/-- A session keeps its place when its events are written. -/
theorem writeEventNotifications_slot (w : Surroundings) (x : HAPIPSessionDescriptor) : (writeEventNotifications w x).slot = x.slot := by
  unfold writeEventNotifications
  split_ifs <;> rfl

/-- A session stays open when its events are written. -/
theorem writeEventNotifications_open (w : Surroundings) {x : HAPIPSessionDescriptor} (hx : x.state ≠ .idle) :
    (writeEventNotifications w x).state ≠ .idle := by
  unfold writeEventNotifications
  split_ifs
  · simp
  · simp
  · exact hx

/-- The notifications are written, and the next ones are scheduled; no session is closed. -/
theorem scheduleEventNotifications_safe (changed : FileName → Prop) (h : Up told s) (w : Surroundings) :
    Safe (fun s' => (Up told s' ∧ Keeps changed s s') ∧ ∀ slot, s.Opened slot → s'.Opened slot)
      (scheduleEventNotifications w s) := by
  unfold scheduleEventNotifications
  rw [deregister_eq h.sound]
  change Safe _ (.ok _)
  have hslot : ∀ x : HAPIPSessionDescriptor, (if x.awaitsNotification then writeEventNotifications w x else x).slot = x.slot := by
    intro x
    split_ifs
    · exact writeEventNotifications_slot w x
    · rfl
  have hopen : ∀ x : HAPIPSessionDescriptor, x.state ≠ .idle →
      (if x.awaitsNotification then writeEventNotifications w x else x).state ≠ .idle := by
    intro x hx
    split_ifs
    · exact writeEventNotifications_open w hx
    · exact hx
  dsimp only
  -- reading the bulb changes neither the store nor the flag of the channel
  have hdevice : ∀ b : Bool, (if b then (handleLightBulbOnRead s.device).2.2 else s.device).store = s.device.store ∧
      (if b then (handleLightBulbOnRead s.device).2.2 else s.device).gisHomeKitEnabled = s.device.gisHomeKitEnabled ∧
      (if b then (handleLightBulbOnRead s.device).2.2 else s.device).accessoryConfiguration.keyValueStore =
        s.device.accessoryConfiguration.keyValueStore := by
    intro b
    cases b <;> exact ⟨rfl, rfl, rfl⟩
  obtain ⟨hstore, henabled, hkv⟩ := hdevice
    (s.sessions.any fun (x : HAPIPSessionDescriptor) => x.awaitsNotification && w.notificationDue x.slot)
  generalize (if (s.sessions.any fun (x : HAPIPSessionDescriptor) => x.awaitsNotification && w.notificationDue x.slot) = true then
    (handleLightBulbOnRead s.device).2.2 else s.device) = device at hstore henabled hkv ⊢
  have hup := ((h.remove .handleEventNotificationTimer).withDevice device (hkv.trans h.keyValueStore)).mapSessions hslot hopen
  have hkeep : Keeps changed s { s with
      timers := s.timers.remove .handleEventNotificationTimer
      device := device
      sessions := s.sessions.map fun (x : HAPIPSessionDescriptor) => if x.awaitsNotification then writeEventNotifications w x else x } :=
    ⟨rfl, rfl, henabled, fun ho => ho.remove, by rw [hstore]; exact Store.AgreesBut.refl _⟩
  split_ifs
  · exact ⟨⟨hup.register (by simp), hkeep.trans (keeps_register (OwnedTimers.remove_owner_self _ _))⟩,
      fun slot hs => opened_map hslot hopen hs rfl⟩
  · exact ⟨⟨hup, hkeep⟩, fun slot hs => opened_map hslot hopen hs rfl⟩

/-- Without a session only the timer goes. -/
theorem scheduleEventNotifications_down (h : Down s) (w : Surroundings) :
    scheduleEventNotifications w s = .ok { s with timers := s.timers.remove .handleEventNotificationTimer } := by
  unfold scheduleEventNotifications
  rw [deregister_eq h.sound]
  change Except.ok _ = _
  simp [h.sessions]

/-- Events are raised on sessions, of which none is closed. -/
theorem raiseEvent_safe (changed : FileName → Prop) (h : Up told s) (slots : List Nat) :
    Safe (fun s' => (Up told s' ∧ Keeps changed s s') ∧ ∀ slot, s.Opened slot → s'.Opened slot) (raiseEvent slots s) := by
  unfold raiseEvent
  dsimp only
  have hslot : ∀ x : HAPIPSessionDescriptor, (if x.state ≠ .idle && slots.contains x.slot then
      { x with numEventNotificationFlags := x.numEventNotificationFlags + 1 } else x).slot = x.slot := by
    intro x
    split_ifs <;> rfl
  have hopen : ∀ x : HAPIPSessionDescriptor, x.state ≠ .idle → (if x.state ≠ .idle && slots.contains x.slot then
      { x with numEventNotificationFlags := x.numEventNotificationFlags + 1 } else x).state ≠ .idle := by
    intro x hx
    split_ifs <;> exact hx
  have hup := h.mapSessions hslot hopen
  have hkeep := keeps_sessions changed s (s.sessions.map fun x => if x.state ≠ .idle && slots.contains x.slot then
      { x with numEventNotificationFlags := x.numEventNotificationFlags + 1 } else x) s.server s.listener
  split_ifs
  · rw [deregister_eq hup.sound]
    exact ⟨⟨hup.reregister (by simp), hkeep.trans (keeps_reregister _ _)⟩, fun slot hs => opened_map hslot hopen hs rfl⟩
  · exact ⟨⟨hup, hkeep⟩, fun slot hs => opened_map hslot hopen hs rfl⟩

/-! ## New sessions and requests -/

/-- A new session takes a free place, so the sessions are fewer than the places. -/
theorem handlePendingTCPStream_safe (h : Up told s) (w : Surroundings) :
    Safe (fun s' => Up told s' ∧ Keeps changed s s') (handlePendingTCPStream w s) := by
  unfold handlePendingTCPStream
  split
  · exact ⟨h, Keeps.refl s⟩
  · rename_i slot hfind
    have hfree : slot ∉ s.sessions.map (·.slot) := by simpa using List.find?_some hfind
    have hlt : slot < numSessionSlots := List.mem_range.mp (List.mem_of_find?_eq_some hfind)
    have hnodup : (slot :: s.sessions.map (·.slot)).Nodup := List.nodup_cons.mpr ⟨hfree, h.nodup⟩
    have hroom : s.server.numSessions < numSessionSlots := by
      have hsub : slot :: s.sessions.map (·.slot) ⊆ List.range numSessionSlots := by
        intro j hj
        rcases List.mem_cons.mp hj with rfl | hj
        · exact List.mem_range.mpr hlt
        · obtain ⟨x, hx, rfl⟩ := List.mem_map.mp hj
          exact List.mem_range.mpr (h.slots x hx)
      have := (List.subperm_of_subset hnodup hsub).length_le
      simp only [List.length_cons, List.length_map, List.length_range, ← h.count] at this
      exact this
    refine safe_precondition hroom ?_
    dsimp only
    have hsessions : Sessions { s with
        sessions := ⟨slot, .reading, true, 0⟩ :: s.sessions, server.numSessions := s.server.numSessions + 1 } := by
      refine ⟨congrArg (· + 1) h.count, hnodup, fun x hx => ?_, fun j hj => ?_⟩
      · rcases List.mem_cons.mp hx with rfl | hx
        · exact hlt
        · exact h.slots x hx
      · obtain ⟨x, hx, hx'⟩ := h.pairing j hj
        exact ⟨x, List.mem_cons_of_mem _ hx, hx'⟩
    have hup := h.withSessions hsessions
    have hkeep := keeps_sessions changed s (⟨slot, .reading, true, 0⟩ :: s.sessions)
      { s.server with numSessions := s.server.numSessions + 1 } s.listener
    split_ifs
    · exact (scheduleMaxIdleTimeTimer_safe hup w).mono fun s' hs' => ⟨hs'.1, hkeep.trans hs'.2⟩
    · exact ⟨hup, hkeep⟩

/-- A write of a file that may change. -/
theorem Store.agreesBut_write (s : Store) {x : StoreWrite} (hx : changed x.name) : s.AgreesBut changed (x.apply s) := by
  unfold StoreWrite.apply
  split
  · exact Store.agreesBut_insert s _ (Or.inr hx)
  · intro name _ hc
    have hne : name ≠ x.name := by
      rintro rfl
      exact hc hx
    cases s with
    | none => rfl
    | some files => exact Finmap.lookup_erase_ne hne

/-- Writes of files that may change. -/
theorem Store.agreesBut_writes {xs : List StoreWrite} (hxs : ∀ x ∈ xs, changed x.name) (s : Store) :
    s.AgreesBut changed (xs.foldl (fun store x => x.apply store) s) := by
  induction xs generalizing s with
  | nil => exact Store.AgreesBut.refl s
  | cons x xs ih =>
    exact (Store.agreesBut_write s (hxs x List.mem_cons_self)).trans
      (ih (fun y hy => hxs y (List.mem_cons_of_mem x hy)) (x.apply s))

/-- A request for the bulb leaves the files outside the domain of the application. -/
theorem bulbRequest_safe (changed : FileName → Prop) (io : Bool) (d : Device)
    (hkv : d.accessoryConfiguration.keyValueStore = true) (r : BulbRequest) :
    Safe (fun d' : Device => d.store.AgreesBut changed d'.store ∧ d'.gisHomeKitEnabled = d.gisHomeKitEnabled ∧
      d'.accessoryConfiguration.keyValueStore = true) (ofFault (r.handle io d)) := by
  cases r with
  | read => exact ⟨Store.AgreesBut.refl _, rfl, hkv⟩
  | write value =>
    unfold BulbRequest.handle
    dsimp only
    split_ifs
    · unfold saveAccessoryState operateDevice
      rw [if_neg (by simp [hkv])]
      cases io with
      | false => exact safe_storeFailed
      | true => exact ⟨Store.agreesBut_insert _ _ (Or.inl (by decide)), rfl, hkv⟩
    · exact ⟨Store.AgreesBut.refl _, rfl, hkv⟩

/-- The pair setup of a session that is open starts, or a pair setup ends. -/
theorem Up.withPairing (h : Up told s) {slot : Nat} (hslot : s.Opened slot) (pairing : Option Bool) :
    Up told { s with server.sessionThatIsCurrentlyPairing :=
      match pairing with
      | none => s.server.sessionThatIsCurrentlyPairing
      | some starts => if starts then some slot else none } := by
  refine h.withSessions { h.toSessions with pairing := fun j hj => ?_ }
  rcases pairing with _ | _ | _
  · exact h.pairing j hj
  · exact absurd hj (by simp)
  · exact Option.some.inj hj ▸ hslot

/-- A request changes only the files that it may, and starts a pair setup only on its own session. -/
theorem handleRequest_safe (h : Up told s) (w : Surroundings) {slot : Nat} (hslot : s.Opened slot) (e : SessionEvent)
    (hwrites : ∀ x ∈ e.writes, changed x.name) :
    Safe (fun s' => (Up told s' ∧ Keeps changed s s') ∧ s'.Opened slot) (handleRequest w slot e s) := by
  unfold handleRequest
  dsimp only
  have hfiles := Store.agreesBut_writes hwrites s.device.store
  have hup := h.withDevice { s.device with
    store := e.writes.foldl (fun (store : Store) (x : StoreWrite) => x.apply store) s.device.store } h.keyValueStore
  have hend : ∀ s₁ : HomeKit, Up told s₁ → Keeps changed s s₁ → s₁.Opened slot →
      Safe (fun s' => (Up told s' ∧ Keeps changed s s') ∧ s'.Opened slot)
        (.ok (if e.reportsState then hapAccessoryServerDelegateScheduleHandleUpdatedState s₁ else s₁)) := by
    intro s₁ hup₁ hkeep₁ hslot₁
    split_ifs
    · have hslot₂ : (hapAccessoryServerDelegateScheduleHandleUpdatedState s₁).Opened slot := by
        obtain ⟨t, ht, -⟩ := delegate_timers s₁
        rw [ht]
        exact hslot₁
      exact ⟨⟨hup₁.delegate, hkeep₁.trans (delegate_keeps s₁)⟩, hslot₂⟩
    · exact ⟨⟨hup₁, hkeep₁⟩, hslot₁⟩
  cases e.bulb with
  | none => exact hend _ (hup.withPairing hslot e.pairing) ⟨rfl, rfl, rfl, id, hfiles⟩ hslot
  | some request =>
    refine (bulbRequest_safe changed w.io _ hup.keyValueStore request).bind fun device hdevice => ?_
    obtain ⟨hstore, henabled, hkv⟩ := hdevice
    exact hend _ ((hup.withDevice device hkv).withPairing hslot e.pairing) ⟨rfl, rfl, henabled, id, hfiles.trans hstore⟩ hslot

/-- Closing an open session sets the timer of the garbage collection. -/
theorem closeSession_safe (changed : FileName → Prop) (h : Up told s) {slot : Nat} (hslot : s.Opened slot) :
    Safe (fun s' => (Up told s' ∧ Keeps changed s s') ∧ (s'.timers.owner .handleGarbageCollectionTimer).isSome = true)
      (closeSessions (·.slot = slot) s) := by
  obtain ⟨x, hx, hxslot, hne⟩ := hslot
  have hchosen : ∀ y ∈ s.sessions, decide (y.slot = slot) = true → y.state ≠ .idle := by
    intro y hy hyslot
    rw [h.toSessions.unique hy hx ((of_decide_eq_true hyslot).trans hxslot.symm)]
    exact hne
  exact (closeSessions_safe changed h hchosen).mono fun s' hs' => ⟨hs'.1, hs'.2.2.2 ⟨x, hx, decide_eq_true hxslot⟩⟩

/-- A session whose stream is closed at the end waits for the garbage collection. -/
theorem handleIoProgression_safe (changed : FileName → Prop) (h : Up told s) (w : Surroundings) {slot : Nat}
    (hslot : s.Opened slot ∨ (s.timers.owner .handleGarbageCollectionTimer).isSome = true) :
    Safe (fun s' => Up told s' ∧ Keeps changed s s') (handleIoProgression w slot s) := by
  have hend : ∀ s₁ : HomeKit, Up told s₁ ∧ Keeps changed s s₁ →
      s₁.Opened slot ∨ (s₁.timers.owner .handleGarbageCollectionTimer).isSome = true →
      Safe (fun s' => Up told s' ∧ Keeps changed s s')
        (if s₁.sessions.any fun x => x.slot = slot && x.state ≠ .idle then .ok s₁
        else do
          hapAssert ((s₁.timers.owner .handleGarbageCollectionTimer).isSome = true)
          .ok s₁) := by
    intro s₁ hs₁ hslot₁
    split_ifs with hany
    · exact hs₁
    · have hgc : (s₁.timers.owner .handleGarbageCollectionTimer).isSome = true := by
        refine hslot₁.resolve_left fun hopened => hany ?_
        obtain ⟨x, hx, hxslot, hne⟩ := hopened
        exact List.any_eq_true.mpr ⟨x, hx, by simp [hxslot, hne]⟩
      exact safe_assert hgc hs₁
  unfold handleIoProgression
  by_cases hreading : (s.sessions.any fun x => x.slot = slot && x.state = .reading && x.inboundEmpty) = true
  · have hopened : s.Opened slot := by
      obtain ⟨x, hx, hp⟩ := List.any_eq_true.mp hreading
      simp only [Bool.and_eq_true, decide_eq_true_eq] at hp
      exact ⟨x, hx, hp.1.1, by simp [hp.1.2]⟩
    rw [if_pos hreading]
    split_ifs with hstop hevents
    · exact (closeSession_safe changed h hopened).bind fun s₁ hs₁ => hend s₁ hs₁.1 (Or.inr hs₁.2)
    all_goals
      have hip : s.server.ipState = .running := by
        rcases h.mode with ⟨hip, -⟩ | ⟨hip, -⟩
        · exact hip
        · exact absurd hip hstop
      refine safe_assert hip ?_
    · exact (scheduleEventNotifications_safe changed h w).bind fun s₁ hs₁ => hend s₁ hs₁.1 (Or.inl (hs₁.2 slot hopened))
    · exact hend s ⟨h, Keeps.refl s⟩ (Or.inl hopened)
  · rw [if_neg hreading]
    exact hend s ⟨h, Keeps.refl s⟩ hslot

/-- What happens on the stream of a session: only an open session has one. -/
theorem handleTCPStreamEvent_safe (h : Serving fresh told s) (w : Surroundings) (slot : Nat) (e : SessionEvent)
    (hwrites : ∀ x ∈ e.writes, changed x.name) :
    Safe (fun s' => Serving fresh told s' ∧ Keeps changed s s') (handleTCPStreamEvent w slot e s) := by
  unfold handleTCPStreamEvent
  by_cases hany : (s.sessions.any fun x => x.slot = slot && x.state ≠ .idle) = true
  · rw [hany]
    have hopened : s.Opened slot := by
      obtain ⟨x, hx, hp⟩ := List.any_eq_true.mp hany
      simp only [Bool.and_eq_true, decide_eq_true_eq] at hp
      exact ⟨x, hx, hp⟩
    have hup : Up told s := by
      refine h.up_or_down.resolve_right fun hd => ?_
      obtain ⟨x, hx, -⟩ := hopened
      rw [hd.sessions] at hx
      exact absurd hx List.not_mem_nil
    refine (handleRequest_safe hup w hopened e hwrites).bind fun s₁ hs₁ => ?_
    obtain ⟨⟨hup₁, hkeep₁⟩, hopened₁⟩ := hs₁
    have hf : ∀ x : HAPIPSessionDescriptor, (if x.slot = slot then
        ⟨slot, if e.writing then .writing else .reading, e.inboundEmpty, e.numEventNotificationFlags⟩ else x).slot = x.slot := by
      intro x
      split_ifs with hx
      · exact hx.symm
      · exact hx.symm
      · rfl
    have hopen : ∀ x : HAPIPSessionDescriptor, x.state ≠ .idle → (if x.slot = slot then
        ⟨slot, if e.writing then .writing else .reading, e.inboundEmpty, e.numEventNotificationFlags⟩ else x).state ≠ .idle := by
      intro x hx
      split_ifs <;> simp [hx]
    refine (raiseEvent_safe changed (hup₁.mapSessions hf hopen) e.raises).bind fun s₂ hs₂ => ?_
    obtain ⟨⟨hup₂, hkeep₂⟩, hstay⟩ := hs₂
    have hopened₂ : s₂.Opened slot := hstay slot (opened_map hf hopen hopened₁ rfl)
    have hkeep : Keeps changed s s₂ := (hkeep₁.trans (keeps_sessions changed s₁ _ _ _)).trans hkeep₂
    split_ifs
    · refine (closeSession_safe changed hup₂ hopened₂).bind fun s₃ hs₃ => ?_
      exact (handleIoProgression_safe changed hs₃.1.1 w (Or.inr hs₃.2)).mono fun s' hs' =>
        ⟨.up hs'.1, (hkeep.trans hs₃.1.2).trans hs'.2⟩
    · exact (handleIoProgression_safe changed hup₂ w (Or.inl hopened₂)).mono fun s' hs' => ⟨.up hs'.1, hkeep.trans hs'.2⟩
  · rw [Bool.not_eq_true] at hany
    rw [hany]
    exact safe_notEnabled

end CGuard
