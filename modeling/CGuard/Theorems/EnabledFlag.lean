import CGuard.Lemmas.RunLoop

/-!
# The enabled flag

`gisHomeKitEnabled` is written by the AWS thread around a request that may reach no run loop, and by the new thread before it has
one. It tells the truth in every quiet state, no disable is lost and a running server can be stopped, when each server starts, each stop
request finds the run loop of the thread it is for, and nobody writes over what the others are still waiting for.
-/

namespace CGuard

open Machine Threads HomeKitPc

/-- The thread has been created and has not got to its run loop. -/
def HomeKitPc.beforeLoop : HomeKitPc → Bool
  | .prepare | .setEnabled | .clearReset | .callMain | .runLoopCreate | .serverCreate | .serverStart | .runLoopRun => true
  | _ => false

/-- The thread is being stopped. -/
def HomeKitPc.stopping : HomeKitPc → Bool
  | .serverStop | .serverRelease | .runLoopRelease | .deregister | .mainReturn => true
  | _ => false

/-- No created thread is before its run loop, no stop request is queued, and no stop is in progress. -/
structure Channel.Quiescent (s : Channel) : Prop where
  started : ∀ i < s.created, ¬ (s.thread i).beforeLoop
  noRequest : s.selfPipe = none ∨ s.selfPipe = some 0
  noStop : ∀ i < s.created, ¬ (s.thread i).stopping
  server : s.gHAPaccessoryServer ≠ .stopping
  runLoop : s.runLoop ≠ .stopping

/-- A HomeKit thread is running its run loop. -/
def Channel.RunsLoop (s : Channel) : Prop := ∃ i < s.created, s.thread i = .runLoop

/-- A stop request is sent when the self-pipe is open and no created thread has its run loop still to create. A thread resets
`gHAPrequestedFactoryReset` when no stop in progress needs it, and creates its run loop when no other thread is inside
`HAPPlatformRunLoopRelease`. The last thread to be stopped returns after the AWS thread has cleared `gisHomeKitEnabled`. No server is kept
from starting. -/
def WellTimed (s : Channel) : ChannelAct → Prop
  | .aws _ => s.aws = .scheduleStop → s.selfPipe ≠ none ∧ ∀ i < s.created, ¬ (s.thread i).waiting
  | .homeKit i =>
    (s.thread i = .clearReset → s.gHAPrequestedFactoryReset = false) ∧
      (s.thread i = .runLoopCreate → ∀ j < s.created, s.thread j ≠ .deregister) ∧
      (s.thread i = .mainReturn → s.aws = .clearEnabled → ∃ j < s.created, j ≠ i ∧ (s.thread j).leaving)
  | .downgrade _ => False
  | _ => True

instance decidableWellTimed (s : Channel) : ∀ a, Decidable (WellTimed s a)
  | .aws _ =>
    inferInstanceAs (Decidable (s.aws = .scheduleStop → s.selfPipe ≠ none ∧ ∀ i < s.created, ¬ (s.thread i).waiting))
  | .homeKit i =>
    inferInstanceAs (Decidable ((s.thread i = .clearReset → s.gHAPrequestedFactoryReset = false) ∧
      (s.thread i = .runLoopCreate → ∀ j < s.created, s.thread j ≠ .deregister) ∧
      (s.thread i = .mainReturn → s.aws = .clearEnabled → ∃ j < s.created, j ≠ i ∧ (s.thread j).leaving)))
  | .downgrade _ => isFalse id
  | .command _ | .stopRequest _ | .stopComplete _ => isTrue trivial

/-- What the flag is for, in a state that a run of these steps has reached. -/
structure FlagTrue (as : List ChannelAct) (s : Channel) : Prop where
  /-- In a quiescent state the flag tells whether a HomeKit thread is running its run loop. -/
  truthful : s.Quiescent → (s.gisHomeKitEnabled = true ↔ s.RunsLoop)
  /-- After an `h` that has been handled and no later `H`, no quiescent state has a server. -/
  disabled : ∀ pre post, as = pre ++ .command .disable :: post → .command .enable ∉ post → s.aws = .idle → s.Quiescent →
    ¬ s.RunsLoop
  /-- A running server can be stopped by a further `h`. -/
  stoppable : ∀ i, s.thread i = .runLoop → s.aws = .idle →
    ∃ bs s' os, .command .enable ∉ bs ∧ run channelStep s (.command .disable :: bs) = .ok (s', os) ∧ s'.thread i = .returned

namespace EnabledFlagAux

/-! ### The run loop of the holder -/

theorem leaving_of_holding {pc : HomeKitPc} (h : holding pc) : leaving pc := by
  cases pc <;> first | rfl | exact absurd h (by decide)

/-- What holds of the run loop and the server for the thread that has them. -/
def LoopState (s : Channel) : HomeKitPc → Prop
  | .serverCreate => s.runLoop = .idle
  | .serverStart => s.runLoop = .idle ∧ s.gHAPaccessoryServer = .idle
  | .runLoopRun => s.runLoop = .idle ∧ s.gHAPaccessoryServer = .running
  | .runLoop =>
    (s.gHAPaccessoryServer = .running ∧ s.runLoop = .running) ∨
      (s.gHAPaccessoryServer = .stopping ∧ s.runLoop = .running ∧ s.gHAPrequestedFactoryReset = true) ∨
      (s.gHAPaccessoryServer = .idle ∧ s.runLoop = .stopping)
  | .serverStop =>
    s.gHAPrequestedFactoryReset = true ∧
      ((s.gHAPaccessoryServer ≠ .idle ∧ s.runLoop = .running) ∨ (s.gHAPaccessoryServer = .idle ∧ s.runLoop = .stopping))
  | _ => True

/-- A thread that does not have the run loop asks nothing of it. -/
theorem loopState_of_not_holding {s : Channel} {pc : HomeKitPc} (h : holding pc = false) : LoopState s pc := by
  cases pc <;> trivial

/-- While the server stops, the run loop goes on and the stop will be reported to it. -/
theorem loopState_of_stopping {s : Channel} (h : LoopState s .runLoop) (hserver : s.gHAPaccessoryServer = .stopping) :
    s.runLoop = .running ∧ s.gHAPrequestedFactoryReset = true := by
  rcases h with ⟨h, -⟩ | ⟨-, h⟩ | ⟨h, -⟩
  · simp [hserver] at h
  · exact h
  · simp [hserver] at h

/-- A run loop that ends has no server left. -/
theorem loopState_of_ending {s : Channel} (h : LoopState s .runLoop) (hloop : s.runLoop = .stopping) :
    s.gHAPaccessoryServer = .idle := by
  rcases h with ⟨-, h⟩ | ⟨-, h, -⟩ | ⟨h, -⟩
  · simp [hloop] at h
  · simp [hloop] at h
  · exact h

/-- The run loop has one holder, which finds it and the server as it left them, and no other thread is about to take its file handle. -/
structure LoopInv (s : Channel) : Prop where
  wellFormed : s.WellFormed
  loop : ∀ i, LoopState s (s.thread i)
  released : ∀ i j, s.thread i = .deregister → holding (s.thread j) = false
  handle : ∀ i, holding (s.thread i) → s.selfPipeFileHandle = true

variable {s s' : Channel} {i : Nat} {a : ChannelAct}

/-- What a step of a HomeKit thread leaves for the thread itself. -/
theorem LoopInv.self (hs : LoopInv s) (hcond : WellTimed s a) (h : HomeKitMove s i a s') : LoopState s' (s'.thread i) := by
  have hi := hs.loop i
  cases h with
  | prepare hpc | setEnabled hpc | clearReset hpc | callMain hpc | mainReturn hpc | serverRelease hpc | runLoopRelease hpc
    | deregister hpc =>
    simp [Channel.move, LoopState]
  | runLoopCreate hpc _ | runLoop hpc _ => simp [Channel.move, LoopState]
  | downgrade _ _ => exact absurd hcond id
  | serverCreate hpc _ =>
    rw [hpc] at hi
    simpa [Channel.move, LoopState] using hi
  | serverStart hpc _ =>
    rw [hpc] at hi
    simpa [Channel.move, LoopState] using hi.1
  | runLoopRun hpc _ =>
    rw [hpc] at hi
    simpa [Channel.move, LoopState] using Or.inl hi.2
  | stopRequest n hpc _ _ =>
    rw [hpc] at hi
    simp only [Channel.move, LoopState, Function.update_self, true_and]
    rcases hi with ⟨hserver, hloop⟩ | ⟨hserver, hloop, -⟩ | h
    · exact Or.inl ⟨by simp [hserver], hloop⟩
    · exact Or.inl ⟨by simp [hserver], hloop⟩
    · exact Or.inr h
  | serverStop hpc =>
    rw [hpc] at hi
    simp only [Channel.move, LoopState, Function.update_self]
    obtain ⟨hreset, ⟨hserver, hloop⟩ | ⟨hserver, hloop⟩⟩ := hi
    · refine Or.inr (Or.inl ⟨?_, hloop, hreset⟩)
      cases h : s.gHAPaccessoryServer with
      | idle => exact absurd h hserver
      | running => rfl
      | stopping => rfl
    · exact Or.inr (Or.inr ⟨by rw [hserver]; rfl, hloop⟩)
  | stopReset hpc hserver hreset =>
    rw [hpc] at hi
    change LoopState _ (s.thread i)
    rw [hpc]
    refine Or.inr (Or.inr ⟨rfl, ?_⟩)
    change s.runLoop.stop = .stopping
    rw [(loopState_of_stopping hi hserver).1]
    rfl
  | stopLost hpc hserver hreset =>
    rw [hpc] at hi
    have hset := (loopState_of_stopping hi hserver).2
    simp [hreset] at hset

/-- A step of a HomeKit thread at the right time leaves the run loop to its holder. -/
theorem LoopInv.other (hs : LoopInv s) (hcond : WellTimed s a) (h : HomeKitMove s i a s') {j : Nat} (hj : j ≠ i) :
    LoopState s' (s.thread j) := by
  cases hhold : holding (s.thread j) with
  | false => exact loopState_of_not_holding hhold
  | true =>
    have hi : s.thread i ≠ .deregister := fun hi => by simp [hs.released i j hi] at hhold
    obtain ⟨-, -, hloop, hserver, hreset⟩ := hs.wellFormed.other h hj hhold hi
    have hreset : s'.gHAPrequestedFactoryReset = s.gHAPrequestedFactoryReset := by
      by_cases hpc : s.thread i = .clearReset
      · cases h <;> simp_all [WellTimed]
      · exact hreset hpc
    have hold := hs.loop j
    revert hold
    cases s.thread j <;> simp only [LoopState, hloop, hserver, hreset] <;> exact id

/-- A thread closes its own self-pipe before it takes the file handle. -/
theorem homeKitMove_deregister (h : HomeKitMove s i a s') (hi : s'.thread i = .deregister) : s.thread i = .runLoopRelease := by
  cases h <;> simp_all [Channel.move]

/-- A thread gets the run loop in `HAPPlatformRunLoopCreate` only. -/
theorem homeKitMove_holds (h : HomeKitMove s i a s') (hi : holding (s'.thread i)) :
    holding (s.thread i) ∨ s.thread i = .runLoopCreate ∧ a = .homeKit i := by
  cases h <;> simp_all [holding, Channel.move]

/-- The file handle is taken in `HAPPlatformRunLoopRelease` only, and registered in `HAPPlatformRunLoopCreate`. -/
theorem homeKitMove_handle (h : HomeKitMove s i a s') (hi : s.thread i ≠ .deregister) (hhandle : s.selfPipeFileHandle = true ∨
    s.thread i = .runLoopCreate) : s'.selfPipeFileHandle = true := by
  cases h <;> simp_all [Channel.move]

/-- A step of a HomeKit thread at the right time leaves the file handle to the holder of the run loop. -/
theorem LoopInv.homeKit (hs : LoopInv s) (hcond : WellTimed s a) (h : HomeKitMove s i a s') : LoopInv s' := by
  have hcreated : ∀ {j : Nat}, s.thread j = .deregister → j < s.created := by
    intro j hj
    rw [hs.wellFormed.created, hj]
    simp
  refine ⟨hs.wellFormed.homeKit h, fun j => ?_, fun k j hk => ?_, fun j hj => ?_⟩
  · by_cases hj : j = i
    · subst hj
      exact hs.self hcond h
    · rw [homeKitMove_other hs.wellFormed h hj]
      exact hs.other hcond h hj
  · by_contra hj
    rw [Bool.not_eq_false] at hj
    by_cases hki : k = i
    · subst hki
      have hrelease := homeKitMove_deregister h hk
      by_cases hjk : j = k
      · subst hjk
        rw [hk] at hj
        exact absurd hj (by decide)
      · rw [homeKitMove_other hs.wellFormed h hjk] at hj
        have hnot := hs.wellFormed.holder.other hj (Ne.symm hjk)
        rw [hrelease] at hnot
        exact absurd hnot (by decide)
    · rw [homeKitMove_other hs.wellFormed h hki] at hk
      by_cases hji : j = i
      · subst hji
        rcases homeKitMove_holds h hj with hold | ⟨hcreate, rfl⟩
        · rw [hs.released k j hk] at hold
          cases hold
        · exact hcond.2.1 hcreate k (hcreated hk) hk
      · rw [homeKitMove_other hs.wellFormed h hji, hs.released k j hk] at hj
        cases hj
  · by_cases hji : j = i
    · subst hji
      have hnot : s.thread j ≠ .deregister := by
        intro hpc
        rcases homeKitMove_holds h hj with hold | ⟨hcreate, -⟩
        · rw [hpc] at hold
          exact absurd hold (by decide)
        · simp [hpc] at hcreate
      exact homeKitMove_handle h hnot ((homeKitMove_holds h hj).imp (hs.handle j) And.left)
    · rw [homeKitMove_other hs.wellFormed h hji] at hj
      have hnot : s.thread i ≠ .deregister := fun hi => by simp [hs.released i j hi] at hj
      exact homeKitMove_handle h hnot (Or.inl (hs.handle j hj))

/-- A step of the AWS thread leaves the run loop as its holder left it. -/
theorem LoopInv.awsMove (hs : LoopInv s) (h : AwsMove s a s') : LoopInv s' := by
  have hwell := hs.wellFormed.aws h
  cases h with
  | createThread haws =>
    have hnew : ∀ {P : HomeKitPc → Prop}, P .prepare → (∀ j, P (s.thread j)) → ∀ j, P ((s.move s.created .prepare).thread j) := by
      intro P hprepare hall j
      by_cases hj : j = s.created
      · subst hj
        rwa [Channel.move_self]
      · rw [Channel.move_other _ _ _ _ hj]
        exact hall j
    refine ⟨hwell, hnew (P := LoopState _) trivial hs.loop, fun i j hi => ?_, ?_⟩
    · refine hnew (P := fun pc => (s.move s.created .prepare).thread i = .deregister → holding pc = false) (fun _ => rfl) (fun j => ?_) j hi
      exact hnew (P := fun pc => pc = .deregister → holding (s.thread j) = false) (by simp) (fun i hi => hs.released i j hi) i
    · exact hnew (P := fun pc => holding pc → s.selfPipeFileHandle = true) (by simp [holding]) hs.handle
  | _ => exact ⟨hwell, hs.loop, hs.released, hs.handle⟩

/-- A step at the right time keeps the run loop as its holder left it. -/
theorem LoopInv.step {o : Unit} (hs : LoopInv s) (hcond : WellTimed s a) (h : channelStep s a = .ok (s', o)) : LoopInv s' := by
  rcases channelStep_ok h with h | ⟨i, h⟩
  · exact hs.awsMove h
  · exact hs.homeKit hcond h

/-! ### The threads that are on -/

/-- Where a thread is on: it is starting or runs its run loop, and no stop has been requested. -/
def active (s : Channel) : HomeKitPc → Bool
  | .prepare | .setEnabled | .clearReset | .callMain | .runLoopCreate => true
  | .serverCreate | .serverStart | .runLoopRun => s.selfPipe = some 0
  | .runLoop => s.selfPipe = some 0 ∧ s.gHAPaccessoryServer = .running
  | _ => false

/-- Only the holder of the run loop depends on more than its position. -/
theorem active_of_not_holding {pc : HomeKitPc} (h : holding pc = false) : active s' pc = active s pc := by
  cases pc <;> first | rfl | exact absurd h (by decide)

/-- A thread that waits for its run loop is on. -/
theorem active_of_waiting {pc : HomeKitPc} (h : waiting pc) : active s pc := by
  cases pc <;> first | rfl | exact absurd h (by decide)

/-- A step of a HomeKit thread does not switch it on or off. -/
theorem LoopInv.active_self (hs : LoopInv s) (hcond : WellTimed s a) (h : HomeKitMove s i a s') :
    active s' (s'.thread i) = active s (s.thread i) := by
  have hi := hs.loop i
  cases h with
  | prepare hpc | setEnabled hpc | clearReset hpc | callMain hpc | mainReturn hpc | serverRelease hpc | runLoopRelease hpc
    | deregister hpc =>
    simp [Channel.move, active, hpc]
  | runLoopCreate hpc _ => simp [Channel.move, active, hpc]
  | downgrade _ _ => exact absurd hcond id
  | serverCreate hpc _ =>
    change active _ ((s.move i .serverStart).thread i) = _
    rw [Channel.move_self, hpc]
    rfl
  | serverStart hpc _ =>
    change active _ ((s.move i .runLoopRun).thread i) = _
    rw [Channel.move_self, hpc]
    rfl
  | runLoopRun hpc _ =>
    rw [hpc] at hi
    simp [Channel.move, active, hpc, hi.2]
  | stopRequest n hpc hpipe _ => simp [Channel.move, active, hpc, hpipe]
  | serverStop hpc =>
    rw [hpc] at hi
    have hstop : s.gHAPaccessoryServer.stop ≠ .running := by
      cases s.gHAPaccessoryServer <;> decide
    simp [Channel.move, active, hpc, hstop]
  | stopReset hpc hserver _ | stopLost hpc hserver _ => simp [active, hpc, hserver]
  | runLoop hpc hstopping =>
    rw [hpc] at hi
    have hserver : s.gHAPaccessoryServer = .idle := loopState_of_ending hi hstopping
    simp [Channel.move, active, hpc, hserver]

/-- A step of a HomeKit thread switches no thread on or off. -/
theorem LoopInv.active_homeKit (hs : LoopInv s) (hcond : WellTimed s a) (h : HomeKitMove s i a s') (j : Nat) :
    active s' (s'.thread j) = active s (s.thread j) := by
  by_cases hj : j = i
  · subst hj
    exact hs.active_self hcond h
  · rw [homeKitMove_other hs.wellFormed h hj]
    cases hhold : holding (s.thread j) with
    | false => exact active_of_not_holding hhold
    | true =>
      have hi : s.thread i ≠ .deregister := fun hi => by simp [hs.released i j hi] at hhold
      obtain ⟨hpipe, -, -, hserver, -⟩ := hs.wellFormed.other h hj hhold hi
      cases s.thread j <;> simp only [active, hpipe, hserver]

/-! ### The flag -/

/-- What the AWS thread has left the flag at, for the threads that are on. -/
def AwsState (s : Channel) : Prop :=
  match s.aws with
  | .idle | .exited => s.gisHomeKitEnabled = true ↔ ∃ i, active s (s.thread i)
  | .createThread => s.gisHomeKitEnabled = false ∧ ∀ i, active s (s.thread i) = false
  | .setEnabled =>
    ∃ i, active s (s.thread i) ∧ (s.gisHomeKitEnabled = true ∨ s.thread i = .prepare ∨ s.thread i = .setEnabled)
  | .scheduleStop => s.gisHomeKitEnabled = true ∧ ∃ i, active s (s.thread i)
  | .clearEnabled =>
    s.gisHomeKitEnabled = true ∧ (∀ i, active s (s.thread i) = false) ∧ ∃ i, leaving (s.thread i)

/-- What holds when every step is taken at the right time. -/
structure FlagInv (s : Channel) : Prop where
  loop : LoopInv s
  one : AtMostOne (active s) s.thread
  aws : AwsState s

theorem flagInv_start : FlagInv .start := by
  refine ⟨⟨Channel.wellFormed_start, fun _ => trivial, fun _ _ _ => rfl, fun _ h => absurd h Bool.false_ne_true⟩,
    AtMostOne.of_none fun _ => rfl, ?_⟩
  simp [AwsState, Channel.start, active]

/-- A step of a HomeKit thread writes the flag in `CS_EnableChannel` only. -/
theorem homeKitMove_flag (h : HomeKitMove s i a s') :
    s'.gisHomeKitEnabled = s.gisHomeKitEnabled ∨ (s.thread i = .setEnabled ∧ s'.gisHomeKitEnabled = true) := by
  cases h
  case setEnabled hpc => exact Or.inr ⟨hpc, rfl⟩
  all_goals exact Or.inl rfl

/-- A flag that is set stays set while HomeKit threads go on. -/
theorem homeKitMove_flag_true (h : HomeKitMove s i a s') (hflag : s.gisHomeKitEnabled = true) :
    s'.gisHomeKitEnabled = true := by
  rcases homeKitMove_flag h with hsame | ⟨-, htrue⟩
  · rw [hsame, hflag]
  · exact htrue

/-- A thread that has not set the flag yet is about to, or has. -/
theorem homeKitMove_sets (h : HomeKitMove s i a s') (hpc : s.thread i = .prepare ∨ s.thread i = .setEnabled) :
    s'.gisHomeKitEnabled = true ∨ s'.thread i = .setEnabled := by
  cases h
  case prepare => exact Or.inr (Channel.move_self s i _)
  case setEnabled => exact Or.inl rfl
  all_goals simp_all

/-- A thread that has created its run loop is about to return before it does. -/
theorem homeKitMove_leaving (h : HomeKitMove s i a s') (hi : leaving (s.thread i)) :
    leaving (s'.thread i) ∨ s.thread i = .mainReturn ∧ a = .homeKit i := by
  cases h <;> simp_all [leaving, holding, Channel.move]

/-- The last thread to be stopped returns after the flag has been cleared. -/
theorem homeKitMove_stopping (hs : s.WellFormed) (hcond : WellTimed s a) (h : HomeKitMove s i a s') (haws : s.aws = .clearEnabled)
    (hstop : ∃ j, leaving (s.thread j)) : ∃ j, leaving (s'.thread j) := by
  obtain ⟨j, hj⟩ := hstop
  by_cases hij : j = i
  · subst hij
    rcases homeKitMove_leaving h hj with hj | ⟨hreturn, rfl⟩
    · exact ⟨j, hj⟩
    · obtain ⟨k, -, hkj, hk⟩ := hcond.2.2 hreturn haws
      exact ⟨k, by rwa [homeKitMove_other hs h hkj]⟩
  · exact ⟨j, by rwa [homeKitMove_other hs h hij]⟩

/-- A step of a HomeKit thread at the right time keeps what the AWS thread has left. -/
theorem FlagInv.homeKit (hs : FlagInv s) (hcond : WellTimed s a) (h : HomeKitMove s i a s') : AwsState s' := by
  have hactive := hs.loop.active_homeKit hcond h
  have haws : s'.aws = s.aws := by cases h <;> rfl
  have hold := hs.aws
  unfold AwsState at *
  rw [haws]
  simp only [hactive]
  cases hpc : s.aws <;> rw [hpc] at hold <;> simp only at hold ⊢
  case idle | exited =>
    rcases homeKitMove_flag h with hsame | ⟨hset, htrue⟩
    · rw [hsame, hold]
    · exact iff_of_true htrue ⟨i, active_of_waiting (by rw [hset]; rfl)⟩
  case createThread =>
    rcases homeKitMove_flag h with hsame | ⟨hset, -⟩
    · rwa [hsame]
    · have := hold.2 i
      rw [hset] at this
      cases this
  case setEnabled =>
    obtain ⟨j, hj, hflag⟩ := hold
    refine ⟨j, hj, ?_⟩
    rcases hflag with hflag | hflag
    · exact Or.inl (homeKitMove_flag_true h hflag)
    · by_cases hij : j = i
      · subst hij
        rcases homeKitMove_sets h hflag with htrue | hset
        · exact Or.inl htrue
        · exact Or.inr (Or.inr hset)
      · rw [homeKitMove_other hs.loop.wellFormed h hij]
        exact Or.inr hflag
  case scheduleStop => exact ⟨homeKitMove_flag_true h hold.1, hold.2⟩
  case clearEnabled =>
    exact ⟨homeKitMove_flag_true h hold.1, hold.2.1, homeKitMove_stopping hs.loop.wellFormed hcond h hpc hold.2.2⟩

/-- After a stop request to a run loop, with no thread before its own, no thread is on. -/
theorem active_scheduled {pc : HomeKitPc} (hpc : waiting pc = false) (b : AwsPc) :
    active { s with aws := b, selfPipe := s.selfPipe.map (· + 1) } pc = false := by
  have hpipe : s.selfPipe.map (· + 1) ≠ some 0 := by
    cases s.selfPipe <;> simp
  revert hpc
  cases pc <;> simp [active, waiting, hpipe]

/-- A step of the AWS thread at the right time knows which threads are on. -/
theorem FlagInv.awsMove (hs : FlagInv s) (hcond : WellTimed s a) (h : AwsMove s a s') :
    AtMostOne (active s') s'.thread ∧ AwsState s' := by
  have hold := hs.aws
  have hone := hs.one
  unfold AwsState at hold
  cases h with
  | enableIgnored _ _ | disableIgnored _ _ => exact ⟨hone, hs.aws⟩
  | enable haws hflag =>
    simp only [haws, hflag, Bool.false_eq_true, false_iff, not_exists, Bool.not_eq_true] at hold
    exact ⟨hone, hflag, hold⟩
  | disable haws hflag =>
    simp only [haws, hflag, true_iff] at hold
    exact ⟨hone, hflag, hold⟩
  | createThread haws =>
    simp only [haws] at hold
    refine ⟨AtMostOne.enter (fun j _ => hold.2 j) _, s.created, ?_, Or.inr (Or.inl (Channel.move_self s _ _))⟩
    exact active_of_waiting (by rw [show _ = HomeKitPc.prepare from Channel.move_self s _ _]; rfl)
  | createFailed haws =>
    simp only [haws] at hold
    exact ⟨hone, iff_of_false (Bool.eq_false_iff.mp hold.1) (not_exists.mpr fun i => Bool.eq_false_iff.mp (hold.2 i))⟩
  | setEnabled b haws =>
    simp only [haws] at hold
    obtain ⟨i, hi, -⟩ := hold
    exact ⟨hone, iff_of_true rfl ⟨i, hi⟩⟩
  | scheduleStop b haws =>
    simp only [haws] at hold
    obtain ⟨hopen, hnone⟩ := hcond haws
    have hoff : ∀ i, active { s with aws := .clearEnabled, selfPipe := s.selfPipe.map (· + 1) } (s.thread i) = false := by
      intro i
      refine active_scheduled ?_ _
      by_cases hi : i < s.created
      · exact Bool.eq_false_iff.mpr (hnone i hi)
      · rw [hs.loop.wellFormed.created, not_not] at hi
        rw [hi]
        rfl
    obtain ⟨i, hi⟩ := hs.loop.wellFormed.pipe.mp hopen
    exact ⟨AtMostOne.of_none hoff, hold.1, hoff, i, leaving_of_holding hi⟩
  | clearEnabled b haws =>
    simp only [haws] at hold
    exact ⟨hone, iff_of_false Bool.false_ne_true (not_exists.mpr fun i => Bool.eq_false_iff.mp (hold.2.1 i))⟩

/-- A step at the right time keeps the invariant. -/
theorem FlagInv.step {o : Unit} (hs : FlagInv s) (hcond : WellTimed s a) (h : channelStep s a = .ok (s', o)) : FlagInv s' := by
  have hloop := hs.loop.step hcond h
  rcases channelStep_ok h with h | ⟨i, h⟩
  · obtain ⟨hone, haws⟩ := hs.awsMove hcond h
    exact ⟨hloop, hone, haws⟩
  · exact ⟨hloop, hs.one.of_imp fun j hj => by rwa [hs.loop.active_homeKit hcond h] at hj, hs.homeKit hcond h⟩

/-- In a quiescent state the threads that are on are those that run their run loop. -/
theorem FlagInv.active_iff (hs : FlagInv s) (hq : s.Quiescent) (i : Nat) : active s (s.thread i) ↔ s.thread i = .runLoop := by
  constructor
  · intro hi
    have hlt : i < s.created := by
      rw [hs.loop.wellFormed.created]
      intro h
      rw [h] at hi
      cases hi
    have := hq.started i hlt
    revert hi this
    cases s.thread i <;> simp [active, beforeLoop]
  · intro hi
    have hopen : s.selfPipe ≠ none := hs.loop.wellFormed.pipe.mpr ⟨i, by rw [hi]; rfl⟩
    have hpipe := hq.noRequest.resolve_left hopen
    have hloop := hs.loop.loop i
    rw [hi] at hloop ⊢
    rcases hloop with ⟨hserver, -⟩ | ⟨hserver, -⟩ | ⟨-, hstopping⟩
    · simp [active, hpipe, hserver]
    · exact absurd hserver hq.server
    · exact absurd hstopping hq.runLoop

/-- In a quiescent state the flag tells the truth. -/
theorem FlagInv.truthful (hs : FlagInv s) (hq : s.Quiescent) : s.gisHomeKitEnabled = true ↔ s.RunsLoop := by
  have hruns : s.RunsLoop ↔ ∃ i, active s (s.thread i) := by
    simp only [hs.active_iff hq]
    constructor
    · rintro ⟨i, -, hi⟩
      exact ⟨i, hi⟩
    · rintro ⟨i, hi⟩
      refine ⟨i, ?_, hi⟩
      rw [hs.loop.wellFormed.created, hi]
      simp
  have hold := hs.aws
  unfold AwsState at hold
  rw [hruns]
  cases haws : s.aws <;> rw [haws] at hold <;> simp only at hold
  case idle | exited => exact hold
  case createThread => simp [hold.1, hold.2]
  case setEnabled =>
    obtain ⟨i, hi, hflag⟩ := hold
    have hpc := (hs.active_iff hq i).mp hi
    rw [hpc] at hflag
    exact iff_of_true (by simpa using hflag) ⟨i, hi⟩
  case scheduleStop => exact iff_of_true hold.1 hold.2
  case clearEnabled =>
    obtain ⟨-, hoff, i, hi⟩ := hold
    have hlt : i < s.created := by
      rw [hs.loop.wellFormed.created]
      intro h
      rw [h] at hi
      simp [leaving, holding] at hi
    have hstarted := hq.started i hlt
    have hstop := hq.noStop i hlt
    have hloop := (hs.active_iff hq i).not.mp (by rw [hoff i]; exact Bool.false_ne_true)
    exfalso
    revert hi hstarted hstop hloop
    cases s.thread i <;> simp [leaving, holding, beforeLoop, stopping]

/-! ### A disable is not lost -/

/-- An `h` has been handled or is being handled, and no `H` has come since. -/
structure Disabled (s : Channel) : Prop where
  flag : FlagInv s
  aws : s.aws = .scheduleStop ∨ s.aws = .clearEnabled ∨ (s.aws = .idle ∧ s.gisHomeKitEnabled = false)

/-- An `h` disables the channel, or finds it disabled. -/
theorem disabled_of_command {o : Unit} (hs : FlagInv s) (h : channelStep s (.command .disable) = .ok (s', o)) : Disabled s' := by
  refine ⟨hs.step (a := .command .disable) trivial h, ?_⟩
  rcases channelStep_ok h with h | ⟨i, h⟩
  · cases h with
    | disableIgnored haws hflag => exact Or.inr (Or.inr ⟨haws, hflag⟩)
    | disable _ _ => exact Or.inl rfl
  · cases h

/-- The channel stays disabled until the next `H`. -/
theorem Disabled.step {o : Unit} (hs : Disabled s) (hcond : WellTimed s a) (ha : a ≠ .command .enable)
    (h : channelStep s a = .ok (s', o)) : Disabled s' := by
  refine ⟨hs.flag.step hcond h, ?_⟩
  have hold := hs.aws
  rcases channelStep_ok h with h | ⟨i, h⟩
  · cases h with
    | enableIgnored _ _ | enable _ _ => exact absurd rfl ha
    | disableIgnored haws hflag => exact Or.inr (Or.inr ⟨haws, hflag⟩)
    | disable _ _ => exact Or.inl rfl
    | createThread haws | createFailed haws | setEnabled b haws => simp [haws] at hold
    | scheduleStop b _ => exact Or.inr (Or.inl rfl)
    | clearEnabled b _ => exact Or.inr (Or.inr ⟨rfl, rfl⟩)
  · have haws : s'.aws = s.aws := by cases h <;> rfl
    rw [haws]
    rcases hold with h1 | h1 | ⟨h1, hflag⟩
    · exact Or.inl h1
    · exact Or.inr (Or.inl h1)
    · refine Or.inr (Or.inr ⟨h1, ?_⟩)
      rcases homeKitMove_flag h with hsame | ⟨hset, -⟩
      · rw [hsame, hflag]
      · have hidle := hs.flag.aws
        unfold AwsState at hidle
        simp only [h1] at hidle
        rw [hidle.mpr ⟨i, active_of_waiting (by rw [hset]; rfl)⟩] at hflag
        simp at hflag

/-- In a quiescent state after an `h` that has been handled there is no server. -/
theorem Disabled.not_runsLoop (hs : Disabled s) (hidle : s.aws = .idle) (hq : s.Quiescent) : ¬ s.RunsLoop := by
  rw [← hs.flag.truthful hq]
  rcases hs.aws with h | h | ⟨-, hflag⟩
  · rw [hidle] at h
    simp at h
  · rw [hidle] at h
    simp at h
  · rw [hflag]
    exact Bool.false_ne_true

/-! ### A running server can be stopped -/

/-- The thread can return while the AWS thread waits. -/
def CanReturn (s : Channel) (i : Nat) : Prop := CanReach s fun t => t.thread i = .returned

theorem canReturn_mainReturn (h : s.thread i = .mainReturn) : CanReturn s i := by
  refine CanReach.homeKit (i := i) (t := { s.move i .returned with serverEngine := false }) (by simp only [homeKitStep, h])
    (CanReach.refl ?_)
  exact Channel.move_self s i _

theorem canReturn_deregister (h : s.thread i = .deregister) : CanReturn s i := by
  refine CanReach.homeKit (i := i) (t := { s.move i .mainReturn with selfPipeFileHandle := false, runLoop := .idle })
    (by simp only [homeKitStep, h]) (canReturn_mainReturn ?_)
  exact Channel.move_self s i _

theorem canReturn_runLoopRelease (h : s.thread i = .runLoopRelease) : CanReturn s i := by
  refine CanReach.homeKit (i := i) (t := { s.move i .deregister with selfPipe := none })
    (by simp only [homeKitStep, h]) (canReturn_deregister ?_)
  exact Channel.move_self s i _

theorem canReturn_serverRelease (h : s.thread i = .serverRelease) : CanReturn s i := by
  refine CanReach.homeKit (i := i) (t := { s.move i .runLoopRelease with gHAPaccessoryServer := .idle })
    (by simp only [homeKitStep, h]) (canReturn_runLoopRelease ?_)
  exact Channel.move_self s i _

/-- A run loop that is to stop is left. -/
theorem canReturn_runLoop (h : s.thread i = .runLoop) (hloop : s.runLoop = .stopping) : CanReturn s i := by
  refine CanReach.homeKit (i := i) (t := { s.move i .serverRelease with runLoop := .idle })
    (by simp [homeKitStep, h, hloop]) (canReturn_serverRelease ?_)
  exact Channel.move_self s i _

/-- A stop that is complete stops the run loop. -/
theorem canReturn_stopping (h : s.thread i = .runLoop) (hserver : s.gHAPaccessoryServer = .stopping)
    (hloop : s.runLoop = .running) (hreset : s.gHAPrequestedFactoryReset = true) : CanReturn s i := by
  refine CanReach.step (a := .stopComplete i)
    (t := { s with gHAPaccessoryServer := .idle, gHAPrequestedFactoryReset := false, runLoop := s.runLoop.stop }) ?_ rfl
    (canReturn_runLoop h (by simp only [hloop]; rfl))
  simp only [channelStep, stopComplete, h, hserver, hreset, if_true, Except.map]

/-- A server that is to stop stops. -/
theorem canReturn_serverStop (h : s.thread i = .serverStop) (hserver : s.gHAPaccessoryServer = .running)
    (hloop : s.runLoop = .running) (hreset : s.gHAPrequestedFactoryReset = true) : CanReturn s i := by
  exact CanReach.homeKit (i := i) (t := { s.move i .runLoop with gHAPaccessoryServer := s.gHAPaccessoryServer.stop })
    (by simp only [homeKitStep, h]) (canReturn_stopping (Channel.move_self s i _) (by simp only [hserver]; rfl) hloop hreset)

/-- A queued request is handled. -/
theorem canReturn_request {n : Nat} (h : s.thread i = .runLoop) (hpipe : s.selfPipe = some (n + 1))
    (hhandle : s.selfPipeFileHandle = true) (hserver : s.gHAPaccessoryServer = .running) (hloop : s.runLoop = .running) : CanReturn s i := by
  refine CanReach.step (a := .stopRequest i)
    (t := { s.move i .serverStop with selfPipe := some n, gHAPrequestedFactoryReset := true }) ?_ rfl
    (canReturn_serverStop (Channel.move_self s i _) hserver hloop rfl)
  simp only [channelStep, stopRequest, h, hpipe, hhandle, Except.map]

/-- A thread in its run loop with a stop requested can return, whatever the AWS thread is at. -/
theorem LoopInv.canReturn (hs : LoopInv s) (h : s.thread i = .runLoop) (hoff : active s .runLoop = false) (b : AwsPc) :
    CanReturn { s with aws := b } i := by
  have hopen := hs.wellFormed.pipe.mpr ⟨i, by rw [h]; rfl⟩
  have hloop := hs.loop i
  rw [h] at hloop
  rcases hloop with ⟨hserver, hloop⟩ | ⟨hserver, hloop, hreset⟩ | ⟨-, hloop⟩
  · obtain ⟨n, hpipe⟩ := Option.ne_none_iff_exists'.mp hopen
    cases n with
    | zero => simp [active, hpipe, hserver] at hoff
    | succ n => exact canReturn_request h hpipe (hs.handle i (by rw [h]; rfl)) hserver hloop
  · exact canReturn_stopping h hserver hloop hreset
  · exact canReturn_runLoop h hloop

/-- Steps of HomeKit threads are no commands. -/
theorem enable_notMem {as : List ChannelAct} (has : ∀ a ∈ as, a.ofHomeKit) : ChannelAct.command .enable ∉ as := by
  intro h
  cases has _ h

/-- A further `h` can stop a running server, or its stop is under way. -/
theorem FlagInv.stoppable (hs : FlagInv s) (h : s.thread i = .runLoop) (hidle : s.aws = .idle) :
    ∃ as t os, ChannelAct.command .enable ∉ as ∧ run channelStep s (.command .disable :: as) = .ok (t, os) ∧
      t.thread i = .returned := by
  have haws := hs.aws
  unfold AwsState at haws
  simp only [hidle] at haws
  cases hon : active s .runLoop with
  | true =>
    have hflag : s.gisHomeKitEnabled = true := haws.mpr ⟨i, by rw [h]; exact hon⟩
    simp only [active, Bool.decide_and, Bool.and_eq_true, decide_eq_true_eq] at hon
    obtain ⟨hpipe, hserver⟩ := hon
    have hloop : s.runLoop = .running := by
      have hloop := hs.loop.loop i
      rw [h] at hloop
      simpa [LoopState, hserver] using hloop
    obtain ⟨as, t, os, has, hrun, ht⟩ : CanReturn { s with aws := .idle, selfPipe := some 1, gisHomeKitEnabled := false } i :=
      canReturn_request h rfl (hs.loop.handle i (by rw [h]; rfl)) hserver hloop
    refine ⟨.aws true :: .aws true :: as, t, () :: () :: () :: os, ?_, ?_, ht⟩
    · simpa using enable_notMem has
    · have hcommand : channelStep s (.command .disable) = .ok ({ s with aws := .scheduleStop }, ()) := by
        simp [channelStep, channelCommand, hidle, hflag, Except.map]
      have hschedule : channelStep { s with aws := .scheduleStop } (.aws true) =
          .ok ({ s with aws := .clearEnabled, selfPipe := some 1 }, ()) := by
        simp [channelStep, awsStep, hpipe, Except.map]
      have hclear : channelStep { s with aws := .clearEnabled, selfPipe := some 1 } (.aws true) =
          .ok ({ s with aws := .idle, selfPipe := some 1, gisHomeKitEnabled := false }, ()) := rfl
      exact run_cons hcommand (run_cons hschedule (run_cons hclear hrun))
  | false =>
    have hcommand : ∃ b, channelStep s (.command .disable) = .ok ({ s with aws := b }, ()) := by
      by_cases hflag : s.gisHomeKitEnabled = true
      · exact ⟨.scheduleStop, by simp [channelStep, channelCommand, hidle, hflag, Except.map]⟩
      · have hsame : channelStep s (.command .disable) = .ok (s, ()) := by
          simp [channelStep, channelCommand, hidle, hflag, Except.map]
        exact ⟨s.aws, hsame⟩
    obtain ⟨b, hcommand⟩ := hcommand
    obtain ⟨as, t, os, has, hrun, ht⟩ := hs.loop.canReturn h hon b
    exact ⟨as, t, () :: os, enable_notMem has, run_cons hcommand hrun, ht⟩

end EnabledFlagAux

open EnabledFlagAux

/-- In every run of `H` and `h` commands and of the HomeKit threads whose steps are all well timed, every state has a flag that
tells the truth when it is quiescent, no disable is lost, and a running server can be stopped by a further `h`. -/
theorem enabled_flag_true (as : List ChannelAct) (s : Channel) (os : List Unit)
    (hrun : run channelStep .start as = .ok (s, os)) (hcond : Guarded channelStep WellTimed .start as) : FlagTrue as s := by
  have hinv : ∀ {as : List ChannelAct} {s : Channel} {os : List Unit}, run channelStep .start as = .ok (s, os) →
      Guarded channelStep WellTimed .start as → FlagInv s :=
    fun hrun hcond => run_invariant_of_guarded (fun _ _ _ _ hs hcond hm => hs.step hcond hm) flagInv_start hcond hrun
  have hs := hinv hrun hcond
  refine ⟨hs.truthful, ?_, fun i hi hidle => hs.stoppable hi hidle⟩
  rintro pre post rfl hpost hidle hq
  obtain ⟨t, ts, us, hpre, hrest, -⟩ := run_split hrun
  obtain ⟨u, o, os', hcommand, hafter, -⟩ := run_cons_ok hrest
  have hdisabled := disabled_of_command (hinv hpre hcond.left) hcommand
  have hcond' : Guarded channelStep (fun s a => WellTimed s a ∧ a ≠ .command .enable) u post := by
    refine ((hcond.right hpre).2 u o hcommand).and (guarded_of_forall (fun _ a ha => ?_) u)
    rintro rfl
    exact hpost ha
  exact (run_invariant_of_guarded (fun _ _ _ _ hs hcond hm => hs.step hcond.1 hcond.2 hm) hdisabled hcond' hafter).not_runsLoop
    hidle hq

/-- `H`, and when the thread runs its run loop, `h`; the thread returns after the flag has been cleared. -/
def enableThenDisable : List ChannelAct :=
  [.command .enable, .aws true, .aws true] ++ List.replicate 8 (.homeKit 0) ++
    [.command .disable, .aws true, .aws true, .stopRequest 0, .homeKit 0, .stopComplete 0] ++ List.replicate 5 (.homeKit 0)

/-- The server has been stopped, and the flag says so. -/
theorem enabled_flag_true_stopped :
    ∃ s os, run channelStep .start enableThenDisable = .ok (s, os) ∧ s.gisHomeKitEnabled = false ∧ s.thread 0 = .returned ∧
      FlagTrue enableThenDisable s :=
  ⟨_, _, rfl, rfl, rfl, enabled_flag_true enableThenDisable _ _ rfl (by decide)⟩

/-- `H`, and after the new thread has set the flag but before it has a run loop, `h`. -/
def disableTooEarly : List ChannelAct :=
  [.command .enable, .aws true, .homeKit 0, .homeKit 0, .aws true, .command .disable, .aws true, .aws true] ++
    List.replicate 6 (.homeKit 0)

/-- The request reached no run loop: the server runs, the flag says that the channel is disabled, and a further `h` does nothing. -/
theorem enabled_flag_not :
    ∃ s os, run channelStep .start disableTooEarly = .ok (s, os) ∧ s.Quiescent ∧ s.gisHomeKitEnabled = false ∧ s.RunsLoop ∧
      channelStep s (.command .disable) = .ok (s, ()) ∧ ¬ FlagTrue disableTooEarly s := by
  refine ⟨_, _, rfl, ?_, rfl, ⟨0, by decide, rfl⟩, rfl, fun h => ?_⟩
  · exact ⟨by decide, Or.inr rfl, by decide, by decide, by decide⟩
  · have hflag := (h.truthful ⟨by decide, Or.inr rfl, by decide, by decide, by decide⟩).mpr ⟨0, by decide, rfl⟩
    cases hflag

end CGuard
