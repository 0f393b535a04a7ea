import CGuard.Channel
import CGuard.Lib.Threads

/-!
# The run loop has one holder

`HAPPlatformRunLoopCreate` fails its precondition while another thread has the run loop, so whatever the order of the commands and
of the steps, at most one thread has it, and the self-pipe is open exactly while one does.
-/

namespace CGuard

open Machine Threads HomeKitPc

/-- What holds in every state of every run. -/
structure Channel.WellFormed (s : Channel) : Prop where
  created : ∀ i, i < s.created ↔ s.thread i ≠ .notCreated
  holder : AtMostOne holding s.thread
  pipe : s.selfPipe ≠ none ↔ ∃ i, holding (s.thread i)

theorem Channel.wellFormed_start : Channel.start.WellFormed :=
  ⟨fun i => by simp [Channel.start], AtMostOne.of_none fun _ => rfl, by simp [Channel.start, holding]⟩

variable {s s' : Channel} {i : Nat} {a : ChannelAct}

/-- What a step of a HomeKit thread does to the threads and to the self-pipe. -/
theorem homeKitMove_thread (h : HomeKitMove s i a s') (hopen : holding (s.thread i) → s.selfPipe ≠ none) :
    ∃ pc, s'.thread = Function.update s.thread i pc ∧ live (s.thread i) ∧ pc ≠ .notCreated ∧ s'.created = s.created ∧
      s'.aws = s.aws ∧ (holding pc → holding (s.thread i) ∨ s.selfPipe = none) ∧
      (s'.selfPipe ≠ none ↔ holding pc ∨ s.selfPipe ≠ none ∧ ¬ holding (s.thread i)) := by
  cases h
  case stopReset hpc _ _ | stopLost hpc _ _ =>
    refine ⟨.runLoop, by rw [← hpc, Function.update_eq_self], by simp [hpc, live], by simp, rfl, rfl, ?_, ?_⟩
    · exact fun _ => Or.inl (by rw [hpc]; rfl)
    · exact iff_of_true (hopen (by rw [hpc]; rfl)) (Or.inl rfl)
  all_goals exact ⟨_, rfl, by simp [*, live], by simp, rfl, rfl, by simp [*, holding], by simp_all [holding, Channel.move]⟩

/-- A step of a HomeKit thread keeps the run loop with one holder. -/
theorem Channel.WellFormed.homeKit (hs : s.WellFormed) (h : HomeKitMove s i a s') : s'.WellFormed := by
  obtain ⟨pc, hthread, hlive, hne, hcreated, -, hhold, hpipe⟩ := homeKitMove_thread h fun hi => hs.pipe.mpr ⟨i, hi⟩
  refine ⟨fun j => ?_, ?_, ?_⟩
  · rw [hcreated, hthread, hs.created]
    by_cases hj : j = i
    · subst hj
      rw [Function.update_self]
      refine iff_of_true ?_ hne
      intro h
      rw [h] at hlive
      exact absurd hlive (by decide)
    · rw [Function.update_of_ne hj]
  · rw [hthread]
    by_cases hclosed : s.selfPipe = none
    · refine AtMostOne.enter (fun j _ => ?_) pc
      by_contra hj
      rw [Bool.not_eq_false] at hj
      exact hs.pipe.mpr ⟨j, hj⟩ hclosed
    · exact hs.holder.update fun hpc => (hhold hpc).resolve_right hclosed
  · rw [hpipe, hthread]
    constructor
    · rintro (hpc | ⟨hopen, hnot⟩)
      · exact ⟨i, by rwa [Function.update_self]⟩
      · obtain ⟨j, hj⟩ := hs.pipe.mp hopen
        have hij : j ≠ i := by
          rintro rfl
          exact hnot hj
        exact ⟨j, by rwa [Function.update_of_ne hij]⟩
    · rintro ⟨j, hj⟩
      by_cases hij : j = i
      · subst hij
        rw [Function.update_self] at hj
        exact Or.inl hj
      · rw [Function.update_of_ne hij] at hj
        refine Or.inr ⟨hs.pipe.mpr ⟨j, hj⟩, ?_⟩
        rw [hs.holder.other hj (Ne.symm hij)]
        exact Bool.false_ne_true

/-- A step of a thread leaves the others where they are. -/
theorem homeKitMove_other (hs : s.WellFormed) (h : HomeKitMove s i a s') {j : Nat} (hj : j ≠ i) :
    s'.thread j = s.thread j := by
  obtain ⟨pc, hthread, -⟩ := homeKitMove_thread h fun hi => hs.pipe.mpr ⟨i, hi⟩
  rw [hthread, Function.update_of_ne hj]

/-- A step of a thread that is not inside `HAPPlatformRunLoopRelease` leaves the run loop of another one as it is. -/
theorem Channel.WellFormed.other (hs : s.WellFormed) (h : HomeKitMove s i a s') {j : Nat} (hj : j ≠ i)
    (hhold : holding (s.thread j)) (hi : s.thread i ≠ .deregister) :
    s'.selfPipe = s.selfPipe ∧ s'.selfPipeFileHandle = s.selfPipeFileHandle ∧ s'.runLoop = s.runLoop ∧
      s'.gHAPaccessoryServer = s.gHAPaccessoryServer ∧
      (s.thread i ≠ .clearReset → s'.gHAPrequestedFactoryReset = s.gHAPrequestedFactoryReset) := by
  have hnot := hs.holder.other hhold (Ne.symm hj)
  have hopen := hs.pipe.mpr ⟨j, hhold⟩
  cases h with
  | prepare hpc | setEnabled hpc | callMain hpc | mainReturn hpc => exact ⟨rfl, rfl, rfl, rfl, fun _ => rfl⟩
  | deregister hpc => exact absurd hpc hi
  | clearReset hpc => exact ⟨rfl, rfl, rfl, rfl, fun h => absurd hpc h⟩
  | runLoopCreate hpc hclosed => exact absurd hclosed hopen
  | serverStop hpc | serverRelease hpc | runLoopRelease hpc => rw [hpc] at hnot; exact absurd hnot (by decide)
  | serverCreate hpc _ | serverStart hpc _ | downgrade hpc _ | runLoopRun hpc _ | runLoop hpc _ =>
    rw [hpc] at hnot
    exact absurd hnot (by decide)
  | stopRequest n hpc _ _ => rw [hpc] at hnot; exact absurd hnot (by decide)
  | stopReset hpc _ _ | stopLost hpc _ _ => rw [hpc] at hnot; exact absurd hnot (by decide)

/-- A step of the AWS thread keeps the run loop with one holder. -/
theorem Channel.WellFormed.aws (hs : s.WellFormed) (h : AwsMove s a s') : s'.WellFormed := by
  cases h with
  | createThread _ =>
    have hnew : s.thread s.created = .notCreated := by
      by_contra hne
      exact Nat.lt_irrefl _ ((hs.created s.created).mpr hne)
    have hprepare : HomeKitPc.prepare.holding → (s.thread s.created).holding := by
      intro h
      simp [holding] at h
    refine ⟨fun j => ?_, hs.holder.update hprepare, ?_⟩
    · change j < s.created + 1 ↔ (s.move s.created .prepare).thread j ≠ .notCreated
      by_cases hj : j = s.created
      · subst hj
        rw [Channel.move_self]
        simp
      · rw [Channel.move_other _ _ _ _ hj, ← hs.created]
        omega
    · change s.selfPipe ≠ none ↔ ∃ i, holding ((s.move s.created .prepare).thread i)
      rw [hs.pipe]
      refine exists_congr fun j => ?_
      by_cases hj : j = s.created
      · subst hj
        rw [Channel.move_self, hnew]
        rfl
      · rw [Channel.move_other _ _ _ _ hj]
  | scheduleStop b _ =>
    refine ⟨hs.created, hs.holder, Iff.trans ?_ hs.pipe⟩
    simp
  | enableIgnored _ _ => exact hs
  | disableIgnored _ _ => exact hs
  | enable _ _ => exact ⟨hs.created, hs.holder, hs.pipe⟩
  | disable _ _ => exact ⟨hs.created, hs.holder, hs.pipe⟩
  | createFailed _ => exact ⟨hs.created, hs.holder, hs.pipe⟩
  | setEnabled b _ => exact ⟨hs.created, hs.holder, hs.pipe⟩
  | clearEnabled b _ => exact ⟨hs.created, hs.holder, hs.pipe⟩

/-- Every step keeps the run loop with one holder. -/
theorem Channel.WellFormed.step {o : Unit} (hs : s.WellFormed) (h : channelStep s a = .ok (s', o)) : s'.WellFormed := by
  rcases channelStep_ok h with h | ⟨i, h⟩
  · exact hs.aws h
  · exact hs.homeKit h

/-! ## What the HomeKit threads can do by themselves -/

/-- The HomeKit threads alone can go on to a state with the property. -/
def CanReach (s : Channel) (Q : Channel → Prop) : Prop :=
  ∃ as t os, (∀ a ∈ as, a.ofHomeKit) ∧ run channelStep s as = .ok (t, os) ∧ Q t

variable {t : Channel} {Q R : Channel → Prop}

theorem CanReach.refl (h : Q s) : CanReach s Q := ⟨[], s, [], by simp, rfl, h⟩

theorem CanReach.mono (h : CanReach s Q) (hQR : ∀ t, Q t → R t) : CanReach s R := by
  obtain ⟨as, t, os, has, hrun, hQ⟩ := h
  exact ⟨as, t, os, has, hrun, hQR t hQ⟩

/-- One step of a HomeKit thread, and what can be reached from there. -/
theorem CanReach.step (h : channelStep s a = .ok (t, ())) (ha : a.ofHomeKit) (ht : CanReach t Q) : CanReach s Q := by
  obtain ⟨as, u, os, has, hrun, hQ⟩ := ht
  refine ⟨a :: as, u, () :: os, ?_, run_cons h hrun, hQ⟩
  intro b hb
  rcases List.mem_cons.mp hb with rfl | hb
  · exact ha
  · exact has b hb

/-- The next step of a thread, and what can be reached from there. -/
theorem CanReach.homeKit (h : homeKitStep i s = .ok t) (ht : CanReach t Q) : CanReach s Q := by
  refine CanReach.step (a := .homeKit i) ?_ rfl ht
  simp only [channelStep, h, Except.map]

/-- What is reached from a state that is reached can be reached. -/
theorem CanReach.trans (h : CanReach s Q) (hQR : ∀ t, Q t → CanReach t R) : CanReach s R := by
  obtain ⟨as, t, os, has, hrun, hQ⟩ := h
  obtain ⟨bs, u, ps, hbs, hrun', hR⟩ := hQR t hQ
  refine ⟨as ++ bs, u, os ++ ps, ?_, run_append hrun hrun', hR⟩
  intro a ha
  rcases List.mem_append.mp ha with ha | ha
  · exact has a ha
  · exact hbs a ha

end CGuard
