import CGuard.Lemmas.RunLoop

/-!
# One HomeKit server at a time

The test of `gisHomeKitEnabled` lets a second thread be created as soon as a stop has been requested. At most one thread is inside
`HomekitMainFunction`, in whatever order the threads go on, exactly when each thread is created after all others have returned.
-/

namespace CGuard

open Machine Threads HomeKitPc

/-- At most one thread is inside `HomekitMainFunction`, and the precondition of `HAPPlatformRunLoopCreate` holds. -/
structure Channel.Exclusive (s : Channel) : Prop where
  one : AtMostOne inMain s.thread
  precondition : ∀ i, s.thread i = .runLoopCreate → s.selfPipe = none

/-- However the HomeKit threads go on, there is one server. -/
def Channel.AlwaysExclusive (s : Channel) : Prop :=
  ∀ as s' os, (∀ a ∈ as, a.ofHomeKit) → run channelStep s as = .ok (s', os) → s'.Exclusive

/-- A thread is created only when all threads created before have returned. -/
def CreatesAlone (s : Channel) (a : ChannelAct) : Prop :=
  s.aws = .createThread → a = .aws true → ∀ i < s.created, s.thread i = .returned

namespace OneServerAux

/-- What holds when threads are created alone. -/
structure Inv (s : Channel) : Prop where
  wellFormed : s.WellFormed
  one : AtMostOne live s.thread

theorem inv_start : Inv .start := ⟨Channel.wellFormed_start, AtMostOne.of_none fun _ => rfl⟩

/-- A step of a HomeKit thread creates no thread. -/
theorem Inv.homeKit {s s' : Channel} {i : Nat} {a : ChannelAct} (hs : Inv s) (h : HomeKitMove s i a s') : Inv s' := by
  refine ⟨hs.wellFormed.homeKit h, ?_⟩
  obtain ⟨pc, hthread, hlive, -⟩ := homeKitMove_thread h fun hi => hs.wellFormed.pipe.mpr ⟨i, hi⟩
  rw [hthread]
  exact hs.one.update fun _ => hlive

/-- A step of the AWS thread creates a thread when no other is live. -/
theorem Inv.aws {s s' : Channel} {a : ChannelAct} (hs : Inv s) (hcond : CreatesAlone s a) (h : AwsMove s a s') : Inv s' := by
  refine ⟨hs.wellFormed.aws h, ?_⟩
  cases h with
  | createThread haws =>
    have halone := hcond haws rfl
    refine AtMostOne.enter (fun i _ => ?_) _
    by_cases hi : i < s.created
    · rw [halone i hi]
      rfl
    · rw [hs.wellFormed.created, not_not] at hi
      rw [hi]
      rfl
  | _ => exact hs.one

/-- A step that meets the condition keeps the invariant. -/
theorem Inv.step {s s' : Channel} {a : ChannelAct} {o : Unit} (hs : Inv s) (hcond : CreatesAlone s a)
    (h : channelStep s a = .ok (s', o)) : Inv s' := by
  rcases channelStep_ok h with h | ⟨i, h⟩
  · exact hs.aws hcond h
  · exact hs.homeKit h

/-- The invariant leaves one thread inside `HomekitMainFunction`. -/
theorem Inv.exclusive {s : Channel} (hs : Inv s) : s.Exclusive := by
  refine ⟨hs.one.of_imp fun i hi => ?_, fun i hi => ?_⟩
  · revert hi
    cases s.thread i <;> simp [inMain, live]
  · by_contra hopen
    obtain ⟨j, hj⟩ := hs.wellFormed.pipe.mp hopen
    have hij : j ≠ i := by
      rintro rfl
      rw [hi] at hj
      exact absurd hj (by decide)
    have hlive : live (s.thread i) := by
      rw [hi]
      rfl
    have hdead := hs.one.other hlive hij
    revert hj hdead
    cases s.thread j <;> simp [holding, live]

/-- A step of a HomeKit thread meets the condition. -/
theorem createsAlone_of_ofHomeKit {a : ChannelAct} (h : a.ofHomeKit) (s : Channel) : CreatesAlone s a := by
  intro _ ha
  rw [ha] at h
  exact absurd h (by decide)

/-- With the invariant, there is one server however the HomeKit threads go on. -/
theorem Inv.alwaysExclusive {s : Channel} (hs : Inv s) : s.AlwaysExclusive := by
  intro as s' os has hrun
  have hguard : Guarded channelStep CreatesAlone s as :=
    guarded_of_forall (fun s a ha => createsAlone_of_ofHomeKit (has a ha) s) s
  exact (run_invariant_of_guarded (fun s a s' o hs hcond hm => hs.step hcond hm) hs hguard hrun).exclusive

/-! ### Two live threads can be inside at once -/

/-- The thread can enter `HomekitMainFunction` while the others stay where they are. -/
def CanEnter (s : Channel) (i : Nat) : Prop :=
  CanReach s fun t => (t.thread i).inMain ∧ ∀ j, j ≠ i → t.thread j = s.thread j

/-- A thread that can enter after its next step can enter. -/
theorem CanEnter.homeKit {s t : Channel} {i : Nat} (hstep : homeKitStep i s = .ok t)
    (hother : ∀ j, j ≠ i → t.thread j = s.thread j) (h : CanEnter t i) : CanEnter s i := by
  refine CanReach.homeKit hstep (h.mono ?_)
  rintro u ⟨hin, hsame⟩
  exact ⟨hin, fun j hj => (hsame j hj).trans (hother j hj)⟩

/-- A thread that is inside has entered. -/
theorem canEnter_of_inMain {s : Channel} {i : Nat} (h : (s.thread i).inMain) : CanEnter s i :=
  CanReach.refl ⟨h, fun _ _ => rfl⟩

theorem canEnter_callMain {s : Channel} {i : Nat} (h : s.thread i = .callMain) : CanEnter s i := by
  refine CanEnter.homeKit (t := s.move i .runLoopCreate) (by simp only [homeKitStep, h])
    (fun j hj => Channel.move_other s i j _ hj) (canEnter_of_inMain ?_)
  rw [Channel.move_self]
  rfl

theorem canEnter_clearReset {s : Channel} {i : Nat} (h : s.thread i = .clearReset) : CanEnter s i := by
  refine CanEnter.homeKit (t := { s.move i .callMain with gHAPrequestedFactoryReset := false })
    (by simp only [homeKitStep, h]) (fun j hj => Channel.move_other s i j _ hj) (canEnter_callMain ?_)
  exact Channel.move_self s i .callMain

theorem canEnter_setEnabled {s : Channel} {i : Nat} (h : s.thread i = .setEnabled) : CanEnter s i := by
  refine CanEnter.homeKit (t := { s.move i .clearReset with gisHomeKitEnabled := true })
    (by simp only [homeKitStep, h]) (fun j hj => Channel.move_other s i j _ hj) (canEnter_clearReset ?_)
  exact Channel.move_self s i .clearReset

theorem canEnter_prepare {s : Channel} {i : Nat} (h : s.thread i = .prepare) : CanEnter s i := by
  refine CanEnter.homeKit (t := s.move i .setEnabled) (by simp only [homeKitStep, h])
    (fun j hj => Channel.move_other s i j _ hj) (canEnter_setEnabled ?_)
  exact Channel.move_self s i .setEnabled

/-- Every live thread can enter. -/
theorem canEnter_of_live {s : Channel} {i : Nat} (h : live (s.thread i)) : CanEnter s i := by
  cases hpc : s.thread i
  case notCreated | returned => rw [hpc] at h; exact absurd h (by decide)
  case prepare => exact canEnter_prepare hpc
  case setEnabled => exact canEnter_setEnabled hpc
  case clearReset => exact canEnter_clearReset hpc
  case callMain => exact canEnter_callMain hpc
  all_goals exact canEnter_of_inMain (by rw [hpc]; rfl)

/-- Where two threads are live, both can be inside. -/
theorem not_alwaysExclusive {s : Channel} {i j : Nat} (hi : live (s.thread i)) (hj : live (s.thread j)) (hij : i ≠ j) :
    ¬ s.AlwaysExclusive := by
  have hboth : CanReach s fun t => (t.thread i).inMain ∧ (t.thread j).inMain := by
    refine (canEnter_of_live hi).trans fun t ht => ?_
    rw [← ht.2 j hij.symm] at hj
    refine (canEnter_of_live hj).mono fun u hu => ⟨?_, hu.1⟩
    rw [hu.2 i hij]
    exact ht.1
  intro h
  obtain ⟨as, t, os, has, hrun, hin, hin'⟩ := hboth
  exact hij ((h as t os has hrun).one i j hin hin')

/-- If every state of a run leaves one server however the HomeKit threads go on, each thread is created alone. -/
theorem createsAlone_of_alwaysExclusive (as : List ChannelAct) :
    ∀ s, Inv s →
      (∀ pre post, as = pre ++ post → ∀ t os, run channelStep s pre = .ok (t, os) → t.AlwaysExclusive) →
      Guarded channelStep CreatesAlone s as := by
  induction as with
  | nil => intro s _ _; trivial
  | cons a as ih =>
    intro s hs h
    have hcond : CreatesAlone s a := by
      rintro haws rfl i hi
      by_contra hne
      have hstep : channelStep s (.aws true) =
          .ok ({ s.move s.created .prepare with aws := .setEnabled, created := s.created + 1 }, ()) := by
        simp only [channelStep, awsStep, haws, Except.map, if_true]
      have hni : i ≠ s.created := Nat.ne_of_lt hi
      have hold : live ((s.move s.created .prepare).thread i) := by
        rw [Channel.move_other _ _ _ _ hni]
        rw [hs.wellFormed.created] at hi
        revert hi hne
        cases s.thread i <;> simp [live]
      have hnew : live ((s.move s.created .prepare).thread s.created) := by
        rw [Channel.move_self]
        rfl
      refine absurd (h [.aws true] as rfl _ _ (run_cons hstep (run_nil _))) ?_
      exact not_alwaysExclusive hold hnew hni
    refine ⟨hcond, fun s' o hm => ih s' (hs.step hcond hm) fun pre post hsplit t os hrun => ?_⟩
    exact h (a :: pre) post (by rw [hsplit, List.cons_append]) t (o :: os) (run_cons hm hrun)

end OneServerAux

open OneServerAux

/-- For every sequence of commands and every interleaving: in every state that is reached there is one server however the HomeKit
threads go on, if and only if each thread is created after all others have returned. -/
theorem one_server_iff (as : List ChannelAct) :
    (∀ pre post, as = pre ++ post → ∀ s os, run channelStep .start pre = .ok (s, os) → s.AlwaysExclusive) ↔
      Guarded channelStep CreatesAlone .start as := by
  constructor
  · exact createsAlone_of_alwaysExclusive as .start inv_start
  · rintro hguard pre post rfl s os hrun
    exact (run_invariant_of_guarded (fun s a s' o hs hcond hm => hs.step hcond hm) inv_start hguard.left hrun).alwaysExclusive

/-- `H`, and the thread runs its run loop; `h`, and before the stop is complete, `H` again. -/
def enableTwice : List ChannelAct :=
  [.command .enable, .aws true, .aws true] ++ List.replicate 8 (.homeKit 0) ++
    [.command .disable, .aws true, .aws true, .command .enable, .aws true, .aws true] ++ List.replicate 4 (.homeKit 1)

/-- Two threads are inside `HomekitMainFunction`, and the next step of the second one fails the precondition of
`HAPPlatformRunLoopCreate`. -/
theorem one_server_not :
    ∃ s os, run channelStep .start enableTwice = .ok (s, os) ∧ s.thread 0 = .runLoop ∧ s.thread 1 = .runLoopCreate ∧
      channelStep s (.homeKit 1) = .error .precondition ∧ ¬ s.Exclusive := by
  refine ⟨_, _, rfl, rfl, rfl, rfl, fun h => ?_⟩
  exact absurd (h.one 0 1 rfl rfl) (by decide)

end CGuard
