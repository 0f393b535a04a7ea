import CGuard.Lemmas.RecordsRun
import CGuard.Theorems.Credential
import CGuard.WriteRace

/-!
# No write after a revocation

A delete between the two steps of a write takes the right away from a write that has been let through already. Where no delete takes the
last record of such a write, every write that changes the bulb has its credential on the list when it does.
-/

namespace CGuard

open LinkedHeap Machine

/-- The step changes the bulb only as the second step of a write whose credential is on the list at that moment. -/
def ChangesAuthorised (s : WriteRace) (a : RaceAct) : Prop :=
  ∀ s' o, raceStep s a = .ok (s', o) → s'.device.gLightBulbState ≠ s.device.gLightBulbState →
    ∃ p, s.pending = some p ∧ Authorised s.device p.request

/-- The step is no append of the credential to the list of the right to write. -/
def KeepsOff (c : TypeAuthorizationData) : RaceAct → Prop
  | .append ad right _ => ¬ (ad = c ∧ rightIndex right = some writeRight)
  | _ => True

/-- The step does not change the bulb for a write with this credential. -/
def ChangesNotFor (c : TypeAuthorizationData) (s : WriteRace) (a : RaceAct) : Prop :=
  ∀ s' o, raceStep s a = .ok (s', o) → s'.device.gLightBulbState ≠ s.device.gLightBulbState →
    ∀ p m, s.pending = some p → p.request.authorizationData.bytes = some m → credentialAt m ≠ c

/-- No write after a revocation: every write that changes the bulb does so while its credential is on the list, and once the last
record of a credential is gone no write with it changes the bulb before the credential is granted the right again. -/
structure NoWriteAfterRevocation (s : WriteRace) (as : List RaceAct) : Prop where
  authorised : Guarded raceStep ChangesAuthorised s as
  revoked : ∀ c pre post s₁ os, as = pre ++ post → run raceStep s pre = .ok (s₁, os) →
    c ∉ s₁.device.acl.store writeRight → (∀ a ∈ post, KeepsOff c a) → Guarded raceStep (ChangesNotFor c) s₁ post

/-- The write that is pending would change the bulb: it was let through, and its value is not the cached one and not that of the
bulb. -/
def WouldChange (s : WriteRace) (p : PendingWrite) : Prop :=
  s.pending = some p ∧ p.verdict = 0 ∧ s.device.accessoryConfiguration.lightBulbOn ≠ boolByte p.value ∧ s.device.gLightBulbState ≠ p.value

/-- A delete from the list of the right to write leaves a record of the credential of a pending write that would change the bulb. -/
def KeepsPending (s : WriteRace) : RaceAct → Prop
  | .delete ad right => ∀ p m, WouldChange s p → p.request.authorizationData.bytes = some m → credentialAt m = ad →
    rightIndex right = some writeRight → 1 < (s.device.acl.store writeRight).count ad
  | _ => True

namespace WriteAfterRevocationAux

/-- The invariant: well-formed lists, and a pending write that would change the bulb is authorised. -/
structure Inv (s : WriteRace) : Prop where
  wellFormed : s.device.WellFormed
  pending : ∀ p, WouldChange s p → Authorised s.device p.request

/-- The lists after an append or a delete that returns 0: the records of a right have come from its list. -/
theorem recordStep_wellFormed {c : AclCall (Option Addr)} {d d' : Device} (hd : d.WellFormed) (h : recordStep c d = .ok d') :
    d'.WellFormed :=
  (aclStep_store hd (recordStep_ok h).1).2.2

/-- An append keeps what a list holds. -/
theorem mem_append {d d' : Device} (hd : d.WellFormed) {ad c : TypeAuthorizationData} {right : TypeRight} {want : Option Addr}
    (h : recordStep (.append (some ad) right want) d = .ok d') :
    c ∈ d'.acl.store writeRight ↔ c ∈ d.acl.store writeRight ∨ (ad = c ∧ rightIndex right = some writeRight) := by
  obtain ⟨b, r, hb, hr, -, hstore⟩ := aclStep_append_store hd (recordStep_ok h).1
  cases hb
  rw [hstore, hr, Option.some.injEq]
  by_cases hw : r = writeRight
  · subst hw
    rw [Function.update_self, List.mem_cons, or_comm, and_iff_left rfl]
    exact or_congr_right eq_comm
  · rw [Function.update_of_ne (Ne.symm hw)]
    simp [hw]

/-- A delete takes nothing from a list but one record of its credential. -/
theorem mem_delete {d d' : Device} (hd : d.WellFormed) {ad c : TypeAuthorizationData} {right : TypeRight}
    (h : recordStep (.delete (some ad) right) d = .ok d') :
    (c ∈ d'.acl.store writeRight → c ∈ d.acl.store writeRight) ∧
    (c ∈ d.acl.store writeRight → (c = ad → rightIndex right = some writeRight → 1 < (d.acl.store writeRight).count ad) →
      c ∈ d'.acl.store writeRight) := by
  obtain ⟨b, r, hb, hr, -, hstore⟩ := aclStep_delete_store hd (recordStep_ok h).1
  cases hb
  rw [hstore]
  by_cases hw : r = writeRight
  · subst hw
    rw [Function.update_self]
    refine ⟨List.mem_of_mem_erase, fun hmem hcount => ?_⟩
    by_cases hc : c = ad
    · subst hc
      have hmore := hcount rfl hr
      rw [← List.count_pos_iff, List.count_erase_self]
      omega
    · exact (List.mem_erase_of_ne hc).mpr hmem
  · rw [Function.update_of_ne (Ne.symm hw)]
    exact ⟨id, fun hmem _ => hmem⟩

/-- A pending write stays one that would change the bulb only if it was one: the steps of the other thread do not touch the bulb. -/
theorem wouldChange_of_device {s : WriteRace} {d : Device} {p : PendingWrite} (hd : d = { s.device with acl := d.acl })
    (h : WouldChange { s with device := d } p) : WouldChange s p := by
  rw [hd] at h
  exact h

/-- Every step keeps the invariant under the condition, and changes the bulb only as the claim says. -/
theorem step_inv (s : WriteRace) (a : RaceAct) (hi : Inv s) (hg : KeepsPending s a) (s' : WriteRace) (o : Unit)
    (h : raceStep s a = .ok (s', o)) :
    Inv s' ∧ (s'.device.gLightBulbState ≠ s.device.gLightBulbState → ∃ p, WouldChange s p) := by
  cases a with
  | homeKit io request value =>
    cases hp : s.pending with
    | none =>
      simp only [raceStep, hp] at h
      obtain ⟨p, hdec, heq⟩ := map_ok h
      cases heq
      obtain ⟨rfl, -, hiff⟩ := decideWrite_ok hi.wellFormed (orFault_ok hdec)
      refine ⟨⟨hi.wellFormed, ?_⟩, fun hne => absurd rfl hne⟩
      rintro q ⟨hq, hv, -⟩
      cases hq
      exact hiff.mp hv
    | some p =>
      simp only [raceStep, hp] at h
      obtain ⟨r, happ, heq⟩ := map_ok h
      cases heq
      obtain ⟨hacl, hchange⟩ := applyWrite_ok (orFault_ok happ)
      refine ⟨⟨?_, ?_⟩, fun hne => ⟨p, hp, hchange hne⟩⟩
      · simpa only [Device.WellFormed, hacl] using hi.wellFormed
      · rintro q ⟨hq, -⟩
        cases hq
  | append ad right want =>
    obtain ⟨d, hrec, heq⟩ := map_ok h
    cases heq
    have hd := (recordStep_ok hrec).2
    refine ⟨⟨recordStep_wellFormed hi.wellFormed hrec, ?_⟩, fun hne => absurd (by rw [hd]) hne⟩
    intro p hp
    obtain ⟨m, hm, hmem⟩ := hi.pending p (wouldChange_of_device hd hp)
    exact ⟨m, hm, (mem_append hi.wellFormed hrec).mpr (Or.inl hmem)⟩
  | delete ad right =>
    obtain ⟨d, hrec, heq⟩ := map_ok h
    cases heq
    have hd := (recordStep_ok hrec).2
    refine ⟨⟨recordStep_wellFormed hi.wellFormed hrec, ?_⟩, fun hne => absurd (by rw [hd]) hne⟩
    intro p hp
    have hp' := wouldChange_of_device hd hp
    obtain ⟨m, hm, hmem⟩ := hi.pending p hp'
    exact ⟨m, hm, (mem_delete hi.wellFormed hrec).2 hmem fun hc hr => hg p m hp' hm hc hr⟩

/-- In a run that meets the condition every step changes the bulb as the claim says. -/
theorem guarded_changesAuthorised {as : List RaceAct} :
    ∀ {s : WriteRace}, Inv s → Guarded raceStep KeepsPending s as → Guarded raceStep ChangesAuthorised s as := by
  induction as with
  | nil => intro s _ _; trivial
  | cons a as ih =>
    intro s hi hg
    refine ⟨fun s' o h hne => ?_, fun s' o h => ih (step_inv s a hi hg.1 s' o h).1 (hg.2 s' o h)⟩
    obtain ⟨p, hp⟩ := (step_inv s a hi hg.1 s' o h).2 hne
    exact ⟨p, hp.1, hi.pending p hp⟩

/-- A credential that is off the list stays off it until it is appended. -/
theorem keepsOff_step {c : TypeAuthorizationData} {s s' : WriteRace} {a : RaceAct} {o : Unit} (hd : s.device.WellFormed)
    (hoff : c ∉ s.device.acl.store writeRight) (ha : KeepsOff c a) (h : raceStep s a = .ok (s', o)) :
    c ∉ s'.device.acl.store writeRight := by
  cases a with
  | homeKit io request value =>
    cases hp : s.pending with
    | none =>
      simp only [raceStep, hp] at h
      obtain ⟨p, -, heq⟩ := map_ok h
      cases heq
      exact hoff
    | some p =>
      simp only [raceStep, hp] at h
      obtain ⟨r, happ, heq⟩ := map_ok h
      cases heq
      simpa only [(applyWrite_ok (orFault_ok happ)).1] using hoff
  | append ad right want =>
    obtain ⟨d, hrec, heq⟩ := map_ok h
    cases heq
    rw [mem_append hd hrec, not_or]
    exact ⟨hoff, ha⟩
  | delete ad right =>
    obtain ⟨d, hrec, heq⟩ := map_ok h
    cases heq
    exact fun hmem => hoff ((mem_delete hd hrec).1 hmem)

/-- While a credential is off the list, the bulb is not changed for it. -/
theorem guarded_changesNotFor {c : TypeAuthorizationData} {as : List RaceAct} :
    ∀ {s : WriteRace}, Inv s → Guarded raceStep KeepsPending s as → c ∉ s.device.acl.store writeRight →
      (∀ a ∈ as, KeepsOff c a) → Guarded raceStep (ChangesNotFor c) s as := by
  induction as with
  | nil => intro s _ _ _ _; trivial
  | cons a as ih =>
    intro s hi hg hoff hkeep
    refine ⟨fun s' o h hne p m hp hm => ?_, fun s' o h => ?_⟩
    · obtain ⟨q, hq⟩ := (step_inv s a hi hg.1 s' o h).2 hne
      obtain ⟨m', hm', hmem⟩ := hi.pending q hq
      cases hp.symm.trans hq.1
      cases hm.symm.trans hm'
      rintro rfl
      exact hoff hmem
    · exact ih (step_inv s a hi hg.1 s' o h).1 (hg.2 s' o h)
        (keepsOff_step hi.wellFormed hoff (hkeep a List.mem_cons_self) h) fun b hb => hkeep b (List.mem_cons_of_mem a hb)

end WriteAfterRevocationAux

open WriteAfterRevocationAux

/-- For every interleaving of any writes with any appends and deletes, from any device whose lists are well formed: while no delete
takes the last record of the credential of a pending write that would change the bulb, there is no write after a revocation. -/
theorem no_write_after_revocation (s : WriteRace) (hd : s.device.WellFormed) (hp : s.pending = none) (as : List RaceAct)
    (h : Guarded raceStep KeepsPending s as) : NoWriteAfterRevocation s as := by
  have hi : Inv s := by
    refine ⟨hd, ?_⟩
    rintro p ⟨hsome, -⟩
    rw [hp] at hsome
    cases hsome
  refine ⟨guarded_changesAuthorised hi h, ?_⟩
  rintro c pre post s₁ os rfl hrun hoff hkeep
  have hi₁ : Inv s₁ := run_invariant_of_guarded (fun s a s' o hi hg hm => (step_inv s a hi hg s' o hm).1) hi h.left hrun
  exact guarded_changesNotFor hi₁ (h.right hrun) hoff hkeep

/-- A write of On = true with the credential of 32 NULs. -/
def zerosWrite : RaceAct := .homeKit true ⟨1, 2, 3, ⟨some (fun _ => 0), 32⟩⟩ true

/-- The credential is granted once more, and a delete between the two steps of the write takes one of its records: the other one is there
when the write changes the bulb. -/
theorem no_write_after_revocation_twice :
    (∃ s os, run raceStep ⟨grantedDevice, none⟩ [.append (.uniform 0) 1 (some 9), zerosWrite, .delete (.uniform 0) 1, zerosWrite] =
      .ok (s, os) ∧ s.device.acl.store writeRight = [.uniform 0] ∧ s.device.gLightBulbState = true) ∧
    NoWriteAfterRevocation ⟨grantedDevice, none⟩ [.append (.uniform 0) 1 (some 9), zerosWrite, .delete (.uniform 0) 1, zerosWrite] := by
  refine ⟨⟨_, _, rfl, by decide, by decide⟩, no_write_after_revocation _ grantedDevice_wellFormed rfl _ ⟨trivial, ?_⟩⟩
  rintro s₁ o₁ h₁
  refine ⟨trivial, fun s₂ o₂ h₂ => ⟨fun p m _ _ _ _ => ?_, fun _ _ _ => ⟨trivial, fun _ _ _ => trivial⟩⟩⟩
  cases h₁
  cases h₂
  decide

/-- The delete between the two steps: the write changes the bulb with no record on the list. -/
theorem no_write_after_revocation_not :
    (∃ s s' os os', run raceStep ⟨grantedDevice, none⟩ [zerosWrite, .delete (.uniform 0) 1] = .ok (s, os) ∧
      s.device.acl.store writeRight = [] ∧ run raceStep s [zerosWrite] = .ok (s', os') ∧
      s.device.gLightBulbState = false ∧ s'.device.gLightBulbState = true) ∧
    ¬ NoWriteAfterRevocation ⟨grantedDevice, none⟩ [zerosWrite, .delete (.uniform 0) 1, zerosWrite] := by
  have hrun : ∃ s os, run raceStep ⟨grantedDevice, none⟩ [zerosWrite, .delete (.uniform 0) 1] = .ok (s, os) := ⟨_, _, rfl⟩
  refine ⟨⟨_, _, _, _, rfl, by decide, rfl, rfl, rfl⟩, fun h => ?_⟩
  obtain ⟨s, os, hs⟩ := hrun
  have hlast := (guarded_iff_split.mp h.authorised) [zerosWrite, .delete (.uniform 0) 1] zerosWrite [] s os rfl hs
  cases hs
  obtain ⟨p, hp, m, hm, hmem⟩ := hlast _ _ rfl (by decide)
  cases hp
  cases hm
  exact absurd hmem (by decide)

end CGuard
