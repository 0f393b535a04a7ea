import CGuard.Lemmas.AclThreads

/-!
# No walk reaches a freed record

While the thread of the manufacturer's channel does not free the record at which the walk of the HomeKit thread is, the walk only reads
records that are allocated, and its verdict is the answer for a store that the lists have held during the call. There is no lock that
keeps a record from being freed under the walk.
-/

namespace CGuard

open LinkedHeap Machine

/-- The two threads, and the stores that the lists have held since the call of `CC_CheckAuthData` in progress started. -/
structure Observed where
  threads : AclThreads
  since : List AclStore

/-- The stores since the start of the call that the next step of the HomeKit thread belongs to. -/
def Observed.soFar (o : Observed) : List AclStore :=
  match o.threads.check with
  | .idle => []
  | _ => o.since

/-- One step of one of the threads, and the store that it leaves. -/
def observe : Step Observed ThreadAct (Option Returned) Fault
  | o, a => (threadStep o.threads a).map fun r => (⟨r.1, r.1.acl.store :: o.soFar⟩, r.2)

/-- Both threads are between two calls. -/
def Observed.start (s : Acl) : Observed := ⟨⟨s, .idle, .idle⟩, [s.store]⟩

/-- No walk reaches a freed record: in every state that the run reaches the cursor of the check is null or an allocated record, and every
verdict is the answer for one of the stores between the start and the end of its call. -/
structure WalkSafe (o : Observed) (as : List ThreadAct) : Prop where
  live : ∀ pre post o' os, as = pre ++ post → run observe o pre = .ok (o', os) →
    ∀ p, o'.threads.check.cursor = some p → p ∈ o'.threads.acl.heap
  verdicts : ∀ pre a post o₁ os o₂ ad right v, as = pre ++ a :: post → run observe o pre = .ok (o₁, os) →
    observe o₁ a = .ok (o₂, some (.check ad right v)) → ∃ σ ∈ o₂.since, v = AclStore.check ad right σ

/-- The step does not free the record that the check is at. -/
def FreesElsewhere (o : Observed) : ThreadAct → Prop
  | .homeKit _ _ => True
  | .aws _ _ _ => ∀ p, o.threads.aws = .free p → o.threads.check.cursor ≠ some p

instance (o : Observed) : (a : ThreadAct) → Decidable (FreesElsewhere o a)
  | .homeKit _ _ => isTrue trivial
  | .aws _ _ _ => decidable_of_iff (∀ p ∈ o.threads.aws.unlinked, o.threads.check.cursor ≠ some p)
    (forall_congr' fun _ => imp_congr ChangePc.unlinked_eq Iff.rfl)

namespace FreedRecordAux

/-- The credential of the call is ahead of the walk, or has been off the list at some time since. -/
def Open (since : List AclStore) (c : CheckedArgs) (ys : List (Addr × TypeAuthorizationData)) : Prop :=
  c.ad ∈ payloads ys ∨ ∃ σ ∈ since, c.ad ∉ σ c.index

/-- Each credential that is ahead of the walk has been on the list at some time since. -/
def Seen (since : List AclStore) (c : CheckedArgs) (ys : List (Addr × TypeAuthorizationData)) : Prop :=
  ∀ ad ∈ payloads ys, ∃ σ ∈ since, ad ∈ σ c.index

/-- Where the walk is. -/
def Walks (s : AclThreads) (ls : Lists) (since : List AclStore) : Prop :=
  match s.check with
  | .idle | .head _ => True
  | .compare c p => ∃ ys, Reads ACLListNode.mk s.acl.heap s.aws.unlinked (ls c.index) p ys ∧ Seen since c ys ∧ Open since c ys
  | .advance c p => ∃ b ys, Reads ACLListNode.mk s.acl.heap s.aws.unlinked (ls c.index) (some p) ((p, b) :: ys) ∧
      Seen since c ((p, b) :: ys) ∧ Open since c ys

/-- The invariant. -/
structure Inv (o : Observed) (ls : Lists) : Prop where
  inOrder : InOrder o.threads.acl o.threads.aws ls
  now : ls.store ∈ o.since
  walks : Walks o.threads ls o.since

/-- The cursor is at an allocated record. -/
theorem Inv.live {o : Observed} {ls : Lists} (hi : Inv o ls) {p : Addr} (hp : o.threads.check.cursor = some p) :
    p ∈ o.threads.acl.heap := by
  have hw := hi.walks
  unfold Walks at hw
  cases hc : o.threads.check with
  | idle | head c => rw [hc] at hp; cases hp
  | compare c q =>
    rw [hc] at hp hw
    cases hp
    obtain ⟨ys, hr, -⟩ := hw
    obtain ⟨b, q, zs, -, hl, -⟩ := hr.chain.some_cases
    exact Finmap.mem_of_lookup_eq_some hl
  | advance c q =>
    rw [hc] at hp hw
    cases hp
    obtain ⟨b, ys, hr, -⟩ := hw
    obtain ⟨b, q, zs, -, hl, -⟩ := hr.chain.some_cases
    exact Finmap.mem_of_lookup_eq_some hl

theorem Seen.mono {since : List AclStore} {c : CheckedArgs} {ys ys' : List (Addr × TypeAuthorizationData)} {σ : AclStore}
    (h : Seen since c ys) (hsub : ∀ ad ∈ payloads ys', ad ∈ payloads ys) : Seen (σ :: since) c ys' := by
  intro ad had
  obtain ⟨τ, hτ, hmem⟩ := h ad (hsub ad had)
  exact ⟨τ, List.mem_cons_of_mem σ hτ, hmem⟩

theorem Open.mono {since : List AclStore} {c : CheckedArgs} {ys ys' : List (Addr × TypeAuthorizationData)} {σ : AclStore}
    (h : Open since c ys) (hsub : c.ad ∈ payloads ys → c.ad ∈ payloads ys' ∨ c.ad ∉ σ c.index) : Open (σ :: since) c ys' := by
  rcases h with h | ⟨τ, hτ, hmem⟩
  · rcases hsub h with h | h
    · exact Or.inl h
    · exact Or.inr ⟨σ, List.mem_cons_self, h⟩
  · exact Or.inr ⟨τ, List.mem_cons_of_mem σ hτ, hmem⟩

/-- A verdict is right for one of the stores. -/
def RightFor (since : List AclStore) : Option Returned → Prop
  | some (.check ad right v) => ∃ σ ∈ since, v = AclStore.check ad right σ
  | _ => True

theorem check_eq (c : CheckedArgs) (σ : AclStore) : AclStore.check (some c.ad) c.right σ = if c.ad ∈ σ c.index then 0 else 1 := by
  simp only [AclStore.check, c.rightIndex_eq]

/-- A step of the HomeKit thread. -/
theorem check_inv {o o' : Observed} {ls : Lists} {ad : Option TypeAuthorizationData} {right : TypeRight} {out : Option Returned}
    (hi : Inv o ls) (h : observe o (.homeKit ad right) = .ok (o', out)) : Inv o' ls ∧ RightFor o'.since out := by
  obtain ⟨⟨s, out'⟩, hthread, heq⟩ := map_ok h
  obtain ⟨⟨pc, out''⟩, hm, heq'⟩ := map_ok hthread
  cases heq'
  cases heq
  clear h hthread
  have hstore : o.threads.acl.store = ls.store := hi.inOrder.store_eq
  have hnow : ls.store ∈ o.threads.acl.store :: o.soFar := by rw [hstore]; exact List.mem_cons_self
  have hinv : ∀ pc', Walks { o.threads with check := pc' } ls (o.threads.acl.store :: o.soFar) →
      Inv ⟨{ o.threads with check := pc' }, o.threads.acl.store :: o.soFar⟩ ls := fun _ hw => ⟨hi.inOrder, hnow, hw⟩
  have hw := hi.walks
  unfold Walks at hw
  cases hpc : o.threads.check with
  | idle =>
    simp only [checkStep, hpc] at hm
    split at hm
    · cases hm
      exact ⟨hinv _ trivial, trivial⟩
    · rename_i hargs
      cases hm
      refine ⟨hinv _ trivial, ls.store, hnow, ?_⟩
      cases ad with
      | none => rfl
      | some ad =>
        cases hr : rightIndex right with
        | none => simp only [AclStore.check, hr]
        | some r =>
          obtain ⟨c, hc, -⟩ := checkArgs_some ad hr
          exact absurd (hargs.symm.trans hc) (by simp)
  | head c =>
    simp only [checkStep, hpc] at hm
    cases hm
    refine ⟨hinv _ ⟨ls c.index, Reads.start (hi.inOrder.chain c.index), fun a ha => ⟨ls.store, hnow, ha⟩, ?_⟩, trivial⟩
    by_cases hmem : c.ad ∈ payloads (ls c.index)
    · exact Or.inl hmem
    · exact Or.inr ⟨ls.store, hnow, hmem⟩
  | compare c p =>
    rw [hpc] at hw
    obtain ⟨ys, hr, hseen, hopen⟩ := hw
    have hso : o.soFar = o.since := by simp only [Observed.soFar, hpc]
    cases p with
    | none =>
      simp only [checkStep, hpc] at hm
      cases hm
      refine ⟨hinv _ trivial, ?_⟩
      rw [hr.none_eq] at hopen
      rcases hopen with hmem | ⟨σ, hσ, hnot⟩
      · exact absurd hmem List.not_mem_nil
      · exact ⟨σ, List.mem_cons_of_mem _ (hso ▸ hσ), by rw [check_eq, if_neg hnot]⟩
    | some p =>
      simp only [checkStep, hpc] at hm
      obtain ⟨n, hn, heq⟩ := load_bind_ok hm
      obtain ⟨b, q, zs, rfl, hl', -⟩ := hr.chain.some_cases
      cases hn.symm.trans hl'
      simp only at heq
      split_ifs at heq with had
      · cases heq
        obtain ⟨σ, hσ, hmem⟩ := hseen b List.mem_cons_self
        exact ⟨hinv _ trivial, σ, List.mem_cons_of_mem _ (hso ▸ hσ), by rw [check_eq, if_pos (had ▸ hmem)]⟩
      · cases heq
        refine ⟨hinv _ ⟨b, zs, hr, ?_, ?_⟩, trivial⟩
        · rw [hso]
          exact hseen.mono fun _ ha => ha
        · rw [hso]
          refine Open.mono hopen fun hmem => Or.inl ?_
          rcases List.mem_cons.mp hmem with hmem | hmem
          · exact absurd hmem.symm had
          · exact hmem
  | advance c p =>
    rw [hpc] at hw
    obtain ⟨b, ys, hr, hseen, hopen⟩ := hw
    have hso : o.soFar = o.since := by simp only [Observed.soFar, hpc]
    simp only [checkStep, hpc] at hm
    obtain ⟨n, hn, heq⟩ := load_bind_ok hm
    cases heq
    obtain ⟨b', q, zs, hys, hl', -⟩ := hr.chain.some_cases
    cases hys
    cases hn.symm.trans hl'
    refine ⟨hinv _ ⟨ys, hr.next aclListNode_injective hn, ?_, ?_⟩, trivial⟩
    · rw [hso]
      exact hseen.mono fun _ ha => List.mem_cons_of_mem _ ha
    · rw [hso]
      exact Open.mono hopen Or.inl

/-- A step of the thread of the manufacturer's channel. -/
theorem change_inv {o o' : Observed} {ls : Lists} {call : AwsCall} {want : Option Addr} {block : ACLListNode}
    {out : Option Returned} (hi : Inv o ls) (hg : FreesElsewhere o (.aws call want block))
    (h : observe o (.aws call want block) = .ok (o', out)) : (∃ ls', Inv o' ls') ∧ RightFor o'.since out := by
  obtain ⟨⟨s, out'⟩, hthread, heq⟩ := map_ok h
  obtain ⟨⟨acl, pc, ret⟩, hm, heq'⟩ := map_ok hthread
  cases heq'
  cases heq
  obtain ⟨ls', hls'⟩ := changeStep_leaves hi.inOrder hm
  have hstore : acl.store = ls'.store := hls'.inOrder.store_eq
  refine ⟨⟨ls', hls'.inOrder, by rw [hstore]; exact List.mem_cons_self, ?_⟩, by cases ret <;> trivial⟩
  have hw := hi.walks
  unfold Walks at hw ⊢
  cases hpc : o.threads.check with
  | idle | head c => trivial
  | compare c p =>
    have hso : o.soFar = o.since := by simp only [Observed.soFar, hpc]
    rw [hpc] at hw
    obtain ⟨ys, hr, hseen, hopen⟩ := hw
    obtain ⟨ys', hr', hkeep⟩ := hls'.reads c.index p ys hr fun a ha hp => hg a ha (by rw [hpc]; exact hp)
    simp only [hso, hstore]
    exact ⟨ys', hr', hseen.mono hkeep.old, Open.mono hopen hkeep.mem⟩
  | advance c p =>
    have hso : o.soFar = o.since := by simp only [Observed.soFar, hpc]
    rw [hpc] at hw
    obtain ⟨b, ys, hr, hseen, hopen⟩ := hw
    obtain ⟨ys', hr', hkeep⟩ := hls'.reads c.index (some p) _ hr fun a ha hp => hg a ha (by rw [hpc]; exact hp)
    obtain ⟨b', q, zs, rfl, -⟩ := hr'.chain.some_cases
    cases hkeep.head
    simp only [hso, hstore]
    exact ⟨b, zs, hr', hseen.mono hkeep.old, Open.mono hopen (hkeep.tail c.ad)⟩

/-- Every step under the condition keeps the invariant, and its verdict is right. -/
theorem step_inv {o o' : Observed} {a : ThreadAct} {out : Option Returned} (hi : ∃ ls, Inv o ls) (hg : FreesElsewhere o a)
    (h : observe o a = .ok (o', out)) : (∃ ls, Inv o' ls) ∧ RightFor o'.since out := by
  obtain ⟨ls, hi⟩ := hi
  cases a with
  | homeKit ad right => exact ⟨⟨ls, (check_inv hi h).1⟩, (check_inv hi h).2⟩
  | aws call want block => exact change_inv hi hg h

/-- Between two calls, on lists that represent a store. -/
theorem inv_start {s : Acl} {σ : AclStore} (h : Represents s σ) : ∃ ls, Inv (.start s) ls := by
  obtain ⟨ls, hf, -⟩ := h
  have hin : InOrder s .idle ls := ⟨hf, trivial⟩
  exact ⟨ls, hin, List.mem_singleton.mpr hin.store_eq.symm, trivial⟩

/-- A run that frees the record that the check is at leaves the cursor at a freed record. -/
theorem freesElsewhere_of_walkSafe {o : Observed} {as : List ThreadAct} (h : WalkSafe o as) : Guarded observe FreesElsewhere o as := by
  refine guarded_iff_split.mpr fun pre a post o₁ os has hrun => ?_
  cases a with
  | homeKit ad right => trivial
  | aws call want block =>
    intro p hfree hcursor
    have hstep : ∃ o₂ out, observe o₁ (.aws call want block) = .ok (o₂, out) ∧ o₂.threads.check = o₁.threads.check ∧
        o₂.threads.acl.heap = o₁.threads.acl.heap.erase p := by
      simp only [observe, threadStep, hfree, changeStep, Except.map]
      exact ⟨_, _, rfl, rfl, rfl⟩
    obtain ⟨o₂, out, hm, hcheck, hheap⟩ := hstep
    have hlive := h.live (pre ++ [.aws call want block]) post o₂ _ (by simpa using has) (run_append hrun (run_cons hm rfl)) p
      (by rw [hcheck]; exact hcursor)
    rw [hheap] at hlive
    exact (Finmap.mem_erase.mp hlive).1 rfl

end FreedRecordAux

open FreedRecordAux

/-- For every interleaving of any calls of the two threads, from any lists that represent a store: no walk reaches a freed record, and
every verdict is right, exactly when no step frees the record that the check is at. -/
theorem walk_safe_iff (s : Acl) {σ : AclStore} (hs : Represents s σ) (as : List ThreadAct) :
    WalkSafe (.start s) as ↔ Guarded observe FreesElsewhere (.start s) as := by
  refine ⟨freesElsewhere_of_walkSafe, fun h => ?_⟩
  have hrun : ∀ {pre post : List ThreadAct} {o : Observed} {os : List (Option Returned)}, as = pre ++ post →
      run observe (.start s) pre = .ok (o, os) → ∃ ls, Inv o ls := by
    rintro pre post o os rfl hpre
    exact run_invariant_of_guarded (fun o a o' out hi hg hm => (step_inv hi hg hm).1) (inv_start hs) h.left hpre
  refine ⟨?_, ?_⟩
  · intro pre post o os has hpre p hp
    obtain ⟨ls, hi⟩ := hrun has hpre
    exact hi.live hp
  · rintro pre a post o₁ os o₂ ad right v rfl hpre hm
    exact (step_inv (hrun rfl hpre) (h.right hpre).1 hm).2

/-- The lists with one record. -/
def oneRecord : Acl := (ccAppendACL (some 1) (some (.uniform 0)) rightLightBulbOnCharacteristicWRITE Acl.start).2

/-- A step of the check of a write with the credential of the record. -/
def checkAct : ThreadAct := .homeKit (some (.uniform 0)) rightLightBulbOnCharacteristicWRITE

/-- A step of the delete of the record. -/
def deleteAct : ThreadAct := .aws (.delete (some (.uniform 0)) rightLightBulbOnCharacteristicWRITE) none ⟨.uniform 0, none⟩

/-- The check is at the record when it leaves its list, and has read it when it is freed: the verdict is that of the list before. -/
theorem walk_safe_in_time :
    WalkSafe (.start oneRecord)
      [checkAct, checkAct, deleteAct, deleteAct, deleteAct, deleteAct, deleteAct, checkAct, deleteAct] :=
  (walk_safe_iff oneRecord (represents_start.append (some 1) _ _).2 _).mpr (by decide)

/-- The check is at the record when it is freed. The next step of the check reads it. -/
theorem walk_safe_not :
    (∃ o os, run observe (.start oneRecord)
        [checkAct, checkAct, deleteAct, deleteAct, deleteAct, deleteAct, deleteAct, deleteAct] = .ok (o, os) ∧
      o.threads.check.cursor = some 1 ∧ 1 ∉ o.threads.acl.heap ∧ observe o checkAct = .error .useAfterFree) ∧
    ¬ WalkSafe (.start oneRecord)
        [checkAct, checkAct, deleteAct, deleteAct, deleteAct, deleteAct, deleteAct, deleteAct] := by
  have hrun : ∃ o os, run observe (.start oneRecord)
        [checkAct, checkAct, deleteAct, deleteAct, deleteAct, deleteAct, deleteAct, deleteAct] = .ok (o, os) ∧
      o.threads.check.cursor = some 1 ∧ 1 ∉ o.threads.acl.heap ∧ observe o checkAct = .error .useAfterFree :=
    ⟨_, _, rfl, rfl, by decide, rfl⟩
  refine ⟨hrun, fun h => ?_⟩
  obtain ⟨o, os, hok, hcursor, hfreed, -⟩ := hrun
  exact hfreed (h.live _ [] o os (List.append_nil _).symm hok 1 hcursor)

end CGuard
