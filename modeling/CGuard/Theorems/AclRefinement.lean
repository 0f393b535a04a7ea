import CGuard.AclStore

/-!
# The lists of `gACL` refine the abstract store

One call on a represented heap returns what the store returns and leaves a represented heap; over a history the live nodes are
the records of the store, and each record is an append that nothing has taken back.
-/

namespace CGuard

open LinkedHeap Machine

/-- The call, which returned `ret`, granted the right to the credential. -/
def AclCall.grants {μ : Type} (ad : TypeAuthorizationData) (r : Fin rightNum) (ret : Int) : AclCall μ → Bool
  | .append (some ad') right _ => ad' = ad ∧ rightIndex right = some r ∧ ret = 0
  | _ => false

/-- The call, which returned `ret`, took the right back from the credential once. -/
def AclCall.revokes {μ : Type} (ad : TypeAuthorizationData) (r : Fin rightNum) (ret : Int) : AclCall μ → Bool
  | .delete (some ad') right => ad' = ad ∧ rightIndex right = some r ∧ ret = 0
  | _ => false

/-- How many of the calls granted the right to the credential. -/
def grantCount {μ : Type} (ad : TypeAuthorizationData) (r : Fin rightNum) (cs : List (AclCall μ)) (rets : List Int) : Nat :=
  (cs.zip rets).countP fun x => x.1.grants ad r x.2

/-- How many of the calls took the right back from the credential. -/
def revokeCount {μ : Type} (ad : TypeAuthorizationData) (r : Fin rightNum) (cs : List (AclCall μ)) (rets : List Int) : Nat :=
  (cs.zip rets).countP fun x => x.1.revokes ad r x.2

namespace AclRefinementAux

theorem grants_abs (s : Acl) (c : AclCall (Option Addr)) (ad : TypeAuthorizationData) (r : Fin rightNum) (ret : Int) :
    (c.abs s).grants ad r ret = c.grants ad r ret := by
  cases c with
  | append a _ _ => cases a <;> rfl
  | delete a _ => cases a <;> rfl
  | check a _ => rfl

theorem revokes_abs (s : Acl) (c : AclCall (Option Addr)) (ad : TypeAuthorizationData) (r : Fin rightNum) (ret : Int) :
    (c.abs s).revokes ad r ret = c.revokes ad r ret := by
  cases c with
  | append a _ _ => cases a <;> rfl
  | delete a _ => cases a <;> rfl
  | check a _ => rfl

/-- How often a right holds a credential after one list has changed. -/
theorem count_update (σ : AclStore) (r q : Fin rightNum) (xs : List TypeAuthorizationData) (ad : TypeAuthorizationData) :
    (Function.update σ r xs q).count ad = if r = q then xs.count ad else (σ q).count ad := by
  by_cases h : r = q
  · subst h
    rw [Function.update_self, if_pos rfl]
  · rw [Function.update_of_ne (Ne.symm h), if_neg h]

/-- One call moves the number of times a right holds a credential by the append or the delete that it is. -/
theorem step_count (σ : AclStore) (c : AclCall Bool) (ad : TypeAuthorizationData) (q : Fin rightNum) :
    ((AclStore.step σ c).1 q).count ad + (c.revokes ad q (AclStore.step σ c).2).toNat =
      (σ q).count ad + (c.grants ad q (AclStore.step σ c).2).toNat := by
  cases c with
  | check a right => rfl
  | append a right room =>
    rcases a with _ | a
    · rfl
    cases hr : rightIndex right with
    | none => simp [AclStore.step, AclStore.append, AclCall.revokes, AclCall.grants, hr]
    | some r =>
      cases room with
      | false => simp [AclStore.step, AclStore.append, AclCall.revokes, AclCall.grants, hr]
      | true =>
        simp only [AclStore.step, AclStore.append, AclCall.revokes, AclCall.grants, hr, if_true, count_update,
          List.count_cons]
        by_cases hq : r = q
        · subst hq
          by_cases ha : a = ad <;> simp [ha]
        · simp [hq]
  | delete a right =>
    rcases a with _ | a
    · rfl
    cases hr : rightIndex right with
    | none => simp [AclStore.step, AclStore.delete, AclCall.revokes, AclCall.grants, hr]
    | some r =>
      simp only [AclStore.step, AclStore.delete, AclCall.revokes, AclCall.grants, hr]
      by_cases hmem : a ∈ σ r
      · simp only [if_pos hmem, count_update]
        by_cases hq : r = q
        · subst hq
          by_cases ha : a = ad
          · subst ha
            have := List.count_pos_iff.mpr hmem
            simp only [if_true, List.count_erase_self, decide_true, and_self, Bool.toNat_true, Bool.toNat_false]
            omega
          · simp [ha, List.count_erase_of_ne (Ne.symm ha)]
        · simp [hq]
      · simp [if_neg hmem]

end AclRefinementAux

open AclRefinementAux

/-- One call on a represented heap, under the condition of the caller, is the call on the store. -/
theorem aclStep_refines (s : Acl) (σ : AclStore) (c : AclCall (Option Addr)) (h : Represents s σ) (hc : DeleteInhabited s c) :
    ∃ s', aclStep s c = .ok (s', (AclStore.step σ (c.abs s)).2) ∧ Represents s' (AclStore.step σ (c.abs s)).1 := by
  cases c with
  | append ad right want =>
    obtain ⟨hret, hrep⟩ := h.append want ad right
    exact ⟨_, by simp only [aclStep, hret]; rfl, hrep⟩
  | delete ad right =>
    obtain ⟨s', hd, hrep⟩ := h.delete hc
    exact ⟨s', by simp only [aclStep, hd]; rfl, hrep⟩
  | check ad right => exact ⟨s, by simp only [aclStep, h.check]; rfl, h⟩

/-- A call that returns on a represented heap met the condition of the caller: a delete from an empty list faults. -/
theorem deleteInhabited_of_ok {s s' : Acl} {c : AclCall (Option Addr)} {ret : Int} (h : aclStep s c = .ok (s', ret)) :
    DeleteInhabited s c := by
  unfold DeleteInhabited
  split
  · intro r hr hn
    simp only [aclStep, ccDeleteACL_empty hr hn, Except.map] at h
    simp at h
  · trivial

/-- A call that returns leaves a represented heap. -/
theorem represents_step {s s' : Acl} {c : AclCall (Option Addr)} {ret : Int} {σ : AclStore} (hs : Represents s σ)
    (h : aclStep s c = .ok (s', ret)) :
    ret = (AclStore.step σ (c.abs s)).2 ∧ Represents s' (AclStore.step σ (c.abs s)).1 := by
  obtain ⟨t, ht, hrep⟩ := aclStep_refines s σ c hs (deleteInhabited_of_ok h)
  cases h.symm.trans ht
  exact ⟨rfl, hrep⟩

/-- Every state a run of calls reaches represents a store. -/
theorem represents_of_run {cs : List (AclCall (Option Addr))} {s s' : Acl} {rets : List Int} {σ : AclStore}
    (hs : Represents s σ) (h : run aclStep s cs = .ok (s', rets)) : Represents s' s'.store := by
  have hstep : ∀ t c t' ret, (∃ σ, Represents t σ) → aclStep t c = .ok (t', ret) → ∃ σ, Represents t' σ := by
    rintro t c t' ret ⟨σ, hσ⟩ hm
    exact ⟨_, (represents_step hσ hm).2⟩
  obtain ⟨σ', hσ'⟩ := run_invariant hstep ⟨σ, hs⟩ h
  rwa [hσ'.store_eq]

/-- A state that calls reach from `InitSecurityEnforcement`, each of which has returned. -/
def Acl.Reachable (s : Acl) : Prop := ∃ cs rets, run aclStep (initSecurityEnforcement Acl.start) cs = .ok (s, rets)

theorem Acl.Reachable.represents {s : Acl} (h : s.Reachable) : Represents s s.store := by
  obtain ⟨cs, rets, hrun⟩ := h
  exact represents_of_run represents_start hrun

/-- Over a history, a right holds a credential once for each append that nothing has taken back. -/
theorem run_count (cs : List (AclCall (Option Addr))) :
    ∀ (s : Acl) (σ : AclStore), Represents s σ → Guarded aclStep DeleteInhabited s cs → ∀ ad r,
      ((runTotal AclStore.step σ (absActions aclStep (fun s c => c.abs s) s cs)).1 r).count ad +
          revokeCount ad r cs (runTotal AclStore.step σ (absActions aclStep (fun s c => c.abs s) s cs)).2 =
        (σ r).count ad +
          grantCount ad r cs (runTotal AclStore.step σ (absActions aclStep (fun s c => c.abs s) s cs)).2 := by
  induction cs with
  | nil => intro s σ _ _ ad r; rfl
  | cons c cs ih =>
    intro s σ h hg ad r
    obtain ⟨s', hm, hrep⟩ := aclStep_refines s σ c h hg.1
    have hstep := step_count σ (c.abs s) ad r
    have hrest := ih s' _ hrep (hg.2 s' _ hm) ad r
    rw [revokes_abs, grants_abs] at hstep
    simp only [absActions, runTotal, hm, revokeCount, grantCount, List.zip_cons_cons, List.countP_cons] at hrest ⊢
    simp only [Bool.toNat] at hstep
    split_ifs at hstep ⊢ <;> simp_all <;> omega

/-- From `InitSecurityEnforcement`, every history of appends, deletes and checks whose deletes meet the condition of the caller
returns what the store returns, call for call, and ends in a heap that represents the store: its live nodes are the records of
the store, and a right holds a credential once for each append that no delete has taken back. -/
theorem acl_refines_store (cs : List (AclCall (Option Addr)))
    (hcs : Guarded aclStep DeleteInhabited (initSecurityEnforcement Acl.start) cs) :
    let ops := absActions aclStep (fun s c => c.abs s) (initSecurityEnforcement Acl.start) cs
    let out := runTotal AclStore.step AclStore.empty ops
    ∃ s, run aclStep (initSecurityEnforcement Acl.start) cs = .ok (s, out.2) ∧
      Represents s out.1 ∧
      s.heap.keys.card = ∑ r, (out.1 r).length ∧
      ∀ ad r, (out.1 r).count ad + revokeCount ad r cs out.2 = grantCount ad r cs out.2 := by
  intro ops out
  obtain ⟨s, hrun, hrep⟩ := run_refines (fun s c => AclCall.abs s c) aclStep_refines cs _ _ represents_start hcs
  refine ⟨s, hrun, hrep, hrep.card, fun ad r => ?_⟩
  have := run_count cs _ _ represents_start hcs ad r
  simpa only [AclStore.empty, List.count_nil, Nat.zero_add] using this

/-- Two appends to one list, one of which finds no memory, an append to the other list and a delete that meets the condition:
the store ends with one record. -/
theorem acl_refines_store_history :
    ∃ s, run aclStep (initSecurityEnforcement Acl.start)
        [.append (some (.uniform 1)) 0 (some 7), .append (some (.uniform 2)) 0 none,
          .append (some (.uniform 2)) 1 (some 4), .delete (some (.uniform 1)) 0, .check (some (.uniform 2)) 1] =
          .ok (s, [0, -1, 0, 0, 0]) ∧ s.heap.keys.card = 1 := by
  obtain ⟨s, hrun, -, hcard, -⟩ := acl_refines_store
    [.append (some (.uniform 1)) 0 (some 7), .append (some (.uniform 2)) 0 none,
      .append (some (.uniform 2)) 1 (some 4), .delete (some (.uniform 1)) 0, .check (some (.uniform 2)) 1] (by decide)
  exact ⟨s, hrun.trans rfl, hcard.trans (by decide)⟩

end CGuard
