import CGuard.Lemmas.RecordsRun

/-!
# Removing undoes adding

`add_ACL_records`, then any calls for other pairs, then `remove_ACL_records` of the same pairs: what is left are the lists that the
calls in between leave alone. The records that were added are, at every moment, the first ones of their credential.
-/

namespace CGuard

open LinkedHeap Machine

/-- A call, whatever the allocator answers it. -/
def AclCall.forget {μ : Type} : AclCall μ → AclCall Unit
  | .append ad right _ => .append ad right ()
  | .delete ad right => .delete ad right
  | .check ad right => .check ad right

/-- The call is for a credential and one of the rights of a list. -/
def AclCall.IsFor {μ : Type} (ad : TypeAuthorizationData) (rights : List TypeRight) : AclCall μ → Prop
  | .append ad' right _ | .delete ad' right | .check ad' right => ad' = some ad ∧ right ∈ rights

/-- The allocator has memory for an append. -/
def Allocates (s : Acl) : AclCall (Option Addr) → Prop
  | .append _ _ want => malloc s.heap want ≠ none
  | _ => True

instance (s : Acl) : (c : AclCall (Option Addr)) → Decidable (Allocates s c)
  | .append _ _ want => decidable_of_iff ((malloc s.heap want).isSome = true) Option.isSome_iff_ne_none
  | .delete _ _ => isTrue trivial
  | .check _ _ => isTrue trivial

/-- Adding the pairs, then the calls `calls`, then removing the pairs: every step succeeds, and the lists are those of `b`. -/
def AddRemoveLeaves (env : HandlerEnv) (ad : TypeAuthorizationData) (rights : List TypeRight)
    (calls : List (AclCall (Option Addr))) (a b : Acl) : Prop :=
  (addAclRecords env ad rights a).2.2 = .returned ∧
  ∃ a', Succeeds (addAclRecords env ad rights a).1 calls a' ∧
    (removeAclRecords ad rights a').2.2 = .returned ∧ (removeAclRecords ad rights a').1.store = b.store

namespace AddRemoveAux

/-- How many entries of a rights list are the right `r`. -/
def countRight (rights : List TypeRight) (r : Fin rightNum) : Nat := rights.countP fun right => rightIndex right = some r

/-- `σ'` is `σ` with `k r` records of the credential more for each right `r`, in front of those it had. -/
def Surplus (ad : TypeAuthorizationData) (k : Fin rightNum → Nat) (σ σ' : AclStore) : Prop :=
  ∀ r, (fun l => l.erase ad)^[k r] (σ' r) = σ r ∧ (σ' r).count ad = (σ r).count ad + k r

/-- Erasing a credential some times keeps the others. -/
theorem mem_iterate_erase {ad ad' : TypeAuthorizationData} (h : ad' ≠ ad) (k : Nat) (l : List TypeAuthorizationData) :
    ad' ∈ (fun l => l.erase ad)^[k] l ↔ ad' ∈ l := by
  induction k generalizing l with
  | zero => rfl
  | succ k ih => rw [Function.iterate_succ_apply, ih, List.mem_erase_of_ne h]

/-- A credential in front is not in the way of erasing another one. -/
theorem iterate_erase_cons {ad ad' : TypeAuthorizationData} (h : ad' ≠ ad) (k : Nat) (l : List TypeAuthorizationData) :
    (fun l => l.erase ad)^[k] (ad' :: l) = ad' :: (fun l => l.erase ad)^[k] l := by
  induction k generalizing l with
  | zero => rfl
  | succ k ih => rw [Function.iterate_succ_apply, Function.iterate_succ_apply, List.erase_cons_tail (by simpa using h), ih]

/-- Erasing one credential and erasing another can be done in either order. -/
theorem iterate_erase_comm (ad ad' : TypeAuthorizationData) (k : Nat) (l : List TypeAuthorizationData) :
    (fun l => l.erase ad)^[k] (l.erase ad') = ((fun l => l.erase ad)^[k] l).erase ad' := by
  induction k generalizing l with
  | zero => rfl
  | succ k ih => rw [Function.iterate_succ_apply, Function.iterate_succ_apply, List.erase_comm, ih]

/-- The lists themselves, with no record more. -/
theorem surplus_zero {ad : TypeAuthorizationData} {σ σ' : AclStore} : Surplus ad (fun _ => 0) σ σ' ↔ σ' = σ := by
  constructor
  · exact fun h => funext fun r => (h r).1
  · rintro rfl
    exact fun r => ⟨rfl, rfl⟩

/-- One append of the credential is one record more. -/
theorem Surplus.push {ad : TypeAuthorizationData} {k : Fin rightNum → Nat} {σ σ' : AclStore} (h : Surplus ad k σ σ')
    (r : Fin rightNum) : Surplus ad (Function.update k r (k r + 1)) σ (Function.update σ' r (ad :: σ' r)) := by
  intro q
  by_cases hq : q = r
  · subst hq
    simp only [Function.update_self, Function.iterate_succ_apply, List.erase_cons_head, List.count_cons_self]
    exact ⟨(h q).1, by rw [(h q).2, Nat.add_assoc]⟩
  · simpa only [Function.update_of_ne hq] using h q

/-- One delete of the credential is one record less, and finds one. -/
theorem Surplus.pop {ad : TypeAuthorizationData} {k : Fin rightNum → Nat} {σ σ' : AclStore} {r : Fin rightNum}
    (h : Surplus ad (Function.update k r (k r + 1)) σ σ') :
    ad ∈ σ' r ∧ Surplus ad k σ (Function.update σ' r ((σ' r).erase ad)) := by
  have hr := h r
  simp only [Function.update_self, Function.iterate_succ_apply] at hr
  refine ⟨List.count_pos_iff.mp (by omega), fun q => ?_⟩
  by_cases hq : q = r
  · subst hq
    simp only [Function.update_self, List.count_erase_self]
    exact ⟨hr.1, by omega⟩
  · simpa only [Function.update_of_ne hq] using h q

/-- Appending another pair to both lists. -/
theorem Surplus.append {ad ad' : TypeAuthorizationData} {k : Fin rightNum → Nat} {σ σ' : AclStore} {r : Fin rightNum}
    (h : Surplus ad k σ σ') (hne : ad' ≠ ad ∨ k r = 0) :
    Surplus ad k (Function.update σ r (ad' :: σ r)) (Function.update σ' r (ad' :: σ' r)) := by
  intro q
  by_cases hq : q = r
  · subst hq
    simp only [Function.update_self]
    rcases hne with hne | hk
    · rw [iterate_erase_cons hne, (h q).1, List.count_cons_of_ne hne, List.count_cons_of_ne hne]
      exact ⟨rfl, (h q).2⟩
    · have heq : σ' q = σ q := by simpa only [hk, Function.iterate_zero, id_eq] using (h q).1
      rw [hk, heq]
      exact ⟨rfl, rfl⟩
  · simpa only [Function.update_of_ne hq] using h q

/-- Deleting another pair from both lists: it is on both, or on neither. -/
theorem Surplus.delete {ad ad' : TypeAuthorizationData} {k : Fin rightNum → Nat} {σ σ' : AclStore} {r : Fin rightNum}
    (h : Surplus ad k σ σ') (hne : ad' ≠ ad ∨ k r = 0) :
    (ad' ∈ σ' r ↔ ad' ∈ σ r) ∧
    Surplus ad k (Function.update σ r ((σ r).erase ad')) (Function.update σ' r ((σ' r).erase ad')) := by
  rcases hne with hne | hk
  · refine ⟨by rw [← (h r).1, mem_iterate_erase hne], fun q => ?_⟩
    by_cases hq : q = r
    · subst hq
      simp only [Function.update_self]
      rw [iterate_erase_comm, (h q).1, List.count_erase_of_ne (Ne.symm hne), List.count_erase_of_ne (Ne.symm hne)]
      exact ⟨rfl, (h q).2⟩
    · simpa only [Function.update_of_ne hq] using h q
  · have heq : σ' r = σ r := by simpa only [hk, Function.iterate_zero, id_eq] using (h r).1
    refine ⟨by rw [heq], fun q => ?_⟩
    by_cases hq : q = r
    · subst hq
      simp only [Function.update_self, hk, heq]
      exact ⟨rfl, rfl⟩
    · simpa only [Function.update_of_ne hq] using h q

/-! ### The three parts -/

theorem countRight_cons {right : TypeRight} {r : Fin rightNum} (hr : rightIndex right = some r) (k : Fin rightNum → Nat)
    (rights : List TypeRight) :
    (fun q => k q + countRight (right :: rights) q) = fun q => Function.update k r (k r + 1) q + countRight rights q := by
  funext q
  simp only [countRight, List.countP_cons, hr, Option.some.injEq, decide_eq_true_eq]
  by_cases hq : q = r
  · subst hq
    rw [Function.update_self, if_pos rfl]
    omega
  · rw [Function.update_of_ne hq, if_neg (Ne.symm hq)]
    omega

/-- A right that is not on the list is not counted. -/
theorem countRight_eq_zero {right : TypeRight} {r : Fin rightNum} (hr : rightIndex right = some r) {rights : List TypeRight}
    (h : right ∉ rights) : countRight rights r = 0 := by
  refine List.countP_eq_zero.mpr fun right' hmem heq => h ?_
  rw [decide_eq_true_eq] at heq
  rwa [← rightIndex_inj hr heq]

/-- Adding the pairs: every call returns 0, and each pair is one record more. -/
theorem add_surplus {env : HandlerEnv} {ad : TypeAuthorizationData} {σ : AclStore} {rights : List TypeRight}
    (hrights : ∀ right ∈ rights, rightIndex right ≠ none) :
    ∀ {i : Nat} {k : Fin rightNum → Nat} {s : Acl}, Represents s s.store → Surplus ad k σ s.store →
      Guarded aclStep Allocates s ((addCalls env ad).calls i rights) →
      ∃ s', Succeeds s ((addCalls env ad).calls i rights) s' ∧ Surplus ad (fun r => k r + countRight rights r) σ s'.store := by
  induction rights with
  | nil => exact fun {i k s} _ hk _ => ⟨s, succeeds_nil s, hk⟩
  | cons right rights ih =>
    intro i k s hs hk hg
    obtain ⟨r, hr⟩ := Option.ne_none_iff_exists'.mp (hrights right List.mem_cons_self)
    obtain ⟨s₁, hm, hstore⟩ := @aclStep_append_grants s hs ad right (env.node i) r hr hg.1
    have hk₁ := hk.push r
    rw [← hstore] at hk₁
    obtain ⟨s', hrest, hk'⟩ := ih (fun right' h => hrights right' (List.mem_cons_of_mem _ h))
      (aclStep_store hs hm).2.2 hk₁ (hg.2 s₁ 0 hm)
    refine ⟨s', succeeds_cons.mpr ⟨s₁, hm, hrest⟩, ?_⟩
    rwa [countRight_cons hr]

/-- Removing the pairs: every call returns 0, and what is left has no record more. -/
theorem remove_surplus {ad : TypeAuthorizationData} {σ : AclStore} {rights : List TypeRight}
    (hrights : ∀ right ∈ rights, rightIndex right ≠ none) :
    ∀ {i : Nat} {k : Fin rightNum → Nat} {s : Acl}, Represents s s.store →
      Surplus ad (fun r => k r + countRight rights r) σ s.store →
      ∃ s', Succeeds s ((removeCalls ad).calls i rights) s' ∧ Surplus ad k σ s'.store := by
  induction rights with
  | nil => exact fun {i k s} _ hk => ⟨s, succeeds_nil s, hk⟩
  | cons right rights ih =>
    intro i k s hs hk
    obtain ⟨r, hr⟩ := Option.ne_none_iff_exists'.mp (hrights right List.mem_cons_self)
    have hupd : (fun q => k q + countRight (right :: rights) q) =
        Function.update (fun q => k q + countRight rights q) r (k r + countRight rights r + 1) := by
      rw [countRight_cons hr]
      funext q
      by_cases hq : q = r
      · subst hq
        simp only [Function.update_self]
        omega
      · simp only [Function.update_of_ne hq]
    rw [hupd] at hk
    obtain ⟨hmem, hk₁⟩ := Surplus.pop hk
    obtain ⟨s₁, hm, hstore⟩ := aclStep_delete_takes hs hr hmem
    rw [← hstore] at hk₁
    obtain ⟨s', hrest, hk'⟩ := ih (fun right' h => hrights right' (List.mem_cons_of_mem _ h)) (aclStep_store hs hm).2.2 hk₁
    exact ⟨s', succeeds_cons.mpr ⟨s₁, hm, hrest⟩, hk'⟩

/-- A call for another pair, on the lists without and with the records more: if it returns 0 on those, it does on these. -/
theorem step_surplus {ad : TypeAuthorizationData} {rights : List TypeRight} {s s' t : Acl} {c c' : AclCall (Option Addr)}
    (hs : Represents s s.store) (ht : Represents t t.store) (hsame : c'.forget = c.forget) (hother : ¬ c.IsFor ad rights)
    (hk : Surplus ad (countRight rights) s.store t.store) (hm : aclStep s c = .ok (s', 0)) (hroom : Allocates t c') :
    ∃ t', aclStep t c' = .ok (t', 0) ∧ Surplus ad (countRight rights) s'.store t'.store := by
  have hfree : ∀ {ad' : TypeAuthorizationData} {right : TypeRight} {r : Fin rightNum}, rightIndex right = some r →
      ¬ (some ad' = some ad ∧ right ∈ rights) → ad' ≠ ad ∨ countRight rights r = 0 := by
    intro ad' right r hr hnot
    by_cases had : ad' = ad
    · exact Or.inr (countRight_eq_zero hr fun hmem => hnot ⟨congrArg some had, hmem⟩)
    · exact Or.inl had
  cases c with
  | append ad' right want =>
    cases c' with
    | append ad'' right'' want' =>
      simp only [AclCall.forget, AclCall.append.injEq, and_true] at hsame
      obtain ⟨rfl, rfl⟩ := hsame
      obtain ⟨c, r, rfl, hr, -, hstore⟩ := aclStep_append_store hs hm
      obtain ⟨t', hm', hstore'⟩ := @aclStep_append_grants t ht c right'' want' r hr hroom
      refine ⟨t', hm', ?_⟩
      rw [hstore, hstore']
      exact hk.append (hfree hr hother)
    | delete _ _ => simp [AclCall.forget] at hsame
    | check _ _ => simp [AclCall.forget] at hsame
  | delete ad' right =>
    cases c' with
    | append _ _ _ => simp [AclCall.forget] at hsame
    | delete ad'' right'' =>
      simp only [AclCall.forget, AclCall.delete.injEq] at hsame
      obtain ⟨rfl, rfl⟩ := hsame
      obtain ⟨c, r, rfl, hr, hmem, hstore⟩ := aclStep_delete_store hs hm
      obtain ⟨hiff, hk'⟩ := hk.delete (hfree hr hother)
      obtain ⟨t', hm', hstore'⟩ := aclStep_delete_takes ht hr (hiff.mpr hmem)
      refine ⟨t', hm', ?_⟩
      rwa [hstore, hstore']
    | check _ _ => simp [AclCall.forget] at hsame
  | check ad' right =>
    cases c' with
    | append _ _ _ => simp [AclCall.forget] at hsame
    | delete _ _ => simp [AclCall.forget] at hsame
    | check ad'' right'' =>
      simp only [AclCall.forget, AclCall.check.injEq] at hsame
      obtain ⟨rfl, rfl⟩ := hsame
      obtain ⟨c, r, rfl, hr, hmem, rfl⟩ := aclStep_check_store hs hm
      have hiff := (hk.delete (hfree hr hother)).1
      exact ⟨t, aclStep_check_ok ht hr (hiff.mpr hmem), hk⟩

/-- The calls in between succeed on the lists with the records more as they do on those without. -/
theorem calls_surplus {ad : TypeAuthorizationData} {rights : List TypeRight} {cs : List (AclCall (Option Addr))}
    (hother : ∀ c ∈ cs, ¬ c.IsFor ad rights) :
    ∀ {cs' : List (AclCall (Option Addr))} {s s' t : Acl}, cs'.map AclCall.forget = cs.map AclCall.forget →
      Represents s s.store → Represents t t.store → Surplus ad (countRight rights) s.store t.store → Succeeds s cs s' →
      Guarded aclStep Allocates t cs' → ∃ t', Succeeds t cs' t' ∧ Surplus ad (countRight rights) s'.store t'.store := by
  induction cs with
  | nil =>
    intro cs' s s' t hsame _ _ hk h _
    cases h
    obtain rfl := List.map_eq_nil_iff.mp hsame
    exact ⟨t, succeeds_nil t, hk⟩
  | cons c cs ih =>
    intro cs' s s' t hsame hs ht hk h hg
    obtain ⟨c', cs', rfl, hc, hcs⟩ := List.map_eq_cons_iff.mp hsame
    obtain ⟨s₁, hm, hrest⟩ := succeeds_cons.mp h
    obtain ⟨t₁, hm', hk₁⟩ := step_surplus hs ht hc (hother c List.mem_cons_self) hk hm hg.1
    obtain ⟨t', hrest', hk'⟩ := ih (fun d hd => hother d (List.mem_cons_of_mem c hd)) hcs (aclStep_store hs hm).2.2
      (aclStep_store ht hm').2.2 hk₁ hrest (hg.2 t₁ 0 hm')
    exact ⟨t', succeeds_cons.mpr ⟨t₁, hm', hrest'⟩, hk'⟩

end AddRemoveAux

open AddRemoveAux

/-- For every well-formed access control list, every credential, every list of rights below `RIGHT_NUM` and all calls that succeed
alone and are for other pairs: while the allocator has memory, adding the pairs, the same calls, and removing the pairs succeeds at
every step, and leaves right by right the lists that the calls alone leave. -/
theorem add_remove_leaves (env : HandlerEnv) (ad : TypeAuthorizationData) (rights : List TypeRight)
    (hrights : ∀ right ∈ rights, right.toNat < rightNum) (a b : Acl) (ha : Represents a a.store)
    (calls calls' : List (AclCall (Option Addr))) (hsame : calls'.map AclCall.forget = calls.map AclCall.forget)
    (hother : ∀ c ∈ calls, ¬ c.IsFor ad rights) (halone : Succeeds a calls b)
    (hroom : Guarded aclStep Allocates a ((addCalls env ad).calls 0 rights ++ calls')) :
    AddRemoveLeaves env ad rights calls' a b := by
  have hindex : ∀ right ∈ rights, rightIndex right ≠ none := fun right hmem => by simp [rightIndex, hrights right hmem]
  obtain ⟨a₁, hadd, hk₁⟩ := @add_surplus env ad a.store rights hindex 0 (fun _ => 0) a ha (surplus_zero.mpr rfl) hroom.left
  simp only [Nat.zero_add] at hk₁
  obtain ⟨a₂, hcalls, hk₂⟩ := calls_surplus hother hsame ha (hadd.represents ha) hk₁ halone (hroom.right hadd)
  have ha₂ := hcalls.represents (hadd.represents ha)
  have hk₂' : Surplus ad (fun r => 0 + countRight rights r) b.store a₂.store := by simpa only [Nat.zero_add] using hk₂
  obtain ⟨a₃, hremove, hk₃⟩ := @remove_surplus ad b.store rights hindex 0 (fun _ => 0) a₂ ha₂ hk₂'
  obtain ⟨hleft, hreturned⟩ := (addCalls env ad).loop_succeeds (Call.ccAppendACL ad) hadd
  obtain ⟨hleft', hreturned'⟩ := (removeCalls ad).loop_succeeds (Call.ccDeleteACL ad) hremove
  refine ⟨hreturned, a₂, ?_, hreturned', ?_⟩
  · rw [addAclRecords, hleft]
    exact hcalls
  · rw [removeAclRecords, hleft']
    exact surplus_zero.mp hk₃

/-- A repeated right, and between the two commands an append of another credential. -/
theorem add_remove_leaves_repeated :
    AddRemoveLeaves (.plain 1) (.uniform 7) [1, 0, 1] [.append (some (.uniform 9)) 1 (some 9)] Acl.start
      (ccAppendACL (some 4) (some (.uniform 9)) 1 Acl.start).2 := by
  have hrights : ∀ right ∈ ([1, 0, 1] : List TypeRight), right.toNat < rightNum := by
    simp only [List.forall_mem_cons]
    exact ⟨by decide, by decide, by decide, fun _ h => absurd h List.not_mem_nil⟩
  exact add_remove_leaves (.plain 1) (.uniform 7) [1, 0, 1] hrights Acl.start _ (Device.wellFormed_start none)
    [.append (some (.uniform 9)) 1 (some 4)] _ rfl (by simp [AclCall.IsFor]; decide) rfl (by decide)

/-- No memory for the record: adding ends the process. -/
theorem add_remove_leaves_not :
    Succeeds Acl.start [] Acl.start ∧
      ¬ AddRemoveLeaves { HandlerEnv.plain 1 with node := fun _ => none } (.uniform 7) [1] [] Acl.start Acl.start := by
  refine ⟨rfl, fun h => ?_⟩
  have hreturned := h.1
  exact absurd hreturned (by decide)

end CGuard
