import CGuard.Theorems.AclRefinement

/-!
# What a delete revokes

`CC_DeleteACL` removes one record. The credential has lost the right, for as long as nobody grants it again, exactly when that
record was its only one.
-/

namespace CGuard

open LinkedHeap Machine

/-- The call does not append this credential to the list of this right. -/
def KeepsRevoked (ad : TypeAuthorizationData) (right : TypeRight) : AclCall (Option Addr) → Prop
  | .append ad' right' _ => ¬ (ad' = some ad ∧ right' = right)
  | _ => True

/-- Whatever is called, short of granting the right again, the credential is refused. -/
def StaysRevoked (s : Acl) (ad : TypeAuthorizationData) (right : TypeRight) : Prop :=
  ∀ cs s' rets, (∀ c ∈ cs, KeepsRevoked ad right c) → run aclStep s cs = .ok (s', rets) →
    ∃ v, ccCheckAuthData (some ad) right s' = .ok v ∧ v ≠ 0

namespace RevocationAux

/-- A call that is not such an append grants nothing. -/
theorem grants_eq_false {ad : TypeAuthorizationData} {right : TypeRight} {r : Fin rightNum} {s : Acl}
    {c : AclCall (Option Addr)} (hr : rightIndex right = some r) (hc : KeepsRevoked ad right c) (ret : Int) :
    (c.abs s).grants ad r ret = false := by
  rw [AclRefinementAux.grants_abs]
  unfold AclCall.grants
  split
  · rename_i ad' right' _
    refine decide_eq_false ?_
    rintro ⟨rfl, hr', -⟩
    exact hc ⟨rfl, rightIndex_inj hr hr'⟩
  · rfl

/-- A credential without a record has none after a call that does not append it. -/
theorem count_zero_step {s s' : Acl} {c : AclCall (Option Addr)} {ret : Int} {σ : AclStore} {ad : TypeAuthorizationData}
    {right : TypeRight} {r : Fin rightNum} (hr : rightIndex right = some r) (hs : Represents s σ)
    (hc : KeepsRevoked ad right c) (h : aclStep s c = .ok (s', ret)) (hz : (σ r).count ad = 0) :
    ∃ σ', Represents s' σ' ∧ (σ' r).count ad = 0 := by
  obtain ⟨rfl, hrep⟩ := represents_step hs h
  refine ⟨_, hrep, ?_⟩
  have hcount := AclRefinementAux.step_count σ (c.abs s) ad r
  rw [grants_eq_false hr hc, hz, Bool.toNat_false] at hcount
  omega

end RevocationAux

open RevocationAux

/-- The check refuses exactly the credentials without a record. -/
theorem check_refuses_iff {s : Acl} {σ : AclStore} (hs : Represents s σ) {ad : TypeAuthorizationData} {right : TypeRight}
    {r : Fin rightNum} (hr : rightIndex right = some r) :
    (∃ v, ccCheckAuthData (some ad) right s = .ok v ∧ v ≠ 0) ↔ (σ r).count ad = 0 := by
  rw [hs.check, List.count_eq_zero]
  simp only [AclStore.check, hr]
  by_cases hmem : ad ∈ σ r <;> simp [hmem]

/-- A credential without a record stays refused until it is granted the right again. -/
theorem staysRevoked_of_count_zero {s : Acl} {σ : AclStore} (hs : Represents s σ) {ad : TypeAuthorizationData}
    {right : TypeRight} {r : Fin rightNum} (hr : rightIndex right = some r) (hz : (σ r).count ad = 0) :
    StaysRevoked s ad right := by
  intro cs
  induction cs generalizing s σ with
  | nil =>
    intro s' rets _ h
    cases h
    exact (check_refuses_iff hs hr).mpr hz
  | cons c cs ih =>
    intro s' rets hkeep h
    obtain ⟨t, ret, rets', hm, hrest, -⟩ := run_cons_ok h
    obtain ⟨σ', hσ', hz'⟩ := count_zero_step hr hs (hkeep c List.mem_cons_self) hm hz
    exact ih hσ' hz' s' rets' (fun c hc => hkeep c (List.mem_cons_of_mem _ hc)) hrest

/-- In every state that calls reach from `InitSecurityEnforcement`: after a delete that returned 0, the credential stays refused
until it is granted the right again if and only if it had exactly one record of the right before the delete. -/
theorem delete_revokes_iff {cs : List (AclCall (Option Addr))} {s s' : Acl} {rets : List Int}
    (hrun : run aclStep (initSecurityEnforcement Acl.start) cs = .ok (s, rets)) {ad : TypeAuthorizationData}
    {right : TypeRight} {r : Fin rightNum} (hr : rightIndex right = some r)
    (hdel : ccDeleteACL (some ad) right s = .ok (0, s')) :
    StaysRevoked s' ad right ↔ (s.store r).count ad = 1 := by
  have hs := represents_of_run represents_start hrun
  have hm : aclStep s (.delete (some ad) right) = .ok (s', 0) := by simp only [aclStep, hdel, Except.map]
  obtain ⟨hret, hs'⟩ := represents_step hs hm
  have hcount := AclRefinementAux.step_count s.store (.delete (some ad) right) ad r
  simp only [AclCall.abs] at hret hs'
  rw [← hret] at hcount
  simp only [AclCall.revokes, AclCall.grants, hr, and_self, decide_true, Bool.toNat_true, Bool.toNat_false] at hcount
  constructor
  · intro hstay
    have hz := (check_refuses_iff hs' hr).mp (hstay [] s' [] (by simp) rfl)
    omega
  · intro hone
    exact staysRevoked_of_count_zero hs' hr (by omega)

/-- One grant, one delete: the right is gone. -/
theorem delete_revokes_single_grant :
    ∃ s s' rets, run aclStep (initSecurityEnforcement Acl.start)
        [.append (some (.uniform 1)) rightLightBulbOnCharacteristicWRITE (some 8),
          .append (some (.uniform 2)) rightLightBulbOnCharacteristicWRITE (some 9)] = .ok (s, rets) ∧
      ccDeleteACL (some (.uniform 1)) rightLightBulbOnCharacteristicWRITE s = .ok (0, s') ∧
      StaysRevoked s' (.uniform 1) rightLightBulbOnCharacteristicWRITE :=
  ⟨_, _, _, rfl, rfl, (@delete_revokes_iff
    [.append (some (.uniform 1)) rightLightBulbOnCharacteristicWRITE (some 8),
      .append (some (.uniform 2)) rightLightBulbOnCharacteristicWRITE (some 9)]
    _ _ _ rfl _ _ ⟨1, by decide⟩ rfl rfl).mpr (by decide)⟩

/-- The same credential granted twice: `CC_DeleteACL` returns 0 and the next check still accepts it. -/
theorem delete_revokes_not_twice_granted :
    ∃ s s', run aclStep (initSecurityEnforcement Acl.start)
        [.append (some (.uniform 1)) rightLightBulbOnCharacteristicWRITE (some 8),
          .append (some (.uniform 1)) rightLightBulbOnCharacteristicWRITE (some 9)] = .ok (s, [0, 0]) ∧
      ccDeleteACL (some (.uniform 1)) rightLightBulbOnCharacteristicWRITE s = .ok (0, s') ∧
      ccCheckAuthData (some (.uniform 1)) rightLightBulbOnCharacteristicWRITE s' = .ok 0 ∧
      ¬ StaysRevoked s' (.uniform 1) rightLightBulbOnCharacteristicWRITE := by
  refine ⟨_, _, rfl, rfl, rfl, fun h => ?_⟩
  obtain ⟨v, hv, hne⟩ := h [] _ [] (by simp) rfl
  cases hv
  exact hne rfl

end CGuard
