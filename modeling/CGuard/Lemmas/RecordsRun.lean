import CGuard.Lemmas.Records

/-!
# The loop over a rights list as a run

`add_ACL_records` and `remove_ACL_records` make the calls of their rights list one after the other. What they leave is what a run of
the calls of a prefix of the list leaves, all of which return 0: the whole list, or the entries before the first call that does not.
-/

namespace CGuard

open LinkedHeap Machine

/-- Every call of a sequence returns 0, and the last one leaves `s'`. -/
def Succeeds (s : Acl) (cs : List (AclCall (Option Addr))) (s' : Acl) : Prop :=
  run aclStep s cs = .ok (s', List.replicate cs.length 0)

theorem succeeds_nil (s : Acl) : Succeeds s [] s := rfl

/-- A sequence that succeeds: its first call returns 0, and the rest succeeds. -/
theorem succeeds_cons {s s'' : Acl} {c : AclCall (Option Addr)} {cs : List (AclCall (Option Addr))} :
    Succeeds s (c :: cs) s'' ↔ ∃ s', aclStep s c = .ok (s', 0) ∧ Succeeds s' cs s'' := by
  constructor
  · intro h
    obtain ⟨s', o, os, hm, hr, hos⟩ := run_cons_ok h
    rw [List.length_cons, List.replicate_succ, List.cons.injEq] at hos
    obtain ⟨rfl, rfl⟩ := hos
    exact ⟨s', hm, hr⟩
  · rintro ⟨s', hm, hr⟩
    exact run_cons hm hr

/-- Two sequences that succeed one after the other. -/
theorem Succeeds.append {s s' s'' : Acl} {cs ds : List (AclCall (Option Addr))} (h1 : Succeeds s cs s')
    (h2 : Succeeds s' ds s'') : Succeeds s (cs ++ ds) s'' := by
  unfold Succeeds
  rw [run_append h1 h2, List.length_append, List.replicate_append_replicate]

/-- A sequence that succeeds leaves the lists well formed. -/
theorem Succeeds.represents {s s' : Acl} {cs : List (AclCall (Option Addr))} (h : Succeeds s cs s')
    (hs : Represents s s.store) : Represents s' s'.store := by
  have hstep : ∀ t c t' o, Represents t t.store → aclStep t c = .ok (t', o) → Represents t' t'.store :=
    fun t c t' o ht hm => (aclStep_store ht hm).2.2
  exact run_invariant hstep hs h

/-- An append that returns 0 has put the credential in front of the list of its right. -/
theorem aclStep_append_store {s s' : Acl} (hs : Represents s s.store) {ad : Option TypeAuthorizationData} {right : TypeRight}
    {want : Option Addr} (h : aclStep s (.append ad right want) = .ok (s', 0)) :
    ∃ c r, ad = some c ∧ rightIndex right = some r ∧ malloc s.heap want ≠ none ∧
      s'.store = Function.update s.store r (c :: s.store r) := by
  obtain ⟨hstore, hret, -⟩ := aclStep_store hs h
  simp only [AclCall.abs, AclStore.step, AclStore.append] at hstore hret
  split at hret
  · rename_i c r hr
    rw [hr] at hstore
    split at hret
    · rename_i hroom
      simp only [hroom, if_true] at hstore
      exact ⟨c, r, rfl, hr, Option.isSome_iff_ne_none.mp hroom, hstore.symm⟩
    · simp at hret
  · simp at hret

/-- A delete that returns 0 has found the credential on the list of its right, and removed its first record. -/
theorem aclStep_delete_store {s s' : Acl} (hs : Represents s s.store) {ad : Option TypeAuthorizationData} {right : TypeRight}
    (h : aclStep s (.delete ad right) = .ok (s', 0)) :
    ∃ c r, ad = some c ∧ rightIndex right = some r ∧ c ∈ s.store r ∧
      s'.store = Function.update s.store r ((s.store r).erase c) := by
  obtain ⟨hstore, hret, -⟩ := aclStep_store hs h
  simp only [AclCall.abs, AclStore.step, AclStore.delete] at hstore hret
  split at hret
  · rename_i c r hr
    rw [hr] at hstore
    split at hret
    · rename_i hmem
      simp only [if_pos hmem] at hstore
      exact ⟨c, r, rfl, hr, hmem, hstore.symm⟩
    · simp at hret
  · simp at hret

/-- An append that has room puts the credential in front of the list of its right. -/
theorem aclStep_append_grants {s : Acl} (hs : Represents s s.store) {ad : TypeAuthorizationData} {right : TypeRight}
    {want : Option Addr} {r : Fin rightNum} (hr : rightIndex right = some r) (hroom : malloc s.heap want ≠ none) :
    ∃ s', aclStep s (.append (some ad) right want) = .ok (s', 0) ∧ s'.store = Function.update s.store r (ad :: s.store r) := by
  obtain ⟨s', hm⟩ := @aclStep_append_ok s ad right want r hr hroom
  obtain ⟨c, q, hc, hq, -, hstore⟩ := aclStep_append_store hs hm
  cases hc
  obtain rfl : r = q := Option.some.inj (hr.symm.trans hq)
  exact ⟨s', hm, hstore⟩

/-- A delete of a credential that holds the right removes its first record. -/
theorem aclStep_delete_takes {s : Acl} (hs : Represents s s.store) {ad : TypeAuthorizationData} {right : TypeRight}
    {r : Fin rightNum} (hr : rightIndex right = some r) (hmem : ad ∈ s.store r) :
    ∃ s', aclStep s (.delete (some ad) right) = .ok (s', 0) ∧ s'.store = Function.update s.store r ((s.store r).erase ad) := by
  obtain ⟨s', hm⟩ := aclStep_delete_ok hs hr hmem
  obtain ⟨c, q, hc, hq, -, hstore⟩ := aclStep_delete_store hs hm
  cases hc
  obtain rfl : r = q := Option.some.inj (hr.symm.trans hq)
  exact ⟨s', hm, hstore⟩

/-- A check that returns 0 has found the credential on the list of its right. -/
theorem aclStep_check_store {s s' : Acl} (hs : Represents s s.store) {ad : Option TypeAuthorizationData} {right : TypeRight}
    (h : aclStep s (.check ad right) = .ok (s', 0)) :
    ∃ c r, ad = some c ∧ rightIndex right = some r ∧ c ∈ s.store r ∧ s' = s := by
  simp only [aclStep, hs.check, Except.map, Except.ok.injEq, Prod.mk.injEq, AclStore.check] at h
  obtain ⟨rfl, hret⟩ := h
  split at hret
  · rename_i c r hr
    split at hret
    · rename_i hmem
      exact ⟨c, r, rfl, hr, hmem, rfl⟩
    · simp at hret
  · simp at hret

/-- A check of a credential that holds the right returns 0. -/
theorem aclStep_check_ok {s : Acl} (hs : Represents s s.store) {ad : TypeAuthorizationData} {right : TypeRight}
    {r : Fin rightNum} (hr : rightIndex right = some r) (hmem : ad ∈ s.store r) :
    aclStep s (.check (some ad) right) = .ok (s, 0) := by
  simp only [aclStep, hs.check, Except.map, AclStore.check, hr, if_pos hmem]

section RecordsCalls

variable {call : Nat → TypeRight → Acl → Except Fault (Int × Acl)} {ad : TypeAuthorizationData}

/-- The calls of the loop, from step `i` on. -/
def RecordsCalls.calls (hc : RecordsCalls call ad) : Nat → List TypeRight → List (AclCall (Option Addr))
  | _, [] => []
  | i, right :: rights => hc.acl i right :: hc.calls (i + 1) rights

/-- How a loop ends that has come to the entry `right`, whose call does not return 0. -/
def StopsAt (hc : RecordsCalls call ad) (i : Nat) (right : TypeRight) (s : Acl) (ending : Ending) : Prop :=
  (∃ ret, ret ≠ 0 ∧ aclStep s (hc.acl i right) = .ok (s, ret) ∧ ending = .exit (-1)) ∨
  (∃ f, call i right s = .error f ∧ ending = .fault f)

/-- A loop whose next call does not return 0 cannot make that call succeed. -/
theorem StopsAt.not_ok {hc : RecordsCalls call ad} {i : Nat} {right : TypeRight} {s : Acl} {ending : Ending}
    (h : StopsAt hc i right s ending) (s' : Acl) : aclStep s (hc.acl i right) ≠ .ok (s', 0) := by
  intro hm
  rcases h with ⟨ret, hret, hm', -⟩ | ⟨f, hf, -⟩
  · cases hm.symm.trans hm'
    exact hret rfl
  · have hok := (hc.eq i right s 0 s').mpr hm
    exact absurd (hf.symm.trans hok) (by simp)

/-- A loop that has come to a call that returns ends the process with `exit(-1)`. -/
theorem StopsAt.exit_of_ok {hc : RecordsCalls call ad} {i : Nat} {right : TypeRight} {s : Acl} {ending : Ending}
    (h : StopsAt hc i right s ending) {r : Int × Acl} (hok : call i right s = .ok r) : ending = .exit (-1) := by
  rcases h with ⟨ret, -, -, hend⟩ | ⟨f, hf, -⟩
  · exact hend
  · exact absurd (hf.symm.trans hok) (by simp)

/-- A loop whose calls all return 0 returns. -/
theorem RecordsCalls.loop_succeeds (hc : RecordsCalls call ad) (record : TypeRight → Option Int → Call)
    {rights : List TypeRight} :
    ∀ {i : Nat} {s s' : Acl}, Succeeds s (hc.calls i rights) s' →
      (recordsLoop call record i rights s).1 = s' ∧ (recordsLoop call record i rights s).2.2 = .returned := by
  induction rights with
  | nil =>
    intro i s s' h
    cases h
    exact ⟨rfl, rfl⟩
  | cons right rights ih =>
    intro i s s' h
    obtain ⟨t, hm, hr⟩ := succeeds_cons.mp h
    have hcall := (hc.eq i right s 0 t).mpr hm
    simp only [recordsLoop, hcall, ne_eq, not_true_eq_false, if_false]
    exact ih hr

/-- The loop applies a prefix of its list: all of it, or the entries before the first one whose call does not return 0. -/
theorem RecordsCalls.exists_taken (hc : RecordsCalls call ad) (record : TypeRight → Option Int → Call)
    (rights : List TypeRight) :
    ∀ i s, ∃ k ≤ rights.length, Succeeds s (hc.calls i (rights.take k)) (recordsLoop call record i rights s).1 ∧
      (k = rights.length → (recordsLoop call record i rights s).2.2 = .returned) ∧
      ∀ right, rights[k]? = some right →
        StopsAt hc (i + k) right (recordsLoop call record i rights s).1 (recordsLoop call record i rights s).2.2 := by
  induction rights with
  | nil => exact fun i s => ⟨0, Nat.le_refl 0, succeeds_nil s, fun _ => rfl, fun right h => by simp at h⟩
  | cons right rights ih =>
    intro i s
    cases hm : call i right s with
    | error f =>
      simp only [recordsLoop, hm]
      refine ⟨0, Nat.zero_le _, succeeds_nil s, fun h => by simp at h, fun right' h => ?_⟩
      obtain rfl : right = right' := by simpa using h
      exact Or.inr ⟨f, hm, rfl⟩
    | ok r =>
      obtain ⟨ret, s'⟩ := r
      have hstep := (hc.eq i right s ret s').mp hm
      by_cases hret : ret = 0
      · subst hret
        obtain ⟨k, hk, hsucc, hall, hstop⟩ := ih (i + 1) s'
        simp only [recordsLoop, hm, ne_eq, not_true_eq_false, if_false]
        refine ⟨k + 1, Nat.succ_le_succ hk, succeeds_cons.mpr ⟨s', hstep, hsucc⟩, ?_, ?_⟩
        · exact fun h => hall (Nat.succ.inj h)
        · intro right' h
          rw [List.getElem?_cons_succ] at h
          rw [Nat.add_comm k 1, ← Nat.add_assoc]
          exact hstop right' h
      · obtain rfl := aclStep_failed hstep hret
        simp only [recordsLoop, hm, ne_eq, hret, not_false_eq_true, if_true]
        refine ⟨0, Nat.zero_le _, succeeds_nil _, fun h => by simp at h, fun right' h => ?_⟩
        obtain rfl : right = right' := by simpa using h
        exact Or.inl ⟨ret, hret, hstep, rfl⟩

end RecordsCalls

/-! ## The calls, in their order -/

/-- The calls are made for the rights in their order, and none after one that does not return 0. -/
def CallsInOrder (record : TypeRight → Option Int → Call) : List TypeRight → List Call → Prop
  | [], calls => calls = []
  | right :: rights, calls =>
    ∃ ret rest, calls = record right ret :: rest ∧ if ret = some 0 then CallsInOrder record rights rest else rest = []

/-- The loop makes its calls in the order of the rights. -/
theorem recordsLoop_inOrder (call : Nat → TypeRight → Acl → Except Fault (Int × Acl)) (record : TypeRight → Option Int → Call)
    (rights : List TypeRight) : ∀ i s, CallsInOrder record rights (recordsLoop call record i rights s).2.1 := by
  induction rights with
  | nil => exact fun _ _ => rfl
  | cons right rights ih =>
    intro i s
    simp only [recordsLoop]
    split
    · exact ⟨none, [], rfl, rfl⟩
    · rename_i ret s' _
      split_ifs with hret
      · exact ⟨some ret, [], rfl, by rw [if_neg (by simpa using hret)]⟩
      · rw [not_not] at hret
        subst hret
        exact ⟨some 0, _, rfl, by rw [if_pos rfl]; exact ih (i + 1) s'⟩

/-- The call at a place is for the right at that place. -/
theorem CallsInOrder.get {record : TypeRight → Option Int → Call} {rights : List TypeRight} :
    ∀ {calls : List Call} {j : Nat} {call : Call}, CallsInOrder record rights calls → calls[j]? = some call →
      ∃ right ret, rights[j]? = some right ∧ call = record right ret := by
  induction rights with
  | nil =>
    intro calls j call h hj
    obtain rfl : calls = [] := h
    simp at hj
  | cons right rights ih =>
    rintro calls j call ⟨ret, rest, rfl, hrest⟩ hj
    cases j with
    | zero =>
      cases hj
      exact ⟨right, ret, rfl, rfl⟩
    | succ j =>
      rw [List.getElem?_cons_succ] at hj ⊢
      split_ifs at hrest
      · exact ih hrest hj
      · subst hrest
        simp at hj

end CGuard
