import CGuard.AwsMain
import CGuard.Theorems.AclRefinement

/-!
# The loop over a rights list

`add_ACL_records` and `remove_ACL_records` are one loop over two calls, and each of the two is a call on the access control list.
A rule for invariants of the loop, what a call that fails and a call that succeeds leave, and what the calls of the loop show of
its rights.
-/

namespace CGuard

open LinkedHeap

/-- The lists of the device represent a store. -/
def Device.WellFormed (d : Device) : Prop := Represents d.acl d.acl.store

theorem Device.wellFormed_start (store : Store) : (Device.start store).WellFormed := by
  have h := represents_start
  rw [← h.store_eq] at h
  exact h

/-! ## One call -/

/-- A call that returns does what the store does, and leaves the lists well formed. -/
theorem aclStep_store {s s' : Acl} {c : AclCall (Option Addr)} {ret : Int} (hs : Represents s s.store)
    (h : aclStep s c = .ok (s', ret)) :
    (AclStore.step s.store (c.abs s)).1 = s'.store ∧ (AclStore.step s.store (c.abs s)).2 = ret ∧ Represents s' s'.store := by
  obtain ⟨hret, hrep⟩ := represents_step hs h
  have hstore := hrep.store_eq
  rw [← hstore] at hrep
  exact ⟨hstore.symm, hret.symm, hrep⟩

/-- The walk of `CC_DeleteACL` changes nothing unless it returns 0. -/
theorem deleteLoop_failed {s s' : Acl} {ad : TypeAuthorizationData} {ret : Int} :
    ∀ {fuel : Nat} {p1 : Addr} {p2 : Option Addr}, deleteLoop s ad fuel p1 p2 = .ok (ret, s') → ret ≠ 0 → s' = s := by
  intro fuel
  induction fuel with
  | zero =>
    intro p1 p2 h _
    cases p2 with
    | none => cases h; rfl
    | some p2 => cases h
  | succ fuel ih =>
    intro p1 p2 h hne
    cases p2 with
    | none => cases h; rfl
    | some p2 =>
      simp only [deleteLoop, bind, Except.bind] at h
      split at h
      · simp at h
      · split_ifs at h
        · split at h
          · simp at h
          · cases h
            exact absurd rfl hne
        · exact ih h hne

/-- A call that returns a value other than 0 changes nothing. -/
theorem aclStep_failed {s s' : Acl} {c : AclCall (Option Addr)} {ret : Int} (h : aclStep s c = .ok (s', ret))
    (hne : ret ≠ 0) : s' = s := by
  cases c with
  | append ad right want =>
    simp only [aclStep, ccAppendACL] at h
    split at h
    · split at h
      · cases h; rfl
      · cases h; exact absurd rfl hne
    · cases h; rfl
  | delete ad right =>
    simp only [aclStep, ccDeleteACL] at h
    split at h
    · simp only [bind, Except.bind] at h
      split at h
      · cases h
      · split_ifs at h
        · cases h; exact absurd rfl hne
        · cases hd : deleteLoop s _ s.heap.keys.card _ _ with
          | error f => rw [hd] at h; cases h
          | ok r =>
            rw [hd] at h
            cases h
            exact deleteLoop_failed hd hne
    · cases h; rfl
  | check ad right =>
    simp only [aclStep] at h
    cases hc : ccCheckAuthData ad right s with
    | error f => rw [hc] at h; cases h
    | ok v => rw [hc] at h; cases h; rfl

/-- The call names this credential. -/
def AclCall.Names {μ : Type} (ad : TypeAuthorizationData) : AclCall μ → Prop
  | .append ad' _ _ | .delete ad' _ | .check ad' _ => ad' = some ad

/-- A call that names a credential leaves the records of the others as they are. -/
theorem AclStore.step_others (σ : AclStore) {c : AclCall Bool} {ad : TypeAuthorizationData} (hc : c.Names ad) (r : Fin rightNum) :
    ((AclStore.step σ c).1 r).filter (· ≠ ad) = (σ r).filter (· ≠ ad) := by
  cases c with
  | check _ _ => rfl
  | append ad' right room =>
    obtain rfl : ad' = some ad := hc
    cases hr : rightIndex right with
    | none => simp only [AclStore.step, AclStore.append, hr]
    | some q =>
      cases room with
      | false => simp [AclStore.step, AclStore.append, hr]
      | true =>
        simp only [AclStore.step, AclStore.append, hr, if_true]
        by_cases hq : r = q
        · subst hq
          simp
        · rw [Function.update_of_ne hq]
  | delete ad' right =>
    obtain rfl : ad' = some ad := hc
    cases hr : rightIndex right with
    | none => simp only [AclStore.step, AclStore.delete, hr]
    | some q =>
      simp only [AclStore.step, AclStore.delete, hr]
      split_ifs
      · by_cases hq : r = q
        · subst hq
          simp only [Function.update_self]
          rw [← List.erase_filter, List.erase_of_not_mem (by simp)]
        · simp only [Function.update_of_ne hq]
      · rfl

/-- An append that has room grants the right to the credential. -/
theorem aclStep_append_ok {s : Acl} {ad : TypeAuthorizationData} {right : TypeRight} {want : Option Addr} {r : Fin rightNum}
    (hr : rightIndex right = some r) (hroom : malloc s.heap want ≠ none) :
    ∃ s', aclStep s (.append (some ad) right want) = .ok (s', 0) := by
  obtain ⟨p, hp⟩ := Option.ne_none_iff_exists'.mp hroom
  exact ⟨_, by simp only [aclStep, ccAppendACL, hr, hp]; rfl⟩

/-- A delete of a credential that holds the right takes it back. -/
theorem aclStep_delete_ok {s : Acl} (hs : Represents s s.store) {ad : TypeAuthorizationData} {right : TypeRight}
    {r : Fin rightNum} (hr : rightIndex right = some r) (hmem : ad ∈ s.store r) :
    ∃ s', aclStep s (.delete (some ad) right) = .ok (s', 0) := by
  have hne : s.gACL r ≠ none := by
    rw [ne_eq, hs.head_none_iff]
    exact List.ne_nil_of_mem hmem
  obtain ⟨s', hd, -⟩ := @Represents.delete_in _ _ hs ad _ _ hr hne
  exact ⟨s', by simp only [aclStep, hd, if_pos hmem, Except.map]⟩

/-! ## The loop -/

/-- What every call that returns preserves holds after the loop. -/
theorem recordsLoop_invariant {call : Nat → TypeRight → Acl → Except Fault (Int × Acl)}
    {record : TypeRight → Option Int → Call} {P : Acl → Prop}
    (hcall : ∀ i right s ret s', P s → call i right s = .ok (ret, s') → P s') (rights : List TypeRight) :
    ∀ i s, P s → P (recordsLoop call record i rights s).1 := by
  induction rights with
  | nil => intro i s hs; exact hs
  | cons right rights ih =>
    intro i s hs
    unfold recordsLoop
    split
    · exact hs
    · rename_i ret s' hm
      have hs' := hcall i right s ret s' hs hm
      split_ifs
      · exact hs'
      · exact ih (i + 1) s' hs'

/-- The loop makes calls on the access control list that name one credential. -/
structure RecordsCalls (call : Nat → TypeRight → Acl → Except Fault (Int × Acl)) (ad : TypeAuthorizationData) where
  /-- The call of each step. -/
  acl : Nat → TypeRight → AclCall (Option Addr)
  names : ∀ i right, (acl i right).Names ad
  eq : ∀ i right s ret s', call i right s = .ok (ret, s') ↔ aclStep s (acl i right) = .ok (s', ret)

/-- The calls of `add_ACL_records`. -/
def addCalls (env : HandlerEnv) (ad : TypeAuthorizationData) :
    RecordsCalls (fun i right s => .ok (ccAppendACL (env.node i) (some ad) right s)) ad where
  acl i right := .append (some ad) right (env.node i)
  names _ _ := rfl
  eq i right s ret s' := by
    simp only [aclStep, Except.ok.injEq, Prod.ext_iff]
    exact and_comm

/-- The calls of `remove_ACL_records`. -/
def removeCalls (ad : TypeAuthorizationData) : RecordsCalls (fun _ right s => ccDeleteACL (some ad) right s) ad where
  acl _ right := .delete (some ad) right
  names _ _ := rfl
  eq i right s ret s' := by
    simp only [aclStep]
    cases ccDeleteACL (some ad) right s with
    | error f => simp [Except.map]
    | ok r => simp only [Except.map, Except.ok.injEq, Prod.ext_iff]; exact and_comm

/-- The handler runs `add_ACL_records` for `A`. -/
theorem handler_add (env : HandlerEnv) {payload : List UInt8} (d : Device) (h : payload.head? = some 'A'.toUInt8) :
    iotSubscribeCallbackHandler env payload d = aclCommand env payload (addAclRecords env) d := by
  simp only [iotSubscribeCallbackHandler, h]
  rfl

/-- The handler runs `remove_ACL_records` for `a`. -/
theorem handler_remove (env : HandlerEnv) {payload : List UInt8} (d : Device) (h : payload.head? = some 'a'.toUInt8) :
    iotSubscribeCallbackHandler env payload d = aclCommand env payload removeAclRecords d := by
  simp only [iotSubscribeCallbackHandler, h]
  rfl

/-- An `A` or `a` command makes a loop over the rights that it reads, whose calls append records or delete them. -/
theorem handler_records (env : HandlerEnv) {payload : List UInt8} (d : Device)
    (h : payload.head? = some 'A'.toUInt8 ∨ payload.head? = some 'a'.toUInt8) :
    ∃ (call : TypeAuthorizationData → Nat → TypeRight → Acl → Except Fault (Int × Acl)) (hc : ∀ ad, RecordsCalls (call ad) ad)
      (record : TypeAuthorizationData → TypeRight → Option Int → Call),
      iotSubscribeCallbackHandler env payload d = aclCommand env payload (fun ad => recordsLoop (call ad) (record ad) 0) d ∧
      ((record = Call.ccAppendACL ∧ ∀ ad i right, ∃ want, (hc ad).acl i right = .append (some ad) right want) ∨
        (record = Call.ccDeleteACL ∧ ∀ ad i right, (hc ad).acl i right = .delete (some ad) right)) := by
  rcases h with h | h
  · exact ⟨_, addCalls env, _, handler_add env d h, Or.inl ⟨rfl, fun _ _ _ => ⟨_, rfl⟩⟩⟩
  · exact ⟨_, removeCalls, _, handler_remove env d h, Or.inr ⟨rfl, fun _ _ _ => rfl⟩⟩

section RecordsCalls

variable {call : Nat → TypeRight → Acl → Except Fault (Int × Acl)} {ad : TypeAuthorizationData}

/-- The loop keeps the lists well formed. -/
theorem RecordsCalls.represents (hc : RecordsCalls call ad) (record : TypeRight → Option Int → Call) (i : Nat)
    (rights : List TypeRight) (s : Acl) (hs : Represents s s.store) :
    Represents (recordsLoop call record i rights s).1 (recordsLoop call record i rights s).1.store := by
  have hcall : ∀ i right t ret t', Represents t t.store → call i right t = .ok (ret, t') → Represents t' t'.store :=
    fun i right t ret t' ht hm => (aclStep_store ht ((hc.eq i right t ret t').mp hm)).2.2
  exact recordsLoop_invariant hcall rights i s hs

/-- The loop leaves the records of the other credentials as they are. -/
theorem RecordsCalls.others (hc : RecordsCalls call ad) (record : TypeRight → Option Int → Call) (i : Nat)
    (rights : List TypeRight) (s : Acl) (hs : Represents s s.store) (r : Fin rightNum) :
    ((recordsLoop call record i rights s).1.store r).filter (· ≠ ad) = (s.store r).filter (· ≠ ad) := by
  have hcall : ∀ i right t ret t',
      (Represents t t.store ∧ (t.store r).filter (· ≠ ad) = (s.store r).filter (· ≠ ad)) →
      call i right t = .ok (ret, t') →
      (Represents t' t'.store ∧ (t'.store r).filter (· ≠ ad) = (s.store r).filter (· ≠ ad)) := by
    rintro i right t ret t' ⟨ht, hold⟩ hm
    obtain ⟨hstore, -, ht'⟩ := aclStep_store ht ((hc.eq i right t ret t').mp hm)
    refine ⟨ht', ?_⟩
    have hnames : ((hc.acl i right).abs t).Names ad := by
      have := hc.names i right
      cases h : hc.acl i right <;> rw [h] at this <;> exact this
    rw [← hstore, AclStore.step_others _ hnames, hold]
  exact (recordsLoop_invariant hcall rights i s ⟨hs, rfl⟩).2

/-- A loop whose first call does not return 0 changes nothing. -/
theorem RecordsCalls.first_failed (hc : RecordsCalls call ad) (record : TypeRight → Option Int → Call) {right : TypeRight}
    {rights : List TypeRight} {s : Acl} (hfirst : ∀ s', aclStep s (hc.acl 0 right) ≠ .ok (s', 0)) :
    (recordsLoop call record 0 (right :: rights) s).1 = s := by
  unfold recordsLoop
  split
  · rfl
  · rename_i ret s' hm
    have hstep := (hc.eq 0 right s ret s').mp hm
    split_ifs with hret
    · exact aclStep_failed hstep hret
    · rw [not_not] at hret
      subst hret
      exact absurd hstep (hfirst s')

/-- A loop whose first call returns 0 goes on from what that call left. -/
theorem RecordsCalls.first_ok (hc : RecordsCalls call ad) (record : TypeRight → Option Int → Call) {right : TypeRight}
    {rights : List TypeRight} {s s' : Acl} (hfirst : aclStep s (hc.acl 0 right) = .ok (s', 0)) :
    (recordsLoop call record 0 (right :: rights) s).1 = (recordsLoop call record 1 rights s').1 := by
  have hm := (hc.eq 0 right s 0 s').mpr hfirst
  simp only [recordsLoop, hm, ne_eq, not_true_eq_false, if_false, Nat.zero_add]

/-- How often a right holds a credential moves one way along a loop whose calls all do. -/
theorem RecordsCalls.count_mono (hc : RecordsCalls call ad) (record : TypeRight → Option Int → Call) {r : Fin rightNum}
    {R : Nat → Prop} (hR : ∀ i right s ret s', Represents s s.store → aclStep s (hc.acl i right) = .ok (s', ret) →
      R ((s.store r).count ad) → R ((s'.store r).count ad))
    (i : Nat) (rights : List TypeRight) {s : Acl} (hs : Represents s s.store) (h : R ((s.store r).count ad)) :
    R (((recordsLoop call record i rights s).1.store r).count ad) := by
  have hcall : ∀ i right t ret t', (Represents t t.store ∧ R ((t.store r).count ad)) → call i right t = .ok (ret, t') →
      (Represents t' t'.store ∧ R ((t'.store r).count ad)) := by
    rintro i right t ret t' ⟨ht, hRt⟩ hm
    have hstep := (hc.eq i right t ret t').mp hm
    exact ⟨(aclStep_store ht hstep).2.2, hR i right t ret t' ht hstep hRt⟩
  exact (recordsLoop_invariant hcall rights i s ⟨hs, h⟩).2

/-- A loop whose first call reaches a count that no later call leaves does not come back to the lists it started with. -/
theorem RecordsCalls.ne_of_first (hc : RecordsCalls call ad) (record : TypeRight → Option Int → Call) {right : TypeRight}
    {rights : List TypeRight} {s s' : Acl} (hs : Represents s s.store) (hfirst : aclStep s (hc.acl 0 right) = .ok (s', 0))
    {r : Fin rightNum} {R : Nat → Prop} (hR : ∀ i right s ret s', Represents s s.store → aclStep s (hc.acl i right) = .ok (s', ret) →
      R ((s.store r).count ad) → R ((s'.store r).count ad))
    (hafter : R ((s'.store r).count ad)) (hbefore : ¬ R ((s.store r).count ad)) :
    (recordsLoop call record 0 (right :: rights) s).1 ≠ s := by
  intro heq
  have hend := hc.count_mono record hR 1 rights (aclStep_store hs hfirst).2.2 hafter
  rw [← hc.first_ok record hfirst, heq] at hend
  exact hbefore hend

end RecordsCalls

/-- One call moves the number of records of a credential by the append or the delete that it is. -/
theorem aclStep_count {s s' : Acl} {c : AclCall (Option Addr)} {ret : Int} (hs : Represents s s.store)
    (h : aclStep s c = .ok (s', ret)) (ad : TypeAuthorizationData) (r : Fin rightNum) :
    (s'.store r).count ad + (c.revokes ad r ret).toNat = (s.store r).count ad + (c.grants ad r ret).toNat := by
  obtain ⟨hstore, hret, -⟩ := aclStep_store hs h
  have hcount := AclRefinementAux.step_count s.store (c.abs s) ad r
  rwa [AclRefinementAux.revokes_abs, AclRefinementAux.grants_abs, hstore, hret] at hcount

/-- An `A` command whose first entry is appended changes the lists. -/
theorem addAclRecords_ne {env : HandlerEnv} {ad : TypeAuthorizationData} {right : TypeRight} {rights : List TypeRight}
    {s : Acl} {r : Fin rightNum} (hs : Represents s s.store) (hr : rightIndex right = some r)
    (hroom : malloc s.heap (env.node 0) ≠ none) : (addAclRecords env ad (right :: rights) s).1 ≠ s := by
  obtain ⟨s', hs'⟩ := @aclStep_append_ok _ ad _ _ _ hr hroom
  have hcount := aclStep_count hs hs' ad r
  simp only [AclCall.revokes, AclCall.grants, hr, and_self, decide_true, Bool.toNat_true, Bool.toNat_false] at hcount
  refine (addCalls env ad).ne_of_first _ hs hs' (R := fun n => (s.store r).count ad < n) ?_ (by omega) (Nat.lt_irrefl _)
  intro i right t ret t' ht hm hlt
  have := aclStep_count ht hm ad r
  simp only [addCalls, AclCall.revokes, Bool.toNat_false] at this
  omega

/-- An `a` command whose first entry is deleted changes the lists. -/
theorem removeAclRecords_ne {ad : TypeAuthorizationData} {right : TypeRight} {rights : List TypeRight} {s : Acl}
    {r : Fin rightNum} (hs : Represents s s.store) (hr : rightIndex right = some r) (hmem : ad ∈ s.store r) :
    (removeAclRecords ad (right :: rights) s).1 ≠ s := by
  obtain ⟨s', hs'⟩ := aclStep_delete_ok hs hr hmem
  have hcount := aclStep_count hs hs' ad r
  simp only [AclCall.revokes, AclCall.grants, hr, and_self, decide_true, Bool.toNat_true, Bool.toNat_false] at hcount
  refine (removeCalls ad).ne_of_first _ hs hs' (R := fun n => n < (s.store r).count ad) ?_ (by omega) (Nat.lt_irrefl _)
  intro i right t ret t' ht hm hlt
  have := aclStep_count ht hm ad r
  simp only [removeCalls, AclCall.grants, Bool.toNat_false] at this
  omega

/-! ## The calls -/

section Calls

variable {call : Nat → TypeRight → Acl → Except Fault (Int × Acl)} {record : TypeRight → Option Int → Call}

/-- A loop over some rights makes a call. -/
theorem recordsLoop_calls_ne_nil {rights : List TypeRight} (h : rights ≠ []) (i : Nat) (s : Acl) :
    (recordsLoop call record i rights s).2.1 ≠ [] := by
  obtain ⟨right, rights, rfl⟩ := List.exists_cons_of_ne_nil h
  unfold recordsLoop
  split
  · exact List.cons_ne_nil _ _
  · split_ifs <;> exact List.cons_ne_nil _ _

/-- A right whose call never returns 0 ends the loop: what comes after it makes no difference. -/
theorem recordsLoop_append_stop {rights : List TypeRight}
    (hstop : ∃ right ∈ rights, ∀ i s s', call i right s ≠ .ok (0, s')) (more : List TypeRight) :
    ∀ i s, recordsLoop call record i (rights ++ more) s = recordsLoop call record i rights s := by
  induction rights with
  | nil =>
    obtain ⟨right, hmem, -⟩ := hstop
    simp at hmem
  | cons right rights ih =>
    intro i s
    simp only [List.cons_append, recordsLoop]
    split
    · rfl
    · rename_i ret s' hm
      split_ifs with hret
      · rfl
      · rw [not_not] at hret
        subst hret
        have hrest : ∃ right ∈ rights, ∀ i s s', call i right s ≠ .ok (0, s') := by
          obtain ⟨bad, hmem, hbad⟩ := hstop
          rcases List.mem_cons.mp hmem with rfl | hmem
          · exact absurd hm (hbad i s s')
          · exact ⟨bad, hmem, hbad⟩
        simp only [ih hrest]

/-- While all calls return 0, the calls show the rights: `P i k` says that at step `i` there are `k` calls that will. -/
theorem recordsLoop_last {P : Nat → Nat → Acl → Prop}
    (hok : ∀ i k right s, P i (k + 1) s → rightIndex right ≠ none → ∃ s', call i right s = .ok (0, s') ∧ P (i + 1) k s')
    (hrecord : ∀ x y a b, record x a = record y b → x = y) {rights : List TypeRight} {x y : TypeRight}
    (hrights : ∀ right ∈ rights, rightIndex right ≠ none) :
    ∀ i s, P i rights.length s →
      (recordsLoop call record i (rights ++ [x]) s).2.1 = (recordsLoop call record i (rights ++ [y]) s).2.1 → x = y := by
  induction rights with
  | nil =>
    intro i s _ h
    have hhead : ∀ right, ∃ ret, (recordsLoop call record i [right] s).2.1.head? = some (record right ret) := by
      intro right
      unfold recordsLoop
      split
      · exact ⟨_, rfl⟩
      · split_ifs <;> exact ⟨_, rfl⟩
    obtain ⟨a, ha⟩ := hhead x
    obtain ⟨b, hb⟩ := hhead y
    rw [List.nil_append, List.nil_append] at h
    rw [h, hb] at ha
    exact (hrecord y x b a (Option.some.inj ha)).symm
  | cons right rights ih =>
    intro i s hP h
    obtain ⟨s', hm, hP'⟩ := hok i rights.length right s hP (hrights right List.mem_cons_self)
    simp only [List.cons_append, recordsLoop, hm, ne_eq, not_true_eq_false, if_false, List.cons.injEq, true_and] at h
    exact ih (fun r hr => hrights r (List.mem_cons_of_mem right hr)) (i + 1) s' hP' h

end Calls

/-- A call for a right without a list does not return 0. -/
theorem addCall_stop (env : HandlerEnv) (ad : TypeAuthorizationData) {right : TypeRight} (h : rightIndex right = none)
    (i : Nat) (s s' : Acl) : (.ok (ccAppendACL (env.node i) (some ad) right s) : Except Fault (Int × Acl)) ≠ .ok (0, s') := by
  intro hok
  simp only [ccAppendACL, h] at hok
  simp at hok

theorem removeCall_stop (ad : TypeAuthorizationData) {right : TypeRight} (h : rightIndex right = none) (s s' : Acl) :
    ccDeleteACL (some ad) right s ≠ .ok (0, s') := by
  intro hok
  simp only [ccDeleteACL, h] at hok
  simp at hok

/-- While fresh addresses come up, every append to a list that exists returns 0. -/
theorem addCall_ok {base i : Nat} {ad : TypeAuthorizationData} {right : TypeRight} {s : Acl}
    (hfresh : ∀ j, i ≤ j → base + j ∉ s.heap) (h : rightIndex right ≠ none) :
    ∃ s', ccAppendACL ((HandlerEnv.plain base).node i) (some ad) right s = (0, s') ∧ ∀ j, i + 1 ≤ j → base + j ∉ s'.heap := by
  obtain ⟨r, hr⟩ := Option.ne_none_iff_exists'.mp h
  have hm : malloc s.heap ((HandlerEnv.plain base).node i) = some (base + i) := by
    simp [malloc, HandlerEnv.plain, hfresh i (Nat.le_refl i)]
  refine ⟨_, by simp only [ccAppendACL, hr, hm]; rfl, ?_⟩
  intro j hj
  have := hfresh j (by omega)
  simp only [Finmap.mem_insert, not_or]
  exact ⟨by omega, this⟩

/-- While every list holds the credential often enough, every delete from a list that exists returns 0. -/
theorem removeCall_ok {k : Nat} {ad : TypeAuthorizationData} {right : TypeRight} {s : Acl}
    (hs : Represents s s.store ∧ ∀ r, k + 1 ≤ (s.store r).count ad) (h : rightIndex right ≠ none) :
    ∃ s', ccDeleteACL (some ad) right s = .ok (0, s') ∧ Represents s' s'.store ∧ ∀ r, k ≤ (s'.store r).count ad := by
  obtain ⟨r, hr⟩ := Option.ne_none_iff_exists'.mp h
  have hmem : ad ∈ s.store r := List.count_pos_iff.mp (by have := hs.2 r; omega)
  obtain ⟨s', hstep⟩ := aclStep_delete_ok hs.1 hr hmem
  refine ⟨s', ((removeCalls ad).eq 0 right s 0 s').mpr hstep, (aclStep_store hs.1 hstep).2.2, ?_⟩
  intro q
  have hcount := aclStep_count hs.1 hstep ad q
  have := hs.2 q
  have := Bool.toNat_le (AclCall.revokes ad q 0 (.delete (some ad) right : AclCall (Option Addr)))
  omega

/-- There are access control lists that all hold the credential as often as one likes. -/
theorem exists_granted (ad : TypeAuthorizationData) (k : Nat) :
    ∃ s : Acl, Represents s s.store ∧ ∀ r, k ≤ (s.store r).count ad := by
  have happend : ∀ (s : Acl), Represents s s.store → ∀ r : Fin rightNum, ∃ s' : Acl, Represents s' s'.store ∧
      ∀ q, (s'.store q).count ad = (s.store q).count ad + if q = r then 1 else 0 := by
    intro s hs r
    obtain ⟨p, hp⟩ := Infinite.exists_notMem_finset s.heap.keys
    have hr : rightIndex (UInt16.ofNat r.val) = some r := by
      revert r
      decide
    have hroom : malloc s.heap (some p) ≠ none := by
      rw [Finmap.mem_keys] at hp
      simp [malloc, hp]
    obtain ⟨s', hstep⟩ := @aclStep_append_ok s ad _ _ r hr hroom
    refine ⟨s', (aclStep_store hs hstep).2.2, fun q => ?_⟩
    have hcount := aclStep_count hs hstep ad q
    simp only [AclCall.revokes, AclCall.grants, hr, Bool.toNat_false] at hcount
    rw [Nat.add_zero] at hcount
    rw [hcount]
    by_cases hq : q = r
    · subst hq
      simp
    · simp [hq, Ne.symm hq]
  induction k with
  | zero => exact ⟨Acl.start, (Device.wellFormed_start none), fun r => Nat.zero_le _⟩
  | succ k ih =>
    obtain ⟨s, hs, hk⟩ := ih
    obtain ⟨s₀, hs₀, h₀⟩ := happend s hs ⟨0, by decide⟩
    obtain ⟨s₁, hs₁, h₁⟩ := happend s₀ hs₀ writeRight
    refine ⟨s₁, hs₁, fun r => ?_⟩
    have hle := hk r
    rw [h₁, h₀]
    have hlists : ∀ q : Fin rightNum, q = ⟨0, by decide⟩ ∨ q = writeRight := by decide
    rcases hlists r with rfl | rfl
    · rw [if_pos rfl]
      omega
    · rw [if_pos rfl]
      omega

end CGuard
