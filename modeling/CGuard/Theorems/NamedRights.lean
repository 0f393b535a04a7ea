import CGuard.Lemmas.RecordsRun
import CGuard.Lemmas.RightsText
import CGuard.Theorems.Undecodable

/-!
# What an entry of a rights list acts on

An entry is read as an `int` and stored as an `unsigned short` before the one test of its range: the test sees the number modulo 65536.
-/

namespace CGuard

open CString LinkedHeap UndecodableAux

/-- The call appends to the list of the right, or deletes from it, a record of the credential: it passes the test of its arguments. -/
def Call.ActsOn : Call → TypeAuthorizationData → Fin rightNum → Prop
  | .ccAppendACL ad right _, ad', r | .ccDeleteACL ad right _, ad', r => ad' = ad ∧ rightIndex right = some r
  | _, _, _ => False

namespace NamedRightsAux

/-! ### What acting means -/

/-- A call on the access control list leaves the lists that it does not act on. -/
theorem aclStep_other {s s' : Acl} (hs : Represents s s.store) {c : AclCall (Option Addr)} {ret : Int}
    (h : aclStep s c = .ok (s', ret)) {right : TypeRight} {r : Fin rightNum} (hr : rightIndex right ≠ some r)
    (hc : ∃ ad, (∃ want, c = .append ad right want) ∨ c = .delete ad right) : s'.store r = s.store r := by
  obtain ⟨hstore, -, -⟩ := aclStep_store hs h
  rw [← hstore]
  have hupdate : ∀ {q : Fin rightNum}, rightIndex right = some q → ∀ records, Function.update s.store q records r = s.store r := by
    intro q hq records
    exact Function.update_of_ne (fun e => hr (by rw [e]; exact hq)) _ _
  obtain ⟨ad, ⟨want, rfl⟩ | rfl⟩ := hc
  · simp only [AclCall.abs, AclStore.step, AclStore.append]
    split
    · rename_i hq
      split_ifs
      · exact hupdate hq _
      · rfl
    · rfl
  · simp only [AclCall.abs, AclStore.step, AclStore.delete]
    split
    · rename_i hq
      split_ifs
      · exact hupdate hq _
      · rfl
    · rfl

/-- A loop whose calls do not act on a list leaves it as it was. -/
theorem recordsLoop_other {call : Nat → TypeRight → Acl → Except Fault (Int × Acl)} {ad : TypeAuthorizationData}
    (hc : RecordsCalls call ad)
    (hacl : ∀ i right, ∃ ad, (∃ want, hc.acl i right = .append ad right want) ∨ hc.acl i right = .delete ad right)
    (record : TypeRight → Option Int → Call) {r : Fin rightNum}
    (hrecord : ∀ right ret, rightIndex right = some r → ∃ ad, (record right ret).ActsOn ad r) (rights : List TypeRight) :
    ∀ i s, Represents s s.store → (∀ c ∈ (recordsLoop call record i rights s).2.1, ∀ ad, ¬ c.ActsOn ad r) →
      (recordsLoop call record i rights s).1.store r = s.store r := by
  induction rights with
  | nil => exact fun _ _ _ _ => rfl
  | cons right rights ih =>
    intro i s hs h
    cases hm : call i right s with
    | error f => simp only [recordsLoop, hm]
    | ok out =>
      obtain ⟨ret, s'⟩ := out
      have hstep := (hc.eq i right s ret s').mp hm
      have hr : rightIndex right ≠ some r := by
        intro hr
        obtain ⟨ad, hacts⟩ := hrecord right (some ret) hr
        refine h _ ?_ ad hacts
        simp only [recordsLoop, hm]
        split_ifs <;> exact List.mem_cons_self
      have hsame := aclStep_other hs hstep hr (hacl i right)
      simp only [recordsLoop, hm] at h ⊢
      split_ifs at h ⊢ with hret
      · exact hsame
      · rw [ih (i + 1) s' (aclStep_store hs hstep).2.2 (fun c hmem => h c (List.mem_cons_of_mem _ hmem)), hsame]

/-! ### The right of an entry -/

/-- The index of the right that a number is stored as. -/
theorem rightIndex_ofInt (x : Int) (r : Fin rightNum) : rightIndex (UInt16.ofInt x) = some r ↔ x % 65536 = r.val := by
  have htoNat : ((UInt16.ofInt x).toNat : Int) = x % 65536 := by
    rw [UInt16.ofInt, UInt16.toNat_ofNat']
    omega
  unfold rightIndex
  split
  · rw [Option.some.injEq, Fin.ext_iff]
    simp only
    omega
  · rename_i h
    have hlt := r.isLt
    simp only [reduceCtorEq, false_iff]
    omega

/-- An entry acts on the pair that it names, and on no other, unless its number is none of a right but becomes one modulo 65536. -/
theorem named_iff (x : Int) :
    (∀ r : Fin rightNum, rightIndex (UInt16.ofInt x) = some r ↔ (r.val : Int) = x) ↔
      (0 ≤ x ∧ x < rightNum) ∨ (rightNum : Int) ≤ x % 65536 := by
  simp only [rightIndex_ofInt]
  have hnum : rightNum = 2 := rfl
  constructor
  · intro h
    by_contra hnot
    rw [not_or] at hnot
    have h1 := h ⟨(x % 65536).toNat, by omega⟩
    simp only at h1
    omega
  · intro h r
    have hlt := r.isLt
    omega

/-- The value of a number that is an `int`. -/
theorem rightOfToken_of_int {token : List UInt8} (h : -2 ^ 31 ≤ strtol token ∧ strtol token < 2 ^ 31) :
    rightOfToken token = UInt16.ofInt (strtol token) := by
  rw [rightOfToken, atoi, toInt, Int.bmod_eq_of_le (by omega) (by omega)]

/-- The call of an entry is for the credential of the command and the number of the entry. -/
theorem call_of_entry {env : HandlerEnv} {payload text : List UInt8} {d : Device} (hcmd : isAclCommand payload)
    {ad : TypeAuthorizationData} (hfield : decodedField payload = some ad) (htext : cstring (payload.drop rightsOffset) = some text)
    {j : Nat} {call : Call} (hcall : (iotSubscribeCallbackHandler env payload d).calls[j]? = some call) :
    ∃ token ret, (tokens rightDelimiter text)[j + 1]? = some token ∧
      (call = .ccAppendACL ad (rightOfToken token) ret ∨ call = .ccDeleteACL ad (rightOfToken token) ret) := by
  obtain ⟨loop, hc, record, hrun, hrecord⟩ := handler_records env d hcmd
  rw [hrun] at hcall
  cases hargs : aclArguments env payload with
  | error f =>
    simp only [aclCommand, hargs] at hcall
    simp at hcall
  | ok args =>
    obtain ⟨ad', rights⟩ := args
    obtain rfl := aclArguments_decoded hargs hfield
    simp only [aclCommand, hargs] at hcall
    obtain ⟨right, ret, hright, rfl⟩ := (recordsLoop_inOrder (loop ad') (record ad') rights 0 d.acl).get hcall
    -- the rights that were read are the entries after the count
    obtain ⟨text', field, htext', -, -, hcommand⟩ := aclArguments_ok hargs
    cases htext.symm.trans htext'
    obtain ⟨token, htoken, rfl⟩ := commandRights_get hcommand hright
    refine ⟨token, ret, htoken, ?_⟩
    rcases hrecord with ⟨rfl, -⟩ | ⟨rfl, -⟩
    · exact Or.inl rfl
    · exact Or.inr rfl

end NamedRightsAux

open NamedRightsAux

/-- A list on which no call of a command acts is left as it was. -/
theorem store_eq_of_not_actsOn (env : HandlerEnv) (payload : List UInt8) (d : Device) (hd : d.WellFormed)
    (hcmd : isAclCommand payload) (r : Fin rightNum)
    (h : ∀ call ∈ (iotSubscribeCallbackHandler env payload d).calls, ∀ ad, ¬ call.ActsOn ad r) :
    (iotSubscribeCallbackHandler env payload d).device.acl.store r = d.acl.store r := by
  obtain ⟨loop, hc, record, hrun, hrecord⟩ := handler_records env d hcmd
  rw [hrun] at h ⊢
  unfold aclCommand at h ⊢
  split at h
  · rfl
  · rename_i ad rights _
    refine recordsLoop_other (hc ad) (fun i right => ⟨some ad, ?_⟩) (record ad) (fun right ret hr => ⟨ad, ?_⟩) rights 0 _ hd h
    · rcases hrecord with ⟨-, hacl⟩ | ⟨-, hacl⟩
      · exact Or.inl (hacl ad i right)
      · exact Or.inr (hacl ad i right)
    · rcases hrecord with ⟨rfl, -⟩ | ⟨rfl, -⟩ <;> exact ⟨rfl, hr⟩

end CGuard
