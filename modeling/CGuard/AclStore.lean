import CGuard.Acl
import CGuard.Lib.Machine

/-!
# The abstract access control store

What the linked lists of `gACL` are for: a map from each right to the credentials that hold it, the most recent first.
`Represents` connects a heap with a store, and each of the three calls on the heap returns what the call on the store returns.
-/

namespace CGuard

open LinkedHeap

/-- A call on the access control list. What the allocator would give an append is a label of type `μ`. -/
inductive AclCall (μ : Type) where
  | append (ad : Option TypeAuthorizationData) (right : TypeRight) (room : μ)
  | delete (ad : Option TypeAuthorizationData) (right : TypeRight)
  | check (ad : Option TypeAuthorizationData) (right : TypeRight)

/-- The calls on the heap, as a machine: the output is the return value. -/
def aclStep : Machine.Step Acl (AclCall (Option Addr)) Int Fault
  | s, .append ad right want => let r := ccAppendACL want ad right s; .ok (r.2, r.1)
  | s, .delete ad right => (ccDeleteACL ad right s).map fun r => (r.2, r.1)
  | s, .check ad right => (ccCheckAuthData ad right s).map fun v => (s, v)

/-! ## The store -/

/-- The credentials of each right, the most recent first. -/
abbrev AclStore : Type := Fin rightNum → List TypeAuthorizationData

namespace AclStore

/-- The store that grants nothing. -/
def empty : AclStore := fun _ => []

/-- Granting a right in front of the list, if there is room. -/
def append (room : Bool) (ad : Option TypeAuthorizationData) (right : TypeRight) (σ : AclStore) : AclStore × Int :=
  match ad, rightIndex right with
  | some ad, some r => if room then (Function.update σ r (ad :: σ r), 0) else (σ, -1)
  | _, _ => (σ, -2)

/-- Removing the first occurrence of a credential. -/
def delete (ad : Option TypeAuthorizationData) (right : TypeRight) (σ : AclStore) : AclStore × Int :=
  match ad, rightIndex right with
  | some ad, some r => if ad ∈ σ r then (Function.update σ r ((σ r).erase ad), 0) else (σ, -1)
  | _, _ => (σ, -2)

/-- Whether a credential holds a right. -/
def check (ad : Option TypeAuthorizationData) (right : TypeRight) (σ : AclStore) : Int :=
  match ad, rightIndex right with
  | some ad, some r => if ad ∈ σ r then 0 else 1
  | _, _ => -1

/-- The calls on the store, as a machine that never fails. -/
def step : AclStore → AclCall Bool → AclStore × Int
  | σ, .append ad right room => append room ad right σ
  | σ, .delete ad right => delete ad right σ
  | σ, .check ad right => (σ, check ad right σ)

end AclStore

/-- The call on the store that a call on the heap stands for: whether an append has room is what `malloc` answers. -/
def AclCall.abs (s : Acl) : AclCall (Option Addr) → AclCall Bool
  | .append ad right want => .append ad right (malloc s.heap want).isSome
  | .delete ad right => .delete ad right
  | .check ad right => .check ad right

/-- The credentials a walk from a link meets. -/
def recordsFrom (h : Heap ACLListNode) : Nat → Option Addr → List TypeAuthorizationData
  | fuel + 1, some p =>
    match h.lookup p with
    | some n => n.ad :: recordsFrom h fuel n.next
    | none => []
  | _, _ => []

/-- The store read off the lists. -/
def Acl.store (s : Acl) : AclStore := fun r => recordsFrom s.heap s.heap.keys.card (s.gACL r)

/-! ## Representation -/

/-- The heap holds the credentials of the store in its chains, and nothing else. -/
def Represents (s : Acl) (σ : AclStore) : Prop :=
  ∃ ls : Fin rightNum → List (Addr × TypeAuthorizationData),
    Forest ACLListNode.mk s.heap s.gACL ls ∧ ∀ r, payloads (ls r) = σ r

/-- The payloads of an updated family are the updated payloads. -/
theorem payloads_update {ls : Fin rightNum → List (Addr × TypeAuthorizationData)} {σ : AclStore}
    (h : ∀ r, payloads (ls r) = σ r) (r : Fin rightNum) {xs : List (Addr × TypeAuthorizationData)}
    {ys : List TypeAuthorizationData} (hxy : payloads xs = ys) (q : Fin rightNum) :
    payloads (Function.update ls r xs q) = Function.update σ r ys q := by
  by_cases hq : q = r
  · subst hq
    simpa only [Function.update_self] using hxy
  · simpa only [Function.update_of_ne hq] using h q

/-- After `InitSecurityEnforcement` the lists of the process represent the store that grants nothing. -/
theorem represents_start : Represents (initSecurityEnforcement Acl.start) AclStore.empty :=
  ⟨fun _ => [], Forest.empty, fun _ => rfl⟩

/-- The list of a right is null exactly when the store grants it to nobody. -/
theorem Represents.head_none_iff {s : Acl} {σ : AclStore} (h : Represents s σ) (r : Fin rightNum) :
    s.gACL r = none ↔ σ r = [] := by
  obtain ⟨ls, hf, hp⟩ := h
  have hc := hf.chain r
  rw [← hp r]
  constructor
  · intro hn
    rw [hn] at hc
    rw [hc.none_eq, payloads_nil]
  · intro hn
    have hls : ls r = [] := by
      cases hl : ls r with
      | nil => rfl
      | cons x xs => rw [hl, payloads_cons] at hn; simp at hn
    rw [hls] at hc
    generalize s.gACL r = p at hc
    cases hc
    rfl

/-- The walk along a chain meets its payloads. -/
theorem recordsFrom_eq {h : Heap ACLListNode} {xs : List (Addr × TypeAuthorizationData)} :
    ∀ {fuel : Nat} {p : Option Addr}, Chain ACLListNode.mk h p xs → xs.length ≤ fuel →
      recordsFrom h fuel p = payloads xs := by
  induction xs with
  | nil =>
    intro fuel p hc _
    cases hc
    cases fuel <;> rfl
  | cons x xs ih =>
    intro fuel p hc hf
    cases hc with
    | cons hl hs =>
      obtain ⟨fuel, rfl⟩ : ∃ k, fuel = k + 1 := ⟨fuel - 1, by simp only [List.length_cons] at hf; omega⟩
      simp only [List.length_cons, Nat.add_le_add_iff_right] at hf
      simp only [recordsFrom, hl, ih hs hf, payloads_cons]

/-- The store that a heap represents is the one read off its lists. -/
theorem Represents.store_eq {s : Acl} {σ : AclStore} (h : Represents s σ) : s.store = σ := by
  obtain ⟨ls, hf, hp⟩ := h
  funext r
  rw [← hp r]
  exact recordsFrom_eq (hf.chain r) ((hf.chain r).length_le aclListNode_injective)

/-- The live nodes are exactly the credentials of the store. -/
theorem Represents.card {s : Acl} {σ : AclStore} (h : Represents s σ) :
    s.heap.keys.card = ∑ r, (σ r).length := by
  obtain ⟨ls, hf, hp⟩ := h
  rw [hf.card aclListNode_injective]
  exact Finset.sum_congr rfl fun r _ => by rw [← hp r, payloads_length]

/-- `CC_AppendACL` on a represented heap is the append of the store. -/
theorem Represents.append {s : Acl} {σ : AclStore} (h : Represents s σ) (want : Option Addr)
    (ad : Option TypeAuthorizationData) (right : TypeRight) :
    (ccAppendACL want ad right s).1 = (AclStore.append (malloc s.heap want).isSome ad right σ).2 ∧
    Represents (ccAppendACL want ad right s).2 (AclStore.append (malloc s.heap want).isSome ad right σ).1 := by
  rcases ad with _ | ad
  · exact ⟨rfl, h⟩
  cases hr : rightIndex right with
  | none =>
    simp only [ccAppendACL, AclStore.append, hr]
    exact ⟨trivial, h⟩
  | some r =>
    cases hm : malloc s.heap want with
    | none =>
      simp only [ccAppendACL, AclStore.append, hr, hm, Option.isSome_none, Bool.false_eq_true, if_false]
      exact ⟨trivial, h⟩
    | some p =>
      simp only [ccAppendACL, AclStore.append, hr, hm, Option.isSome_some, if_true]
      obtain ⟨ls, hf, hp⟩ := h
      refine ⟨trivial, Function.update ls r ((p, ad) :: ls r), hf.push r (malloc_fresh hm) ad, ?_⟩
      exact payloads_update hp r (by rw [payloads_cons, hp r])

/-- `CC_CheckAuthData` on a represented heap returns what the store says. -/
theorem Represents.check {s : Acl} {σ : AclStore} (h : Represents s σ) (ad : Option TypeAuthorizationData)
    (right : TypeRight) : ccCheckAuthData ad right s = .ok (AclStore.check ad right σ) := by
  obtain ⟨ls, hf, hp⟩ := h
  rcases ad with _ | ad
  · rfl
  cases hr : rightIndex right with
  | none => simp only [ccCheckAuthData, AclStore.check, hr]
  | some r =>
    simp only [ccCheckAuthData, AclStore.check, hr]
    rw [checkLoop_eq (hf.chain r) ((hf.chain r).length_le aclListNode_injective), hp r]

/-- A list that holds a credential splits at its first occurrence. -/
theorem exists_first_payload {ad : TypeAuthorizationData} {xs : List (Addr × TypeAuthorizationData)}
    (h : ad ∈ payloads xs) : ∃ pre a post, xs = pre ++ (a, ad) :: post ∧ ad ∉ payloads pre := by
  induction xs with
  | nil => simp at h
  | cons x xs ih =>
    by_cases hx : x.2 = ad
    · exact ⟨[], x.1, xs, by rw [← hx]; rfl, List.not_mem_nil⟩
    · rw [payloads_cons] at h
      rcases List.mem_cons.mp h with h | h
      · exact absurd h.symm hx
      · obtain ⟨pre, a, post, rfl, hn⟩ := ih h
        refine ⟨x :: pre, a, post, rfl, ?_⟩
        rw [payloads_cons, List.mem_cons, not_or]
        exact ⟨Ne.symm hx, hn⟩

/-- Erasing a credential from the payloads removes the first node that holds it. -/
theorem payloads_erase {ad : TypeAuthorizationData} {a : Addr} {pre post : List (Addr × TypeAuthorizationData)}
    (hn : ad ∉ payloads pre) :
    (payloads (pre ++ (a, ad) :: post)).erase ad = payloads (pre ++ post) := by
  rw [payloads_append, payloads_append, List.erase_append_right _ hn, payloads_cons, List.erase_cons_head]

/-- `CC_DeleteACL` on a list of a represented heap that is not empty: the first occurrence goes, if there is one. -/
theorem Represents.delete_in {s : Acl} {σ : AclStore} (h : Represents s σ) {ad : TypeAuthorizationData}
    {right : TypeRight} {r : Fin rightNum} (hr : rightIndex right = some r) (hne : s.gACL r ≠ none) :
    ∃ s', ccDeleteACL (some ad) right s = .ok (if ad ∈ σ r then 0 else -1, s') ∧
      Represents s' (if ad ∈ σ r then Function.update σ r ((σ r).erase ad) else σ) := by
  obtain ⟨p, hp⟩ := Option.ne_none_iff_exists'.mp hne
  obtain ⟨ls, hf, hpay⟩ := h
  have hlen := (hf.chain r).length_le aclListNode_injective
  have hc := hf.chain r
  rw [hp] at hc
  obtain ⟨b, q, ys, hls, hl, hys⟩ := hc.some_cases
  have hσ : σ r = b :: payloads ys := by rw [← hpay r, hls, payloads_cons]
  rw [hls, List.length_cons] at hlen
  simp only [ccDeleteACL, hr, hp, load_of_lookup hl, bind, Except.bind]
  by_cases hb : b = ad
  · -- the first node holds the credential: the head moves on
    subst hb
    have hmem : b ∈ σ r := by rw [hσ]; exact List.mem_cons_self
    simp only [if_pos hmem, if_true]
    refine ⟨_, rfl, Function.update ls r ys, hf.pop aclListNode_injective r hls hl, ?_⟩
    exact payloads_update hpay r (by rw [hσ, List.erase_cons_head])
  · simp only [if_neg hb]
    by_cases hmem : ad ∈ payloads ys
    · -- an inner node holds it: the node before it takes over its link
      obtain ⟨pre, a, post, rfl, hn⟩ := exists_first_payload hmem
      rw [hls] at hc
      obtain ⟨pre', p', c', p2, q', hpre, hlp, hla, hdel⟩ := deleteLoop_found hc (Nat.le_of_succ_le hlen) hn
      obtain rfl : q = p2 := by rw [hl] at hlp; simpa using hlp
      have hmemσ : ad ∈ σ r := by rw [hσ]; exact List.mem_cons_of_mem _ hmem
      have hsplit : ls r = pre' ++ (p', c') :: (a, ad) :: post := by
        rw [hls, ← List.cons_append, hpre, List.append_assoc, List.singleton_append]
      simp only [if_pos hmemσ, hdel]
      refine ⟨_, rfl, _, hf.unlink aclListNode_injective r hsplit hla, ?_⟩
      refine payloads_update hpay r ?_
      rw [hσ, List.erase_cons_tail (by simpa using hb), payloads_erase hn, ← payloads_cons (p, b), ← List.cons_append,
        hpre, List.append_assoc, List.singleton_append]
    · have hmemσ : ad ∉ σ r := by
        rw [hσ, List.mem_cons, not_or]
        exact ⟨Ne.symm hb, hmem⟩
      simp only [if_neg hmemσ]
      exact ⟨s, deleteLoop_absent hys (Nat.le_of_succ_le hlen) hmem, ls, hf, hpay⟩

/-- The condition of the caller: an in-range right is deleted from only while its list is not empty. -/
def DeleteInhabited (s : Acl) : AclCall (Option Addr) → Prop
  | .delete (some _) right => ∀ r, rightIndex right = some r → s.gACL r ≠ none
  | _ => True

instance (s : Acl) (c : AclCall (Option Addr)) : Decidable (DeleteInhabited s c) := by
  unfold DeleteInhabited
  split <;> infer_instance

/-- `CC_DeleteACL` on a represented heap, under the condition of the caller, is the delete of the store. -/
theorem Represents.delete {s : Acl} {σ : AclStore} (h : Represents s σ) {ad : Option TypeAuthorizationData}
    {right : TypeRight} (hne : DeleteInhabited s (.delete ad right)) :
    ∃ s', ccDeleteACL ad right s = .ok ((AclStore.delete ad right σ).2, s') ∧
      Represents s' (AclStore.delete ad right σ).1 := by
  rcases ad with _ | ad
  · exact ⟨s, rfl, h⟩
  cases hr : rightIndex right with
  | none =>
    simp only [ccDeleteACL, AclStore.delete, hr]
    exact ⟨s, rfl, h⟩
  | some r =>
    obtain ⟨s', hd, hrep⟩ := @Represents.delete_in _ _ h ad _ _ hr (hne r hr)
    refine ⟨s', ?_, ?_⟩
    · rw [hd]
      simp only [AclStore.delete, hr]
      split <;> rfl
    · simp only [AclStore.delete, hr]
      split <;> simp_all

/-- `CC_DeleteACL` on an empty list of a represented heap reads through the null head. -/
theorem ccDeleteACL_empty {s : Acl} {ad : TypeAuthorizationData} {right : TypeRight} {r : Fin rightNum}
    (hr : rightIndex right = some r) (hn : s.gACL r = none) :
    ccDeleteACL (some ad) right s = .error .nullDereference := by
  unfold ccDeleteACL
  simp only [hr, hn, load, bind, Except.bind]

end CGuard
