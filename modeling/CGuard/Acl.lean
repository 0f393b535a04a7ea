import CGuard.Lib.LinkedHeap

/-!
# The access control list

`CGuard.c` and `CGuard.h`: the records of `gACL`, a linked list for each right, and the functions that append, look up and
delete a record. A record is a node of a heap, so a function that follows a link can fail: the link may be null or dangling, and
a walk that loads more nodes than the heap has is endless. `malloc` answers null or an address that is not allocated; which of
them is an argument (`want`) of every function that calls it.
-/

namespace CGuard

open LinkedHeap

/-- (CGuardRightConfig.h) The number of rights. -/
def rightNum : Nat := 2

/-- (CGuardRightConfig.h) `RIGHT_lightBulbOnCharacteristic_READ`. -/
def rightLightBulbOnCharacteristicREAD : UInt16 := 0

/-- (CGuardRightConfig.h) `RIGHT_lightBulbOnCharacteristic_WRITE`. -/
def rightLightBulbOnCharacteristicWRITE : UInt16 := 1

/-- (CGuard.h) The length of a credential in bytes. -/
def authorizationDataLength : Nat := 32

/-- (CGuard.h) The length of the base64 text of a credential. -/
def base64AuthorizationDataLength : Nat :=
  if authorizationDataLength % 3 ≠ 0 then (authorizationDataLength / 3 + 1) * 4 else authorizationDataLength / 3 * 4

/-- (CGuard.h) A credential: an array of exactly `AuthorizationDataLength` bytes. -/
structure TypeAuthorizationData where
  bytes : List UInt8
  length_eq : bytes.length = authorizationDataLength
  deriving DecidableEq

/-- The credential whose bytes are all the same. -/
def TypeAuthorizationData.uniform (b : UInt8) : TypeAuthorizationData where
  bytes := List.replicate authorizationDataLength b
  length_eq := List.length_replicate

/-- (CGuard.h) A right, an `unsigned short`. -/
abbrev TypeRight : Type := UInt16

/-- (CGuard.h) A record of the list of a right. -/
structure ACLListNode where
  ad : TypeAuthorizationData
  next : Option Addr
  deriving DecidableEq

/-- What ends the process, or leaves the language: a read through a null or dangling pointer, a walk without end, an access
outside an array, a failed precondition or a fatal error of the HomeKit platform. -/
inductive Fault where
  | nullDereference | useAfterFree | endless | outOfBounds | preconditionFailed | fatalError
  deriving DecidableEq, Repr

/-- The list heads `gACL` and the heap their nodes live in. -/
structure Acl where
  heap : Heap ACLListNode
  gACL : Fin rightNum → Option Addr

/-- The test `right >= 0 && right < RIGHT_NUM`, and the index it allows. -/
def rightIndex (right : TypeRight) : Option (Fin rightNum) :=
  if h : right.toNat < rightNum then some ⟨right.toNat, h⟩ else none

/-- The index of the right that a HomeKit write needs. -/
def writeRight : Fin rightNum := ⟨1, by decide⟩

/-- What `malloc` answers when the allocator would give `want`: null, or an address that is not allocated. -/
def malloc (h : Heap ACLListNode) (want : Option Addr) : Option Addr := want.filter (fun a => a ∉ h)

/-- Reading the node a pointer names. -/
def load (h : Heap ACLListNode) : Option Addr → Except Fault (Addr × ACLListNode)
  | none => .error .nullDereference
  | some a =>
    match h.lookup a with
    | none => .error .useAfterFree
    | some n => .ok (a, n)

/-- The process before it calls anything: `gACL` is a static array, so every head is null. -/
def Acl.start : Acl := { heap := ∅, gACL := fun _ => none }

/-- (CGuard.c) `InitSecurityEnforcement`: every list head becomes null. -/
def initSecurityEnforcement (s : Acl) : Acl := { s with gACL := fun _ => none }

/-- (CGuard.c) `CC_AppendACL`: a new node in front of the list of the right. -/
def ccAppendACL (want : Option Addr) (ad : Option TypeAuthorizationData) (right : TypeRight) (s : Acl) : Int × Acl :=
  match ad, rightIndex right with
  | some ad, some r =>
    match malloc s.heap want with
    | none => (-1, s)
    | some p => (0, { heap := s.heap.insert p ⟨ad, s.gACL r⟩, gACL := Function.update s.gACL r (some p) })
  | _, _ => (-2, s)

/-- The `while (p)` of `CC_CheckAuthData`, with a bound on the nodes it may load. -/
def checkLoop (h : Heap ACLListNode) (ad : TypeAuthorizationData) : Nat → Option Addr → Except Fault Int
  | _, none => .ok 1
  | 0, some _ => .error .endless
  | fuel + 1, some p => do
    let (_, n) ← load h (some p)
    if n.ad = ad then .ok 0 else checkLoop h ad fuel n.next

/-- (CGuard.c) `CC_CheckAuthData`. A walk that loads more nodes than are allocated visits one of them again: it is endless. -/
def ccCheckAuthData (ad : Option TypeAuthorizationData) (right : TypeRight) (s : Acl) : Except Fault Int :=
  match ad, rightIndex right with
  | some ad, some r => checkLoop s.heap ad s.heap.keys.card (s.gACL r)
  | _, _ => .ok (-1)

/-- The `while (p2)` of `CC_DeleteACL`: `p1` is the node before `p2`. -/
def deleteLoop (s : Acl) (ad : TypeAuthorizationData) : Nat → Addr → Option Addr → Except Fault (Int × Acl)
  | _, _, none => .ok (-1, s)
  | 0, _, some _ => .error .endless
  | fuel + 1, p1, some p2 => do
    let (p2, n2) ← load s.heap (some p2)
    if n2.ad = ad then
      let (p1, n1) ← load s.heap (some p1)
      .ok (0, { s with heap := (s.heap.insert p1 ⟨n1.ad, n2.next⟩).erase p2 })
    else deleteLoop s ad fuel p2 n2.next

/-- (CGuard.c) `CC_DeleteACL`. The head is read without a test that the list has one. -/
def ccDeleteACL (ad : Option TypeAuthorizationData) (right : TypeRight) (s : Acl) : Except Fault (Int × Acl) :=
  match ad, rightIndex right with
  | some ad, some r => do
    let (p2, n2) ← load s.heap (s.gACL r)
    if n2.ad = ad then
      .ok (0, { heap := s.heap.erase p2, gACL := Function.update s.gACL r n2.next })
    else deleteLoop s ad s.heap.keys.card p2 n2.next
  | _, _ => .ok (-2, s)

/-! ## Computations that return -/

/-- A computation that returns, taken apart. -/
theorem bind_ok {ε α β : Type} {x : Except ε α} {f : α → Except ε β} {b : β} (h : (x >>= f) = .ok b) :
    ∃ a, x = .ok a ∧ f a = .ok b := by
  cases x with
  | error e => cases h
  | ok a => exact ⟨a, rfl, h⟩

/-- A mapped computation that returns, taken apart. -/
theorem map_ok {ε α β : Type} {f : α → β} {x : Except ε α} {b : β} (h : x.map f = .ok b) : ∃ a, x = .ok a ∧ f a = b := by
  cases x with
  | error e => cases h
  | ok a => exact ⟨a, rfl, Except.ok.inj h⟩

/-! ## Walks along a chain -/

theorem aclListNode_injective : Function.Injective2 ACLListNode.mk := by
  intro a b p q h
  exact ⟨congrArg ACLListNode.ad h, congrArg ACLListNode.next h⟩

/-- Two rights with the same index are the same right. -/
theorem rightIndex_inj {right right' : TypeRight} {r : Fin rightNum} (h : rightIndex right = some r)
    (h' : rightIndex right' = some r) : right' = right := by
  unfold rightIndex at h h'
  split at h
  · split at h'
    · have heq := Option.some.inj (h.trans h'.symm)
      exact UInt16.toNat_inj.mp (congrArg Fin.val heq).symm
    · simp at h'
  · simp at h

@[simp] theorem load_of_lookup {h : Heap ACLListNode} {a : Addr} {n : ACLListNode} (hl : h.lookup a = some n) :
    load h (some a) = .ok (a, n) := by
  simp only [load, hl]

/-- A read that returns went through a pointer to the node it gives. -/
theorem load_ok {h : Heap ACLListNode} {p : Option Addr} {a : Addr} {n : ACLListNode} (hl : load h p = .ok (a, n)) :
    p = some a ∧ h.lookup a = some n := by
  unfold load at hl
  split at hl
  · simp at hl
  · split at hl
    · simp at hl
    · rename_i hn
      cases hl
      exact ⟨rfl, hn⟩

/-- A computation that returns after a read through a pointer has read a node there. -/
theorem load_bind_ok {β : Type} {h : Heap ACLListNode} {p : Addr} {f : Addr × ACLListNode → Except Fault β} {b : β}
    (hm : (load h (some p) >>= f) = .ok b) : ∃ n, h.lookup p = some n ∧ f (p, n) = .ok b := by
  obtain ⟨⟨a, n⟩, hl, hf⟩ := bind_ok hm
  obtain ⟨hp, hn⟩ := load_ok hl
  cases hp
  exact ⟨n, hn, hf⟩

/-- `malloc` never answers an allocated address. -/
theorem malloc_fresh {h : Heap ACLListNode} {want : Option Addr} {p : Addr} (hm : malloc h want = some p) : p ∉ h := by
  obtain ⟨-, hp⟩ := Option.filter_eq_some_iff.mp hm
  simpa using hp

/-- The walk of `CC_CheckAuthData` along a chain: 0 when the credential is a payload of the chain, 1 when it is not. -/
theorem checkLoop_eq {h : Heap ACLListNode} {ad : TypeAuthorizationData} {xs : List (Addr × TypeAuthorizationData)} :
    ∀ {fuel : Nat} {p : Option Addr}, Chain ACLListNode.mk h p xs → xs.length ≤ fuel →
      checkLoop h ad fuel p = .ok (if ad ∈ payloads xs then 0 else 1) := by
  induction xs with
  | nil =>
    intro fuel p hc _
    cases hc
    simp [checkLoop]
  | cons x xs ih =>
    intro fuel p hc hf
    cases hc with
    | @cons a b q _ _ hl hs =>
      obtain ⟨fuel, rfl⟩ : ∃ k, fuel = k + 1 := ⟨fuel - 1, by simp only [List.length_cons] at hf; omega⟩
      simp only [List.length_cons, Nat.add_le_add_iff_right] at hf
      simp only [checkLoop, load_of_lookup hl, bind, Except.bind]
      by_cases hb : b = ad
      · simp [hb]
      · simp [hb, Ne.symm hb, ih hs hf]

/-- The walk of `CC_DeleteACL` when no node past the first holds the credential: -1, and nothing changes. -/
theorem deleteLoop_absent {s : Acl} {ad : TypeAuthorizationData} {xs : List (Addr × TypeAuthorizationData)} :
    ∀ {fuel : Nat} {p1 : Addr} {p2 : Option Addr}, Chain ACLListNode.mk s.heap p2 xs → xs.length ≤ fuel →
      ad ∉ payloads xs → deleteLoop s ad fuel p1 p2 = .ok (-1, s) := by
  induction xs with
  | nil =>
    intro fuel p1 p2 hc _ _
    cases hc
    simp [deleteLoop]
  | cons x xs ih =>
    intro fuel p1 p2 hc hf hn
    cases hc with
    | @cons a b q _ _ hl hs =>
      obtain ⟨fuel, rfl⟩ : ∃ k, fuel = k + 1 := ⟨fuel - 1, by simp only [List.length_cons] at hf; omega⟩
      simp only [List.length_cons, Nat.add_le_add_iff_right] at hf
      simp only [payloads_cons, List.mem_cons, not_or] at hn
      simp only [deleteLoop, load_of_lookup hl, bind, Except.bind, if_neg (Ne.symm hn.1)]
      exact ih hs hf hn.2

/-- The walk of `CC_DeleteACL` when a node past the first holds the credential: the first such node is freed, and the node
before it takes over its link. -/
theorem deleteLoop_found {s : Acl} {ad : TypeAuthorizationData} {a : Addr}
    {pre post : List (Addr × TypeAuthorizationData)} :
    ∀ {fuel : Nat} {p1 : Addr} {c : TypeAuthorizationData},
      Chain ACLListNode.mk s.heap (some p1) ((p1, c) :: (pre ++ (a, ad) :: post)) →
      (pre ++ (a, ad) :: post).length ≤ fuel → ad ∉ payloads pre →
      ∃ pre' p c' p2 q, (p1, c) :: pre = pre' ++ [(p, c')] ∧ s.heap.lookup p1 = some ⟨c, p2⟩ ∧
        s.heap.lookup a = some ⟨ad, q⟩ ∧
        deleteLoop s ad fuel p1 p2 = .ok (0, { s with heap := (s.heap.insert p ⟨c', q⟩).erase a }) := by
  induction pre with
  | nil =>
    intro fuel p1 c hc hf _
    obtain ⟨fuel, rfl⟩ : ∃ k, fuel = k + 1 := ⟨fuel - 1, by simp at hf; omega⟩
    cases hc with
    | cons hl hs =>
      cases hs with
      | @cons _ _ q _ _ hl' hs =>
        refine ⟨[], p1, c, some a, q, rfl, hl, hl', ?_⟩
        simp [deleteLoop, load_of_lookup hl, load_of_lookup hl', bind, Except.bind]
  | cons x pre ih =>
    intro fuel p1 c hc hf hn
    obtain ⟨fuel, rfl⟩ : ∃ k, fuel = k + 1 := ⟨fuel - 1, by simp at hf; omega⟩
    simp only [payloads_cons, List.mem_cons, not_or] at hn
    cases hc with
    | @cons _ _ p2 _ _ hl hs =>
      obtain ⟨d, b⟩ := x
      have hp2 : p2 = some d := by cases hs; rfl
      subst hp2
      obtain ⟨pre', p, c', p3, q, hpre, hld, hla, hdel⟩ :=
        @ih fuel _ _ hs (by simp only [List.cons_append, List.length_cons] at hf; omega) hn.2
      refine ⟨(p1, c) :: pre', p, c', some d, q, by rw [hpre, List.cons_append], hl, hla, ?_⟩
      simp only [deleteLoop, load_of_lookup hld, bind, Except.bind, if_neg (Ne.symm hn.1)]
      exact hdel

end CGuard
