import CGuard.AclStore

/-!
# The lists of `gACL` under two threads

The HomeKit thread walks a list in `CC_CheckAuthData` while the thread of the manufacturer's channel runs `CC_AppendACL` and
`CC_DeleteACL`. Each load, each store and each `free` of a node or of a list head is one step, and the steps of the two threads come in
any order. A thread that runs a call alone does what the call does in one piece.
-/

namespace CGuard

open LinkedHeap Machine

/-- The arguments of a call that passed the test at its entry. -/
structure CheckedArgs where
  ad : TypeAuthorizationData
  right : TypeRight
  right_lt : right.toNat < rightNum

/-- The index of `gACL` that the call works on. -/
def CheckedArgs.index (c : CheckedArgs) : Fin rightNum := ⟨c.right.toNat, c.right_lt⟩

/-- The test `ad && right >= 0 && right < RIGHT_NUM`. -/
def checkArgs (ad : Option TypeAuthorizationData) (right : TypeRight) : Option CheckedArgs :=
  match ad with
  | some ad => if h : right.toNat < rightNum then some ⟨ad, right, h⟩ else none
  | none => none

/-- Where a thread is in `CC_CheckAuthData`, with its variable `p`. -/
inductive CheckPc where
  | idle
  /-- before `p = gACL[right]` -/
  | head (c : CheckedArgs)
  /-- before `while (p)` and the `memcmp` -/
  | compare (c : CheckedArgs) (p : Option Addr)
  /-- before `p = p->next` -/
  | advance (c : CheckedArgs) (p : Addr)

/-- The record that the walk reads next, if it is at one. -/
def CheckPc.cursor : CheckPc → Option Addr
  | .compare _ p => p
  | .advance _ p => some p
  | _ => none

/-- Where a thread is in `CC_AppendACL` or `CC_DeleteACL`, with its variables. A loaded pointer that the next step stores is one of
them. -/
inductive ChangePc where
  | idle
  /-- before `malloc` -/
  | malloc (c : CheckedArgs)
  /-- before the `memcpy` -/
  | copy (c : CheckedArgs) (p : Addr)
  /-- before the load of `gACL[right]` for `p->next` -/
  | link (c : CheckedArgs) (p : Addr)
  /-- before the store to `p->next` -/
  | setNext (c : CheckedArgs) (p : Addr) (q : Option Addr)
  /-- before `gACL[right] = p` -/
  | push (c : CheckedArgs) (p : Addr)
  /-- before `p2 = gACL[right]` -/
  | head (c : CheckedArgs)
  /-- before the first `memcmp` -/
  | compareHead (c : CheckedArgs) (p2 : Option Addr)
  /-- before the load of `p2->next` for `gACL[right]` -/
  | popNext (c : CheckedArgs) (p2 : Addr)
  /-- before the store to `gACL[right]` -/
  | pop (c : CheckedArgs) (p2 : Addr) (q : Option Addr)
  /-- before `p2 = p2->next`, after `p1 = p2` -/
  | advance (c : CheckedArgs) (p1 : Addr)
  /-- before `while (p2)` and its `memcmp` -/
  | compare (c : CheckedArgs) (p1 : Addr) (p2 : Option Addr)
  /-- before the load of `p2->next` for `p1->next` -/
  | unlinkNext (c : CheckedArgs) (p1 p2 : Addr)
  /-- before the store to `p1->next` -/
  | unlink (c : CheckedArgs) (p1 p2 : Addr) (q : Option Addr)
  /-- before `free(p2)` -/
  | free (p2 : Addr)

/-- A call of the manufacturer's channel. -/
inductive AwsCall where
  | append (ad : Option TypeAuthorizationData) (right : TypeRight)
  | delete (ad : Option TypeAuthorizationData) (right : TypeRight)

/-- A call that has returned, with its value. -/
inductive Returned where
  | check (ad : Option TypeAuthorizationData) (right : TypeRight) (value : Int)
  | aws (value : Int)

/-- The lists, and where the two threads are. -/
structure AclThreads where
  acl : Acl
  check : CheckPc
  aws : ChangePc

/-- A step of one of the threads: of the call it is in, or the start of the given call. `want` is what the allocator would give, and
`block` what the block holds then. -/
inductive ThreadAct where
  | homeKit (ad : Option TypeAuthorizationData) (right : TypeRight)
  | aws (call : AwsCall) (want : Option Addr) (block : ACLListNode)

/-- A step of `CC_CheckAuthData`. -/
def checkStep (ad : Option TypeAuthorizationData) (right : TypeRight) (s : Acl) : CheckPc → Except Fault (CheckPc × Option Returned)
  | .idle =>
    match checkArgs ad right with
    | some c => .ok (.head c, none)
    | none => .ok (.idle, some (.check ad right (-1)))
  | .head c => .ok (.compare c (s.gACL c.index), none)
  | .compare c none => .ok (.idle, some (.check (some c.ad) c.right 1))
  | .compare c (some p) => do
    let (p, n) ← load s.heap (some p)
    if n.ad = c.ad then .ok (.idle, some (.check (some c.ad) c.right 0)) else .ok (.advance c p, none)
  | .advance c p => do
    let (_, n) ← load s.heap (some p)
    .ok (.compare c n.next, none)

/-- The start of a call of the manufacturer's channel. -/
def changeStart : AwsCall → ChangePc × Option Int
  | .append ad right =>
    match checkArgs ad right with
    | some c => (.malloc c, none)
    | none => (.idle, some (-2))
  | .delete ad right =>
    match checkArgs ad right with
    | some c => (.head c, none)
    | none => (.idle, some (-2))

/-- A step of `CC_AppendACL` or `CC_DeleteACL`. -/
def changeStep (call : AwsCall) (want : Option Addr) (block : ACLListNode) (s : Acl) :
    ChangePc → Except Fault (Acl × ChangePc × Option Int)
  | .idle => .ok (s, changeStart call)
  | .malloc c =>
    match malloc s.heap want with
    | none => .ok (s, .idle, some (-1))
    | some p => .ok ({ s with heap := s.heap.insert p block }, .copy c p, none)
  | .copy c p => do
    let (p, n) ← load s.heap (some p)
    .ok ({ s with heap := s.heap.insert p ⟨c.ad, n.next⟩ }, .link c p, none)
  | .link c p => .ok (s, .setNext c p (s.gACL c.index), none)
  | .setNext c p q => do
    let (p, n) ← load s.heap (some p)
    .ok ({ s with heap := s.heap.insert p ⟨n.ad, q⟩ }, .push c p, none)
  | .push c p => .ok ({ s with gACL := Function.update s.gACL c.index (some p) }, .idle, some 0)
  | .head c => .ok (s, .compareHead c (s.gACL c.index), none)
  | .compareHead c p2 => do
    let (p2, n) ← load s.heap p2
    if n.ad = c.ad then .ok (s, .popNext c p2, none) else .ok (s, .advance c p2, none)
  | .popNext c p2 => do
    let (p2, n) ← load s.heap (some p2)
    .ok (s, .pop c p2 n.next, none)
  | .pop c p2 q => .ok ({ s with gACL := Function.update s.gACL c.index q }, .free p2, none)
  | .advance c p1 => do
    let (p1, n) ← load s.heap (some p1)
    .ok (s, .compare c p1 n.next, none)
  | .compare _ _ none => .ok (s, .idle, some (-1))
  | .compare c p1 (some p2) => do
    let (p2, n) ← load s.heap (some p2)
    if n.ad = c.ad then .ok (s, .unlinkNext c p1 p2, none) else .ok (s, .advance c p2, none)
  | .unlinkNext c p1 p2 => do
    let (p2, n) ← load s.heap (some p2)
    .ok (s, .unlink c p1 p2 n.next, none)
  | .unlink _ p1 p2 q => do
    let (p1, n) ← load s.heap (some p1)
    .ok ({ s with heap := s.heap.insert p1 ⟨n.ad, q⟩ }, .free p2, none)
  | .free p2 => .ok ({ s with heap := s.heap.erase p2 }, .idle, some 0)

/-- One step of one of the threads. -/
def threadStep : Step AclThreads ThreadAct (Option Returned) Fault
  | s, .homeKit ad right => (checkStep ad right s.acl s.check).map fun r => ({ s with check := r.1 }, r.2)
  | s, .aws call want block => (changeStep call want block s.acl s.aws).map fun r => ({ s with acl := r.1, aws := r.2.1 }, r.2.2.map .aws)

/-! ## A thread alone -/

theorem CheckedArgs.rightIndex_eq (c : CheckedArgs) : rightIndex c.right = some c.index := dif_pos c.right_lt

/-- The arguments that pass are the ones the calls in one piece accept. -/
theorem checkArgs_some (ad : TypeAuthorizationData) {right : TypeRight} {r : Fin rightNum} (h : rightIndex right = some r) :
    ∃ c, checkArgs (some ad) right = some c ∧ c.ad = ad ∧ c.right = right ∧ c.index = r := by
  unfold rightIndex at h
  split at h
  · rename_i hlt
    exact ⟨⟨ad, right, hlt⟩, dif_pos hlt, rfl, rfl, Option.some.inj h⟩
  · simp at h

theorem checkArgs_none {ad : Option TypeAuthorizationData} {right : TypeRight} (h : ad = none ∨ rightIndex right = none) :
    checkArgs ad right = none := by
  rcases h with rfl | h
  · rfl
  · cases ad with
    | none => rfl
    | some ad =>
      unfold rightIndex at h
      split at h
      · simp at h
      · rename_i hlt
        exact dif_neg hlt

/-- A thread that takes the given step again and again, with no step of the other in between, until its call returns. -/
inductive Alone (a : ThreadAct) : AclThreads → AclThreads → Returned → Prop where
  | last {s s' : AclThreads} {o : Returned} : threadStep s a = .ok (s', some o) → Alone a s s' o
  | step {s t s' : AclThreads} {o : Returned} : threadStep s a = .ok (t, none) → Alone a t s' o → Alone a s s' o

/-- The `while (p)` of `CC_CheckAuthData`, step by step. -/
theorem checkLoop_alone {s : AclThreads} {ad : Option TypeAuthorizationData} {right : TypeRight} {c : CheckedArgs} {v : Int} :
    ∀ {fuel : Nat} {p : Option Addr}, checkLoop s.acl.heap c.ad fuel p = .ok v →
      Alone (.homeKit ad right) { s with check := .compare c p } { s with check := .idle } (.check (some c.ad) c.right v) := by
  have hnull : ∀ {fuel : Nat}, checkLoop s.acl.heap c.ad fuel none = .ok v →
      Alone (.homeKit ad right) { s with check := .compare c none } { s with check := .idle } (.check (some c.ad) c.right v) := by
    intro fuel h
    cases fuel <;> (cases h; exact .last rfl)
  intro fuel
  induction fuel with
  | zero =>
    intro p h
    cases p with
    | none => exact hnull h
    | some p => simp [checkLoop] at h
  | succ fuel ih =>
    intro p h
    cases p with
    | none => exact hnull h
    | some p =>
      simp only [checkLoop] at h
      obtain ⟨⟨q, n⟩, hl, hrest⟩ := bind_ok h
      cases (load_ok hl).1
      simp only at hrest
      split_ifs at hrest with had
      · cases hrest
        exact .last (by simp [threadStep, checkStep, hl, had, bind, Except.bind, Except.map])
      · refine .step (t := { s with check := .advance c p }) ?_ (.step ?_ (ih hrest))
        · simp [threadStep, checkStep, hl, had, bind, Except.bind, Except.map]
        · simp [threadStep, checkStep, hl, bind, Except.bind, Except.map]

/-- `CC_CheckAuthData`, step by step. -/
theorem check_alone {s : AclThreads} (hs : s.check = .idle) {ad : Option TypeAuthorizationData} {right : TypeRight} {v : Int}
    (h : ccCheckAuthData ad right s.acl = .ok v) : Alone (.homeKit ad right) s s (.check ad right v) := by
  obtain ⟨acl, check, aws⟩ := s
  cases hs
  have hnot : checkArgs ad right = none → v = -1 → Alone (.homeKit ad right) ⟨acl, .idle, aws⟩ ⟨acl, .idle, aws⟩
      (.check ad right v) := by
    rintro hargs rfl
    exact .last (by simp only [threadStep, checkStep, hargs, Except.map])
  cases ad with
  | none =>
    cases h
    exact hnot rfl rfl
  | some ad =>
    cases hr : rightIndex right with
    | none =>
      simp only [ccCheckAuthData, hr] at h
      exact hnot (checkArgs_none (Or.inr hr)) (Except.ok.inj h).symm
    | some r =>
      simp only [ccCheckAuthData, hr] at h
      obtain ⟨c, hargs, rfl, rfl, rfl⟩ := checkArgs_some ad hr
      refine .step (t := ⟨acl, .head c, aws⟩) ?_ (.step rfl (checkLoop_alone h))
      simp only [threadStep, checkStep, hargs, Except.map]

/-- `CC_AppendACL`, step by step: what the block held before does not matter. -/
theorem append_alone {s : AclThreads} (hs : s.aws = .idle) (ad : Option TypeAuthorizationData) (right : TypeRight)
    (want : Option Addr) (block : ACLListNode) :
    Alone (.aws (.append ad right) want block) s { s with acl := (ccAppendACL want ad right s.acl).2 }
      (.aws (ccAppendACL want ad right s.acl).1) := by
  obtain ⟨acl, check, aws⟩ := s
  cases hs
  have hnot : checkArgs ad right = none → ccAppendACL want ad right acl = (-2, acl) →
      Alone (.aws (.append ad right) want block) ⟨acl, check, .idle⟩ ⟨(ccAppendACL want ad right acl).2, check, .idle⟩
        (.aws (ccAppendACL want ad right acl).1) := by
    intro hargs heq
    exact .last (by simp only [threadStep, changeStep, changeStart, hargs, heq, Except.map, Option.map])
  cases ad with
  | none => exact hnot rfl rfl
  | some ad =>
    cases hr : rightIndex right with
    | none => exact hnot (checkArgs_none (Or.inr hr)) (by simp only [ccAppendACL, hr])
    | some r =>
      obtain ⟨c, hargs, rfl, rfl, rfl⟩ := checkArgs_some ad hr
      refine .step (t := ⟨acl, check, .malloc c⟩) (by simp only [threadStep, changeStep, changeStart, hargs, Except.map, Option.map]) ?_
      simp only [ccAppendACL, hr]
      cases hm : malloc acl.heap want with
      | none => exact .last (by simp only [threadStep, changeStep, hm, Except.map, Option.map])
      | some p =>
        have hload : ∀ n : ACLListNode, load (acl.heap.insert p n) (some p) = .ok (p, n) := fun n =>
          load_of_lookup (Finmap.lookup_insert _)
        refine .step (t := ⟨{ acl with heap := acl.heap.insert p block }, check, .copy c p⟩) ?_ (.step
          (t := ⟨{ acl with heap := acl.heap.insert p ⟨c.ad, block.next⟩ }, check, .link c p⟩) ?_ (.step rfl (.step
          (t := ⟨{ acl with heap := acl.heap.insert p ⟨c.ad, acl.gACL c.index⟩ }, check, .push c p⟩) ?_ (.last rfl))))
        · simp only [threadStep, changeStep, hm, Except.map, Option.map]
        · simp only [threadStep, changeStep, hload, bind, Except.bind, Except.map, Option.map, Finmap.insert_insert]
        · simp only [threadStep, changeStep, hload, bind, Except.bind, Except.map, Option.map, Finmap.insert_insert]

/-- The `while (p2)` of `CC_DeleteACL`, step by step. -/
theorem deleteLoop_alone {s : AclThreads} {call : AwsCall} {want : Option Addr} {block : ACLListNode} {c : CheckedArgs}
    {ret : Int} {acl : Acl} :
    ∀ {fuel : Nat} {p1 : Addr} {p2 : Option Addr}, deleteLoop s.acl c.ad fuel p1 p2 = .ok (ret, acl) →
      Alone (.aws call want block) { s with aws := .compare c p1 p2 } { s with acl := acl, aws := .idle } (.aws ret) := by
  have hnull : ∀ {fuel : Nat} {p1 : Addr}, deleteLoop s.acl c.ad fuel p1 none = .ok (ret, acl) →
      Alone (.aws call want block) { s with aws := .compare c p1 none } { s with acl := acl, aws := .idle } (.aws ret) := by
    intro fuel p1 h
    cases fuel <;> (cases h; exact .last rfl)
  intro fuel
  induction fuel with
  | zero =>
    intro p1 p2 h
    cases p2 with
    | none => exact hnull h
    | some p => simp [deleteLoop] at h
  | succ fuel ih =>
    intro p1 p2 h
    cases p2 with
    | none => exact hnull h
    | some p2 =>
      simp only [deleteLoop] at h
      obtain ⟨⟨q, n2⟩, hl, hrest⟩ := bind_ok h
      cases (load_ok hl).1
      simp only at hrest
      split_ifs at hrest with had
      · obtain ⟨⟨q1, n1⟩, hl1, heq⟩ := bind_ok hrest
        cases (load_ok hl1).1
        cases heq
        refine .step (t := { s with aws := .unlinkNext c p1 p2 }) ?_ (.step (t := { s with aws := .unlink c p1 p2 n2.next }) ?_
          (.step (t := { s with acl.heap := s.acl.heap.insert p1 ⟨n1.ad, n2.next⟩, aws := .free p2 }) ?_ (.last rfl)))
        · simp [threadStep, changeStep, hl, had, bind, Except.bind, Except.map]
        · simp only [threadStep, changeStep, hl, bind, Except.bind, Except.map, Option.map]
        · simp only [threadStep, changeStep, hl1, bind, Except.bind, Except.map, Option.map]
      · refine .step (t := { s with aws := .advance c p2 }) ?_ (.step ?_ (ih hrest))
        · simp [threadStep, changeStep, hl, had, bind, Except.bind, Except.map]
        · simp [threadStep, changeStep, hl, bind, Except.bind, Except.map]

/-- `CC_DeleteACL`, step by step. -/
theorem delete_alone {s : AclThreads} (hs : s.aws = .idle) {ad : Option TypeAuthorizationData} {right : TypeRight}
    {want : Option Addr} {block : ACLListNode} {ret : Int} {acl : Acl} (h : ccDeleteACL ad right s.acl = .ok (ret, acl)) :
    Alone (.aws (.delete ad right) want block) s { s with acl := acl } (.aws ret) := by
  obtain ⟨acl₀, check, aws⟩ := s
  cases hs
  have hnot : checkArgs ad right = none → ccDeleteACL ad right acl₀ = .ok (-2, acl₀) →
      Alone (.aws (.delete ad right) want block) ⟨acl₀, check, .idle⟩ ⟨acl, check, .idle⟩ (.aws ret) := by
    intro hargs heq
    cases h.symm.trans heq
    exact .last (by simp only [threadStep, changeStep, changeStart, hargs, Except.map, Option.map])
  cases ad with
  | none => exact hnot rfl rfl
  | some ad =>
    cases hr : rightIndex right with
    | none => exact hnot (checkArgs_none (Or.inr hr)) (by simp only [ccDeleteACL, hr])
    | some r =>
      obtain ⟨c, hargs, rfl, rfl, rfl⟩ := checkArgs_some ad hr
      simp only [ccDeleteACL, hr] at h
      obtain ⟨⟨p2, n2⟩, hl, hrest⟩ := bind_ok h
      simp only at hrest
      refine .step (t := ⟨acl₀, check, .head c⟩) (by simp only [threadStep, changeStep, changeStart, hargs, Except.map, Option.map])
        (.step rfl ?_)
      have hl' : load acl₀.heap (some p2) = .ok (p2, n2) := load_of_lookup (load_ok hl).2
      split_ifs at hrest with had
      · cases hrest
        refine .step (t := ⟨acl₀, check, .popNext c p2⟩) ?_ (.step (t := ⟨acl₀, check, .pop c p2 n2.next⟩) ?_
          (.step rfl (.last rfl)))
        · simp [threadStep, changeStep, hl, had, bind, Except.bind, Except.map]
        · simp only [threadStep, changeStep, hl', bind, Except.bind, Except.map, Option.map]
      · refine .step (t := ⟨acl₀, check, .advance c p2⟩) ?_ (.step (t := ⟨acl₀, check, .compare c p2 n2.next⟩) ?_
          (deleteLoop_alone (s := ⟨acl₀, check, .idle⟩) hrest))
        · simp [threadStep, changeStep, hl, had, bind, Except.bind, Except.map]
        · simp only [threadStep, changeStep, hl', bind, Except.bind, Except.map, Option.map]

end CGuard
