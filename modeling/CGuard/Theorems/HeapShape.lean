import CGuard.Lemmas.AclThreads
import CGuard.Lemmas.Listing
import CGuard.Theorems.AclRefinement

/-!
# The shape of the heap

After every call, and after every single step of a call, the lists of `gACL` are separate chains that end in null and hold the allocated
records, except for the one record that the call in progress has allocated and not linked yet, or unlinked and not freed yet.
-/

namespace CGuard

open LinkedHeap Machine

/-- The lists of `gACL` are chains that end in null, visit no record twice and share none, and a record is allocated exactly when it is on
one of them or is the one record `off`, which is on none. -/
structure Shaped (s : Acl) (off : Option Addr) (ls : Lists) : Prop where
  chain : ∀ r, Chain ACLListNode.mk s.heap (s.gACL r) (ls r)
  acyclic : ∀ r, (addrs (ls r)).Nodup
  disjoint : ∀ r q, r ≠ q → ∀ a ∈ addrs (ls r), a ∉ addrs (ls q)
  live : ∀ a, a ∈ s.heap ↔ (∃ r, a ∈ addrs (ls r)) ∨ off = some a
  unlinked : ∀ a, off = some a → ∀ r, a ∉ addrs (ls r)

/-- Between two calls: every allocated record is on a list, and every walk along a list ends. -/
structure AtRest (s : Acl) : Prop where
  shaped : ∃ ls, Shaped s none ls
  check : ∀ ad right, ∃ verdict, ccCheckAuthData ad right s = .ok verdict
  delete : ∀ ad right, DeleteInhabited s (.delete ad right) → ∃ r, ccDeleteACL ad right s = .ok r
  listing : ∀ d : Device, d.acl = s → ∃ text, cmGetChannelStatus d = .ok text

/-- What a step does to the set of allocated records. -/
inductive HeapEvent where
  | malloc (p : Addr)
  | free (p : Addr)
  deriving DecidableEq

/-- The `malloc` that answers an address, or the `free`, that a step of `CC_AppendACL` or `CC_DeleteACL` is. -/
def changeEvent (want : Option Addr) (s : Acl) : ChangePc → Option HeapEvent
  | .malloc _ => (malloc s.heap want).map .malloc
  | .free p2 => some (.free p2)
  | _ => none

/-- The `malloc` or `free` that a step of one of the threads is. -/
def heapEvent (t : AclThreads) : ThreadAct → Option HeapEvent
  | .homeKit _ _ => none
  | .aws _ want _ => changeEvent want t.acl t.aws

/-- How often the steps of a run have done this to the heap. -/
def eventCount (e : HeapEvent) (t : AclThreads) (as : List ThreadAct) : Nat :=
  (absActions threadStep heapEvent t as).count (some e)

namespace HeapShapeAux

/-- The record that is on no list is allocated. -/
theorem offList_mem {s : Acl} {pc : ChangePc} {ls : Lists} (h : InOrder s pc ls) {p : Addr} (hp : pc.offList = some p) :
    p ∈ s.heap := by
  cases pc with
  | copy c q | free q =>
    cases hp
    exact h.fits
  | link c q =>
    cases hp
    obtain ⟨next, hl⟩ := h.fits
    exact Finmap.mem_of_lookup_eq_some hl
  | setNext c q next =>
    cases hp
    obtain ⟨⟨next, hl⟩, -⟩ := h.fits
    exact Finmap.mem_of_lookup_eq_some hl
  | push c q =>
    cases hp
    exact Finmap.mem_of_lookup_eq_some h.fits
  | idle | malloc | head | compareHead | popNext | pop | advance | compare | unlinkNext | unlink => cases hp

/-- Lists in order have the shape. -/
theorem shaped_of_inOrder {s : Acl} {pc : ChangePc} {ls : Lists} (h : InOrder s pc ls) : Shaped s pc.offList ls where
  chain := h.chain
  acyclic r := (h.chain r).nodup aclListNode_injective
  disjoint := h.forest.disjoint
  live a := by
    have hlive := h.forest.live a
    unfold ChangePc.linked at hlive
    cases hoff : pc.offList with
    | none =>
      rw [hoff] at hlive
      simpa using hlive
    | some p =>
      rw [hoff] at hlive
      simp only [Finmap.mem_erase] at hlive
      rw [← hlive]
      constructor
      · intro ha
        by_cases hap : a = p
        · exact Or.inr (by rw [hap])
        · exact Or.inl ⟨hap, ha⟩
      · rintro (⟨-, ha⟩ | ha)
        · exact ha
        · cases ha
          exact offList_mem h hoff
  unlinked a ha r hmem := (h.lookup r a hmem).2 ha

/-- Lists that represent a store are at rest. -/
theorem atRest_of_represents {s : Acl} {σ : AclStore} (h : Represents s σ) : AtRest s where
  shaped := by
    obtain ⟨ls, hf, -⟩ := h
    exact ⟨ls, @shaped_of_inOrder s .idle ls ⟨hf, trivial⟩⟩
  check ad right := ⟨_, h.check ad right⟩
  delete ad right hne := by
    obtain ⟨s', hdel, -⟩ := h.delete hne
    exact ⟨_, hdel⟩
  listing d hd := by
    subst hd
    exact ⟨_, cmGetChannelStatus_eq h⟩

/-- A record of a list is allocated. -/
theorem lookup_of_mem {s : Acl} {pc : ChangePc} {ls : Lists} (h : InOrder s pc ls) {r : Fin rightNum} {a : Addr}
    {b : TypeAuthorizationData} {pre post : List (Addr × TypeAuthorizationData)} (hls : ls r = pre ++ (a, b) :: post) :
    ∃ n, s.heap.lookup a = some n := by
  have hc := h.chain r
  rw [hls] at hc
  obtain ⟨q, hl, -⟩ := hc.node
  exact ⟨_, hl⟩

/-- A read of an allocated record goes on. -/
theorem load_bind_returns {β : Type} {h : Heap ACLListNode} {p : Addr} {n : ACLListNode} {f : Addr × ACLListNode → Except Fault β}
    (hl : h.lookup p = some n) (hf : ∃ r, f (p, n) = .ok r) : ∃ r, (load h (some p) >>= f) = .ok r := by
  rw [load_of_lookup hl]
  exact hf

/-- Every step goes through a pointer to an allocated record, unless it reads the head of an empty list. -/
theorem changeStep_returns {s : Acl} {pc : ChangePc} {ls : Lists} (h : InOrder s pc ls) (hne : ∀ c, pc ≠ .compareHead c none)
    (call : AwsCall) (want : Option Addr) (block : ACLListNode) : ∃ r, changeStep call want block s pc = .ok r := by
  cases pc with
  | idle | link c p | push c p | head c | pop c p q | free p => exact ⟨_, rfl⟩
  | malloc c =>
    simp only [changeStep]
    split <;> exact ⟨_, rfl⟩
  | copy c p =>
    have hp : p ∈ s.heap := h.fits
    obtain ⟨n, hl⟩ := Finmap.mem_iff.mp hp
    exact load_bind_returns hl ⟨_, rfl⟩
  | setNext c p q =>
    obtain ⟨⟨next, hl⟩, -⟩ := h.fits
    exact load_bind_returns hl ⟨_, rfl⟩
  | compareHead c p2 =>
    cases p2 with
    | none => exact absurd rfl (hne c)
    | some p2 =>
      have hhead : some p2 = s.gACL c.index := h.fits
      have hc := h.chain c.index
      rw [← hhead] at hc
      obtain ⟨b, q, ys, -, hl, -⟩ := hc.some_cases
      refine load_bind_returns hl ?_
      dsimp only
      split_ifs <;> exact ⟨_, rfl⟩
  | popNext c p2 =>
    have hhead : s.gACL c.index = some p2 := h.fits
    have hc := h.chain c.index
    rw [hhead] at hc
    obtain ⟨b, q, ys, -, hl, -⟩ := hc.some_cases
    exact load_bind_returns hl ⟨_, rfl⟩
  | advance c p1 =>
    obtain ⟨pre, b, post, hls, -⟩ := h.fits
    obtain ⟨n, hl⟩ := lookup_of_mem h hls
    exact load_bind_returns hl ⟨_, rfl⟩
  | compare c p1 p2 =>
    cases p2 with
    | none => exact ⟨_, rfl⟩
    | some p2 =>
      obtain ⟨pre, b, post, hls, -, hl1⟩ := h.fits
      obtain ⟨-, hrest⟩ := h.node hl1 hls
      obtain ⟨b2, q, ys, -, hl2, -⟩ := hrest.some_cases
      refine load_bind_returns hl2 ?_
      dsimp only
      split_ifs <;> exact ⟨_, rfl⟩
  | unlinkNext c p1 p2 =>
    obtain ⟨pre, b, post, hls, -⟩ := h.fits
    -- the record behind the one at which the walk is
    have hls2 : ls c.index = (pre ++ [(p1, b)]) ++ (p2, c.ad) :: post := by simpa using hls
    obtain ⟨n, hl⟩ := lookup_of_mem h hls2
    exact load_bind_returns hl ⟨_, rfl⟩
  | unlink c p1 p2 q =>
    obtain ⟨⟨pre, b, post, hls, -⟩, -⟩ := h.fits
    obtain ⟨n, hl⟩ := lookup_of_mem h hls
    exact load_bind_returns hl ⟨_, rfl⟩

/-! ### What is allocated -/

/-- Writing to an allocated record does not change what is allocated. -/
theorem mem_insert_of_lookup {h : Heap ACLListNode} {a : Addr} {n m : ACLListNode} (hl : h.lookup a = some n) (p : Addr) :
    p ∈ h.insert a m ↔ p ∈ h := by
  have ha : a ∈ h := Finmap.mem_of_lookup_eq_some hl
  rw [Finmap.mem_insert]
  constructor
  · rintro (rfl | hp)
    · exact ha
    · exact hp
  · exact Or.inr

/-- A step changes what is allocated by the event that it is, and by nothing else. -/
theorem mem_changeStep {call : AwsCall} {want : Option Addr} {block : ACLListNode} {s s' : Acl} {pc pc' : ChangePc} {o : Option Int}
    (h : changeStep call want block s pc = .ok (s', pc', o)) (p : Addr) :
    p ∈ s'.heap ↔ (p ∈ s.heap ∧ changeEvent want s pc ≠ some (.free p)) ∨ changeEvent want s pc = some (.malloc p) := by
  cases pc with
  | idle =>
    obtain ⟨rfl, -⟩ := Prod.mk.inj (Except.ok.inj h)
    simp [changeEvent]
  | malloc c =>
    simp only [changeStep] at h
    split at h
    · rename_i hm
      cases h
      simp [changeEvent, hm]
    · rename_i q hm
      cases h
      simp [changeEvent, hm, Finmap.mem_insert, or_comm, eq_comm]
  | copy c q | setNext c q next | unlink c q q' next =>
    obtain ⟨n, hl, heq⟩ := load_bind_ok h
    cases heq
    simp only [changeEvent, mem_insert_of_lookup hl]
    simp
  | link c q | push c q | head c | pop c q next =>
    cases h
    simp [changeEvent]
  | popNext c q | advance c q | unlinkNext c q q' =>
    obtain ⟨n, -, heq⟩ := load_bind_ok h
    cases heq
    simp [changeEvent]
  | compareHead c q =>
    obtain ⟨⟨a, n⟩, hl, heq⟩ := bind_ok h
    simp only at heq
    split_ifs at heq <;> (cases heq; simp [changeEvent])
  | compare c q q' =>
    cases q' with
    | none =>
      cases h
      simp [changeEvent]
    | some q' =>
      obtain ⟨⟨a, n⟩, hl, heq⟩ := bind_ok h
      simp only at heq
      split_ifs at heq <;> (cases heq; simp [changeEvent])
  | free q =>
    cases h
    simp only [changeEvent, Finmap.mem_erase, ne_eq, Option.some.injEq, HeapEvent.free.injEq, reduceCtorEq, or_false]
    constructor
    · exact fun h => ⟨h.2, Ne.symm h.1⟩
    · exact fun h => ⟨Ne.symm h.2, h.1⟩

/-- `malloc` answers a record that is not allocated, and `free` gets one that is. -/
theorem event_live {want : Option Addr} {s : Acl} {pc : ChangePc} {ls : Lists} (hi : InOrder s pc ls) (p : Addr) :
    (changeEvent want s pc = some (.malloc p) → p ∉ s.heap) ∧ (changeEvent want s pc = some (.free p) → p ∈ s.heap) := by
  cases pc with
  | malloc c =>
    simp only [changeEvent, Option.map_eq_some_iff, HeapEvent.malloc.injEq, reduceCtorEq, and_false, exists_false, false_imp_iff,
      and_true]
    rintro ⟨q, hm, rfl⟩
    exact malloc_fresh hm
  | free q =>
    simp only [changeEvent, Option.some.injEq, reduceCtorEq, false_imp_iff, HeapEvent.free.injEq, true_and]
    rintro rfl
    exact hi.fits
  | idle | copy | link | setNext | push | head | compareHead | popNext | pop | advance | compare | unlinkNext | unlink =>
    simp [changeEvent]

/-- Whether a record is allocated, as a number. -/
def liveCount (s : Acl) (p : Addr) : Nat := if p ∈ s.heap then 1 else 0

/-- One step of one of the threads. -/
theorem step_count_live {t t' : AclThreads} {a : ThreadAct} {o : Option Returned} {ls : Lists} (hi : InOrder t.acl t.aws ls)
    (h : threadStep t a = .ok (t', o)) :
    (∃ ls', InOrder t'.acl t'.aws ls') ∧ ∀ p,
      (if heapEvent t a = some (.malloc p) then 1 else 0) + liveCount t.acl p =
        (if heapEvent t a = some (.free p) then 1 else 0) + liveCount t'.acl p := by
  cases a with
  | homeKit ad right =>
    obtain ⟨r, -, heq⟩ := map_ok h
    cases heq
    exact ⟨⟨ls, hi⟩, fun p => rfl⟩
  | aws call want block =>
    obtain ⟨⟨s', pc', ret⟩, hm, heq⟩ := map_ok h
    cases heq
    obtain ⟨ls', hls'⟩ := changeStep_leaves hi hm
    refine ⟨⟨ls', hls'.inOrder⟩, fun p => ?_⟩
    have hmem := mem_changeStep hm p
    obtain ⟨hfresh, hlive⟩ := @event_live want _ _ _ hi p
    simp only [heapEvent, liveCount, hmem]
    by_cases hmalloc : changeEvent want t.acl t.aws = some (.malloc p)
    · simp [hmalloc, hfresh hmalloc]
    · by_cases hfree : changeEvent want t.acl t.aws = some (.free p)
      · simp [hfree, hlive hfree]
      · simp [hmalloc, hfree]

/-- A run of single steps: the lists stay in order, and the records allocated and not freed are those that are allocated. -/
theorem run_count_live {as : List ThreadAct} :
    ∀ {t t' : AclThreads} {os : List (Option Returned)} {ls : Lists}, InOrder t.acl t.aws ls → run threadStep t as = .ok (t', os) →
      (∃ ls', InOrder t'.acl t'.aws ls') ∧ ∀ p,
        eventCount (.malloc p) t as + liveCount t.acl p = eventCount (.free p) t as + liveCount t'.acl p := by
  induction as with
  | nil =>
    intro t t' os ls hi h
    cases h
    exact ⟨⟨ls, hi⟩, fun p => rfl⟩
  | cons a as ih =>
    intro t t' os ls hi h
    obtain ⟨u, o, os', hm, hrun, -⟩ := run_cons_ok h
    obtain ⟨⟨ls', hi'⟩, hstep⟩ := step_count_live hi hm
    obtain ⟨hend, hrest⟩ := ih hi' hrun
    refine ⟨hend, fun p => ?_⟩
    have h1 := hstep p
    have h2 := hrest p
    simp only [eventCount] at h2
    simp only [eventCount, absActions, hm, List.count_cons, beq_iff_eq]
    omega

end HeapShapeAux

open HeapShapeAux

/-- From one `InitSecurityEnforcement`. Every sequence of calls whose deletes meet the condition of the caller returns and leaves the
lists at rest. And in every state that single steps reach, within a call too and whatever the allocator answers: the lists have the shape,
the record that is about to be freed is allocated and on no list, the next step fails only at the head of an empty list, and every record
has been allocated as often as it has been freed, and once more if it is allocated now. -/
theorem acl_heap_shape (cs : List (AclCall (Option Addr)))
    (hcs : Guarded aclStep DeleteInhabited (initSecurityEnforcement Acl.start) cs)
    (as : List ThreadAct) (t : AclThreads) (os : List (Option Returned))
    (has : run threadStep ⟨initSecurityEnforcement Acl.start, .idle, .idle⟩ as = .ok (t, os)) :
    (∃ s rets, run aclStep (initSecurityEnforcement Acl.start) cs = .ok (s, rets) ∧ AtRest s) ∧
    (∃ ls, Shaped t.acl t.aws.offList ls ∧ ∀ p, t.aws = .free p → p ∈ t.acl.heap ∧ ∀ r, p ∉ addrs (ls r)) ∧
    (∀ call want block e, threadStep t (.aws call want block) = .error e → ∃ c, t.aws = .compareHead c none) ∧
    (∀ p, eventCount (.malloc p) ⟨initSecurityEnforcement Acl.start, .idle, .idle⟩ as =
      eventCount (.free p) ⟨initSecurityEnforcement Acl.start, .idle, .idle⟩ as + if p ∈ t.acl.heap then 1 else 0) ∧
    (t.aws = .idle → AtRest t.acl) := by
  obtain ⟨s, hrun, hrep⟩ := run_refines (fun s c => AclCall.abs s c) aclStep_refines cs _ _ represents_start hcs
  have hstart : InOrder (initSecurityEnforcement Acl.start) .idle fun _ => [] := ⟨Forest.empty, trivial⟩
  obtain ⟨⟨ls, hi⟩, hcount⟩ := run_count_live hstart has
  refine ⟨⟨s, _, hrun, atRest_of_represents hrep⟩, ⟨ls, shaped_of_inOrder hi, fun p hp => ?_⟩, ?_, fun p => ?_,
    fun hidle => ?_⟩
  · have hoff : t.aws.offList = some p := by rw [hp]; rfl
    exact ⟨offList_mem hi hoff, (shaped_of_inOrder hi).unlinked p hoff⟩
  · intro call want block e herr
    by_contra hne
    rw [not_exists] at hne
    obtain ⟨r, hr⟩ := changeStep_returns hi hne call want block
    simp only [threadStep, hr, Except.map] at herr
    cases herr
  · have hnone : liveCount (initSecurityEnforcement Acl.start) p = 0 := if_neg Finmap.notMem_empty
    have := hcount p
    rwa [hnone, Nat.add_zero] at this
  · rw [hidle] at hi
    exact atRest_of_represents ⟨ls, hi.forest, fun r => rfl⟩

/-- A step of an append for which the allocator would give the address 7, and one of a delete. -/
def appendAct : ThreadAct := .aws (.append (some (.uniform 1)) 0) (some 7) ⟨.uniform 0, some 3⟩
def removeAct : ThreadAct := .aws (.delete (some (.uniform 1)) 0) none ⟨.uniform 0, none⟩

/-- A record is appended, deleted and appended again at the address that was freed. -/
theorem acl_heap_shape_reuse :
    ∃ t os, run threadStep ⟨initSecurityEnforcement Acl.start, .idle, .idle⟩
        (List.replicate 6 appendAct ++ List.replicate 6 removeAct ++ List.replicate 6 appendAct) = .ok (t, os) ∧
      AtRest t.acl ∧ 7 ∈ t.acl.heap ∧
      ∃ s rets, run aclStep (initSecurityEnforcement Acl.start)
        [.append (some (.uniform 1)) 0 (some 7), .delete (some (.uniform 1)) 0, .append (some (.uniform 2)) 1 (some 7)] =
          .ok (s, rets) ∧ AtRest s := by
  have h := acl_heap_shape
    [.append (some (.uniform 1)) 0 (some 7), .delete (some (.uniform 1)) 0, .append (some (.uniform 2)) 1 (some 7)] (by decide)
    (List.replicate 6 appendAct ++ List.replicate 6 removeAct ++ List.replicate 6 appendAct) _ _ rfl
  exact ⟨_, _, rfl, h.2.2.2.2 rfl, by decide, h.1⟩

end CGuard
