import CGuard.AclThreads
import CGuard.Lib.ListReader

/-!
# What the thread of the manufacturer's channel does to a list

At every step of `CC_AppendACL` and `CC_DeleteACL` the lists are a forest of the records that are on them; one more record may be allocated.
Each step is described by what it leaves ahead of a reader of a list, which is all that the other thread can see of it.
-/

namespace CGuard

open LinkedHeap Machine

/-- The records of each list, with their addresses. -/
abbrev Lists : Type := Fin rightNum → List (Addr × TypeAuthorizationData)

/-- The store that the lists hold. -/
def Lists.store (ls : Lists) : AclStore := fun r => payloads (ls r)

/-- The record that has been allocated or taken off its list, and is on no list. -/
def ChangePc.offList : ChangePc → Option Addr
  | .copy _ p | .link _ p | .setNext _ p _ | .push _ p | .free p => some p
  | _ => none

/-- The record that has been taken off its list and is not freed yet. -/
def ChangePc.unlinked : ChangePc → Option Addr
  | .free p => some p
  | _ => none

theorem ChangePc.unlinked_eq {pc : ChangePc} {p : Addr} : pc.unlinked = some p ↔ pc = .free p := by
  cases pc <;> simp [ChangePc.unlinked]

/-- The heap without the record that is on no list. -/
def ChangePc.linked (pc : ChangePc) (h : Heap ACLListNode) : Heap ACLListNode :=
  match pc.offList with
  | none => h
  | some p => h.erase p

/-- The records in front of the one at `p` and that one itself do not hold the credential. -/
def Passed (ad : TypeAuthorizationData) (pre : List (Addr × TypeAuthorizationData)) (x : Addr × TypeAuthorizationData) : Prop :=
  ad ∉ payloads pre ∧ x.2 ≠ ad

/-- What the variables of the call hold. -/
def ChangePc.Fits (s : Acl) (ls : Lists) : ChangePc → Prop
  | .idle | .malloc _ | .head _ => True
  | .copy _ p => p ∈ s.heap
  | .link c p => ∃ q, s.heap.lookup p = some ⟨c.ad, q⟩
  | .setNext c p q => (∃ q, s.heap.lookup p = some ⟨c.ad, q⟩) ∧ q = s.gACL c.index
  | .push c p => s.heap.lookup p = some ⟨c.ad, s.gACL c.index⟩
  | .compareHead c p2 => p2 = s.gACL c.index
  | .popNext c p2 => s.gACL c.index = some p2
  | .pop c p2 q => s.gACL c.index = some p2 ∧ ∃ b, s.heap.lookup p2 = some ⟨b, q⟩
  | .advance c p1 => ∃ pre b post, ls c.index = pre ++ (p1, b) :: post ∧ Passed c.ad pre (p1, b)
  | .compare c p1 p2 => ∃ pre b post, ls c.index = pre ++ (p1, b) :: post ∧ Passed c.ad pre (p1, b) ∧
      s.heap.lookup p1 = some ⟨b, p2⟩
  | .unlinkNext c p1 p2 => ∃ pre b post, ls c.index = pre ++ (p1, b) :: (p2, c.ad) :: post ∧ Passed c.ad pre (p1, b)
  | .unlink c p1 p2 q => (∃ pre b post, ls c.index = pre ++ (p1, b) :: (p2, c.ad) :: post ∧ Passed c.ad pre (p1, b)) ∧
      s.heap.lookup p2 = some ⟨c.ad, q⟩
  | .free p2 => p2 ∈ s.heap

/-- The lists are in order: they are a forest of the records that are on them, and the variables of the call are right. -/
structure InOrder (s : Acl) (pc : ChangePc) (ls : Lists) : Prop where
  forest : Forest ACLListNode.mk (pc.linked s.heap) s.gACL ls
  fits : pc.Fits s ls

/-- Every record of a list is allocated, and is not the one that is on no list. -/
theorem InOrder.lookup {s : Acl} {pc : ChangePc} {ls : Lists} (h : InOrder s pc ls) (r : Fin rightNum) :
    ∀ a ∈ addrs (ls r), (pc.linked s.heap).lookup a = s.heap.lookup a ∧ pc.offList ≠ some a := by
  intro a ha
  have hmem := Seg.mem_heap (h.forest.chain r) a ha
  unfold ChangePc.linked at hmem ⊢
  split at hmem <;> rename_i hoff
  · rw [hoff]
    exact ⟨rfl, by simp⟩
  · rw [hoff]
    have hne : a ≠ _ := (Finmap.mem_erase.mp hmem).1
    exact ⟨Finmap.lookup_erase_ne hne, fun e => hne (Option.some.inj e).symm⟩

/-- The lists are chains of the heap. -/
theorem InOrder.chain {s : Acl} {pc : ChangePc} {ls : Lists} (h : InOrder s pc ls) (r : Fin rightNum) :
    Chain ACLListNode.mk s.heap (s.gACL r) (ls r) :=
  Seg.frame (h.forest.chain r) fun a ha => ((h.lookup r a ha).1).symm

/-- The store read off the lists is the one they hold. -/
theorem InOrder.store_eq {s : Acl} {pc : ChangePc} {ls : Lists} (h : InOrder s pc ls) : s.store = ls.store := by
  funext r
  exact recordsFrom_eq (h.chain r) ((h.chain r).length_le aclListNode_injective)

/-! ## Heaps with one record more -/

theorem erase_insert (h : Heap ACLListNode) (p : Addr) (n : ACLListNode) : (h.insert p n).erase p = h.erase p := by
  refine Finmap.ext_lookup fun a => ?_
  by_cases ha : a = p
  · subst ha
    rw [Finmap.lookup_erase, Finmap.lookup_erase]
  · rw [Finmap.lookup_erase_ne ha, Finmap.lookup_erase_ne ha, Finmap.lookup_insert_of_ne _ ha]

theorem erase_of_notMem {h : Heap ACLListNode} {p : Addr} (hp : p ∉ h) : h.erase p = h := by
  refine Finmap.ext_lookup fun a => ?_
  by_cases ha : a = p
  · subst ha
    rw [Finmap.lookup_erase, Finmap.lookup_eq_none.mpr hp]
  · rw [Finmap.lookup_erase_ne ha]

theorem insert_erase {h : Heap ACLListNode} {p : Addr} {n : ACLListNode} (hl : h.lookup p = some n) :
    (h.erase p).insert p n = h := by
  refine Finmap.ext_lookup fun a => ?_
  by_cases ha : a = p
  · subst ha
    rw [Finmap.lookup_insert, hl]
  · rw [Finmap.lookup_insert_of_ne _ ha, Finmap.lookup_erase_ne ha]

/-! ## One step of the thread -/

/-- What a step leaves: lists that are in order, and every reader of a list with what was ahead of it, except for what is not on the list.
The record that the step frees is the one that a reader must not be at. -/
structure Leaves (s : Acl) (pc : ChangePc) (ls : Lists) (s' : Acl) (pc' : ChangePc) (ls' : Lists) : Prop where
  inOrder : InOrder s' pc' ls'
  reads : ∀ r p ys, Reads ACLListNode.mk s.heap pc.unlinked (ls r) p ys → (∀ a, pc = .free a → p ≠ some a) →
    ∃ ys', Reads ACLListNode.mk s'.heap pc'.unlinked (ls' r) p ys' ∧ Keeps ys ys' (payloads (ls' r))

variable {s : Acl} {pc pc' : ChangePc} {ls : Lists}

/-- A step that only stores to the record that is on no list. -/
theorem InOrder.store (h : InOrder s pc ls) {h' : Heap ACLListNode} (hlinked : pc'.linked h' = pc.linked s.heap)
    (hun : pc.unlinked = none) (hun' : pc'.unlinked = none) (hfits : pc'.Fits { s with heap := h' } ls) :
    Leaves s pc ls { s with heap := h' } pc' ls := by
  have hnew : InOrder { s with heap := h' } pc' ls := ⟨by rw [hlinked]; exact h.forest, hfits⟩
  refine ⟨hnew, fun r p ys hr _ => ⟨ys, ?_, Keeps.refl ys _⟩⟩
  rw [hun] at hr
  rw [hun']
  refine hr.frame fun a ha => ?_
  rw [← (hnew.lookup r a ha).1, ← (h.lookup r a ha).1, hlinked]

/-- A step that only changes the variables of the call. -/
theorem InOrder.stay (h : InOrder s pc ls) (hoff : pc'.offList = pc.offList) (hun : pc.unlinked = none)
    (hun' : pc'.unlinked = none) (hfits : pc'.Fits s ls) : Leaves s pc ls s pc' ls :=
  h.store (by unfold ChangePc.linked; rw [hoff]) hun hun' hfits

/-- `gACL[right] = p`: the new record is in front of the list. -/
theorem InOrder.push {c : CheckedArgs} {p : Addr} (h : InOrder s (.push c p) ls) :
    Leaves s (.push c p) ls { s with gACL := Function.update s.gACL c.index (some p) } .idle
      (Function.update ls c.index ((p, c.ad) :: ls c.index)) := by
  have hfits : s.heap.lookup p = some ⟨c.ad, s.gACL c.index⟩ := h.fits
  have hforest := h.forest.push c.index (a := p) (fun hp => (Finmap.mem_erase.mp hp).1 rfl) c.ad
  refine ⟨⟨?_, trivial⟩, fun r q ys hr _ => ⟨ys, ?_, Keeps.refl ys _⟩⟩
  · have heap_eq : (ChangePc.push c p).linked s.heap = s.heap.erase p := rfl
    rw [heap_eq, insert_erase hfits] at hforest
    exact hforest
  · by_cases hrc : r = c.index
    · subst hrc
      rw [Function.update_self]
      exact hr.push _
    · rw [Function.update_of_ne hrc]
      exact hr

/-- `gACL[right] = p2->next`: the head leaves the list. -/
theorem InOrder.pop {c : CheckedArgs} {p2 : Addr} {q : Option Addr} (h : InOrder s (.pop c p2 q) ls) :
    ∃ ls', Leaves s (.pop c p2 q) ls { s with gACL := Function.update s.gACL c.index q } (.free p2) ls' := by
  obtain ⟨hhead, b, hl⟩ : s.gACL c.index = some p2 ∧ ∃ b, s.heap.lookup p2 = some ⟨b, q⟩ := h.fits
  have hc := h.chain c.index
  rw [hhead] at hc
  obtain ⟨b', q', xs, hls, hl', -⟩ := hc.some_cases
  obtain ⟨rfl, rfl⟩ := aclListNode_injective (Option.some.inj (hl.symm.trans hl'))
  refine ⟨Function.update ls c.index xs, ⟨h.forest.pop aclListNode_injective c.index hls hl, ?_⟩, ?_⟩
  · exact Finmap.mem_of_lookup_eq_some hl
  · refine fun r p ys hr _ => ⟨ys, ?_, Keeps.refl ys _⟩
    by_cases hrc : r = c.index
    · subst hrc
      rw [hls] at hr
      rw [Function.update_self]
      exact hr.pop
    · rw [Function.update_of_ne hrc]
      exact hr.frame fun _ _ => rfl

/-- `p1->next = p2->next`: an inner record leaves the list. No record in front of it holds its credential. -/
theorem InOrder.unlink {c : CheckedArgs} {p1 p2 : Addr} {q : Option Addr} {n : ACLListNode}
    (h : InOrder s (.unlink c p1 p2 q) ls) (hl1 : s.heap.lookup p1 = some n) :
    ∃ ls', Leaves s (.unlink c p1 p2 q) ls { s with heap := s.heap.insert p1 ⟨n.ad, q⟩ } (.free p2) ls' := by
  obtain ⟨⟨pre, b, post, hls, hpre, hb⟩, hl⟩ : (∃ pre b post, ls c.index = pre ++ (p1, b) :: (p2, c.ad) :: post ∧
    Passed c.ad pre (p1, b)) ∧ s.heap.lookup p2 = some ⟨c.ad, q⟩ := h.fits
  have hc := h.chain c.index
  have hnd := hc.nodup aclListNode_injective
  rw [hls] at hc hnd
  obtain ⟨q1, hlp, -⟩ := hc.node
  cases hl1.symm.trans hlp
  have hforest := h.forest.unlink aclListNode_injective c.index hls hl
  refine ⟨Function.update ls c.index (pre ++ (p1, b) :: post), ⟨hforest, ?_⟩, ?_⟩
  · exact Finmap.mem_insert.mpr (Or.inr (Finmap.mem_of_lookup_eq_some hl))
  · intro r p ys hr _
    by_cases hrc : r = c.index
    · subst hrc
      rw [hls] at hr
      rw [Function.update_self]
      obtain ⟨ys', hr', heq⟩ := hr.unlink aclListNode_injective hnd hl
      refine ⟨ys', hr', ?_⟩
      rcases heq with rfl | ⟨u, rfl, rfl⟩
      · exact Keeps.refl ys' _
      · refine Keeps.unlink fun hmem => ?_
        rw [payloads_append, payloads_cons, List.mem_append, List.mem_cons] at hmem
        rcases hmem with hmem | hmem | hmem
        · exact absurd hmem hpre
        · exact absurd hmem.symm hb
        · exact hmem
    · rw [Function.update_of_ne hrc]
      refine ⟨ys, hr.frame fun a ha => Finmap.lookup_insert_of_ne _ ?_, Keeps.refl ys _⟩
      rintro rfl
      exact h.forest.disjoint r c.index hrc a ha (by simp [hls])

/-- `free(p2)`: the record is on no list. -/
theorem InOrder.free {p2 : Addr} (h : InOrder s (.free p2) ls) :
    Leaves s (.free p2) ls { s with heap := s.heap.erase p2 } .idle ls := by
  refine ⟨⟨h.forest, trivial⟩, fun r p ys hr hp => ⟨ys, ?_, Keeps.refl ys _⟩⟩
  exact hr.free (hp p2 rfl) fun ha => (h.lookup r p2 ha).2 rfl

/-- The record at which the walk of `CC_DeleteACL` is, with what its node holds. -/
theorem InOrder.node {c : CheckedArgs} {p1 : Addr} {n : ACLListNode} (h : InOrder s pc ls)
    (hl : s.heap.lookup p1 = some n) {b : TypeAuthorizationData} {pre post : List (Addr × TypeAuthorizationData)}
    (hls : ls c.index = pre ++ (p1, b) :: post) : n.ad = b ∧ Chain ACLListNode.mk s.heap n.next post := by
  have hc := h.chain c.index
  rw [hls] at hc
  obtain ⟨q, hlp, hrest⟩ := hc.node
  cases hl.symm.trans hlp
  exact ⟨rfl, hrest⟩

/-- Every step of the thread leaves lists in order and, unless it frees the record that the reader is at, keeps what is ahead of it. -/
theorem changeStep_leaves {call : AwsCall} {want : Option Addr} {block : ACLListNode} {s' : Acl} {o : Option Int}
    (h : InOrder s pc ls) (hm : changeStep call want block s pc = .ok (s', pc', o)) : ∃ ls', Leaves s pc ls s' pc' ls' := by
  cases pc with
  | idle =>
    cases call <;> simp only [changeStep, changeStart] at hm <;> split at hm <;> cases hm <;>
      exact ⟨ls, h.stay rfl rfl rfl trivial⟩
  | malloc c =>
    simp only [changeStep] at hm
    split at hm
    · cases hm
      exact ⟨ls, h.stay rfl rfl rfl trivial⟩
    · rename_i p hp
      cases hm
      refine ⟨ls, h.store ?_ rfl rfl (Finmap.mem_insert.mpr (Or.inl rfl))⟩
      exact (erase_insert _ _ _).trans (erase_of_notMem (malloc_fresh hp))
  | copy c p =>
    obtain ⟨n, -, heq⟩ := load_bind_ok hm
    cases heq
    exact ⟨ls, h.store (erase_insert _ _ _) rfl rfl ⟨n.next, Finmap.lookup_insert _⟩⟩
  | link c p =>
    cases hm
    exact ⟨ls, h.stay rfl rfl rfl ⟨h.fits, rfl⟩⟩
  | setNext c p q =>
    obtain ⟨n, hn, heq⟩ := load_bind_ok hm
    cases heq
    obtain ⟨⟨q', hq'⟩, rfl⟩ : (∃ q', s.heap.lookup p = some ⟨c.ad, q'⟩) ∧ q = s.gACL c.index := h.fits
    cases hn.symm.trans hq'
    exact ⟨ls, h.store (erase_insert _ _ _) rfl rfl (Finmap.lookup_insert _)⟩
  | push c p =>
    cases hm
    exact ⟨_, h.push⟩
  | head c =>
    cases hm
    exact ⟨ls, h.stay rfl rfl rfl rfl⟩
  | compareHead c p2 =>
    obtain ⟨⟨a, n⟩, hl, heq⟩ := bind_ok hm
    obtain ⟨rfl, hn⟩ := load_ok hl
    have hhead : some a = s.gACL c.index := h.fits
    simp only at heq
    split_ifs at heq with had
    · cases heq
      exact ⟨ls, h.stay rfl rfl rfl hhead.symm⟩
    · cases heq
      have hc := h.chain c.index
      rw [← hhead] at hc
      obtain ⟨b, q, ys, hls, hl', -⟩ := hc.some_cases
      cases hn.symm.trans hl'
      exact ⟨ls, h.stay rfl rfl rfl ⟨[], b, ys, hls, List.not_mem_nil, had⟩⟩
  | popNext c p2 =>
    obtain ⟨n, hn, heq⟩ := load_bind_ok hm
    cases heq
    exact ⟨ls, h.stay rfl rfl rfl ⟨h.fits, n.ad, hn⟩⟩
  | pop c p2 q =>
    cases hm
    exact h.pop
  | advance c p1 =>
    obtain ⟨n, hn, heq⟩ := load_bind_ok hm
    cases heq
    obtain ⟨pre, b, post, hls, hpassed⟩ := h.fits
    obtain ⟨rfl, -⟩ := h.node hn hls
    exact ⟨ls, h.stay rfl rfl rfl ⟨pre, n.ad, post, hls, hpassed, hn⟩⟩
  | compare c p1 p2 =>
    cases p2 with
    | none =>
      cases hm
      exact ⟨ls, h.stay rfl rfl rfl trivial⟩
    | some p2 =>
      obtain ⟨n, hn, heq⟩ := load_bind_ok hm
      obtain ⟨pre, b, post, hls, hpassed, hl1⟩ := h.fits
      obtain ⟨-, hrest⟩ := h.node hl1 hls
      obtain ⟨b2, q, ys, rfl, hl2, -⟩ := hrest.some_cases
      cases hn.symm.trans hl2
      simp only at heq
      split_ifs at heq with had
      · cases heq
        exact ⟨ls, h.stay rfl rfl rfl ⟨pre, b, ys, had ▸ hls, hpassed⟩⟩
      · cases heq
        refine ⟨ls, h.stay rfl rfl rfl ⟨pre ++ [(p1, b)], b2, ys, by simpa using hls, ?_, had⟩⟩
        rw [payloads_append, List.mem_append, not_or]
        exact ⟨hpassed.1, by simpa [eq_comm] using hpassed.2⟩
  | unlinkNext c p1 p2 =>
    obtain ⟨n, hn, heq⟩ := load_bind_ok hm
    cases heq
    obtain ⟨pre, b, post, hls, hpassed⟩ := h.fits
    have hls' : ls c.index = (pre ++ [(p1, b)]) ++ (p2, c.ad) :: post := by simpa using hls
    have had := (h.node hn hls').1
    exact ⟨ls, h.stay rfl rfl rfl ⟨⟨pre, b, post, hls, hpassed⟩, by rw [hn, ← had]⟩⟩
  | unlink c p1 p2 q =>
    obtain ⟨n, hn, heq⟩ := load_bind_ok hm
    cases heq
    exact h.unlink hn
  | free p2 =>
    cases hm
    exact ⟨ls, h.free⟩

end CGuard
