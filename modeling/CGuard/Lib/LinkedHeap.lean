import Mathlib.Data.Finmap
import Mathlib.Algebra.BigOperators.Group.Finset.Basic
import Mathlib.Data.Fintype.BigOperators

/-!
# Linked lists in a heap

A heap is a finite map from addresses to nodes, and a node is built from a payload and a link by a constructor `mk` that is
injective. `Seg` is a list segment of such a heap, `Chain` a segment that ends in the null link, and `Forest` a family of
chains that share no node and together hold every node of the heap: no leak, no dangling link. The three ways to change such a
family one node at a time (push in front, pop the head, unlink an inner node) keep it a `Forest`.
-/

namespace LinkedHeap

/-- The address of a node. A link is `none` (the null pointer) or the address of the next node. -/
abbrev Addr : Type := Nat

/-- A heap: the allocated addresses and what is stored there. -/
abbrev Heap (ν : Type) : Type := Finmap (fun _ : Addr => ν)

variable {β ν ι : Type} (mk : β → Option Addr → ν)

/-- The list segment from a link to a link: the addresses it visits, in order, each with its payload. -/
inductive Seg (h : Heap ν) : Option Addr → List (Addr × β) → Option Addr → Prop where
  | nil (p : Option Addr) : Seg h p [] p
  | cons {a : Addr} {b : β} {q r : Option Addr} {xs : List (Addr × β)} :
      h.lookup a = some (mk b q) → Seg h q xs r → Seg h (some a) ((a, b) :: xs) r

/-- A chain: a segment that ends in the null link. -/
def Chain (h : Heap ν) (p : Option Addr) (xs : List (Addr × β)) : Prop := Seg mk h p xs none

/-- The addresses of the nodes of a segment. -/
def addrs (xs : List (Addr × β)) : List Addr := xs.map Prod.fst

/-- The payloads of the nodes of a segment. -/
def payloads (xs : List (Addr × β)) : List β := xs.map Prod.snd

@[simp] theorem addrs_nil : addrs ([] : List (Addr × β)) = [] := rfl

@[simp] theorem addrs_cons (x : Addr × β) (xs : List (Addr × β)) : addrs (x :: xs) = x.1 :: addrs xs := rfl

@[simp] theorem addrs_append (xs ys : List (Addr × β)) : addrs (xs ++ ys) = addrs xs ++ addrs ys := by
  simp [addrs]

@[simp] theorem payloads_nil : payloads ([] : List (Addr × β)) = [] := rfl

@[simp] theorem payloads_cons (x : Addr × β) (xs : List (Addr × β)) : payloads (x :: xs) = x.2 :: payloads xs := rfl

@[simp] theorem payloads_append (xs ys : List (Addr × β)) : payloads (xs ++ ys) = payloads xs ++ payloads ys := by
  simp [payloads]

@[simp] theorem addrs_length (xs : List (Addr × β)) : (addrs xs).length = xs.length := by
  simp [addrs]

@[simp] theorem payloads_length (xs : List (Addr × β)) : (payloads xs).length = xs.length := by
  simp [payloads]

variable {mk}

/-! ## Segments -/

/-- A chain from the null link is empty. -/
theorem Chain.none_eq {h : Heap ν} {xs : List (Addr × β)} (hc : Chain mk h none xs) : xs = [] := by
  cases hc
  rfl

/-- A chain from an address starts with the node stored there. -/
theorem Chain.some_cases {h : Heap ν} {a : Addr} {xs : List (Addr × β)} (hc : Chain mk h (some a) xs) :
    ∃ b q ys, xs = (a, b) :: ys ∧ h.lookup a = some (mk b q) ∧ Chain mk h q ys := by
  cases hc with
  | cons hl hs => exact ⟨_, _, _, rfl, hl, hs⟩

/-- A segment splits at any of its nodes. -/
theorem Seg.split {h : Heap ν} {p r : Option Addr} {xs ys : List (Addr × β)} (hs : Seg mk h p (xs ++ ys) r) :
    ∃ q, Seg mk h p xs q ∧ Seg mk h q ys r := by
  induction xs generalizing p with
  | nil => exact ⟨p, Seg.nil p, hs⟩
  | cons x xs ih =>
    cases hs with
    | cons hl hs =>
      obtain ⟨q, h1, h2⟩ := ih hs
      exact ⟨q, Seg.cons hl h1, h2⟩

/-- A node of a chain, and the chain after it. -/
theorem Chain.node {h : Heap ν} {p : Option Addr} {a : Addr} {b : β} {pre post : List (Addr × β)}
    (hc : Chain mk h p (pre ++ (a, b) :: post)) : ∃ q, h.lookup a = some (mk b q) ∧ Chain mk h q post := by
  obtain ⟨r, -, hs⟩ := Seg.split hc
  cases hs with
  | cons hl hs => exact ⟨_, hl, hs⟩

/-- Segments that meet are one segment. -/
theorem Seg.append {h : Heap ν} {p q r : Option Addr} {xs ys : List (Addr × β)} (h1 : Seg mk h p xs q)
    (h2 : Seg mk h q ys r) : Seg mk h p (xs ++ ys) r := by
  induction h1 with
  | nil => exact h2
  | cons hl _ ih => exact Seg.cons hl (ih h2)

/-- The frame rule: a segment stays one in every heap that agrees on its addresses. -/
theorem Seg.frame {h h' : Heap ν} {p r : Option Addr} {xs : List (Addr × β)} (hs : Seg mk h p xs r)
    (heq : ∀ a ∈ addrs xs, h'.lookup a = h.lookup a) : Seg mk h' p xs r := by
  induction hs with
  | nil p => exact Seg.nil p
  | cons hl _ ih =>
    refine Seg.cons ?_ (ih fun a ha => heq a (List.mem_cons_of_mem _ ha))
    rw [heq _ List.mem_cons_self, hl]

/-- Every address of a segment is allocated. -/
theorem Seg.mem_heap {h : Heap ν} {p r : Option Addr} {xs : List (Addr × β)} (hs : Seg mk h p xs r) :
    ∀ a ∈ addrs xs, a ∈ h := by
  induction hs with
  | nil => intro a ha; exact absurd ha List.not_mem_nil
  | cons hl _ ih =>
    intro a ha
    rcases List.mem_cons.mp ha with rfl | ha
    · exact Finmap.mem_of_lookup_eq_some hl
    · exact ih a ha

/-- Two chains from the same link are the same chain. -/
theorem Chain.unique (hmk : Function.Injective2 mk) {h : Heap ν} {p : Option Addr} {xs ys : List (Addr × β)}
    (hx : Chain mk h p xs) (hy : Chain mk h p ys) : xs = ys := by
  induction xs generalizing p ys with
  | nil =>
    cases hx
    exact hy.none_eq.symm
  | cons x xs ih =>
    cases hx with
    | cons hl hs =>
      obtain ⟨b, q, ys', rfl, hl', hs'⟩ := hy.some_cases
      obtain ⟨rfl, rfl⟩ := hmk (Option.some.inj (hl.symm.trans hl'))
      rw [ih hs hs']

/-- No chain visits an address twice: from the second visit on it would be longer than itself. -/
theorem Chain.nodup (hmk : Function.Injective2 mk) {h : Heap ν} {p : Option Addr} {xs : List (Addr × β)}
    (hc : Chain mk h p xs) : (addrs xs).Nodup := by
  induction xs generalizing p with
  | nil => exact List.nodup_nil
  | cons x xs ih =>
    cases hc with
    | @cons a b q _ _ hl hs =>
      refine List.nodup_cons.mpr ⟨?_, ih hs⟩
      intro ha
      obtain ⟨⟨a', c⟩, hmem, rfl⟩ := List.mem_map.mp ha
      obtain ⟨pre, post, rfl⟩ := List.append_of_mem hmem
      obtain ⟨q', -, hsuf⟩ := Seg.split hs
      have hq' : q' = some a' := by cases hsuf; rfl
      subst hq'
      have hlen := congrArg List.length (Chain.unique hmk hsuf (Seg.cons hl hs))
      simp only [List.length_cons, List.length_append] at hlen
      omega

/-- A chain is no longer than the heap is large. -/
theorem Chain.length_le (hmk : Function.Injective2 mk) {h : Heap ν} {p : Option Addr} {xs : List (Addr × β)}
    (hc : Chain mk h p xs) : xs.length ≤ h.keys.card := by
  rw [← addrs_length, ← List.toFinset_card_of_nodup (hc.nodup hmk)]
  apply Finset.card_le_card
  intro a ha
  exact Finmap.mem_keys.mpr (Seg.mem_heap hc a (List.mem_toFinset.mp ha))

/-- Unlinking an inner node of a chain: its predecessor takes over its link. -/
theorem Chain.unlink (hmk : Function.Injective2 mk) {h : Heap ν} {p : Option Addr} {a a' : Addr} {b c : β} {q : Option Addr}
    {pre post : List (Addr × β)} (hc : Chain mk h p (pre ++ (a', c) :: (a, b) :: post)) (hl : h.lookup a = some (mk b q)) :
    Chain mk (h.insert a' (mk c q)) p (pre ++ (a', c) :: post) := by
  have hnd := hc.nodup hmk
  simp only [addrs_append, addrs_cons, List.nodup_append, List.nodup_cons, List.mem_cons, not_or] at hnd
  obtain ⟨-, ⟨⟨-, hpost⟩, -⟩, hpre⟩ := hnd
  -- the part before the predecessor and the part after the node are framed; the predecessor is the one node that changed
  obtain ⟨r, hs1, hs2⟩ := Seg.split hc
  have hr : r = some a' := by cases hs2; rfl
  subst hr
  cases hs2 with
  | cons hlp hs2 =>
    cases hs2 with
    | cons hla hs2 =>
      obtain ⟨-, rfl⟩ := hmk (Option.some.inj (hl.symm.trans hla))
      refine Seg.append (Seg.frame hs1 ?_) (Seg.cons (Finmap.lookup_insert _) (Seg.frame hs2 ?_))
      · intro x hx
        exact Finmap.lookup_insert_of_ne _ (hpre x hx a' (Or.inl rfl))
      · intro x hx
        exact Finmap.lookup_insert_of_ne _ fun e => hpost (e ▸ hx)

/-! ## Forests -/

variable (mk)

/-- The chains from `head` hold the payloads `ls`, no two of them share a node, and together they hold every node of the
heap. -/
structure Forest (h : Heap ν) (head : ι → Option Addr) (ls : ι → List (Addr × β)) : Prop where
  chain : ∀ i, Chain mk h (head i) (ls i)
  disjoint : ∀ i j, i ≠ j → ∀ a ∈ addrs (ls i), a ∉ addrs (ls j)
  live : ∀ a, a ∈ h ↔ ∃ i, a ∈ addrs (ls i)

variable {mk}

/-- The empty heap is the forest of empty chains. -/
theorem Forest.empty : Forest mk (∅ : Heap ν) (fun _ : ι => none) (fun _ => []) where
  chain _ := Seg.nil none
  disjoint _ _ _ a ha := absurd ha List.not_mem_nil
  live a := by simp [Finmap.notMem_empty]

variable [DecidableEq ι]

/-- One chain changes and the others are framed: what the three operations have in common. -/
theorem Forest.update {h h' : Heap ν} {head : ι → Option Addr} {ls : ι → List (Addr × β)} (hf : Forest mk h head ls)
    (i : ι) {p : Option Addr} {xs : List (Addr × β)} (hc : Chain mk h' p xs)
    (hframe : ∀ j, j ≠ i → ∀ a ∈ addrs (ls j), h'.lookup a = h.lookup a)
    (hdisj : ∀ j, j ≠ i → ∀ a ∈ addrs xs, a ∉ addrs (ls j))
    (hlive : ∀ a, a ∈ h' ↔ a ∈ addrs xs ∨ ∃ j, j ≠ i ∧ a ∈ addrs (ls j)) :
    Forest mk h' (Function.update head i p) (Function.update ls i xs) := by
  refine ⟨?_, ?_, ?_⟩
  · intro j
    by_cases hj : j = i
    · subst hj
      simpa only [Function.update_self] using hc
    · simp only [Function.update_of_ne hj]
      exact Seg.frame (hf.chain j) (hframe j hj)
  · intro j k hjk a ha
    by_cases hj : j = i
    · subst hj
      rw [Function.update_self] at ha
      rw [Function.update_of_ne (Ne.symm hjk)]
      exact hdisj k (Ne.symm hjk) a ha
    · rw [Function.update_of_ne hj] at ha
      by_cases hk : k = i
      · subst hk
        rw [Function.update_self]
        exact fun hx => hdisj j hj a hx ha
      · rw [Function.update_of_ne hk]
        exact hf.disjoint j k hjk a ha
  · intro a
    rw [hlive]
    constructor
    · rintro (ha | ⟨j, hj, ha⟩)
      · exact ⟨i, by rwa [Function.update_self]⟩
      · exact ⟨j, by rwa [Function.update_of_ne hj]⟩
    · rintro ⟨j, ha⟩
      by_cases hj : j = i
      · subst hj
        exact Or.inl (by rwa [Function.update_self] at ha)
      · exact Or.inr ⟨j, hj, by rwa [Function.update_of_ne hj] at ha⟩

/-- The allocated addresses, split into those of one chain and those of the others. -/
theorem Forest.mem_iff {h : Heap ν} {head : ι → Option Addr} {ls : ι → List (Addr × β)} (hf : Forest mk h head ls)
    (i : ι) (a : Addr) : a ∈ h ↔ a ∈ addrs (ls i) ∨ ∃ j, j ≠ i ∧ a ∈ addrs (ls j) := by
  rw [hf.live]
  constructor
  · rintro ⟨j, hj⟩
    by_cases hji : j = i
    · exact Or.inl (hji ▸ hj)
    · exact Or.inr ⟨j, hji, hj⟩
  · rintro (hi | ⟨j, _, hj⟩)
    · exact ⟨i, hi⟩
    · exact ⟨j, hj⟩

/-- Pushing a new node in front of one chain. -/
theorem Forest.push {h : Heap ν} {head : ι → Option Addr} {ls : ι → List (Addr × β)} (hf : Forest mk h head ls)
    (i : ι) {a : Addr} (ha : a ∉ h) (b : β) :
    Forest mk (h.insert a (mk b (head i))) (Function.update head i (some a))
      (Function.update ls i ((a, b) :: ls i)) := by
  have hnew : ∀ j, a ∉ addrs (ls j) := fun j hj => ha ((hf.live a).mpr ⟨j, hj⟩)
  have hframe : ∀ j, ∀ c ∈ addrs (ls j), (h.insert a (mk b (head i))).lookup c = h.lookup c := by
    intro j c hc
    exact Finmap.lookup_insert_of_ne _ (fun e => hnew j (e ▸ hc))
  refine hf.update i ?_ (fun j _ => hframe j) ?_ ?_
  · exact Seg.cons (Finmap.lookup_insert _) (Seg.frame (hf.chain i) (hframe i))
  · intro j hj c hc
    rcases List.mem_cons.mp hc with rfl | hc
    · exact hnew j
    · exact hf.disjoint i j (Ne.symm hj) c hc
  · intro c
    rw [Finmap.mem_insert, hf.mem_iff i, addrs_cons, List.mem_cons, or_assoc]

/-- Popping the head of one chain and freeing its node. -/
theorem Forest.pop (hmk : Function.Injective2 mk) {h : Heap ν} {head : ι → Option Addr} {ls : ι → List (Addr × β)}
    (hf : Forest mk h head ls) (i : ι) {a : Addr} {b : β} {q : Option Addr} {xs : List (Addr × β)}
    (hls : ls i = (a, b) :: xs) (hl : h.lookup a = some (mk b q)) :
    Forest mk (h.erase a) (Function.update head i q) (Function.update ls i xs) := by
  have hchain := hf.chain i
  have hnd := hchain.nodup hmk
  rw [hls] at hchain hnd
  have haxs : a ∉ addrs xs := (List.nodup_cons.mp hnd).1
  have hai : a ∈ addrs (ls i) := by simp [hls]
  have hframe : ∀ c, c ≠ a → (h.erase a).lookup c = h.lookup c := fun c hc => Finmap.lookup_erase_ne hc
  refine hf.update i ?_ ?_ ?_ ?_
  · generalize head i = p at hchain
    cases hchain with
    | cons hl' hs =>
      obtain ⟨-, rfl⟩ := hmk (Option.some.inj (hl.symm.trans hl'))
      exact Seg.frame hs fun c hc => hframe c (fun e => haxs (e ▸ hc))
  · intro j hj c hc
    exact hframe c (fun e => hf.disjoint i j (Ne.symm hj) a hai (e ▸ hc))
  · intro j hj c hc
    exact hf.disjoint i j (Ne.symm hj) c (by simp [hls, hc])
  · intro c
    rw [Finmap.mem_erase, hf.mem_iff i, hls, addrs_cons, List.mem_cons]
    constructor
    · rintro ⟨hca, (hc | hc) | hc⟩
      · exact absurd hc hca
      · exact Or.inl hc
      · exact Or.inr hc
    · rintro (hc | ⟨j, hj, hc⟩)
      · exact ⟨fun e => haxs (e ▸ hc), Or.inl (Or.inr hc)⟩
      · exact ⟨fun e => hf.disjoint i j (Ne.symm hj) a hai (e ▸ hc), Or.inr ⟨j, hj, hc⟩⟩

/-- Unlinking an inner node of one chain (its predecessor takes over its link) and freeing it. -/
theorem Forest.unlink (hmk : Function.Injective2 mk) {h : Heap ν} {head : ι → Option Addr}
    {ls : ι → List (Addr × β)} (hf : Forest mk h head ls) (i : ι) {p a : Addr} {c b : β} {q : Option Addr}
    {pre post : List (Addr × β)} (hls : ls i = pre ++ (p, c) :: (a, b) :: post) (hl : h.lookup a = some (mk b q)) :
    Forest mk ((h.insert p (mk c q)).erase a) head (Function.update ls i (pre ++ (p, c) :: post)) := by
  have hchain := hf.chain i
  have hnd := hchain.nodup hmk
  rw [hls] at hchain hnd
  simp only [addrs_append, addrs_cons, List.nodup_append, List.nodup_cons, List.mem_cons, not_or] at hnd
  obtain ⟨-, ⟨⟨hpa, hppost⟩, hapost, -⟩, hpre⟩ := hnd
  have hpi : p ∈ addrs (ls i) := by simp [hls]
  have hai : a ∈ addrs (ls i) := by simp [hls]
  have hframe : ∀ x, x ≠ a → x ≠ p → ((h.insert p (mk c q)).erase a).lookup x = h.lookup x := by
    intro x hxa hxp
    rw [Finmap.lookup_erase_ne hxa, Finmap.lookup_insert_of_ne _ hxp]
  have hhead : Function.update head i (head i) = head := Function.update_eq_self i head
  rw [← hhead]
  refine hf.update i ?_ ?_ ?_ ?_
  · refine Seg.frame (Chain.unlink hmk hchain hl) fun x hx => Finmap.lookup_erase_ne ?_
    rintro rfl
    simp only [addrs_append, addrs_cons, List.mem_append, List.mem_cons] at hx
    rcases hx with hx | rfl | hx
    · exact hpre x hx x (Or.inr (Or.inl rfl)) rfl
    · exact hpa rfl
    · exact hapost hx
  · intro j hj x hx
    exact hframe x (fun e => hf.disjoint i j (Ne.symm hj) a hai (e ▸ hx))
      (fun e => hf.disjoint i j (Ne.symm hj) p hpi (e ▸ hx))
  · intro j hj x hx
    refine hf.disjoint i j (Ne.symm hj) x ?_
    simp only [hls, addrs_append, addrs_cons, List.mem_append, List.mem_cons] at hx ⊢
    rcases hx with hx | hx | hx <;> simp [hx]
  · intro x
    rw [Finmap.mem_erase, Finmap.mem_insert, hf.mem_iff i, hls]
    simp only [addrs_append, addrs_cons, List.mem_append, List.mem_cons]
    constructor
    · rintro ⟨hxa, rfl | (hx | rfl | rfl | hx) | hx⟩
      · exact Or.inl (Or.inr (Or.inl rfl))
      · exact Or.inl (Or.inl hx)
      · exact Or.inl (Or.inr (Or.inl rfl))
      · exact absurd rfl hxa
      · exact Or.inl (Or.inr (Or.inr hx))
      · exact Or.inr hx
    · rintro ((hx | rfl | hx) | ⟨j, hj, hx⟩)
      · exact ⟨hpre x hx a (Or.inr (Or.inl rfl)), Or.inr (Or.inl (Or.inl hx))⟩
      · exact ⟨hpa, Or.inl rfl⟩
      · exact ⟨fun e => hapost (e ▸ hx), Or.inr (Or.inl (Or.inr (Or.inr (Or.inr hx))))⟩
      · exact ⟨fun e => hf.disjoint i j (Ne.symm hj) a hai (e ▸ hx), Or.inr (Or.inr ⟨j, hj, hx⟩)⟩

omit [DecidableEq ι] in
/-- The nodes of a forest, counted: the heap holds exactly the nodes of the chains. -/
theorem Forest.card [Fintype ι] (hmk : Function.Injective2 mk) {h : Heap ν} {head : ι → Option Addr}
    {ls : ι → List (Addr × β)} (hf : Forest mk h head ls) : h.keys.card = ∑ i, (ls i).length := by
  have hkeys : h.keys = Finset.univ.biUnion (fun i => (addrs (ls i)).toFinset) := by
    ext a
    simp only [Finmap.mem_keys, hf.live, Finset.mem_biUnion, Finset.mem_univ, true_and, List.mem_toFinset]
  rw [hkeys, Finset.card_biUnion]
  · refine Finset.sum_congr rfl fun i _ => ?_
    rw [List.toFinset_card_of_nodup ((hf.chain i).nodup hmk), addrs_length]
  · intro i _ j _ hij
    refine Finset.disjoint_left.mpr fun a hi hj => ?_
    exact hf.disjoint i j hij a (List.mem_toFinset.mp hi) (List.mem_toFinset.mp hj)

end LinkedHeap
