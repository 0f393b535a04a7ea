import CGuard.Lib.LinkedHeap

/-!
# A reader of a list that changes

A reader follows the links of a list while a writer pushes, pops and unlinks nodes of it. What is ahead of the reader is a suffix of the
list, or one node that has been taken off the list, and is not freed yet, followed by a suffix of it (`Reads`). The rules say what each
operation of the writer leaves ahead of the reader, and `Keeps` that no payload is lost for a reader but one that is no longer on the list.
-/

namespace LinkedHeap

variable {β ν : Type} (mk : β → Option Addr → ν)

/-- The reader is at the link `p` of the list `xs`, and `ys` is ahead of it; `off` is a node that is off the list, but not freed. -/
structure Reads (h : Heap ν) (off : Option Addr) (xs : List (Addr × β)) (p : Option Addr) (ys : List (Addr × β)) : Prop where
  chain : Chain mk h p ys
  place : ys <:+ xs ∨ ∃ a b zs, off = some a ∧ ys = (a, b) :: zs ∧ zs <:+ xs

/-- What was ahead of a reader, what is ahead of it now, and the payloads on the list: the next node is the same, no payload is new, and a
payload that was further ahead still is, or is not on the list. -/
structure Keeps (ys ys' : List (Addr × β)) (cs : List β) : Prop where
  head : ys'.head? = ys.head?
  old : ∀ b ∈ payloads ys', b ∈ payloads ys
  tail : ∀ b ∈ payloads ys.tail, b ∈ payloads ys'.tail ∨ b ∉ cs

theorem Keeps.refl (ys : List (Addr × β)) (cs : List β) : Keeps ys ys cs :=
  ⟨rfl, fun _ hb => hb, fun _ hb => Or.inl hb⟩

/-- A payload that was ahead of the reader still is, or is not on the list. -/
theorem Keeps.mem {ys ys' : List (Addr × β)} {cs : List β} (h : Keeps ys ys' cs) {b : β} (hb : b ∈ payloads ys) :
    b ∈ payloads ys' ∨ b ∉ cs := by
  have hhead := h.head
  have htail := h.tail
  cases ys with
  | nil => simp at hb
  | cons y ys =>
    cases ys' with
    | nil => simp at hhead
    | cons y' ys' =>
      simp only [List.head?_cons, Option.some.injEq] at hhead
      subst hhead
      rcases List.mem_cons.mp hb with rfl | hb
      · exact Or.inl List.mem_cons_self
      · rcases htail b hb with hb | hb
        · exact Or.inl (List.mem_cons_of_mem _ hb)
        · exact Or.inr hb

/-- The node after an inner one goes. Its payload stays ahead, if it is still on the list at all. -/
theorem Keeps.unlink {u post : List (Addr × β)} {x : Addr × β} {a : Addr} {b : β} {cs : List β} (h : b ∈ cs → b ∈ payloads post) :
    Keeps (u ++ x :: (a, b) :: post) (u ++ x :: post) cs := by
  refine ⟨by cases u <;> rfl, ?_, ?_⟩
  · intro d hd
    simp only [payloads_append, payloads_cons, List.mem_append, List.mem_cons] at hd ⊢
    rcases hd with hd | hd | hd <;> simp [hd]
  · intro d hd
    by_cases hb : d ∈ cs
    · left
      cases u with
      | nil =>
        rcases List.mem_cons.mp hd with rfl | hd
        · exact h hb
        · exact hd
      | cons y u =>
        simp only [List.cons_append, List.tail_cons, payloads_append, payloads_cons, List.mem_append, List.mem_cons] at hd ⊢
        rcases hd with hd | hd | rfl | hd
        · exact Or.inl hd
        · exact Or.inr (Or.inl hd)
        · exact Or.inr (Or.inr (h hb))
        · exact Or.inr (Or.inr hd)
    · exact Or.inr hb

variable {mk}

/-- A reader that starts at the head of the list. -/
theorem Reads.start {h : Heap ν} {off : Option Addr} {xs : List (Addr × β)} {p : Option Addr} (hc : Chain mk h p xs) :
    Reads mk h off xs p xs :=
  ⟨hc, Or.inl List.suffix_rfl⟩

/-- At the null link nothing is ahead. -/
theorem Reads.none_eq {h : Heap ν} {off : Option Addr} {xs ys : List (Addr × β)} (hr : Reads mk h off xs none ys) : ys = [] :=
  hr.chain.none_eq

/-- The reader is at an allocated node, and follows its link. -/
theorem Reads.next (hmk : Function.Injective2 mk) {h : Heap ν} {off : Option Addr} {xs : List (Addr × β)} {a : Addr} {b : β}
    {q : Option Addr} {ys : List (Addr × β)} (hr : Reads mk h off xs (some a) ((a, b) :: ys)) (hl : h.lookup a = some (mk b q)) :
    Reads mk h off xs q ys := by
  obtain ⟨b', q', zs, heq, hl', hc⟩ := hr.chain.some_cases
  cases heq
  obtain ⟨-, rfl⟩ := hmk (Option.some.inj (hl.symm.trans hl'))
  refine ⟨hc, Or.inl ?_⟩
  rcases hr.place with hsuf | ⟨a', b', zs, -, heq, hsuf⟩
  · exact (List.suffix_cons _ _).trans hsuf
  · cases heq
    exact hsuf

/-- A reader of a list that does not change, while no node is off it. -/
theorem Reads.frame {h h' : Heap ν} {off : Option Addr} {xs : List (Addr × β)} {p : Option Addr} {ys : List (Addr × β)}
    (hr : Reads mk h none xs p ys) (heq : ∀ a ∈ addrs xs, h'.lookup a = h.lookup a) : Reads mk h' off xs p ys := by
  rcases hr.place with hsuf | ⟨_, _, _, hoff, -⟩
  · exact ⟨Seg.frame hr.chain fun a ha => heq a ((hsuf.map Prod.fst).subset ha), Or.inl hsuf⟩
  · cases hoff

/-- A push in front of the list. -/
theorem Reads.push {h : Heap ν} {xs : List (Addr × β)} {p : Option Addr} {ys : List (Addr × β)} (hr : Reads mk h none xs p ys)
    (x : Addr × β) : Reads mk h none (x :: xs) p ys := by
  rcases hr.place with hsuf | ⟨_, _, _, hoff, -⟩
  · exact ⟨hr.chain, Or.inl (hsuf.trans (List.suffix_cons x xs))⟩
  · cases hoff

/-- The head leaves the list. -/
theorem Reads.pop {h : Heap ν} {xs : List (Addr × β)} {a : Addr} {b : β} {p : Option Addr} {ys : List (Addr × β)}
    (hr : Reads mk h none ((a, b) :: xs) p ys) : Reads mk h (some a) xs p ys := by
  rcases hr.place with hsuf | ⟨_, _, _, hoff, -⟩
  · refine ⟨hr.chain, ?_⟩
    rcases List.suffix_cons_iff.mp hsuf with rfl | hsuf
    · exact Or.inr ⟨a, b, xs, rfl, rfl, List.suffix_rfl⟩
    · exact Or.inl hsuf
  · cases hoff

/-- An inner node leaves the list: its predecessor takes over its link. A reader behind the predecessor does not meet the node any more,
and every other reader goes on as before. -/
theorem Reads.unlink (hmk : Function.Injective2 mk) {h : Heap ν} {a a' : Addr} {b c : β} {q p : Option Addr}
    {pre post ys : List (Addr × β)} (hr : Reads mk h none (pre ++ (a', c) :: (a, b) :: post) p ys)
    (hnd : (addrs (pre ++ (a', c) :: (a, b) :: post)).Nodup) (hl : h.lookup a = some (mk b q)) :
    ∃ ys', Reads mk (h.insert a' (mk c q)) (some a) (pre ++ (a', c) :: post) p ys' ∧
      (ys' = ys ∨ ∃ u, ys = u ++ (a', c) :: (a, b) :: post ∧ ys' = u ++ (a', c) :: post) := by
  have hsuf : ys <:+ pre ++ (a', c) :: (a, b) :: post := by
    rcases hr.place with hsuf | ⟨_, _, _, hoff, -⟩
    · exact hsuf
    · cases hoff
  simp only [addrs_append, addrs_cons, List.nodup_append, List.nodup_cons, List.mem_cons, not_or] at hnd
  obtain ⟨-, ⟨⟨ha', hpost⟩, -⟩, -⟩ := hnd
  have hframe : ∀ zs, ys = zs → a' ∉ addrs zs → Chain mk (h.insert a' (mk c q)) p zs := by
    rintro zs rfl hn
    exact Seg.frame hr.chain fun x hx => Finmap.lookup_insert_of_ne _ fun e => hn (e ▸ hx)
  have hend : post <:+ pre ++ (a', c) :: post := (List.suffix_cons _ post).trans (List.suffix_append pre _)
  obtain ⟨t, ht⟩ := hsuf
  rcases List.append_eq_append_iff.mp ht with ⟨u, hu, rfl⟩ | ⟨u, -, hu⟩
  · -- behind the predecessor, or at it
    refine ⟨u ++ (a', c) :: post, ⟨Chain.unlink hmk hr.chain hl, Or.inl ?_⟩, Or.inr ⟨u, rfl, rfl⟩⟩
    rw [hu, List.append_assoc]
    exact List.suffix_append t _
  · rcases List.suffix_cons_iff.mp ⟨u, hu.symm⟩ with rfl | hsuf
    · have hchain : Chain mk (h.insert a' (mk c q)) p ([] ++ (a', c) :: post) := Chain.unlink hmk hr.chain hl
      exact ⟨(a', c) :: post, ⟨hchain, Or.inl (List.suffix_append pre _)⟩, Or.inr ⟨[], rfl, rfl⟩⟩
    · rcases List.suffix_cons_iff.mp hsuf with heq | hsuf
      · -- at the node: it is off the list now
        refine ⟨ys, ⟨hframe ys rfl ?_, Or.inr ⟨a, b, post, rfl, heq, hend⟩⟩, Or.inl rfl⟩
        rw [heq, addrs_cons, List.mem_cons, not_or]
        exact ⟨ha', hpost⟩
      · exact ⟨ys, ⟨hframe ys rfl fun hx => hpost ((hsuf.map Prod.fst).subset hx), Or.inl (hsuf.trans hend)⟩, Or.inl rfl⟩

/-- The node that is off the list is freed, and the reader is not at it. -/
theorem Reads.free {h : Heap ν} {a : Addr} {xs : List (Addr × β)} {p : Option Addr} {ys : List (Addr × β)}
    (hr : Reads mk h (some a) xs p ys) (hp : p ≠ some a) (ha : a ∉ addrs xs) : Reads mk (h.erase a) none xs p ys := by
  rcases hr.place with hsuf | ⟨a', b, zs, hoff, rfl, -⟩
  · refine ⟨Seg.frame hr.chain fun x hx => Finmap.lookup_erase_ne ?_, Or.inl hsuf⟩
    rintro rfl
    exact ha ((hsuf.map Prod.fst).subset hx)
  · cases hoff
    have hhead : p = some a := by
      have hc := hr.chain
      cases hc
      rfl
    exact absurd hhead hp

end LinkedHeap
