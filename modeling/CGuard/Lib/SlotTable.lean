import Mathlib.Data.Finmap
import Mathlib.Data.Finset.Card
import Mathlib.Logic.Function.Basic

/-!
# Tables of slots

A table gives each slot an entry, an identifier with its value, or nothing. A table in which no identifier has two slots is a finite map,
whichever slots its entries have and in whichever order the slots are visited.
-/

namespace SlotTable

variable {κ ι ν : Type}

/-- What each slot holds. -/
abbrev Table (κ ι ν : Type) : Type := κ → Option (ι × ν)

/-- A finite map of identifiers. -/
abbrev Registry (ι ν : Type) : Type := Finmap (fun _ : ι => ν)

variable [DecidableEq ι]

/-- A table is a map: its entries are those of the map, and no identifier has two slots. -/
structure Tabulates (t : Table κ ι ν) (m : Registry ι ν) : Prop where
  lookup : ∀ id v, m.lookup id = some v ↔ ∃ k, t k = some (id, v)
  unique : ∀ {k k' id v v'}, t k = some (id, v) → t k' = some (id, v') → k = k'

variable {t : Table κ ι ν} {m : Registry ι ν}

theorem Tabulates.lookup_of_slot (h : Tabulates t m) {k : κ} {id : ι} {v : ν} (hk : t k = some (id, v)) : m.lookup id = some v :=
  (h.lookup id v).mpr ⟨k, hk⟩

/-- An identifier that no slot has is not in the map. -/
theorem Tabulates.lookup_eq_none (h : Tabulates t m) {id : ι} : m.lookup id = none ↔ ∀ k v, t k ≠ some (id, v) := by
  constructor
  · intro hnone k v hk
    rw [h.lookup_of_slot hk] at hnone
    cases hnone
  · intro hall
    rcases hm : m.lookup id with _ | v
    · rfl
    · obtain ⟨k, hk⟩ := (h.lookup id v).mp hm
      exact absurd hk (hall k v)

/-- A table is one map only. -/
theorem Tabulates.ext {m' : Registry ι ν} (h : Tabulates t m) (h' : Tabulates t m') : m = m' := by
  refine Finmap.ext_lookup fun id => Option.ext fun v => ?_
  exact (h.lookup id v).trans (h'.lookup id v).symm

/-- The table without entries. -/
theorem Tabulates.empty : Tabulates (fun _ : κ => (none : Option (ι × ν))) ∅ where
  lookup := fun id v => by simp
  unique := fun hk _ => by cases hk

theorem Tabulates.eq_empty_iff (h : Tabulates t m) : m = ∅ ↔ ∀ k, t k = none := by
  constructor
  · rintro rfl k
    rcases hk : t k with _ | ⟨id, v⟩
    · rfl
    · have := h.lookup_of_slot hk
      rw [Finmap.lookup_empty] at this
      cases this
  · intro hall
    refine h.ext ?_
    rw [funext hall]
    exact Tabulates.empty

section Update

variable [DecidableEq κ]

/-- An entry is stored in a slot that is free or has its identifier, and no other slot has the identifier. -/
theorem Tabulates.put (h : Tabulates t m) {k : κ} {id : ι} (v : ν) (hk : ∀ e, t k = some e → e.1 = id)
    (hid : ∀ k' v', t k' = some (id, v') → k' = k) : Tabulates (Function.update t k (some (id, v))) (m.insert id v) where
  lookup := by
    intro id' v'
    by_cases heq : id' = id
    · subst heq
      rw [Finmap.lookup_insert]
      constructor
      · intro hv
        cases hv
        exact ⟨k, Function.update_self ..⟩
      · rintro ⟨k', hk'⟩
        by_cases hkk : k' = k
        · subst hkk
          rw [Function.update_self] at hk'
          cases hk'
          rfl
        · rw [Function.update_of_ne hkk] at hk'
          exact absurd (hid k' v' hk') hkk
    · rw [Finmap.lookup_insert_of_ne _ heq, h.lookup]
      refine exists_congr fun k' => ?_
      by_cases hkk : k' = k
      · subst hkk
        rw [Function.update_self]
        constructor
        · intro hk'
          exact absurd (hk _ hk') heq
        · intro hk'
          cases hk'
          exact absurd rfl heq
      · rw [Function.update_of_ne hkk]
  unique := by
    intro k₁ k₂ id' v₁ v₂ h₁ h₂
    have hslot : ∀ k' v', Function.update t k (some (id, v)) k' = some (id', v') → k' = k ∧ id' = id ∨ k' ≠ k ∧ t k' = some (id', v') := by
      intro k' v' hk'
      by_cases hkk : k' = k
      · subst hkk
        rw [Function.update_self] at hk'
        cases hk'
        exact Or.inl ⟨rfl, rfl⟩
      · rw [Function.update_of_ne hkk] at hk'
        exact Or.inr ⟨hkk, hk'⟩
    rcases hslot k₁ v₁ h₁ with ⟨rfl, rfl⟩ | ⟨hne₁, ht₁⟩ <;> rcases hslot k₂ v₂ h₂ with ⟨rfl, heq⟩ | ⟨hne₂, ht₂⟩
    · rfl
    · exact absurd (hid k₂ v₂ ht₂) hne₂
    · subst heq
      exact absurd (hid k₁ v₁ ht₁) hne₁
    · exact h.unique ht₁ ht₂

/-- The entry of a slot is removed. -/
theorem Tabulates.erase (h : Tabulates t m) {k : κ} {id : ι} {v : ν} (hk : t k = some (id, v)) :
    Tabulates (Function.update t k none) (m.erase id) where
  lookup := by
    intro id' v'
    by_cases heq : id' = id
    · subst heq
      rw [Finmap.lookup_erase]
      refine iff_of_false (by simp) ?_
      rintro ⟨k', hk'⟩
      by_cases hkk : k' = k
      · rw [hkk, Function.update_self] at hk'
        cases hk'
      · rw [Function.update_of_ne hkk] at hk'
        exact hkk (h.unique hk' hk)
    · rw [Finmap.lookup_erase_ne heq, h.lookup]
      refine exists_congr fun k' => ?_
      by_cases hkk : k' = k
      · subst hkk
        rw [Function.update_self, hk]
        refine iff_of_false ?_ (by simp)
        intro he
        cases he
        exact heq rfl
      · rw [Function.update_of_ne hkk]
  unique := by
    intro k₁ k₂ id' v₁ v₂ h₁ h₂
    have hslot : ∀ k' v', Function.update t k none k' = some (id', v') → t k' = some (id', v') := by
      intro k' v' hk'
      by_cases hkk : k' = k
      · rw [hkk, Function.update_self] at hk'
        cases hk'
      · rwa [Function.update_of_ne hkk] at hk'
    exact h.unique (hslot k₁ v₁ h₁) (hslot k₂ v₂ h₂)

/-- A table from which some of the slots have been removed is a map, too. -/
theorem Tabulates.part (h : Tabulates t m) {t' : Table κ ι ν} (hpart : ∀ k, t' k = t k ∨ t' k = none) {ks : List κ}
    (hall : ∀ k, (t k).isSome → k ∈ ks) : ∃ m' : Registry ι ν, Tabulates t' m' := by
  have hremoved : ∀ removed : List κ, ∃ m' : Registry ι ν, Tabulates (fun k => if k ∈ removed then t' k else t k) m' := by
    intro removed
    induction removed with
    | nil => exact ⟨m, by simpa using h⟩
    | cons k removed ih =>
      obtain ⟨m₁, h₁⟩ := ih
      have hupdate : (fun k' => if k' ∈ k :: removed then t' k' else t k') =
          Function.update (fun k' => if k' ∈ removed then t' k' else t k') k (t' k) := by
        funext k'
        by_cases hk : k' = k
        · subst hk
          rw [Function.update_self, if_pos List.mem_cons_self]
        · rw [Function.update_of_ne hk]
          simp only [List.mem_cons, hk, false_or]
      rw [hupdate]
      -- The slot holds what it has held, or it has been emptied.
      rcases htk : (if k ∈ removed then t' k else t k) with _ | ⟨id, v⟩
      · have hnone : t' k = none := by
          split_ifs at htk with hk
          · exact htk
          · rcases hpart k with heq | hnone
            · rw [heq, htk]
            · exact hnone
        rw [hnone, ← htk, Function.update_eq_self]
        exact ⟨m₁, h₁⟩
      · by_cases hnone : t' k = none
        · rw [hnone]
          exact ⟨_, h₁.erase htk⟩
        · have heq : t' k = if k ∈ removed then t' k else t k := by
            split_ifs with hk
            · rfl
            · exact (hpart k).resolve_right hnone
          rw [heq, Function.update_eq_self]
          exact ⟨m₁, h₁⟩
  obtain ⟨m', h'⟩ := hremoved ks
  refine ⟨m', ?_⟩
  have htable : (fun k => if k ∈ ks then t' k else t k) = t' := by
    funext k
    split_ifs with hk
    · rfl
    · have hnone : t k = none := by
        rcases htk : t k with _ | e
        · rfl
        · exact absurd (hall k (by rw [htk]; rfl)) hk
      rcases hpart k with heq | hn
      · rw [heq]
      · rw [hn, hnone]
  rwa [htable] at h'

end Update

/-! ## Visiting the slots -/

/-- The first slot, in the order of a list, that has an identifier. -/
def find (t : Table κ ι ν) (id : ι) (ks : List κ) : Option (κ × ν) :=
  ks.findSome? fun k => (t k).bind fun e => if e.1 = id then some (k, e.2) else none

theorem find_some {id : ι} {ks : List κ} {k : κ} {v : ν} (h : find t id ks = some (k, v)) : t k = some (id, v) := by
  obtain ⟨k', -, hk'⟩ := List.exists_of_findSome?_eq_some h
  rcases ht : t k' with _ | ⟨id', v'⟩ <;> rw [ht] at hk'
  · cases hk'
  · simp only [Option.bind_some] at hk'
    split_ifs at hk' with heq
    cases hk'
    rw [ht, heq]

/-- A visit of all slots meets each entry of the map once. -/
theorem Tabulates.listing (h : Tabulates t m) {ks : List κ} (hnodup : ks.Nodup) (hall : ∀ k, (t k).isSome → k ∈ ks) :
    ((ks.filterMap t).map Prod.fst).Nodup ∧ ∀ id v, (id, v) ∈ ks.filterMap t ↔ m.lookup id = some v := by
  constructor
  · rw [List.map_filterMap]
    refine List.Nodup.filterMap ?_ hnodup
    intro k k' id hk hk'
    simp only [Option.mem_def, Option.map_eq_some_iff, Prod.exists, exists_and_right, exists_eq_right] at hk hk'
    obtain ⟨v, hv⟩ := hk
    obtain ⟨v', hv'⟩ := hk'
    exact h.unique hv hv'
  · intro id v
    rw [List.mem_filterMap, h.lookup]
    exact ⟨fun ⟨k, _, hk⟩ => ⟨k, hk⟩, fun ⟨k, hk⟩ => ⟨k, hall k (by rw [hk]; rfl), hk⟩⟩

/-! ## How many entries there are -/

/-- A map has as many entries as its table has slots that are taken. -/
theorem Tabulates.card (h : Tabulates t m) {slots : Finset κ} (hslots : ∀ k, (t k).isSome → k ∈ slots) :
    (slots.filter fun k => (t k).isSome).card = m.keys.card := by
  refine Finset.card_bij (fun k hk => ((t k).get (Finset.mem_filter.mp hk).2).1) ?_ ?_ ?_
  · intro k hk
    rw [Finmap.mem_keys, Finmap.mem_iff]
    exact ⟨_, h.lookup_of_slot (Option.some_get _).symm⟩
  · intro k hk k' hk' heq
    obtain ⟨⟨id, v⟩, he⟩ := Option.isSome_iff_exists.mp (Finset.mem_filter.mp hk).2
    obtain ⟨⟨id', v'⟩, he'⟩ := Option.isSome_iff_exists.mp (Finset.mem_filter.mp hk').2
    simp only [he, he', Option.get_some] at heq
    subst heq
    exact h.unique he he'
  · intro id hid
    rw [Finmap.mem_keys, Finmap.mem_iff] at hid
    obtain ⟨v, hv⟩ := hid
    obtain ⟨k, hk⟩ := (h.lookup id v).mp hv
    refine ⟨k, Finset.mem_filter.mpr ⟨hslots k (by rw [hk]; rfl), by rw [hk]; rfl⟩, ?_⟩
    simp only [hk, Option.get_some]

/-- There is no room for another entry when all slots are taken. -/
theorem Tabulates.full_iff (h : Tabulates t m) {slots : Finset κ} (hslots : ∀ k, (t k).isSome → k ∈ slots) :
    m.keys.card = slots.card ↔ ∀ k ∈ slots, (t k).isSome := by
  rw [← h.card hslots]
  exact Finset.card_filter_eq_iff

end SlotTable
