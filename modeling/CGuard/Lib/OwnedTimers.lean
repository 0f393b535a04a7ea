import Mathlib.Logic.Function.Basic

/-!
# One-shot timers and their owners

A list of pending timers, each with an address and a kind, and for each kind the field that owns its timer: it holds the address
of the timer, or nothing. A timer is registered at an address that has not been used, and it is removed by its address. `Sound` is
what every operation keeps. `Owned` says in addition that each pending timer is the one its owner knows, which a callback that
compares the two relies on: it is lost when the owners forget their timers while one is pending.
-/

/-- The pending timers, their owners, and the first address that has not been used. -/
structure OwnedTimers (κ : Type) where
  pending : List (Nat × κ)
  owner : κ → Option Nat
  unused : Nat

namespace OwnedTimers

/-- No timer yet. -/
def start {κ : Type} : OwnedTimers κ := ⟨[], fun _ => none, 1⟩

/-- All owners forget their timers. -/
def disownAll {κ : Type} (t : OwnedTimers κ) : OwnedTimers κ := { t with owner := fun _ => none }

@[simp] theorem disownAll_pending {κ : Type} (t : OwnedTimers κ) : t.disownAll.pending = t.pending := rfl

section Operations

variable {κ : Type} [DecidableEq κ]

/-- A new timer of a kind, which its owner then holds. -/
def register (k : κ) (t : OwnedTimers κ) : OwnedTimers κ where
  pending := (t.unused, k) :: t.pending
  owner := Function.update t.owner k (some t.unused)
  unused := t.unused + 1

/-- The timer of an owner is no longer pending, and the owner holds nothing. -/
def remove (k : κ) (t : OwnedTimers κ) : OwnedTimers κ :=
  { t with pending := t.pending.filter fun p => some p.1 ≠ t.owner k, owner := Function.update t.owner k none }

/-- The timer of an owner, if it holds one, is removed; there is no answer if it is not pending. -/
def deregister (k : κ) (t : OwnedTimers κ) : Option (OwnedTimers κ) :=
  match t.owner k with
  | none => some t
  | some a => if ∃ p ∈ t.pending, p.1 = a then some (t.remove k) else none

/-- A pending timer leaves the list; its owner is not told. -/
def pop (p : Nat × κ) (t : OwnedTimers κ) : Option (OwnedTimers κ) :=
  if p ∈ t.pending then some { t with pending := t.pending.filter fun q => q.1 ≠ p.1 } else none

/-- An owner forgets its timer. -/
def disown (k : κ) (t : OwnedTimers κ) : OwnedTimers κ := { t with owner := Function.update t.owner k none }

section Owner

variable (t : OwnedTimers κ) (k j : κ)

/-- The owner holds the timer that has been registered. -/
@[simp] theorem register_owner_self : (t.register k).owner k = some t.unused := Function.update_self ..

/-- Other owners are not told. -/
theorem register_owner_of_ne (h : j ≠ k) : (t.register k).owner j = t.owner j := Function.update_of_ne h ..

/-- The owner of a removed timer holds nothing. -/
@[simp] theorem remove_owner_self : (t.remove k).owner k = none := Function.update_self ..

/-- Other owners keep theirs. -/
theorem remove_owner_of_ne (h : j ≠ k) : (t.remove k).owner j = t.owner j := Function.update_of_ne h ..

/-- Removing what is not there changes nothing. -/
theorem remove_of_none (h : t.owner k = none) : t.remove k = t := by
  have hp : t.pending.filter (fun p => some p.1 ≠ t.owner k) = t.pending := by
    refine List.filter_eq_self.mpr fun p _ => ?_
    rw [h]
    simp
  have ho : Function.update t.owner k none = t.owner := by rw [← h]; exact Function.update_eq_self k t.owner
  unfold remove
  rw [hp, ho]

/-- A timer that expires, once its owner has been told, has been removed. -/
theorem pop_disown {p : Nat × κ} (h : t.owner p.2 = some p.1) (hp : p ∈ t.pending) :
    (t.pop p).map (disown p.2) = some (t.remove p.2) := by
  unfold pop
  rw [if_pos hp]
  simp [disown, remove, h]

end Owner

end Operations

variable {κ : Type}

/-- Every owner's timer is pending, and the addresses of the pending timers are distinct and have been used. -/
structure Sound (t : OwnedTimers κ) : Prop where
  held : ∀ k a, t.owner k = some a → (a, k) ∈ t.pending
  used : ∀ p ∈ t.pending, p.1 < t.unused
  distinct : ∀ p ∈ t.pending, ∀ q ∈ t.pending, p.1 = q.1 → p = q

/-- Every pending timer is the one that the owner of its kind holds. -/
def Owned (t : OwnedTimers κ) : Prop := ∀ p ∈ t.pending, t.owner p.2 = some p.1

/-- No timer is in order. -/
theorem sound_start : (start : OwnedTimers κ).Sound := by
  refine ⟨fun k a h => ?_, fun p h => ?_, fun p h => ?_⟩ <;> cases h

/-- No timer is without its owner. -/
theorem owned_start : (start : OwnedTimers κ).Owned := by
  intro p h
  cases h

variable {t : OwnedTimers κ}

/-- Owners without timers are in order, whatever is pending. -/
theorem Sound.disownAll (h : t.Sound) : t.disownAll.Sound := by
  refine ⟨fun k a hk => ?_, h.used, h.distinct⟩
  cases hk

/-- Owners may forget when nothing is pending. -/
theorem Owned.disownAll (h : t.pending = []) : t.disownAll.Owned := by
  intro p hp
  rw [disownAll_pending, h] at hp
  cases hp

/-- Where no owner holds anything, no timer is pending. -/
theorem Owned.pending_eq_nil (h : t.Owned) (ho : ∀ p ∈ t.pending, t.owner p.2 = none) : t.pending = [] := by
  refine List.eq_nil_iff_forall_not_mem.mpr fun p hp => ?_
  exact absurd ((h p hp).symm.trans (ho p hp)) (by simp)

variable [DecidableEq κ] {k : κ}

/-- A timer is registered at an address of its own. -/
theorem Sound.register (h : t.Sound) : (t.register k).Sound := by
  refine ⟨fun j a hj => ?_, fun p hp => ?_, fun p hp q hq hpq => ?_⟩
  · by_cases hjk : j = k
    · subst hjk
      rw [register_owner_self] at hj
      rw [← Option.some.inj hj]
      exact List.mem_cons_self
    · rw [register_owner_of_ne t k j hjk] at hj
      exact List.mem_cons_of_mem _ (h.held j a hj)
  · rcases List.mem_cons.mp hp with rfl | hp
    · exact Nat.lt_succ_self _
    · exact Nat.lt_succ_of_lt (h.used p hp)
  · rcases List.mem_cons.mp hp with rfl | hp <;> rcases List.mem_cons.mp hq with rfl | hq
    · rfl
    · exact absurd hpq (Nat.ne_of_gt (h.used q hq))
    · exact absurd hpq (Nat.ne_of_lt (h.used p hp))
    · exact h.distinct p hp q hq hpq

/-- A new timer is the one its owner knows, if it had none. -/
theorem Owned.register (h : t.Owned) (hk : t.owner k = none) : (t.register k).Owned := by
  intro p hp
  rcases List.mem_cons.mp hp with rfl | hp
  · exact register_owner_self t k
  · have hpk : p.2 ≠ k := fun e => absurd ((h p hp).symm.trans (e ▸ hk)) (by simp)
    rw [register_owner_of_ne t k p.2 hpk]
    exact h p hp

/-- Removing a timer leaves the others in order. -/
theorem Sound.remove (h : t.Sound) : (t.remove k).Sound := by
  refine ⟨fun j a hj => ?_, fun p hp => h.used p (List.mem_filter.mp hp).1, fun p hp q hq =>
    h.distinct p (List.mem_filter.mp hp).1 q (List.mem_filter.mp hq).1⟩
  have hjk : j ≠ k := by
    rintro rfl
    rw [remove_owner_self] at hj
    cases hj
  rw [remove_owner_of_ne t k j hjk] at hj
  refine List.mem_filter.mpr ⟨h.held j a hj, decide_eq_true fun ha => hjk ?_⟩
  exact congrArg Prod.snd (h.distinct _ (h.held j a hj) _ (h.held k a ha.symm) rfl)

/-- Removing a timer leaves the others with their owners. -/
theorem Owned.remove (h : t.Owned) : (t.remove k).Owned := by
  intro p hp
  obtain ⟨hmem, hne⟩ := List.mem_filter.mp hp
  have hpk : p.2 ≠ k := fun e => of_decide_eq_true hne (e ▸ (h p hmem).symm)
  rw [remove_owner_of_ne t k p.2 hpk]
  exact h p hmem

/-- With all timers in their place, a timer is found. -/
theorem Sound.deregister (h : t.Sound) (k : κ) : t.deregister k = some (t.remove k) := by
  unfold OwnedTimers.deregister
  cases ho : t.owner k with
  | none => simp only [remove_of_none t k ho]
  | some a => exact if_pos ⟨(a, k), h.held k a ho, rfl⟩

end OwnedTimers
