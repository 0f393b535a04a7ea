import CGuard.Lib.Yields
import Mathlib.Data.List.Induction
import Mathlib.Logic.Function.Basic

/-!
# Machines and their runs

A machine is a step function that can fail: an action in a state either ends the run with an error or gives the next state and
an output. The rules here are the ones a proof about runs needs once: an invariant from one step to a run, a condition on
every step of a run (`Guarded`), a refinement from one step to a run (`run_refines`), and the deletion of silent steps
(`purge`), which no later step can see.
-/

namespace Machine

variable {σ α β τ ω ε : Type}

/-- The step function of a machine over states, actions, outputs and errors. -/
abbrev Step (σ α ω ε : Type) : Type := σ → α → Except ε (σ × ω)

/-- A run of actions: the last state and the outputs, or the error that ended it. -/
def run (m : Step σ α ω ε) : σ → List α → Except ε (σ × List ω)
  | s, [] => .ok (s, [])
  | s, a :: as =>
    match m s a with
    | .error e => .error e
    | .ok (s', o) =>
      match run m s' as with
      | .error e => .error e
      | .ok (s'', os) => .ok (s'', o :: os)

/-- Every action of the run, up to the one that ends it, is taken in a state that satisfies `P`. -/
def Guarded (m : Step σ α ω ε) (P : σ → α → Prop) : σ → List α → Prop
  | _, [] => True
  | s, a :: as => P s a ∧ ∀ s' o, m s a = .ok (s', o) → Guarded m P s' as

variable {m : Step σ α ω ε}

@[simp] theorem run_nil (s : σ) : run m s [] = .ok (s, []) := rfl

/-- What a run of at least one action that returns has done: the first step, then the rest. -/
theorem run_cons_ok {s s'' : σ} {a : α} {as : List α} {os : List ω} (h : run m s (a :: as) = .ok (s'', os)) :
    ∃ s' o os', m s a = .ok (s', o) ∧ run m s' as = .ok (s'', os') ∧ os = o :: os' := by
  simp only [run] at h
  split at h
  · cases h
  · rename_i s' o hm
    split at h
    · cases h
    · rename_i s₂ os' hr
      cases h
      exact ⟨s', o, os', hm, hr, rfl⟩

/-- A first step that returns, then a run that returns. -/
theorem run_cons {s s' s'' : σ} {a : α} {as : List α} {o : ω} {os : List ω} (hm : m s a = .ok (s', o))
    (hr : run m s' as = .ok (s'', os)) : run m s (a :: as) = .ok (s'', o :: os) := by
  simp only [run, hm, hr]

/-- A run in two parts. -/
theorem run_append {s s' s'' : σ} {as bs : List α} {os ps : List ω} (h1 : run m s as = .ok (s', os))
    (h2 : run m s' bs = .ok (s'', ps)) : run m s (as ++ bs) = .ok (s'', os ++ ps) := by
  induction as generalizing s os with
  | nil =>
    cases h1
    exact h2
  | cons a as ih =>
    obtain ⟨t, o, os', hm, hr, rfl⟩ := run_cons_ok h1
    exact run_cons hm (ih hr)

/-- A run that returns splits at any of its actions. -/
theorem run_split {s s'' : σ} {as bs : List α} {os : List ω} (h : run m s (as ++ bs) = .ok (s'', os)) :
    ∃ s' os₁ os₂, run m s as = .ok (s', os₁) ∧ run m s' bs = .ok (s'', os₂) ∧ os = os₁ ++ os₂ := by
  induction as generalizing s os with
  | nil => exact ⟨s, [], os, rfl, h, rfl⟩
  | cons a as ih =>
    obtain ⟨t, o, os', hm, hr, rfl⟩ := run_cons_ok h
    obtain ⟨s', os₁, os₂, h1, h2, rfl⟩ := ih hr
    exact ⟨s', o :: os₁, os₂, run_cons hm h1, h2, rfl⟩

/-- A run that fails: the run up to the action that fails, and that action. -/
theorem run_error {s : σ} {as : List α} {e : ε} (h : run m s as = .error e) :
    ∃ before a after s' os, as = before ++ a :: after ∧ run m s before = .ok (s', os) ∧ m s' a = .error e := by
  induction as generalizing s with
  | nil => cases h
  | cons a as ih =>
    cases hm : m s a with
    | error e' =>
      simp only [run, hm] at h
      cases h
      exact ⟨[], a, as, s, [], rfl, rfl, hm⟩
    | ok r =>
      obtain ⟨s₁, o⟩ := r
      cases hr : run m s₁ as with
      | error e' =>
        simp only [run, hm, hr] at h
        cases h
        obtain ⟨before, b, after, s', os, rfl, hbefore, hb⟩ := ih hr
        exact ⟨a :: before, b, after, s', o :: os, rfl, run_cons hm hbefore, hb⟩
      | ok r' => simp [run, hm, hr] at h

/-- A run in two parts, whether it returns or not. -/
theorem run_append_eq (s : σ) (as bs : List α) :
    run m s (as ++ bs) =
      match run m s as with
      | .error e => .error e
      | .ok (s', os) =>
        match run m s' bs with
        | .error e => .error e
        | .ok (s'', ps) => .ok (s'', os ++ ps) := by
  induction as generalizing s with
  | nil =>
    rw [List.nil_append, run_nil]
    dsimp only
    cases run m s bs <;> rfl
  | cons a as ih =>
    rw [List.cons_append, run, run]
    cases m s a with
    | error e => rfl
    | ok r =>
      obtain ⟨s', o⟩ := r
      dsimp only
      rw [ih]
      cases run m s' as with
      | error e => rfl
      | ok r =>
        obtain ⟨s'', os⟩ := r
        dsimp only
        cases run m s'' bs <;> rfl

/-- An invariant of every step is an invariant of every run. -/
theorem run_invariant {Inv : σ → Prop} (hstep : ∀ s a s' o, Inv s → m s a = .ok (s', o) → Inv s') {as : List α} :
    ∀ {s s' : σ} {os : List ω}, Inv s → run m s as = .ok (s', os) → Inv s' := by
  induction as with
  | nil =>
    intro s s' os hi h
    cases h
    exact hi
  | cons a as ih =>
    intro s s' os hi h
    obtain ⟨t, o, os', hm, hr, -⟩ := run_cons_ok h
    exact ih (hstep s a t o hi hm) hr

/-- What holds of the actions so far and of the state that they have led to. -/
theorem run_history {H : List α → σ → Prop} {P : α → Prop}
    (hstep : ∀ before s a s' o, H before s → P a → m s a = .ok (s', o) → H (before ++ [a]) s') {s : σ} (h : H [] s) {as : List α} :
    ∀ {s' : σ} {os : List ω}, (∀ a ∈ as, P a) → run m s as = .ok (s', os) → H as s' := by
  induction as using List.reverseRecOn with
  | nil =>
    intro s' os _ hrun
    cases hrun
    exact h
  | append_singleton as a ih =>
    intro s' os hP hrun
    obtain ⟨s₁, os₁, os₂, h1, h2, -⟩ := run_split hrun
    obtain ⟨s₂, o, os', hm, hr, -⟩ := run_cons_ok h2
    cases hr
    exact hstep as s₁ a _ o (ih (fun b hb => hP b (List.mem_append_left _ hb)) h1) (hP a (by simp)) hm

/-- A run that returns has as many outputs as actions. -/
theorem run_length {as : List α} : ∀ {s s' : σ} {os : List ω}, run m s as = .ok (s', os) → os.length = as.length := by
  induction as with
  | nil =>
    intro s s' os h
    cases h
    rfl
  | cons a as ih =>
    intro s s' os h
    obtain ⟨t, o, os', -, hr, rfl⟩ := run_cons_ok h
    rw [List.length_cons, List.length_cons, ih hr]

/-- An action of a run that returns: the run before it, and its step. -/
theorem run_at {s s' : σ} {as : List α} {os : List ω} (h : run m s as = .ok (s', os)) {n : Nat} {a : α} {o : ω} (ha : as[n]? = some a)
    (ho : os[n]? = some o) : ∃ s₁ os₁ s₂, run m s (as.take n) = .ok (s₁, os₁) ∧ m s₁ a = .ok (s₂, o) := by
  obtain ⟨hn, hget⟩ := List.getElem?_eq_some_iff.mp ha
  have hsplit : as.take n ++ a :: as.drop (n + 1) = as := by
    rw [← hget, ← List.drop_eq_getElem_cons hn, List.take_append_drop]
  rw [← hsplit] at h
  obtain ⟨s₁, os₁, os₂, h1, h2, rfl⟩ := run_split h
  obtain ⟨s₂, o', os', hm, -, rfl⟩ := run_cons_ok h2
  have hlen : os₁.length = n := by rw [run_length h1, List.length_take, Nat.min_eq_left (Nat.le_of_lt hn)]
  rw [List.getElem?_append_right (Nat.le_of_eq hlen), hlen, Nat.sub_self, List.getElem?_cons_zero] at ho
  cases ho
  exact ⟨s₁, os₁, s₂, h1, hm⟩

/-- An invariant of the steps that satisfy a condition is an invariant of the runs whose every step does. -/
theorem run_invariant_of_guarded {Inv : σ → Prop} {P : σ → α → Prop}
    (hstep : ∀ s a s' o, Inv s → P s a → m s a = .ok (s', o) → Inv s') {as : List α} :
    ∀ {s s' : σ} {os : List ω}, Inv s → Guarded m P s as → run m s as = .ok (s', os) → Inv s' := by
  induction as with
  | nil =>
    intro s s' os hi _ h
    cases h
    exact hi
  | cons a as ih =>
    intro s s' os hi hg h
    obtain ⟨t, o, os', hm, hr, -⟩ := run_cons_ok h
    exact ih (hstep s a t o hi hg.1 hm) (hg.2 t o hm) hr

/-- If the steps that satisfy a condition keep an invariant and fail only with certain errors, so do the runs whose every step does. -/
theorem run_yields {Inv : σ → Prop} {P : σ → α → Prop} {A : ε → Prop}
    (hstep : ∀ s a, Inv s → P s a → Yields A (fun r => Inv r.1) (m s a)) {as : List α} :
    ∀ {s : σ}, Inv s → Guarded m P s as → Yields A (fun r => Inv r.1) (run m s as) := by
  induction as with
  | nil => exact fun hi _ => hi
  | cons a as ih =>
    intro s hi hg
    have hs := hstep s a hi hg.1
    simp only [run]
    cases hm : m s a with
    | error e => exact hs.failure hm
    | ok r =>
      obtain ⟨s', o⟩ := r
      have hrest := ih (hs.value hm) (hg.2 s' o hm)
      dsimp only
      cases hr : run m s' as <;> rw [hr] at hrest <;> exact hrest

/-- Two conditions that agree wherever an invariant holds agree along every run. -/
theorem guarded_iff {Inv : σ → Prop} {P Q : σ → α → Prop}
    (hstep : ∀ s a s' o, Inv s → m s a = .ok (s', o) → Inv s') (hPQ : ∀ s a, Inv s → (P s a ↔ Q s a)) (as : List α) :
    ∀ s, Inv s → (Guarded m P s as ↔ Guarded m Q s as) := by
  induction as with
  | nil => intro s _; exact Iff.rfl
  | cons a as ih =>
    intro s hi
    simp only [Guarded, hPQ s a hi]
    exact and_congr_right fun _ => forall_congr' fun s' => forall_congr' fun o =>
      imp_congr_right fun hm => ih s' (hstep s a s' o hi hm)

/-- A condition on a first action that returns, and on the rest. -/
theorem guarded_cons {P : σ → α → Prop} {s s' : σ} {a : α} {as : List α} {o : ω} (hm : m s a = .ok (s', o)) :
    Guarded m P s (a :: as) ↔ P s a ∧ Guarded m P s' as := by
  refine and_congr_right fun _ => ⟨fun h => h s' o hm, fun h t o' ht => ?_⟩
  cases hm.symm.trans ht
  exact h

/-- A condition on an action that ends the run. -/
theorem guarded_cons_error {P : σ → α → Prop} {s : σ} {a : α} {as : List α} {e : ε} (hm : m s a = .error e) :
    Guarded m P s (a :: as) ↔ P s a := by
  refine ⟨fun h => h.1, fun h => ⟨h, fun t o ht => ?_⟩⟩
  exact absurd (hm.symm.trans ht) (by simp)

/-- Two conditions that agree on the steps that return agree along every run that returns. -/
theorem guarded_iff_of_run {Inv : σ → Prop} {P Q : σ → α → Prop}
    (hstep : ∀ s a s' o, Inv s → m s a = .ok (s', o) → Inv s')
    (hPQ : ∀ s a s' o, Inv s → m s a = .ok (s', o) → (P s a ↔ Q s a)) {as : List α} :
    ∀ {s s' : σ} {os : List ω}, Inv s → run m s as = .ok (s', os) → (Guarded m P s as ↔ Guarded m Q s as) := by
  induction as with
  | nil => intro s s' os _ _; exact Iff.rfl
  | cons a as ih =>
    intro s s' os hi h
    obtain ⟨t, o, os', hm, hr, -⟩ := run_cons_ok h
    rw [guarded_cons hm, guarded_cons hm, hPQ s a t o hi hm, ih (hstep s a t o hi hm) hr]

/-- A condition that every action meets in every state. -/
theorem guarded_of_forall {P : σ → α → Prop} {as : List α} (h : ∀ s, ∀ a ∈ as, P s a) : ∀ s, Guarded m P s as := by
  induction as with
  | nil => intro s; trivial
  | cons a as ih =>
    intro s
    exact ⟨h s a List.mem_cons_self, fun s' _ _ => ih (fun t b hb => h t b (List.mem_cons_of_mem a hb)) s'⟩

/-- A condition on a run, on its first part. -/
theorem Guarded.left {P : σ → α → Prop} {as bs : List α} : ∀ {s : σ}, Guarded m P s (as ++ bs) → Guarded m P s as := by
  induction as with
  | nil => intro s _; trivial
  | cons a as ih => exact fun h => ⟨h.1, fun s' o hm => ih (h.2 s' o hm)⟩

/-- A condition on a run, on what follows its first part. -/
theorem Guarded.right {P : σ → α → Prop} {as bs : List α} :
    ∀ {s s' : σ} {os : List ω}, Guarded m P s (as ++ bs) → run m s as = .ok (s', os) → Guarded m P s' bs := by
  induction as with
  | nil =>
    intro s s' os h hrun
    cases hrun
    exact h
  | cons a as ih =>
    intro s s' os h hrun
    obtain ⟨t, o, os', hm, hr, -⟩ := run_cons_ok hrun
    exact ih (h.2 t o hm) hr

/-- A condition on a run is a condition on each of its actions, in the state that the actions before it have left. -/
theorem guarded_iff_split {P : σ → α → Prop} {s : σ} {as : List α} :
    Guarded m P s as ↔ ∀ pre a post t os, as = pre ++ a :: post → run m s pre = .ok (t, os) → P t a := by
  constructor
  · rintro h pre a post t os rfl hrun
    exact (h.right hrun).1
  · intro h
    induction as generalizing s with
    | nil => trivial
    | cons a as ih =>
      refine ⟨h [] a as s [] rfl rfl, fun s' o hm => ih ?_⟩
      rintro pre b post t os rfl hrun
      exact h (a :: pre) b post t (o :: os) rfl (run_cons hm hrun)

/-- Two conditions on a run. -/
theorem Guarded.and {P Q : σ → α → Prop} {as : List α} :
    ∀ {s : σ}, Guarded m P s as → Guarded m Q s as → Guarded m (fun s a => P s a ∧ Q s a) s as := by
  induction as with
  | nil => intro s _ _; trivial
  | cons a as ih => exact fun hP hQ => ⟨⟨hP.1, hQ.1⟩, fun s' o hm => ih (hP.2 s' o hm) (hQ.2 s' o hm)⟩

/-- A condition on steps that can be decided can be decided along a run. -/
instance decidableGuarded (m : Step σ α ω ε) (P : σ → α → Prop) [∀ s a, Decidable (P s a)] :
    ∀ s as, Decidable (Guarded m P s as)
  | _, [] => isTrue trivial
  | s, a :: as =>
    match h : m s a with
    | .error _ => decidable_of_iff _ (guarded_cons_error h).symm
    | .ok (s', _) =>
      have := decidableGuarded m P s' as
      decidable_of_iff _ (guarded_cons h).symm

/-! ## Refinement -/

/-- A run of a total machine. -/
def runTotal (t : τ → β → τ × ω) : τ → List β → τ × List ω
  | u, [] => (u, [])
  | u, b :: bs =>
    let r := t u b
    let rs := runTotal t r.1 bs
    (rs.1, r.2 :: rs.2)

/-- The abstract actions of a run, each read off the state in which its action is taken. -/
def absActions (m : Step σ α ω ε) (abs : σ → α → β) : σ → List α → List β
  | _, [] => []
  | s, a :: as =>
    abs s a ::
      match m s a with
      | .error _ => []
      | .ok (s', _) => absActions m abs s' as

/-- One action, whatever comes of it. -/
theorem absActions_singleton (abs : σ → α → β) (s : σ) (a : α) : absActions m abs s [a] = [abs s a] := by
  rw [absActions]
  cases m s a <;> rfl

/-- An action that returns, and the others from there. -/
theorem absActions_cons_ok {abs : σ → α → β} {s s' : σ} {a : α} {o : ω} (hm : m s a = .ok (s', o)) (as : List α) :
    absActions m abs s (a :: as) = abs s a :: absActions m abs s' as := by
  simp only [absActions, hm]

/-- If every step that satisfies a condition returns and simulates the abstract step, every run whose steps satisfy it returns
with the outputs of the abstract run and ends in a related state. -/
theorem run_refines {t : τ → β → τ × ω} (abs : σ → α → β) {R : σ → τ → Prop} {P : σ → α → Prop}
    (hstep : ∀ s u a, R s u → P s a → ∃ s', m s a = .ok (s', (t u (abs s a)).2) ∧ R s' (t u (abs s a)).1)
    (as : List α) :
    ∀ s u, R s u → Guarded m P s as →
      ∃ s', run m s as = .ok (s', (runTotal t u (absActions m abs s as)).2) ∧
        R s' (runTotal t u (absActions m abs s as)).1 := by
  induction as with
  | nil => intro s u hR _; exact ⟨s, rfl, hR⟩
  | cons a as ih =>
    intro s u hR hg
    obtain ⟨s₁, hm, hR₁⟩ := hstep s u a hR hg.1
    obtain ⟨s', hr, hR'⟩ := ih s₁ _ hR₁ (hg.2 s₁ _ hm)
    refine ⟨s', ?_, ?_⟩
    · simp only [run, absActions, runTotal, hm, hr]
    · simpa only [absActions, runTotal, hm] using hR'

/-- Two results that fail alike, or return the same output and related states. -/
def Agree (R : σ → τ → Prop) : Except ε (σ × ω) → Except ε (τ × ω) → Prop
  | .error e, .error e' => e = e'
  | .ok (s, o), .ok (t, o') => R s t ∧ o = o'
  | _, _ => False

theorem Agree.cases {R : σ → τ → Prop} {x : Except ε (σ × ω)} {y : Except ε (τ × ω)} (h : Agree R x y) :
    (∃ e, x = .error e ∧ y = .error e) ∨ ∃ s t o, x = .ok (s, o) ∧ y = .ok (t, o) ∧ R s t := by
  cases x with
  | error e =>
    cases y with
    | error e' => exact Or.inl ⟨e, rfl, congrArg _ h.symm⟩
    | ok r => exact False.elim h
  | ok r =>
    cases y with
    | error e => exact False.elim h
    | ok r' => exact Or.inr ⟨r.1, r'.1, r.2, rfl, by rw [h.2], h.1⟩

/-- Machines whose steps agree in related states have the same runs. -/
theorem run_agree {n : Step τ α ω ε} {R : σ → τ → Prop} (hstep : ∀ s t a, R s t → Agree R (m s a) (n t a)) (as : List α) :
    ∀ s t, R s t → Agree R (run m s as) (run n t as) := by
  induction as with
  | nil => exact fun s t hR => ⟨hR, rfl⟩
  | cons a as ih =>
    intro s t hR
    rw [run, run]
    rcases (hstep s t a hR).cases with ⟨e, hm, hn⟩ | ⟨s', t', o, hm, hn, hR'⟩ <;> rw [hm, hn]
    · exact rfl
    · dsimp only
      rcases (ih s' t' hR').cases with ⟨e, hr, hr'⟩ | ⟨s'', t'', os, hr, hr', hR''⟩ <;> rw [hr, hr']
      · exact rfl
      · exact ⟨hR'', rfl⟩

/-- Two results that fail alike, or return related outputs in related states. -/
def Matches {ω' : Type} (R : σ → τ → Prop) (Q : ω → ω' → Prop) : Except ε (σ × ω) → Except ε (τ × ω') → Prop
  | .error e, .error e' => e = e'
  | .ok (s, o), .ok (t, o') => R s t ∧ Q o o'
  | _, _ => False

/-- If every step that satisfies a condition matches the abstract step, so does every run whose steps satisfy it. -/
theorem run_matches {ω' : Type} {n : Step τ β ω' ε} (abs : σ → α → β) {R : σ → τ → Prop} {Q : ω → ω' → Prop} {P : σ → α → Prop}
    (hstep : ∀ s t a, R s t → P s a → Matches R Q (m s a) (n t (abs s a))) (as : List α) :
    ∀ s t, R s t → Guarded m P s as → Matches R (List.Forall₂ Q) (run m s as) (run n t (absActions m abs s as)) := by
  induction as with
  | nil => exact fun s t hR _ => ⟨hR, .nil⟩
  | cons a as ih =>
    intro s t hR hg
    have hs := hstep s t a hR hg.1
    rw [absActions, run, run]
    rcases hm : m s a with e | ⟨s', o⟩ <;> rcases hn : n t (abs s a) with e' | ⟨t', o'⟩ <;> rw [hm, hn] at hs
    · exact hs
    · exact False.elim hs
    · exact False.elim hs
    · obtain ⟨hR', hQ⟩ := hs
      have hrest := ih s' t' hR' (hg.2 s' o hm)
      dsimp only
      rcases hr : run m s' as with e | ⟨s'', os⟩ <;> rcases hr' : run n t' (absActions m abs s' as) with e' | ⟨t'', os'⟩ <;>
        rw [hr, hr'] at hrest
      · exact hrest
      · exact False.elim hrest
      · exact False.elim hrest
      · exact ⟨hrest.1, .cons hQ hrest.2⟩

/-! ## Silent steps -/

/-- One entry of a trace: an action that returned, the state after it and its output. -/
structure Entry (α σ ω : Type) where
  action : α
  state : σ
  output : ω

/-- The trace of a run: an entry for each step that returned, and the error that ended the run, if one did. -/
def trace (m : Step σ α ω ε) : σ → List α → List (Entry α σ ω) × Option ε
  | _, [] => ([], none)
  | s, a :: as =>
    match m s a with
    | .error e => ([], some e)
    | .ok (s', o) => (⟨a, s', o⟩ :: (trace m s' as).1, (trace m s' as).2)

/-- The run without the actions that are silent at the moment they are taken. -/
def purge (m : Step σ α ω ε) (silent : σ → α → Bool) : σ → List α → List α
  | _, [] => []
  | s, a :: as =>
    let rest :=
      match m s a with
      | .error _ => as
      | .ok (s', _) => purge m silent s' as
    if silent s a then rest else a :: rest

/-- The trace without the entries of the silent actions. -/
def remaining (m : Step σ α ω ε) (silent : σ → α → Bool) : σ → List α → List (Entry α σ ω)
  | _, [] => []
  | s, a :: as =>
    match m s a with
    | .error _ => []
    | .ok (s', o) =>
      if silent s a then remaining m silent s' as else ⟨a, s', o⟩ :: remaining m silent s' as

/-- If a silent action never ends the run and leaves the state as it was, the run without the silent actions has the
remaining entries of the trace and ends the same way. -/
theorem trace_purge {silent : σ → α → Bool} {Inv : σ → Prop}
    (hinv : ∀ s a s' o, Inv s → m s a = .ok (s', o) → Inv s')
    (hsilent : ∀ s a, Inv s → silent s a = true → ∃ o, m s a = .ok (s, o)) (as : List α) :
    ∀ s, Inv s → trace m s (purge m silent s as) = (remaining m silent s as, (trace m s as).2) := by
  induction as with
  | nil => intro s _; rfl
  | cons a as ih =>
    intro s hi
    by_cases ha : silent s a = true
    · obtain ⟨o, hm⟩ := hsilent s a hi ha
      simp only [purge, remaining, trace, hm, ha, if_true]
      exact ih s hi
    · cases hm : m s a with
      | error e => simp only [purge, remaining, trace, hm, ha]; simp [trace, hm]
      | ok r =>
        obtain ⟨s', o⟩ := r
        simp only [purge, remaining, trace, hm, ha, if_false, Bool.false_eq_true]
        rw [ih s' (hinv s a s' o hi hm)]

/-- If a silent action gives nothing of what `f` reads off an output, the remaining entries give all that the trace gives, in its order. -/
theorem flatMap_remaining {γ : Type} (f : ω → List γ) {silent : σ → α → Bool} {Inv : σ → Prop}
    (hinv : ∀ s a s' o, Inv s → m s a = .ok (s', o) → Inv s')
    (hsilent : ∀ s a s' o, Inv s → silent s a = true → m s a = .ok (s', o) → f o = []) (as : List α) :
    ∀ s, Inv s → (remaining m silent s as).flatMap (fun e => f e.output) = (trace m s as).1.flatMap fun e => f e.output := by
  induction as with
  | nil => intro s _; rfl
  | cons a as ih =>
    intro s hi
    rw [remaining, trace]
    rcases hm : m s a with e | ⟨s', o⟩
    · rfl
    · have hrest := ih s' (hinv s a s' o hi hm)
      simp only [List.flatMap_cons]
      split_ifs with ha
      · rw [hsilent s a s' o hi ha hm, List.nil_append, hrest]
      · rw [List.flatMap_cons, hrest]

/-- The state that a trace leaves. -/
def lastState (s : σ) (entries : List (Entry α σ ω)) : σ := entries.foldl (fun _ e => e.state) s

/-- If a silent action leaves the state as it was, the remaining entries leave the state that the trace leaves. -/
theorem lastState_remaining {silent : σ → α → Bool} {Inv : σ → Prop}
    (hinv : ∀ s a s' o, Inv s → m s a = .ok (s', o) → Inv s')
    (hsilent : ∀ s a s' o, Inv s → silent s a = true → m s a = .ok (s', o) → s' = s) (as : List α) :
    ∀ s, Inv s → lastState s (remaining m silent s as) = lastState s (trace m s as).1 := by
  induction as with
  | nil => intro s _; rfl
  | cons a as ih =>
    intro s hi
    rw [remaining, trace]
    rcases hm : m s a with e | ⟨s', o⟩
    · rfl
    · have hrest := ih s' (hinv s a s' o hi hm)
      dsimp only
      split_ifs with ha
      · cases hsilent s a s' o hi ha hm
        exact hrest
      · exact hrest

end Machine
