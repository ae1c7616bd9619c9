/-
  UThreads.Lib.Run
  ────────────────
  **RUNS OF AN EVENT SYSTEM.**

  A system is a partial function `step : σ → ε → Option σ`: `none` when the
  event ends the run.  `run` folds it over a list of events.  The rules below
  lift what one step preserves to what a whole run preserves:

      run_invariant    — an invariant kept by every step
      run_guarded      — an invariant kept by the steps that satisfy a guard
      run_tally        — a quantity that changes by a known amount a step
      run_refines      — a system whose steps are steps of another
      run_track        — an invariant of the state and a history variable
      run_since        — a fact that some steps make true and others keep
-/
import Mathlib.Data.List.Induction
import Mathlib.Tactic.Common

namespace Runs

variable {σ ε : Type}

/-! ## §1. Runs. -/

/-- The state after a list of events, if none of them ends the run. -/
def run (step : σ → ε → Option σ) : σ → List ε → Option σ
  | s, []      => some s
  | s, e :: es => (step s e).bind (fun s' => run step s' es)

variable {step : σ → ε → Option σ}

@[simp] theorem run_nil (s : σ) : run step s [] = some s := rfl

theorem run_cons {s u : σ} {e : ε} {es : List ε} :
    run step s (e :: es) = some u ↔ ∃ t, step s e = some t ∧ run step t es = some u := by
  simp only [run, Option.bind_eq_some_iff]

/-- Events of another kind. -/
theorem run_map {φ : Type} (f : φ → ε) :
    ∀ (es : List φ) (s : σ), run (fun s e => step s (f e)) s es = run step s (es.map f) := by
  intro es
  induction es with
  | nil => exact fun _ => rfl
  | cons e es ih =>
      intro s
      show (step s (f e)).bind _ = (step s (f e)).bind _
      cases step s (f e) with
      | none => rfl
      | some t => exact ih t

theorem run_append {s u : σ} {es fs : List ε} :
    run step s (es ++ fs) = some u ↔ ∃ t, run step s es = some t ∧ run step t fs = some u := by
  induction es generalizing s with
  | nil => simp
  | cons e es ih =>
      simp only [List.cons_append, run_cons]
      constructor
      · intro hall
        obtain ⟨t, ht, h⟩ := hall
        obtain ⟨v, hv, hu⟩ := ih.mp h
        exact ⟨v, ⟨t, ht, hv⟩, hu⟩
      · intro hall
        obtain ⟨v, ⟨t, ht, hv⟩, hu⟩ := hall
        exact ⟨t, ht, ih.mpr ⟨v, hv, hu⟩⟩

theorem run_snoc {s u : σ} {es : List ε} {e : ε} :
    run step s (es ++ [e]) = some u ↔ ∃ t, run step s es = some t ∧ step t e = some u := by
  rw [run_append]
  simp [run_cons]

/-! ## §2. Invariants. -/

/-- **What every step keeps, every run keeps.** -/
theorem run_invariant (I : σ → Prop)
    (hstep : ∀ s e s', I s → step s e = some s' → I s') :
    ∀ (es : List ε) (s u : σ), I s → run step s es = some u → I u := by
  intro es
  induction es with
  | nil =>
      intro s u hs h
      injection h with h
      exact h ▸ hs
  | cons e es ih =>
      intro s u hs h
      obtain ⟨t, ht, hu⟩ := run_cons.mp h
      exact ih t u (hstep s e t hs ht) hu

/-- Every step of the run satisfies `P`, given the state it starts from. -/
def AllSteps (step : σ → ε → Option σ) (P : σ → ε → Prop) : σ → List ε → Prop
  | _, []      => True
  | s, e :: es => P s e ∧ ∀ s', step s e = some s' → AllSteps step P s' es

instance decidableAllSteps {P : σ → ε → Prop} [∀ s e, Decidable (P s e)] :
    ∀ (s : σ) (es : List ε), Decidable (AllSteps step P s es)
  | _, [] => inferInstanceAs (Decidable True)
  | s, e :: es =>
      match hs : step s e with
      | none => decidable_of_iff (P s e) (by simp [AllSteps, hs])
      | some t =>
          have := decidableAllSteps (P := P) t es
          decidable_of_iff (P s e ∧ AllSteps step P t es) (by simp [AllSteps, hs])

theorem AllSteps.mono {P Q : σ → ε → Prop} (h : ∀ s e, P s e → Q s e) :
    ∀ (es : List ε) (s : σ), AllSteps step P s es → AllSteps step Q s es := by
  intro es
  induction es with
  | nil => exact fun _ hp => hp
  | cons e es ih => exact fun s hp => ⟨h s e hp.1, fun s' hs' => ih s' (hp.2 s' hs')⟩

theorem allSteps_true :
    ∀ (es : List ε) (s : σ), AllSteps step (fun _ _ => True) s es := by
  intro es
  induction es with
  | nil => exact fun _ => trivial
  | cons e es ih => exact fun s => ⟨trivial, fun s' _ => ih s'⟩

/-- The steps of a run's beginning are steps of the run. -/
theorem allSteps_prefix {P : σ → ε → Prop} {fs : List ε} :
    ∀ (es : List ε) (s : σ), AllSteps step P s (es ++ fs) → AllSteps step P s es := by
  intro es
  induction es with
  | nil => exact fun _ _ => trivial
  | cons e es ih => exact fun s hp => ⟨hp.1, fun s' hs' => ih s' (hp.2 s' hs')⟩

/-- **What every guarded step keeps, every guarded run keeps.** -/
theorem run_guarded (I : σ → Prop) (P : σ → ε → Prop)
    (hstep : ∀ s e s', I s → P s e → step s e = some s' → I s') :
    ∀ (es : List ε) (s u : σ), I s → AllSteps step P s es → run step s es = some u → I u := by
  intro es
  induction es with
  | nil =>
      intro s u hs _ h
      injection h with h
      exact h ▸ hs
  | cons e es ih =>
      intro s u hs hp h
      obtain ⟨t, ht, hu⟩ := run_cons.mp h
      exact ih t u (hstep s e t hs hp.1 ht) (hp.2 t ht) hu

/-! ## §3. Along a run. -/

/-- `Q` holds in every state of the run, the first and the last included. -/
def Throughout (step : σ → ε → Option σ) (Q : σ → Prop) : σ → List ε → Prop
  | s, []      => Q s
  | s, e :: es => Q s ∧ ∀ s', step s e = some s' → Throughout step Q s' es

instance decidableThroughout {Q : σ → Prop} [DecidablePred Q] :
    ∀ (s : σ) (es : List ε), Decidable (Throughout step Q s es)
  | s, [] => inferInstanceAs (Decidable (Q s))
  | s, e :: es =>
      match hs : step s e with
      | none => decidable_of_iff (Q s) (by simp [Throughout, hs])
      | some t =>
          have := decidableThroughout (Q := Q) t es
          decidable_of_iff (Q s ∧ Throughout step Q t es) (by simp [Throughout, hs])

theorem Throughout.head {Q : σ → Prop} {s : σ} {es : List ε} (h : Throughout step Q s es) :
    Q s := by
  cases es with
  | nil => exact h
  | cons e es => exact h.1

theorem Throughout.mono {Q R : σ → Prop} (hQ : ∀ s, Q s → R s) :
    ∀ {es : List ε} {s : σ}, Throughout step Q s es → Throughout step R s es := by
  intro es
  induction es with
  | nil => exact fun h => hQ _ h
  | cons e es ih => exact fun h => ⟨hQ _ h.1, fun s' hs' => ih (h.2 s' hs')⟩

/-- The states of a run are those its prefixes lead to. -/
theorem throughout_iff {Q : σ → Prop} (es : List ε) (s : σ) :
    Throughout step Q s es
      ↔ ∀ es₁ es₂ v, es = es₁ ++ es₂ → run step s es₁ = some v → Q v := by
  induction es generalizing s with
  | nil =>
      constructor
      · intro h es₁ es₂ v hes hv
        rw [(List.append_eq_nil_iff.mp hes.symm).1] at hv
        injection hv with hv
        exact hv ▸ h
      · intro h
        exact h [] [] s rfl rfl
  | cons e es ih =>
      constructor
      · intro hall es₁ es₂ v hes hv
        obtain ⟨hs, hrest⟩ := hall
        cases es₁ with
        | nil =>
            injection hv with hv
            exact hv ▸ hs
        | cons f es₁ =>
            rw [List.cons_append] at hes
            injection hes with hf hes
            subst hf
            obtain ⟨t, ht, hv⟩ := run_cons.mp hv
            exact (ih t).mp (hrest t ht) es₁ es₂ v hes hv
      · intro h
        refine ⟨h [] (e :: es) s rfl rfl, ?_⟩
        intro t ht
        apply (ih t).mpr
        intro es₁ es₂ v hes hv
        exact h (e :: es₁) es₂ v (by rw [hes, List.cons_append]) (run_cons.mpr ⟨t, ht, hv⟩)

/-- What an invariant implies holds throughout a guarded run. -/
theorem throughout_guarded {I Q : σ → Prop} {P : σ → ε → Prop}
    (hstep : ∀ s e s', I s → P s e → step s e = some s' → I s') (hQ : ∀ s, I s → Q s) :
    ∀ (es : List ε) (s : σ), I s → AllSteps step P s es → Throughout step Q s es := by
  intro es
  induction es with
  | nil => exact fun s hs _ => hQ s hs
  | cons e es ih =>
      intro s hs hp
      exact ⟨hQ s hs, fun s' hs' => ih s' (hstep s e s' hs hp.1 hs') (hp.2 s' hs')⟩

/-- What an invariant and the guard imply holds of every step of a guarded run. -/
theorem allSteps_guarded {I : σ → Prop} {P R : σ → ε → Prop}
    (hstep : ∀ s e s', I s → P s e → step s e = some s' → I s') (hR : ∀ s e, I s → P s e → R s e) :
    ∀ (es : List ε) (s : σ), I s → AllSteps step P s es → AllSteps step R s es := by
  intro es
  induction es with
  | nil => exact fun _ _ _ => trivial
  | cons e es ih =>
      intro s hs hp
      exact ⟨hR s e hs hp.1, fun s' hs' => ih s' (hstep s e s' hs hp.1 hs') (hp.2 s' hs')⟩

/-- A step whose end state satisfies `Q` satisfies the guard; then so does every
step of a run with `Q` throughout. -/
theorem allSteps_of_post {I Q : σ → Prop} {P : σ → ε → Prop}
    (hstep : ∀ s e s', I s → step s e = some s' → I s')
    (hP : ∀ s e s', I s → step s e = some s' → Q s' → P s e) :
    ∀ (es : List ε) (s u : σ), I s → run step s es = some u → Throughout step Q s es →
      AllSteps step P s es := by
  intro es
  induction es with
  | nil => exact fun _ _ _ _ _ => trivial
  | cons e es ih =>
      intro s u hs hrun hthru
      obtain ⟨t, ht, hu⟩ := run_cons.mp hrun
      have htail := hthru.2 t ht
      refine ⟨hP s e t hs ht htail.head, ?_⟩
      intro s' hs'
      rw [ht] at hs'
      injection hs' with hs'
      subst hs'
      exact ih t u (hstep s e t hs ht) hu htail

/-- Where `Q` does not hold throughout a run that starts in it, there is a
first step that leaves it. -/
theorem exists_first {Q : σ → Prop} :
    ∀ (es : List ε) (s u : σ), Q s → run step s es = some u → ¬ Throughout step Q s es →
      ∃ es₀ e es₂ v w, es = es₀ ++ e :: es₂ ∧ run step s es₀ = some v ∧ step v e = some w
        ∧ Throughout step Q s es₀ ∧ ¬ Q w := by
  intro es
  induction es with
  | nil => exact fun s u hs _ hno => absurd hs hno
  | cons e es ih =>
      intro s u hs hrun hno
      obtain ⟨t, ht, hu⟩ := run_cons.mp hrun
      by_cases hqt : Q t
      · have hno' : ¬ Throughout step Q t es := by
          intro hthru
          apply hno
          refine ⟨hs, fun s' hs' => ?_⟩
          rw [ht] at hs'
          injection hs' with hs'
          exact hs' ▸ hthru
        obtain ⟨es₀, f, es₂, v, w, hes, hv, hw, hthru, hqw⟩ := ih t u hqt hu hno'
        refine ⟨e :: es₀, f, es₂, v, w, by rw [hes, List.cons_append], run_cons.mpr ⟨t, ht, hv⟩,
          hw, ⟨hs, fun s' hs' => ?_⟩, hqw⟩
        rw [ht] at hs'
        injection hs' with hs'
        exact hs' ▸ hthru
      · exact ⟨[], e, es, s, t, rfl, rfl, ht, hs, hqt⟩

/-- A guard on the events is a guard on the steps. -/
theorem allSteps_and_events {G : ε → Prop} {P : σ → ε → Prop} :
    ∀ (es : List ε) (s : σ), (∀ e ∈ es, G e) → AllSteps step P s es →
      AllSteps step (fun s e => G e ∧ P s e) s es := by
  intro es
  induction es with
  | nil => exact fun _ _ _ => trivial
  | cons e es ih =>
      intro s hg hp
      have hg' : ∀ f ∈ es, G f := fun f hf => hg f (List.mem_cons_of_mem _ hf)
      exact ⟨⟨hg e List.mem_cons_self, hp.1⟩, fun s' hs' => ih s' hg' (hp.2 s' hs')⟩

/-- Guards on the events and on the states are guards on the steps. -/
theorem allSteps_of_throughout {G : ε → Prop} {Q : σ → Prop} :
    ∀ (es : List ε) (s : σ), (∀ e ∈ es, G e) → Throughout step Q s es →
      AllSteps step (fun s e => G e ∧ ∀ s', step s e = some s' → Q s') s es := by
  intro es
  induction es with
  | nil => exact fun _ _ _ => trivial
  | cons e es ih =>
      intro s hg hthru
      have hg' : ∀ f ∈ es, G f := fun f hf => hg f (List.mem_cons_of_mem _ hf)
      exact ⟨⟨hg e List.mem_cons_self, fun s' hs' => (hthru.2 s' hs').head⟩,
        fun s' hs' => ih s' hg' (hthru.2 s' hs')⟩

/-! ## §4. Tallies. -/

/-- The sum of a weight over the steps of a run. -/
def tally (step : σ → ε → Option σ) (w : σ → ε → Int) : σ → List ε → Int
  | _, []      => 0
  | s, e :: es => w s e + ((step s e).map (fun s' => tally step w s' es)).getD 0

theorem tally_cons {w : σ → ε → Int} {s t : σ} {e : ε} (es : List ε)
    (h : step s e = some t) :
    tally step w s (e :: es) = w s e + tally step w t es := by
  simp [tally, h]

theorem tally_nonneg {w : σ → ε → Int} (hw : ∀ s e, 0 ≤ w s e) :
    ∀ (es : List ε) (s : σ), 0 ≤ tally step w s es := by
  intro es
  induction es with
  | nil => exact fun _ => Int.le_refl 0
  | cons e es ih =>
      intro s
      have he := hw s e
      cases hs : step s e with
      | none => simp [tally, hs, he]
      | some t =>
          rw [tally_cons es hs]
          have := ih t
          omega

theorem tally_add (v w : σ → ε → Int) :
    ∀ (es : List ε) (s : σ), tally step (fun s e => v s e + w s e) s es
      = tally step v s es + tally step w s es := by
  intro es
  induction es with
  | nil => exact fun _ => rfl
  | cons e es ih =>
      intro s
      cases hs : step s e with
      | none => simp [tally, hs]
      | some t =>
          rw [tally_cons es hs, tally_cons es hs, tally_cons es hs, ih t]
          omega

theorem tally_neg (w : σ → ε → Int) :
    ∀ (es : List ε) (s : σ), tally step (fun s e => - w s e) s es = - tally step w s es := by
  intro es
  induction es with
  | nil => exact fun _ => rfl
  | cons e es ih =>
      intro s
      cases hs : step s e with
      | none => simp [tally, hs]
      | some t =>
          rw [tally_cons es hs, tally_cons es hs, ih t]
          omega

theorem tally_snoc {w : σ → ε → Int} {t : σ} {e : ε} :
    ∀ (es : List ε) (s : σ), run step s es = some t →
      tally step w s (es ++ [e]) = tally step w s es + w t e := by
  intro es
  induction es with
  | nil =>
      intro s h
      injection h with h
      rw [← h]
      show tally step w s [e] = _
      cases hs : step s e <;> simp [tally, hs]
  | cons f es ih =>
      intro s h
      obtain ⟨v, hv, ht⟩ := run_cons.mp h
      rw [List.cons_append, tally_cons _ hv, tally_cons _ hv, ih v ht]
      omega

theorem tally_append {w : σ → ε → Int} {t : σ} (fs : List ε) :
    ∀ (es : List ε) (s : σ), run step s es = some t →
      tally step w s (es ++ fs) = tally step w s es + tally step w t fs := by
  intro es
  induction es with
  | nil =>
      intro s h
      injection h with h
      rw [h, List.nil_append, tally, Int.zero_add]
  | cons f es ih =>
      intro s h
      obtain ⟨v, hv, ht⟩ := run_cons.mp h
      rw [List.cons_append, tally_cons _ hv, tally_cons _ hv, ih v ht]
      omega

/-- **A quantity that changes by `w` on every step changes by the tally over a
run**, as long as an invariant `I` and a guard `P` are there to be used. -/
theorem run_tally (I : σ → Prop) (P : σ → ε → Prop) (f : σ → Int) (w : σ → ε → Int)
    (hI : ∀ s e s', I s → P s e → step s e = some s' → I s')
    (hf : ∀ s e s', I s → P s e → step s e = some s' → f s' = f s + w s e) :
    ∀ (es : List ε) (s u : σ), I s → AllSteps step P s es → run step s es = some u →
      f u = f s + tally step w s es := by
  intro es
  induction es with
  | nil =>
      intro s u _ _ h
      injection h with h
      subst h
      simp [tally]
  | cons e es ih =>
      intro s u hs hp h
      obtain ⟨t, ht, hu⟩ := run_cons.mp h
      rw [ih t u (hI s e t hs hp.1 ht) (hp.2 t ht) hu,
          hf s e t hs hp.1 ht, tally_cons es ht]
      omega

/-- **A run of one system is a run of another**, if every step is, as long as an
invariant `I` is there to be used. -/
theorem run_refines {σ' ε' : Type} {step' : σ' → ε' → Option σ'} (I : σ → Prop) (f : σ → σ')
    (g : ε → ε') (hI : ∀ s e s', I s → step s e = some s' → I s')
    (hstep : ∀ s e s', I s → step s e = some s' → step' (f s) (g e) = some (f s')) :
    ∀ (es : List ε) (s u : σ), I s → run step s es = some u →
      run step' (f s) (es.map g) = some (f u) := by
  intro es
  induction es with
  | nil =>
      intro s u _ h
      injection h with h
      rw [h]
      rfl
  | cons e es ih =>
      intro s u hs h
      obtain ⟨t, ht, hu⟩ := run_cons.mp h
      exact run_cons.mpr ⟨f t, hstep s e t hs ht, ih t u (hI s e t hs ht) hu⟩

/-! ## §5. History variables. -/

/-- A value that every step of the run updates and no step reads. -/
def track {κ : Type} (step : σ → ε → Option σ) (note : σ → ε → κ → κ) : κ → σ → List ε → κ
  | k, _, []      => k
  | k, s, e :: es => ((step s e).map (fun s' => track step note (note s e k) s' es)).getD k

theorem track_cons {κ : Type} {note : σ → ε → κ → κ} {s t : σ} {e : ε} (k : κ) (es : List ε)
    (h : step s e = some t) :
    track step note k s (e :: es) = track step note (note s e k) t es := by
  simp [track, h]

/-- **What every guarded step keeps of the state and the history variable, every
guarded run keeps.** -/
theorem run_track {κ : Type} {note : σ → ε → κ → κ} (I : σ → κ → Prop) (P : σ → ε → Prop)
    (hstep : ∀ s k e s', I s k → P s e → step s e = some s' → I s' (note s e k)) :
    ∀ (es : List ε) (s u : σ) (k : κ), I s k → AllSteps step P s es → run step s es = some u →
      I u (track step note k s es) := by
  intro es
  induction es with
  | nil =>
      intro s u k hs _ h
      injection h with h
      exact h ▸ hs
  | cons e es ih =>
      intro s u k hs hp h
      obtain ⟨t, ht, hu⟩ := run_cons.mp h
      rw [track_cons k es ht]
      exact ih t u (note s e k) (hstep s k e t hs hp.1 ht) (hp.2 t ht) hu

/-! ## §6. Since. -/

/-- Some step of the run is in `A`, and every later one in `B`. -/
def Since (step : σ → ε → Option σ) (A B : σ → ε → Prop) (s : σ) (es : List ε) : Prop :=
  ∃ fs e gs u v, es = fs ++ e :: gs ∧ run step s fs = some u ∧ step u e = some v ∧ A u e
    ∧ AllSteps step B v gs

theorem allSteps_snoc {P : σ → ε → Prop} {e : ε} {t : σ} :
    ∀ (es : List ε) (s : σ), run step s es = some t →
      (AllSteps step P s (es ++ [e]) ↔ AllSteps step P s es ∧ P t e) := by
  intro es
  induction es with
  | nil =>
      intro s h
      injection h with h
      subst h
      exact ⟨fun hp => ⟨trivial, hp.1⟩, fun hp => ⟨hp.2, fun _ _ => trivial⟩⟩
  | cons x es ih =>
      intro s h
      obtain ⟨u, hu, ht⟩ := run_cons.mp h
      constructor
      · intro hp
        have hfront := allSteps_prefix (x :: es) s hp
        exact ⟨hfront, ((ih u ht).mp (hp.2 u hu)).2⟩
      · rintro ⟨hp, he⟩
        refine ⟨hp.1, fun s' hs' => ?_⟩
        rw [hu] at hs'
        injection hs' with hs'
        subst hs'
        exact (ih u ht).mpr ⟨hp.2 u hu, he⟩

theorem not_since_nil {A B : σ → ε → Prop} {s : σ} : ¬ Since step A B s [] := by
  rintro ⟨fs, e, gs, _, _, hes, _⟩
  simp at hes

/-- **The last step**: it is in `A`, or it is in `B` and some step before it was
in `A`. -/
theorem since_snoc {A B : σ → ε → Prop} {s t u : σ} {es : List ε} {e : ε}
    (ht : run step s es = some t) (hu : step t e = some u) :
    Since step A B s (es ++ [e]) ↔ A t e ∨ (Since step A B s es ∧ B t e) := by
  constructor
  · rintro ⟨fs, x, gs, v, w, hes, hv, hw, hA, hB⟩
    rcases List.eq_nil_or_concat gs with rfl | ⟨gs', y, rfl⟩
    · obtain ⟨rfl, hx⟩ := List.append_inj' hes rfl
      injection hx with hx
      subst hx
      rw [ht] at hv
      injection hv with hv
      exact Or.inl (hv ▸ hA)
    · rw [List.concat_eq_append, ← List.cons_append, ← List.append_assoc] at hes
      obtain ⟨rfl, hx⟩ := List.append_inj' hes rfl
      injection hx with hx
      subst hx
      obtain ⟨v', hv', hrest⟩ := (run_append).mp ht
      rw [hv] at hv'
      injection hv' with hv'
      subst hv'
      obtain ⟨w', hw', hgs⟩ := run_cons.mp hrest
      rw [hw] at hw'
      injection hw' with hw'
      subst hw'
      rw [List.concat_eq_append] at hB
      obtain ⟨hB, hlast⟩ := (allSteps_snoc gs' w hgs).mp hB
      exact Or.inr ⟨⟨fs, x, gs', v, w, rfl, hv, hw, hA, hB⟩, hlast⟩
  · rintro (hA | ⟨⟨fs, x, gs, v, w, rfl, hv, hw, hA, hB⟩, hlast⟩)
    · exact ⟨es, e, [], t, u, rfl, ht, hu, hA, trivial⟩
    · obtain ⟨v', hv', hrest⟩ := (run_append).mp ht
      rw [hv] at hv'
      injection hv' with hv'
      subst hv'
      obtain ⟨w', hw', hgs⟩ := run_cons.mp hrest
      rw [hw] at hw'
      injection hw' with hw'
      subst hw'
      exact ⟨fs, x, gs ++ [e], v, w, by simp, hv, hw, hA,
        (allSteps_snoc gs w hgs).mpr ⟨hB, hlast⟩⟩

/-- **What steps in `A` make true and steps in `B` keep**, and nothing else does,
is true after a run exactly when there was a step in `A` and since then steps in
`B` only. -/
theorem run_since {A B : σ → ε → Prop} (I D : σ → Prop)
    (hI : ∀ s e s', I s → step s e = some s' → I s')
    (hD : ∀ s e s', I s → step s e = some s' → (D s' ↔ A s e ∨ (D s ∧ B s e))) {s : σ} (hs : I s)
    (h0 : ¬ D s) :
    ∀ (es : List ε) (u : σ), run step s es = some u → (D u ↔ Since step A B s es) := by
  intro es
  induction es using List.reverseRecOn with
  | nil =>
      intro u hu
      injection hu with hu
      subst hu
      exact ⟨fun hd => absurd hd h0, fun hd => absurd hd not_since_nil⟩
  | append_singleton es e ih =>
      intro u hu
      obtain ⟨t, ht, hstep⟩ := run_snoc.mp hu
      rw [since_snoc ht hstep, hD t e u (run_invariant I hI es s t hs ht) hstep, ih t ht]

end Runs
