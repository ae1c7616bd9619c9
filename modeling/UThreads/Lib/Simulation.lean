/-
  UThreads.Lib.Simulation
  ───────────────────────
  **AN EVENT SYSTEM AND WHAT IT IMPLEMENTS.**

  The upper system is a relation `R a o b` between states, with the operation
  `o` as its label.  Every event of the lower system (`Runs.run`) is one
  operation of the upper one, or none (`Simulates`); then a run of the lower
  system is a run of the upper one (`Simulates.run`).
-/
import UThreads.Lib.Run

namespace Runs

variable {σ ε τ ω : Type}

/-! ## §1. Runs of a labelled relation. -/

/-- The operations of a run, in order. -/
inductive Steps (R : τ → ω → τ → Prop) : τ → List ω → τ → Prop where
  | nil (a : τ) : Steps R a [] a
  | cons {a b c : τ} {o : ω} {os : List ω} (h : R a o b) (hs : Steps R b os c) :
      Steps R a (o :: os) c

variable {R : τ → ω → τ → Prop}

/-- **What every operation keeps, every run keeps.** -/
theorem Steps.invariant {I : τ → Prop} (hstep : ∀ a o b, I a → R a o b → I b) {a b : τ}
    {os : List ω} (h : Steps R a os b) (ha : I a) : I b := by
  induction h with
  | nil a => exact ha
  | cons h hs ih => exact ih (hstep _ _ _ ha h)

/-! ## §2. Simulation. -/

/-- The operations that the events of a run stand for. -/
def labels (step : σ → ε → Option σ) (label : σ → ε → Option ω) : σ → List ε → List ω
  | _, []      => []
  | s, e :: es => (label s e).toList ++ ((step s e).map (fun s' => labels step label s' es)).getD []

/-- Under the invariant `I` and the guard `P`, an event is the operation that
`label` says, or leaves the upper state as it is. -/
def Simulates (step : σ → ε → Option σ) (R : τ → ω → τ → Prop) (abs : σ → τ)
    (label : σ → ε → Option ω) (I : σ → Prop) (P : σ → ε → Prop) : Prop :=
  ∀ s e s', I s → P s e → step s e = some s' →
    match label s e with
    | some o => R (abs s) o (abs s')
    | none   => abs s' = abs s

/-- **A run of the lower system is a run of the upper one.** -/
theorem Simulates.run {step : σ → ε → Option σ} {abs : σ → τ} {label : σ → ε → Option ω}
    {I : σ → Prop} {P : σ → ε → Prop} (hsim : Simulates step R abs label I P)
    (hI : ∀ s e s', I s → P s e → step s e = some s' → I s') :
    ∀ (es : List ε) (s u : σ), I s → AllSteps step P s es → run step s es = some u →
      Steps R (abs s) (labels step label s es) (abs u) := by
  intro es
  induction es with
  | nil =>
      intro s u _ _ h
      injection h with h
      exact h ▸ .nil (abs s)
  | cons e es ih =>
      intro s u hs hp h
      obtain ⟨t, ht, hu⟩ := run_cons.mp h
      have hrest := ih t u (hI s e t hs hp.1 ht) (hp.2 t ht) hu
      have hone := hsim s e t hs hp.1 ht
      have hlabels : labels step label s (e :: es)
          = (label s e).toList ++ labels step label t es := by
        simp [labels, ht]
      rw [hlabels]
      cases hl : label s e with
      | none =>
          rw [hl] at hone
          exact hone ▸ hrest
      | some o =>
          rw [hl] at hone
          exact .cons hone hrest

end Runs
