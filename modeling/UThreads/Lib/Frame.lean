/-
  UThreads.Lib.Frame
  ──────────────────
  **WHAT EVERY STATEMENT OF A PROGRAM LEAVES ALONE.**

  `p.Frames R P`: each statement of `p`, on every path and from every memory,
  relates the memories before and after it by `R`, or stops with a stop in `P`.
  Then so does every execution (`Prog.Frames.exec`), jumps included, and the rest
  of an execution from each of its statements on (`Prog.Frames.visits`).
-/
import UThreads.Lib.Prog

namespace Interruptible

variable {σ μ ε ℓ α β : Type}

/-! ## §1. Frames. -/

/-- The result of a statement is a memory in `R` or a stop in `P`. -/
def Framed (R : σ → Prop) (P : ε → Prop) : Except ε (β × σ) → Prop
  | .ok r    => R r.2
  | .error e => P e

/-- Every statement keeps to the frame. -/
def Prog.Frames (R : σ → σ → Prop) (P : ε → Prop) : Prog σ μ ε ℓ α → Prop
  | .ret _           => True
  | .stmt _ f k      => (∀ s, Framed (R s) P (f s)) ∧ ∀ b, (k b).Frames R P
  | .setmask _ k     => k.Frames R P
  | .setjmp _ save k => (∀ m s, Framed (R s) P (save m s)) ∧ ∀ r, (k r).Frames R P
  | .longjmp _ load  => ∀ s, Framed (fun x : μ × σ => R s x.2) P (load s)

/-- An execution ends in a memory in `R`, or with a stop in `P`. -/
def Outcome.Framed (R : σ → Prop) (P : ε → Prop) : Outcome σ μ ε α → Prop
  | .ret _ s _  => R s
  | .jump _ s _ => R s
  | .stop e     => P e

section Rules

variable {R : σ → σ → Prop} {P : ε → Prop}

theorem frames_pure (a : α) : (pure a : Prog σ μ ε ℓ α).Frames R P := trivial

theorem frames_setmask (g : μ → μ) : (.setmask g (.ret ()) : Prog σ μ ε ℓ Unit).Frames R P :=
  trivial

theorem frames_bind {p : Prog σ μ ε ℓ α} {q : α → Prog σ μ ε ℓ β} (hp : p.Frames R P)
    (hq : ∀ a, (q a).Frames R P) : (p >>= q).Frames R P := by
  show (p.bind q).Frames R P
  induction p with
  | ret a => exact hq a
  | stmt l f k ih => exact ⟨hp.1, fun b => ih b (hp.2 b)⟩
  | setmask g k ih => exact ih hp
  | setjmp l save k ih => exact ⟨hp.1, fun r => ih r (hp.2 r)⟩
  | longjmp l load => exact hp

theorem frames_ite {c : Prop} [Decidable c] {p q : Prog σ μ ε ℓ α} (hp : p.Frames R P)
    (hq : q.Frames R P) : (if c then p else q).Frames R P := by
  split
  · exact hp
  · exact hq

/-! ## §2. Executions. -/

/-- **What every statement keeps, every execution keeps.** -/
theorem Prog.Frames.exec (hrefl : ∀ s, R s s) (htrans : ∀ {s t u}, R s t → R t u → R s u)
    {p : Prog σ μ ε ℓ α} (hp : p.Frames R P) (s : σ) (m : μ) : (p.exec s m).Framed (R s) P := by
  -- from wherever the execution has got to
  have hall : ∀ (p : Prog σ μ ε ℓ α), p.Frames R P → ∀ s₀ s m, R s₀ s →
      (p.exec s m).Framed (R s₀) P := by
    intro p
    induction p with
    | ret a => exact fun _ _ _ _ h => h
    | stmt l f k ih =>
        intro hp s₀ s m h
        have hone := hp.1 s
        simp only [Prog.exec]
        cases hf : f s with
        | error e =>
            rw [hf] at hone
            exact hone
        | ok r =>
            rw [hf] at hone
            exact ih r.1 (hp.2 r.1) s₀ r.2 m (htrans h hone)
    | setmask g k ih => exact fun hp s₀ s m h => ih hp s₀ s (g m) h
    | setjmp l save k ih =>
        intro hp s₀ s m h
        have hone := hp.1 m s
        simp only [Prog.exec]
        cases hf : save m s with
        | error e =>
            rw [hf] at hone
            exact hone
        | ok r =>
            rw [hf] at hone
            exact ih 0 (hp.2 0) s₀ r.2 m (htrans h hone)
    | longjmp l load =>
        intro hp s₀ s m h
        have hone := hp s
        simp only [Prog.exec]
        cases hf : load s with
        | error e =>
            rw [hf] at hone
            exact hone
        | ok r =>
            rw [hf] at hone
            exact htrans h hone
  exact hall p hp s s m (hrefl s)

/-- **From every statement of an execution to its end.** -/
theorem Prog.Frames.visits (hrefl : ∀ s, R s s) (htrans : ∀ {s t u}, R s t → R t u → R s u)
    {p : Prog σ μ ε ℓ α} (hp : p.Frames R P) {s u : σ} {m : μ} {v : ℓ × σ}
    (hv : v ∈ p.visits s m) (hu : settle (p.exec s m) = some u) : R v.2 u := by
  -- the statement in progress is the first of what is left
  have hfirst : ∀ {p : Prog σ μ ε ℓ α} {s m}, p.Frames R P → settle (p.exec s m) = some u →
      R s u := by
    intro p s m hp hu
    have hframe := hp.exec hrefl htrans s m
    cases hexec : p.exec s m with
    | ret a s' m' =>
        rw [hexec] at hframe hu
        injection hu with hu
        exact hu ▸ hframe
    | jump t s' m' =>
        rw [hexec] at hframe hu
        injection hu with hu
        exact hu ▸ hframe
    | stop e =>
        rw [hexec] at hu
        cases hu
  induction p generalizing s m with
  | ret a => cases hv
  | stmt l f k ih =>
      rw [Prog.visits] at hv
      rcases List.mem_cons.mp hv with rfl | hv
      · exact hfirst hp hu
      · rw [Prog.exec] at hu
        cases hf : f s with
        | error e => simp [hf] at hv
        | ok r =>
            simp only [hf] at hv hu
            exact ih r.1 (hp.2 r.1) hv hu
  | setmask g k ih => exact ih hp hv hu
  | setjmp l save k ih =>
      rw [Prog.visits] at hv
      rcases List.mem_cons.mp hv with rfl | hv
      · exact hfirst hp hu
      · rw [Prog.exec] at hu
        cases hf : save m s with
        | error e => simp [hf] at hv
        | ok r =>
            simp only [hf] at hv hu
            exact ih 0 (hp.2 0) hv hu
  | longjmp l load =>
      rw [Prog.visits] at hv
      rw [List.mem_singleton.mp hv]
      exact hfirst hp hu

end Rules

/-! ## §3. Statements along a path. -/

section Path

variable {s s' : σ} {m n : μ} {a : α} {p : Prog σ μ ε ℓ α} {q : α → Prog σ μ ε ℓ β} {v : ℓ × σ}

/-- A statement behind a first part that returns. -/
theorem mem_visits_bind (hexec : p.exec s m = .ret a s' n) (hv : v ∈ (q a).visits s' n) :
    v ∈ (p >>= q).visits s m := by
  rw [visits_bind, hexec, visitsThen_ret]
  exact List.mem_append_right _ hv

/-- What holds at the statements of both parts. -/
theorem forall_visits_bind {J : ℓ × σ → Prop} (hexec : p.exec s m = .ret a s' n)
    (hp : ∀ v ∈ p.visits s m, J v) (hq : ∀ v ∈ (q a).visits s' n, J v) :
    ∀ v ∈ (p >>= q).visits s m, J v := by
  intro v hv
  rw [visits_bind, hexec, visitsThen_ret] at hv
  exact (List.mem_append.mp hv).elim (hp v) (hq v)

/-- Nothing runs behind a first part that stops. -/
theorem forall_visits_stop {J : ℓ × σ → Prop} {e : ε} (hexec : p.exec s m = .stop e)
    (hp : ∀ v ∈ p.visits s m, J v) : ∀ v ∈ (p >>= q).visits s m, J v := by
  intro v hv
  rw [visits_bind, hexec, visitsThen_stop, List.append_nil] at hv
  exact hp v hv

end Path

end Interruptible
