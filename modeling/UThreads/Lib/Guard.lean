/-
  UThreads.Lib.Guard
  ──────────────────
  **A CHECK BEFORE EVERY STATEMENT.**

  `Prog.guard` is a program each of whose statements first checks its memory, and
  stops where the check fails.  `visits` says what that comes to: if every
  statement of an execution starts in a memory that passes, the guarded program
  does what the program does; otherwise it stops at the check.
-/
import UThreads.Lib.Prog

namespace Interruptible

variable {σ μ ε ℓ α β γ : Type}

/-- A statement behind a check. -/
def checked (ok : σ → Prop) [DecidablePred ok] (e : ε) (f : σ → Except ε γ) (s : σ) : Except ε γ :=
  if ok s then f s else .error e

/-- **The program with a check before each statement.**  A change of the mask does
not touch the memory, and is not checked. -/
def Prog.guard (ok : σ → Prop) [DecidablePred ok] (e : ε) : Prog σ μ ε ℓ α → Prog σ μ ε ℓ α
  | .ret a           => .ret a
  | .stmt l f k      => .stmt l (checked ok e f) (fun b => (k b).guard ok e)
  | .setmask g k     => .setmask g (k.guard ok e)
  | .setjmp l save k => .setjmp l (fun m => checked ok e (save m)) (fun r => (k r).guard ok e)
  | .longjmp l load  => .longjmp l (checked ok e load)

variable {ok : σ → Prop} [DecidablePred ok] {e : ε}

/-- Where the guard holds, the statement is executed. -/
theorem checked_pass {f : σ → Except ε γ} {s : σ} (h : ok s) : checked ok e f s = f s := if_pos h

/-- Where it does not, the program stops before the statement. -/
theorem checked_fail {f : σ → Except ε γ} {s : σ} (h : ¬ ok s) : checked ok e f s = .error e :=
  if_neg h

/-- **Where every check passes** the guarded program is the program. -/
theorem exec_guard_pass {p : Prog σ μ ε ℓ α} {s : σ} {m : μ} (h : ∀ v ∈ p.visits s m, ok v.2) :
    (p.guard ok e).exec s m = p.exec s m := by
  induction p generalizing s m with
  | ret a => rfl
  | stmt l f k ih =>
      rw [Prog.visits] at h
      obtain ⟨hs, hrest⟩ := List.forall_mem_cons.mp h
      simp only [Prog.guard, Prog.exec, checked_pass hs]
      cases hf : f s with
      | error r => rfl
      | ok r =>
          simp only [hf] at hrest
          exact ih r.1 hrest
  | setmask g k ih => exact ih h
  | setjmp l save k ih =>
      rw [Prog.visits] at h
      obtain ⟨hs, hrest⟩ := List.forall_mem_cons.mp h
      simp only [Prog.guard, Prog.exec, checked_pass hs]
      cases hf : save m s with
      | error r => rfl
      | ok r =>
          simp only [hf] at hrest
          exact ih 0 hrest
  | longjmp l load =>
      simp only [Prog.guard, Prog.exec, checked_pass (h (l, s) (List.mem_singleton_self _))]

/-- **Where a check fails** the guarded program stops. -/
theorem exec_guard_fail {p : Prog σ μ ε ℓ α} {s : σ} {m : μ} (h : ∃ v ∈ p.visits s m, ¬ ok v.2) :
    (p.guard ok e).exec s m = .stop e := by
  induction p generalizing s m with
  | ret a =>
      obtain ⟨v, hv, _⟩ := h
      cases hv
  | stmt l f k ih =>
      simp only [Prog.guard, Prog.exec]
      by_cases hs : ok s
      · obtain ⟨v, hv, hfail⟩ := h
        rw [Prog.visits] at hv
        rcases List.mem_cons.mp hv with rfl | hv
        · exact absurd hs hfail
        · rw [checked_pass hs]
          cases hf : f s with
          | error r =>
              rw [hf] at hv
              cases hv
          | ok r =>
              rw [hf] at hv
              exact ih r.1 ⟨v, hv, hfail⟩
      · rw [checked_fail hs]
  | setmask g k ih => exact ih h
  | setjmp l save k ih =>
      simp only [Prog.guard, Prog.exec]
      by_cases hs : ok s
      · obtain ⟨v, hv, hfail⟩ := h
        rw [Prog.visits] at hv
        rcases List.mem_cons.mp hv with rfl | hv
        · exact absurd hs hfail
        · rw [checked_pass hs]
          cases hf : save m s with
          | error r =>
              rw [hf] at hv
              cases hv
          | ok r =>
              rw [hf] at hv
              exact ih 0 ⟨v, hv, hfail⟩
      · rw [checked_fail hs]
  | longjmp l load =>
      obtain ⟨v, hv, hfail⟩ := h
      rw [List.mem_singleton.mp hv] at hfail
      simp only [Prog.guard, Prog.exec, checked_fail hfail]

end Interruptible
