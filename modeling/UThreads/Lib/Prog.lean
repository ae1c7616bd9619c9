/-
  UThreads.Lib.Prog
  ─────────────────
  **INTERRUPTIBLE PROGRAMS WITH NON-LOCAL JUMPS.**

  A `Prog` is straight-line code over a memory `σ`, one node per statement,
  so that an asynchronous interrupt can be placed between any two of them:

      stmt        — one atomic statement (it may fault) carrying a label
      setmask     — one change of the interrupt mask `μ`
      setjmp      — save the current context; the continuation is entered
                    with 0 now, and with 1 when the context is resumed
      longjmp     — leave for a saved context; nothing after it is executed

  `exec` is the uninterrupted meaning.  Programs are composed with `do`, and
  `exec_bind` is the rule every later proof uses.  `visits` lists the
  statements one execution performs, each with the memory it started from.
-/
import Mathlib.Tactic.Common

namespace Interruptible

/-! ## §1. Syntax. -/

/-- Where a `longjmp` lands: at an entry point that has never run, or in the
context that the `setjmp` with this token saved. -/
inductive Target where
  | entry
  | saved (token : Nat)
  deriving DecidableEq, Repr

/-- Programs over memory `σ`, mask `μ`, stops `ε` and statement labels `ℓ`. -/
inductive Prog (σ μ ε ℓ α : Type) : Type 1 where
  | ret (a : α)
  | stmt {β : Type} (l : ℓ) (f : σ → Except ε (β × σ)) (k : β → Prog σ μ ε ℓ α)
  | setmask (g : μ → μ) (k : Prog σ μ ε ℓ α)
  | setjmp (l : ℓ) (save : μ → σ → Except ε (Nat × σ)) (k : Int → Prog σ μ ε ℓ α)
  | longjmp (l : ℓ) (load : σ → Except ε (Target × μ × σ))

variable {σ μ ε ℓ α β : Type}

/-- Sequencing.  What follows a `longjmp` is dead code. -/
def Prog.bind : Prog σ μ ε ℓ α → (α → Prog σ μ ε ℓ β) → Prog σ μ ε ℓ β
  | .ret a, q            => q a
  | .stmt l f k, q       => .stmt l f (fun b => (k b).bind q)
  | .setmask g k, q      => .setmask g (k.bind q)
  | .setjmp l save k, q  => .setjmp l save (fun r => (k r).bind q)
  | .longjmp l load, _   => .longjmp l load

instance : Monad (Prog σ μ ε ℓ) where
  pure := .ret
  bind := .bind

/-! ## §2. Uninterrupted execution. -/

/-- How an uninterrupted execution ends: it returns, it leaves through a
`longjmp`, or the process stops (an exit or a fault). -/
inductive Outcome (σ μ ε α : Type) where
  | ret (a : α) (s : σ) (m : μ)
  | jump (t : Target) (s : σ) (m : μ)
  | stop (e : ε)

/-- Continue after a return; a jump or a stop ends the execution. -/
def Outcome.andThen (o : Outcome σ μ ε α) (f : α → σ → μ → Outcome σ μ ε β) :
    Outcome σ μ ε β :=
  match o with
  | .ret a s m  => f a s m
  | .jump t s m => .jump t s m
  | .stop e     => .stop e

/-- **The uninterrupted meaning of a program.** -/
def Prog.exec : Prog σ μ ε ℓ α → σ → μ → Outcome σ μ ε α
  | .ret a, s, m => .ret a s m
  | .stmt _ f k, s, m =>
      match f s with
      | .ok (b, s') => (k b).exec s' m
      | .error e    => .stop e
  | .setmask g k, s, m => k.exec s (g m)
  | .setjmp _ save k, s, m =>
      match save m s with
      | .ok (_, s') => (k 0).exec s' m
      | .error e    => .stop e
  | .longjmp _ load, s, _ =>
      match load s with
      | .ok (t, m', s') => .jump t s' m'
      | .error e        => .stop e

/-- The memory an execution leaves behind, if it does not stop. -/
def settle : Outcome σ μ ε α → Option σ
  | .ret _ s _  => some s
  | .jump _ s _ => some s
  | .stop _     => none

/-- How the process stopped, if it did. -/
def Outcome.stopped : Outcome σ μ ε α → Option ε
  | .stop e => some e
  | _       => none

@[simp] theorem Outcome.andThen_ret (a : α) (s : σ) (m : μ)
    (f : α → σ → μ → Outcome σ μ ε β) :
    (Outcome.ret a s m : Outcome σ μ ε α).andThen f = f a s m := rfl

@[simp] theorem Outcome.andThen_stop (e : ε) (f : α → σ → μ → Outcome σ μ ε β) :
    (Outcome.stop e : Outcome σ μ ε α).andThen f = .stop e := rfl

@[simp] theorem exec_pure (a : α) (s : σ) (m : μ) :
    (pure a : Prog σ μ ε ℓ α).exec s m = .ret a s m := rfl

/-- **The rule of sequencing**: run the first part, then the rest from the
memory and mask it left. -/
theorem exec_prog_bind (p : Prog σ μ ε ℓ α) (q : α → Prog σ μ ε ℓ β) (s : σ) (m : μ) :
    (p.bind q).exec s m = (p.exec s m).andThen (fun a s' m' => (q a).exec s' m') := by
  induction p generalizing s m with
  | ret a => rfl
  | stmt l f k ih =>
      simp only [Prog.bind, Prog.exec]
      cases hf : f s with
      | error e => rfl
      | ok r => exact ih r.1 r.2 m
  | setmask g k ih => exact ih s (g m)
  | setjmp l save k ih =>
      simp only [Prog.bind, Prog.exec]
      cases hf : save m s with
      | error e => rfl
      -- uninterrupted, a `setjmp` returns once, with 0
      | ok r => exact ih 0 r.2 m
  | longjmp l load =>
      simp only [Prog.bind, Prog.exec]
      cases hf : load s with
      | error e => rfl
      | ok r => rfl

@[simp] theorem exec_bind (p : Prog σ μ ε ℓ α) (q : α → Prog σ μ ε ℓ β) (s : σ) (m : μ) :
    (p >>= q).exec s m = (p.exec s m).andThen (fun a s' m' => (q a).exec s' m') :=
  exec_prog_bind p q s m

/-- Sequencing is associative. -/
theorem prog_bind_assoc {γ : Type} (p : Prog σ μ ε ℓ α) (q : α → Prog σ μ ε ℓ β)
    (r : β → Prog σ μ ε ℓ γ) : (p >>= q) >>= r = p >>= fun a => q a >>= r := by
  show (p.bind q).bind r = p.bind (fun a => (q a).bind r)
  induction p with
  | ret a => rfl
  | stmt l f k ih => simp only [Prog.bind, ih]
  | setmask g k ih => simp only [Prog.bind, ih]
  | setjmp l save k ih => simp only [Prog.bind, ih]
  | longjmp l load => rfl

@[simp] theorem exec_ite (c : Prop) [Decidable c] (p q : Prog σ μ ε ℓ α) (s : σ) (m : μ) :
    (if c then p else q).exec s m = if c then p.exec s m else q.exec s m := by
  split <;> rfl

/-! ## §3. The statements an execution performs. -/

/-- The labelled statements of one uninterrupted execution, in order, each
with the memory it was started from. -/
def Prog.visits : Prog σ μ ε ℓ α → σ → μ → List (ℓ × σ)
  | .ret _, _, _ => []
  | .stmt l f k, s, m =>
      (l, s) :: match f s with
        | .ok (b, s') => (k b).visits s' m
        | .error _    => []
  | .setmask g k, s, m => k.visits s (g m)
  | .setjmp l save k, s, m =>
      (l, s) :: match save m s with
        | .ok (_, s') => (k 0).visits s' m
        | .error _    => []
  | .longjmp l _, s, _ => [(l, s)]

/-- What is collected after a first part: the rest's, if that part returns. -/
def Outcome.visitsThen {τ : Type} (o : Outcome σ μ ε α) (f : α → σ → μ → List τ) : List τ :=
  match o with
  | .ret a s m => f a s m
  | _          => []

@[simp] theorem visitsThen_ret {τ : Type} (a : α) (s : σ) (m : μ) (f : α → σ → μ → List τ) :
    (Outcome.ret a s m : Outcome σ μ ε α).visitsThen f = f a s m := rfl

@[simp] theorem visitsThen_jump {τ : Type} (t : Target) (s : σ) (m : μ)
    (f : α → σ → μ → List τ) :
    (Outcome.jump t s m : Outcome σ μ ε α).visitsThen f = [] := rfl

@[simp] theorem visitsThen_stop {τ : Type} (e : ε) (f : α → σ → μ → List τ) :
    (Outcome.stop e : Outcome σ μ ε α).visitsThen f = [] := rfl

@[simp] theorem visits_bind (p : Prog σ μ ε ℓ α) (q : α → Prog σ μ ε ℓ β) (s : σ) (m : μ) :
    (p >>= q).visits s m
      = p.visits s m ++ (p.exec s m).visitsThen (fun a s' m' => (q a).visits s' m') := by
  show (p.bind q).visits s m = _
  induction p generalizing s m with
  | ret a => rfl
  | stmt l f k ih =>
      simp only [Prog.bind, Prog.visits, Prog.exec]
      cases hf : f s with
      | error e => rfl
      | ok r => simp only [List.cons_append, ih r.1 r.2 m]
  | setmask g k ih => exact ih s (g m)
  | setjmp l save k ih =>
      simp only [Prog.bind, Prog.visits, Prog.exec]
      cases hf : save m s with
      | error e => rfl
      | ok r => simp only [List.cons_append, ih 0 r.2 m]
  | longjmp l load =>
      simp only [Prog.bind, Prog.visits, Prog.exec]
      cases hf : load s with
      | error e => rfl
      | ok r => rfl

/-! ## §4. Labels. -/

/-- Every statement of the program, on every path, has a label in `P`. -/
def Prog.Labels (P : ℓ → Prop) : Prog σ μ ε ℓ α → Prop
  | .ret _         => True
  | .stmt l _ k    => P l ∧ ∀ b, (k b).Labels P
  | .setmask _ k   => k.Labels P
  | .setjmp l _ k  => P l ∧ ∀ r, (k r).Labels P
  | .longjmp l _   => P l

theorem labels_pure (P : ℓ → Prop) (a : α) : (pure a : Prog σ μ ε ℓ α).Labels P := trivial

theorem labels_bind {P : ℓ → Prop} {p : Prog σ μ ε ℓ α} {q : α → Prog σ μ ε ℓ β}
    (hp : p.Labels P) (hq : ∀ a, (q a).Labels P) : (p >>= q).Labels P := by
  show (p.bind q).Labels P
  induction p with
  | ret a => exact hq a
  | stmt l f k ih => exact ⟨hp.1, fun b => ih b (hp.2 b)⟩
  | setmask g k ih => exact ih hp
  | setjmp l save k ih => exact ⟨hp.1, fun r => ih r (hp.2 r)⟩
  | longjmp l load => exact hp

theorem labels_ite {P : ℓ → Prop} {c : Prop} [Decidable c] {p q : Prog σ μ ε ℓ α}
    (hp : p.Labels P) (hq : q.Labels P) : (if c then p else q).Labels P := by
  split
  · exact hp
  · exact hq

/-- What is visited carries one of the program's labels. -/
theorem label_of_mem_visits {P : ℓ → Prop} {p : Prog σ μ ε ℓ α} (hp : p.Labels P)
    {s : σ} {m : μ} {x : ℓ × σ} (hx : x ∈ p.visits s m) : P x.1 := by
  induction p generalizing s m with
  | ret a => cases hx
  | stmt l f k ih =>
      rw [Prog.visits] at hx
      rcases List.mem_cons.mp hx with rfl | hx
      · exact hp.1
      · cases hf : f s with
        | error e => simp [hf] at hx
        | ok r =>
            simp only [hf] at hx
            exact ih r.1 (hp.2 r.1) hx
  | setmask g k ih => exact ih hp hx
  | setjmp l save k ih =>
      rw [Prog.visits] at hx
      rcases List.mem_cons.mp hx with rfl | hx
      · exact hp.1
      · cases hf : save m s with
        | error e => simp [hf] at hx
        | ok r =>
            simp only [hf] at hx
            exact ih 0 (hp.2 0) hx
  | longjmp l load =>
      rw [List.mem_singleton.mp hx]
      exact hp

/-! ## §5. Straight-line code. -/

/-- Code without jumps and mask changes: every statement has a label in `P` and
relates the memories before and after it by `R`. -/
def Prog.Plain (P : ℓ → Prop) (R : σ → σ → Prop) : Prog σ μ ε ℓ α → Prop
  | .ret _        => True
  | .stmt l f k   => P l ∧ (∀ s b s', f s = .ok (b, s') → R s s') ∧ ∀ b, (k b).Plain P R
  | .setmask _ _  => False
  | .setjmp _ _ _ => False
  | .longjmp _ _  => False

section Plain

variable {P : ℓ → Prop} {R : σ → σ → Prop}

theorem plain_pure (a : α) : (pure a : Prog σ μ ε ℓ α).Plain P R := trivial

theorem plain_bind {p : Prog σ μ ε ℓ α} {q : α → Prog σ μ ε ℓ β} (hp : p.Plain P R)
    (hq : ∀ a, (q a).Plain P R) : (p >>= q).Plain P R := by
  show (p.bind q).Plain P R
  induction p with
  | ret a => exact hq a
  | stmt l f k ih => exact ⟨hp.1, hp.2.1, fun b => ih b (hp.2.2 b)⟩
  | setmask g k ih => exact absurd hp id
  | setjmp l save k ih => exact absurd hp id
  | longjmp l load => exact absurd hp id

theorem plain_ite {c : Prop} [Decidable c] {p q : Prog σ μ ε ℓ α} (hp : p.Plain P R)
    (hq : q.Plain P R) : (if c then p else q).Plain P R := by
  split
  · exact hp
  · exact hq

theorem Prog.Plain.labels {p : Prog σ μ ε ℓ α} (hp : p.Plain P R) : p.Labels P := by
  induction p with
  | ret a => trivial
  | stmt l f k ih => exact ⟨hp.1, fun b => ih b (hp.2.2 b)⟩
  | setmask g k ih => exact absurd hp id
  | setjmp l save k ih => exact absurd hp id
  | longjmp l load => exact absurd hp id

/-- A weaker relation. -/
theorem Prog.Plain.mono {R' : σ → σ → Prop} {p : Prog σ μ ε ℓ α} (hp : p.Plain P R)
    (hR : ∀ s s', R s s' → R' s s') : p.Plain P R' := by
  induction p with
  | ret a => trivial
  | stmt l f k ih =>
      exact ⟨hp.1, fun s b s' hf => hR s s' (hp.2.1 s b s' hf), fun b => ih b (hp.2.2 b)⟩
  | setmask g k ih => exact absurd hp id
  | setjmp l save k ih => exact absurd hp id
  | longjmp l load => exact absurd hp id

end Plain

/-! ## §6. The memories in which a labelled statement starts. -/

section StartsAt

variable [DecidableEq ℓ]

/-- The memories from which one execution starts its statements labelled `l`. -/
def Prog.startsAt (l : ℓ) (p : Prog σ μ ε ℓ α) (s : σ) (m : μ) : List σ :=
  (p.visits s m).filterMap (fun x => if x.1 = l then some x.2 else none)

theorem startsAt_of_labels {l : ℓ} {p : Prog σ μ ε ℓ α} (hp : p.Labels (· ≠ l)) (s : σ) (m : μ) :
    p.startsAt l s m = [] := by
  apply List.filterMap_eq_nil_iff.mpr
  intro x hx
  exact if_neg (label_of_mem_visits hp hx)

@[simp] theorem startsAt_bind (l : ℓ) (p : Prog σ μ ε ℓ α) (q : α → Prog σ μ ε ℓ β)
    (s : σ) (m : μ) :
    (p >>= q).startsAt l s m
      = p.startsAt l s m ++ (p.exec s m).visitsThen (fun a s' m' => (q a).startsAt l s' m') := by
  simp only [Prog.startsAt, visits_bind, List.filterMap_append]
  cases p.exec s m <;> rfl

/-- Step over a first part without the label. -/
theorem startsAt_skip {l : ℓ} {p : Prog σ μ ε ℓ α} {q : α → Prog σ μ ε ℓ β} {s s' : σ} {m m' : μ}
    {a : α} (hp : p.Labels (· ≠ l)) (hexec : p.exec s m = .ret a s' m') :
    (p >>= q).startsAt l s m = (q a).startsAt l s' m' := by
  rw [startsAt_bind, startsAt_of_labels hp, hexec, visitsThen_ret, List.nil_append]

/-- Drop a second part without the label. -/
theorem startsAt_drop {l : ℓ} (p : Prog σ μ ε ℓ α) {q : α → Prog σ μ ε ℓ β} (s : σ) (m : μ)
    (hq : ∀ a, (q a).Labels (· ≠ l)) : (p >>= q).startsAt l s m = p.startsAt l s m := by
  rw [startsAt_bind]
  cases p.exec s m with
  | ret a s' m' => rw [visitsThen_ret, startsAt_of_labels (hq a), List.append_nil]
  | jump t s' m' => rw [visitsThen_jump, List.append_nil]
  | stop e => rw [visitsThen_stop, List.append_nil]

end StartsAt

end Interruptible
