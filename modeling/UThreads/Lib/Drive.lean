/-
  UThreads.Lib.Drive
  ──────────────────
  **RUNS OF THE MACHINE THAT ARE COMPUTED.**

  A `Move` names a step of the machine; `System.drive` makes a list of moves, as
  long as the memory passes a test.  What it computes is a run
  (`System.drive_sound`), so that a run can be exhibited by evaluating it.
-/
import UThreads.Lib.Interrupt

namespace Interruptible

variable {σ μ ε ℓ ι α β : Type}

/-! ## §1. Moves. -/

/-- The choices a machine has: a signal arrives or is delivered, user code sets
its mask or makes a call, or the code that runs executes its next statement (or
returns, after its last). -/
inductive Move (μ ι : Type) where
  | arrive
  | deliver
  | userMask (m : μ)
  | invoke (i : ι)
  | next

/-- The next statement of a program. -/
def Prog.next (access : ℓ → Bool) (back : Bool → Prog σ μ ε ℓ β → Ctrl σ μ ε ℓ ι α)
    (c : Config σ μ ε ℓ ι α) : Prog σ μ ε ℓ β → Option (Config σ μ ε ℓ ι α)
  | .ret _ => none
  | .stmt l f k =>
      match f c.mem with
      | .ok (b, s) => some { c with mem := s, ctrl := back (access l) (k b) }
      | .error _   => none
  | .setmask g k => some { c with mask := g c.mask, ctrl := back false k }
  | .setjmp l save k =>
      match save c.mask c.mem with
      | .ok (n, s) => some { c with
          mem := s
          ctrl := back (access l) (k 0)
          conts := Function.update c.conts n (some (back (access l) (k 1))) }
      | .error _   => none
  | .longjmp _ load =>
      match load c.mem with
      | .ok (.entry, m, s)   => some { c with mem := s, mask := m, ctrl := .user }
      | .ok (.saved n, m, s) =>
          (c.conts n).map (fun ctrl => { c with mem := s, mask := m, ctrl := ctrl })
      | .error _             => none

/-- The next step of the code that runs. -/
def System.advance (sys : System σ μ ε ℓ ι α) (c : Config σ μ ε ℓ ι α) :
    Option (Config σ μ ε ℓ ι α) :=
  match c.ctrl with
  | .user                          => none
  | .call _ _ (.ret _)             => some { c with ctrl := .user }
  | .call i begun p                => p.next sys.access (fun a q => .call i (begun || a) q) c
  | .handler (.ret _) interrupted m => some { c with mask := m, ctrl := interrupted }
  | .handler p interrupted m       => p.next sys.access (fun _ q => .handler q interrupted m) c

/-- Control is in user code. -/
def Ctrl.isUser : Ctrl σ μ ε ℓ ι α → Bool
  | .user => true
  | _     => false

section Drive

variable (sys : System σ μ ε ℓ ι α) [DecidablePred sys.blocked]

/-- One move. -/
def System.move (c : Config σ μ ε ℓ ι α) : Move μ ι → Option (Config σ μ ε ℓ ι α)
  | .arrive => some { c with pending := true }
  | .deliver =>
      if c.pending = true ∧ ¬ sys.blocked c.mask then some (sys.delivered c) else none
  | .userMask m =>
      if c.ctrl.isUser = true ∧ (sys.blocked m ↔ sys.blocked c.mask) then some { c with mask := m }
      else none
  | .invoke i =>
      if c.ctrl.isUser = true then some { c with ctrl := .call i false (sys.call i) } else none
  | .next => sys.advance c

/-- A list of moves; each starts in a memory that passes the test. -/
def System.drive (test : σ → Bool) :
    List (Move μ ι) → Config σ μ ε ℓ ι α → Option (Config σ μ ε ℓ ι α)
  | [], c      => some c
  | x :: xs, c =>
      if test c.mem = true then (sys.move c x).bind (System.drive test xs) else none

end Drive

/-! ## §2. What is computed is a run. -/

section Sound

variable {sys : System σ μ ε ℓ ι α} {c c' : Config σ μ ε ℓ ι α}

theorem Prog.next_sound {access : ℓ → Bool} {back : Bool → Prog σ μ ε ℓ β → Ctrl σ μ ε ℓ ι α}
    {p : Prog σ μ ε ℓ β} (h : p.next access back c = some c') : p.Next access back c c' := by
  cases p with
  | ret b => cases h
  | stmt l f k =>
      simp only [Prog.next] at h
      split at h
      · rename_i b s hf
        injection h with h
        exact h ▸ .stmt l f k b s hf
      · cases h
  | setmask g k =>
      injection h with h
      exact h ▸ .setmask g k
  | setjmp l save k =>
      simp only [Prog.next] at h
      split at h
      · rename_i n s hsave
        injection h with h
        exact h ▸ .setjmp l save k n s hsave
      · cases h
  | longjmp l load =>
      simp only [Prog.next] at h
      split at h
      · rename_i m s hl
        injection h with h
        exact h ▸ .entry l load m s hl
      · rename_i n m s hl
        obtain ⟨ctrl, hn, hc⟩ := Option.map_eq_some_iff.mp h
        exact hc ▸ .resume l load n m s ctrl hl hn
      · cases h

theorem System.advance_sound (h : sys.advance c = some c') : sys.Step c c' := by
  unfold System.advance at h
  split at h
  · cases h
  · rename_i i begun a hctrl
    injection h with h
    exact h ▸ .callReturn i begun a hctrl
  · rename_i i begun p _ hctrl
    exact .call i begun p c' hctrl (Prog.next_sound h)
  · rename_i interrupted m hctrl
    injection h with h
    exact h ▸ .handlerReturn interrupted m hctrl
  · rename_i p interrupted m _ hctrl
    exact .handler p interrupted m c' hctrl (Prog.next_sound h)

theorem Ctrl.isUser_eq {ctrl : Ctrl σ μ ε ℓ ι α} (h : ctrl.isUser = true) : ctrl = .user := by
  cases ctrl with
  | user => rfl
  | call i begun p => cases h
  | handler p interrupted m => cases h

variable [DecidablePred sys.blocked]

/-- A move is a step. -/
theorem System.move_sound {x : Move μ ι} (h : sys.move c x = some c') : sys.Step c c' := by
  cases x with
  | arrive =>
      injection h with h
      exact h ▸ .arrive
  | deliver =>
      simp only [System.move] at h
      split at h
      · rename_i hopen
        injection h with h
        exact h ▸ .deliver hopen.1 hopen.2
      · cases h
  | userMask m =>
      simp only [System.move] at h
      split at h
      · rename_i hm
        injection h with h
        exact h ▸ .userMask m (Ctrl.isUser_eq hm.1) hm.2
      · cases h
  | invoke i =>
      simp only [System.move] at h
      split at h
      · rename_i hctrl
        injection h with h
        exact h ▸ .invoke i (Ctrl.isUser_eq hctrl)
      · cases h
  | next => exact System.advance_sound h

/-- **What is computed is a run.** -/
theorem System.drive_sound {test : σ → Bool} {xs : List (Move μ ι)}
    (h : sys.drive test xs c = some c') :
    Relation.ReflTransGen (fun a b => test a.mem = true ∧ sys.Step a b) c c' := by
  induction xs generalizing c with
  | nil =>
      injection h with h
      exact h ▸ .refl
  | cons x xs ih =>
      simp only [System.drive] at h
      split at h
      · rename_i htest
        obtain ⟨d, hd, hrest⟩ := Option.bind_eq_some_iff.mp h
        exact .head ⟨htest, System.move_sound hd⟩ (ih hrest)
      · cases h

end Sound

end Interruptible
