/-
  UThreads.Properties.History
  ───────────────────────────
  **READING THE HISTORY OF CONTEXT SWITCHES.**

  The history lists, in order, the spawns, the saves, the resumes and the
  terminations.  This module says what is read off it: the last event of a
  thread, how often its current lifetime has been resumed, and which tokens
  have been given out.
-/
import UThreads.Invariant.Preservation

namespace UThreads

/-! ## §1. Events. -/

/-- The thread an event is about. -/
def JmpEvent.tid : JmpEvent → Int
  | .spawned tid _ _  => tid
  | .saved tid _ _    => tid
  | .resumed tid _ _  => tid
  | .terminated tid _ => tid

/-- The token an event stores in an environment. -/
def JmpEvent.gives : JmpEvent → Option Nat
  | .spawned _ token _ => some token
  | .saved _ token _   => some token
  | _                  => none

/-- The thread that an event resumes. -/
def JmpEvent.resumedTid : JmpEvent → Option Int
  | .resumed tid _ _ => some tid
  | _                => none

/-- The last event of a thread. -/
def lastOf (tid : Int) (l : List JmpEvent) : Option JmpEvent :=
  l.reverse.find? (fun ev => decide (ev.tid = tid))

@[simp] theorem lastOf_snoc (tid : Int) (l : List JmpEvent) (ev : JmpEvent) :
    lastOf tid (l ++ [ev]) = if ev.tid = tid then some ev else lastOf tid l := by
  unfold lastOf
  rw [List.reverse_append, List.reverse_singleton, List.singleton_append]
  by_cases h : ev.tid = tid
  · rw [List.find?_cons_of_pos (by simpa using h), if_pos h]
  · rw [List.find?_cons_of_neg (by simpa using h), if_neg h]

/-- The last event of a thread is in the list, and no later event is about it. -/
theorem lastOf_split {tid : Int} {ev : JmpEvent} :
    ∀ {l : List JmpEvent}, lastOf tid l = some ev →
      ev.tid = tid ∧ ∃ l₁ l₂, l = l₁ ++ ev :: l₂ ∧ ∀ x ∈ l₂, x.tid ≠ tid := by
  intro l
  induction l using List.reverseRecOn with
  | nil =>
      intro h
      cases h
  | append_singleton l x ih =>
      intro h
      rw [lastOf_snoc] at h
      by_cases hx : x.tid = tid
      · rw [if_pos hx] at h
        injection h with h
        subst h
        refine ⟨hx, l, [], rfl, ?_⟩
        intro y hy
        cases hy
      · rw [if_neg hx] at h
        obtain ⟨htid, l₁, l₂, hl, hlater⟩ := ih h
        refine ⟨htid, l₁, l₂ ++ [x], by rw [hl, List.append_assoc]; rfl, ?_⟩
        intro y hy
        rcases List.mem_append.mp hy with hy | hy
        · exact hlater y hy
        · rw [List.mem_singleton.mp hy]
          exact hx

/-! ## §2. Counting. -/

/-- One for a resume. -/
def JmpEvent.resumes : JmpEvent → Int
  | .resumed _ _ _ => 1
  | _              => 0

/-- The count of a lifetime's resumes after one more event: a spawn starts it
anew. -/
def countLife (tid n : Int) : JmpEvent → Int
  | .spawned i _ _  => if i = tid then 0 else n
  | .saved _ _ _    => n
  | .resumed i _ _  => if i = tid then n + 1 else n
  | .terminated _ _ => n

/-- How often the current lifetime of `tid` has been resumed. -/
def dispatches (tid : Int) (l : List JmpEvent) : Int := l.foldl (countLife tid) 0

/-- How many resumes there have been. -/
def resumeCount (l : List JmpEvent) : Int := (l.map JmpEvent.resumes).sum

/-- The final `quantum` value of a thread that ends. -/
def JmpEvent.finalQuantum : JmpEvent → Int
  | .terminated _ quantum => quantum
  | _                     => 0

/-- The sum of the final `quantum` values of the terminated threads. -/
def retiredQuanta (l : List JmpEvent) : Int := (l.map JmpEvent.finalQuantum).sum

section Snoc

variable (tid : Int) (l : List JmpEvent) (ev : JmpEvent)

@[simp] theorem dispatches_snoc :
    dispatches tid (l ++ [ev]) = countLife tid (dispatches tid l) ev := by
  rw [dispatches, List.foldl_append]
  rfl

@[simp] theorem resumeCount_snoc : resumeCount (l ++ [ev]) = resumeCount l + ev.resumes := by
  simp [resumeCount]

@[simp] theorem retiredQuanta_snoc :
    retiredQuanta (l ++ [ev]) = retiredQuanta l + ev.finalQuantum := by
  simp [retiredQuanta]

end Snoc

/-- A lifetime has been resumed at most as often as all of them. -/
theorem dispatches_bounds (tid : Int) (l : List JmpEvent) :
    0 ≤ dispatches tid l ∧ dispatches tid l ≤ resumeCount l := by
  induction l using List.reverseRecOn with
  | nil => exact ⟨Int.le_refl 0, Int.le_refl 0⟩
  | append_singleton l ev ih =>
      rw [resumeCount_snoc, dispatches_snoc]
      cases ev with
      | spawned i token address =>
          simp only [countLife, JmpEvent.resumes]
          split <;> omega
      | saved i token site =>
          simp only [countLife, JmpEvent.resumes]
          omega
      | resumed i token pc =>
          simp only [countLife, JmpEvent.resumes]
          split <;> omega
      | terminated i quantum =>
          simp only [countLife, JmpEvent.resumes]
          omega

end UThreads
