/-
  UThreads.Effects.Faults
  ───────────────────────
  **WHAT CAN GO WRONG IN A STEP: A DEAD MEMBER OF THE SLEEPING SET, NOTHING ELSE.**

  From a well-formed state an event faults only in `wake_sleeping_threads`, on
  a member of the sleeping set whose table entry is null.
-/
import UThreads.Invariant.Preservation

namespace UThreads

open Interruptible

variable {order : IterOrder} {s : State} {e : Event}

/-- Every state in which the running thread is suspended has a live sleeping
set. -/
def LiveSleepers (s : State) (e : Event) : Prop :=
  ∀ t p, s.threads.get s.currThreadId = some t → t.state = .running →
    Suspends s t e p → ∀ i ∈ p.sleepingThreads, p.threads.get i ≠ none

/-- Code that returns or exits does not fault; the dispatch does not fault on a
live sleeping set. -/
theorem Ending.no_fault {α : Type} {o : Outcome State SigSet Stop α} (he : Ending order s e o)
    (h : WellFormed s) (hlive : LiveSleepers s e) (f : Fault) : o.stopped ≠ some (.fault f) := by
  cases he with
  | returns r s' m heff => exact nofun
  | exits code =>
      intro hfault
      injection hfault with hfault
      cases hfault
  | switches t p m g hcurr hrun hp =>
      rcases (h.suspends hcurr hrun hp).exec_dispatch order m with
        ⟨next, rest, u, _, _, _, _, hexec⟩ | ⟨hnull, _⟩
      · rw [hexec]
        exact nofun
      · obtain ⟨i, hi, hnone⟩ := hnull
        exact absurd hnone (hlive t p hcurr hrun hp i hi)

/-- Whatever fault there is, it is the read of a null entry. -/
theorem Ending.null_fault {α : Type} {o : Outcome State SigSet Stop α} {f : Fault}
    (he : Ending order s e o) (h : WellFormed s) (hfault : o.stopped = some (.fault f)) :
    f = .nullThread := by
  cases he with
  | returns r s' m heff => cases hfault
  | exits code =>
      injection hfault with hfault
      cases hfault
  | switches t p m g hcurr hrun hp =>
      -- the dispatch faults on a dead sleeper, or not at all
      rcases (h.suspends hcurr hrun hp).exec_dispatch order m with
        ⟨next, rest, u, _, _, _, _, hexec⟩ | ⟨_, hexec⟩
      · rw [hexec] at hfault
        cases hfault
      · rw [hexec] at hfault
        injection hfault with hfault
        injection hfault with hfault
        exact hfault.symm

/-- **From a well-formed state an event faults only on a dead sleeper.** -/
theorem no_fault (h : WellFormed s) (hlive : LiveSleepers s e) (f : Fault) :
    e.stop order s ≠ some (.fault f) := by
  cases e with
  | call c => exact (call_ending h c).no_fault h hlive f
  | tick mask => exact (tick_ending h mask).no_fault h hlive f

/-- **An event that faults reads a null entry**: the queue and the heap are not
empty when they are read, and `erase` is applied to members of the set only. -/
theorem null_fault {f : Fault} (h : WellFormed s) (hfault : e.stop order s = some (.fault f)) :
    f = .nullThread := by
  cases e with
  | call c => exact (call_ending h c).null_fault h hfault
  | tick mask => exact (tick_ending h mask).null_fault h hfault

end UThreads
