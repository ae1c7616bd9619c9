/-
  UThreads.Properties.Serializable
  ────────────────────────────────
  **WHOLE CALLS AND TICKS ARE ENOUGH.**

  The library is executed statement by statement, with a tick between any two
  of them.  Its sections are the calls that mask the timer and the handler, and
  `Trace` lists them as they begin.  Executed in this order and each in one
  piece (`step`), they leave the same state and return the same results; so the
  run looks like one of the abstract scheduler.
-/
import UThreads.Lib.Serial
import UThreads.Interrupt.Points
import UThreads.Properties.TimerMask
import UThreads.Properties.Refinement

namespace UThreads

open Interruptible Relation RoundRobin Runs

/-- The event that a section is. -/
def sectionEvent : Entry Call SigSet → Event
  | .call c   => .call c
  | .signal m => .tick m

/-- The steps of the machine from `c₀`, and the sections they begin. -/
abbrev Sections (order : IterOrder) : Cpu → List (Entry Call SigSet) → Cpu → Prop :=
  Trace (machine order) (contract order)

/-! ## §1. The sections of a run. -/

section Serial

variable {order : IterOrder} {c₀ c : Cpu} {es : List (Entry Call SigSet)}

/-- The sections of the machine are the events of the scheduler. -/
theorem machine_serves (order : IterOrder) :
    (machine order).Serves (contract order) (fun s e => step order s (sectionEvent e)) where
  call := by
    intro c s m s' hgood hs
    have hreach : Reachable order s := hgood
    exact (settle_call hreach.wellFormed.freed c m).symm.trans hs
  signal := fun _ _ _ _ hs => hs

/-- A call is about to unmask the timer and return `r`: it is resumed, or returns
this in one piece. -/
theorem Booted.answers (h₀ : Booted c₀) (h : Sections order c₀ es c) {i : Call} {begun : Bool}
    {r : Int} (hctrl : c.ctrl = .call i begun (finishes r)) (hmask : sigvtalrm ∈ c.mask) :
    (i.Waits ∧ r = successReturnValue
        ∧ run (step order) c₀.mem (es.map sectionEvent) = some c.mem)
      ∨ ∃ es' s m, es = es' ++ [.call i]
          ∧ run (step order) c₀.mem (es'.map sectionEvent) = some s
          ∧ (i.prog order).exec s m = .ret r c.mem (c.mask \ signalSet) := by
  rcases h.answers (machine_disciplined order) (machine_serves order) h₀.start hctrl hmask with
    ⟨⟨n, hn⟩, hrun⟩ | ⟨es', s, m, hes, hrun, hexec⟩
  · -- the saved contexts of a call are those of `sigsetjmp`
    rw [run_map] at hrun
    have hreach : CpuReachable order c := ⟨c₀, h₀, h.steps⟩
    have hresumed := (hreach.within.conts n c.ctrl hn).2
    rw [hctrl] at hresumed
    obtain ⟨hwaits, hfinish⟩ := hresumed
    injection hfinish with _ hr
    injection hr with hr
    exact Or.inl ⟨hwaits, hr, hrun⟩
  · rw [run_map] at hrun
    exact Or.inr ⟨es', s, m, hes, hrun, hexec⟩

/-- **Serializability.**  Until a call has executed `free_threads`, every run of single
statements has its list of sections; where the timer is unmasked the state is the
one that these calls and ticks, executed in one piece, leave behind; and a call that
is about to unmask it returns what it returns there (a suspended one is resumed, and
returns 0).  Behind `free_threads` there is no such list: `unmask_timer` opens the
mask once more, and the call whose section that is leaves no state. -/
theorem serializable (order : IterOrder) {c₀ : Cpu} (h₀ : Booted c₀) :
    (∀ c, ReflTransGen ((machine order).LiveStep (contract order)) c₀ c →
        ∃ es, Sections order c₀ es c)
      ∧ ∀ es c, Sections order c₀ es c →
          (sigvtalrm ∉ c.mask → run (step order) c₀.mem (es.map sectionEvent) = some c.mem)
            ∧ ∀ i begun r, c.ctrl = .call i begun (finishes r) → sigvtalrm ∈ c.mask →
                (i.Waits ∧ r = successReturnValue
                    ∧ run (step order) c₀.mem (es.map sectionEvent) = some c.mem)
                  ∨ ∃ es' s m, es = es' ++ [.call i]
                      ∧ run (step order) c₀.mem (es'.map sectionEvent) = some s
                      ∧ (i.prog order).exec s m = .ret r c.mem (c.mask \ signalSet) := by
  refine ⟨fun c h => exists_trace (machine_disciplined order) (machine_serves order) h₀.start h, ?_⟩
  intro es c h
  refine ⟨?_, fun i begun r hctrl hmask => h₀.answers h hctrl hmask⟩
  intro hmask
  rw [← run_map]
  exact h.serial_run (machine_disciplined order) (machine_serves order) h₀.start hmask

/-- **The machine refines the abstract scheduler**: until a call has executed
`free_threads`, wherever the timer is unmasked, a run of single statements with
regular sections looks like a run of the abstract scheduler. -/
theorem machine_refines_scheduler (h₀ : Booted c₀) (h : Sections order c₀ es c)
    (hmask : sigvtalrm ∉ c.mask)
    (hregular : AllSteps (step order) (fun v e => e.Regular v) c₀.mem (es.map sectionEvent)) :
    Steps SpecStep bootView (labels (step order) Event.op c₀.mem (es.map sectionEvent)) c.mem.view
      ∧ c.mem.view.Valid := by
  have hrun := h.serial_run (machine_disciplined order) (machine_serves order) h₀.start hmask
  rw [run_map] at hrun
  obtain ⟨hsteps, _⟩ := view_run h₀.mem hregular hrun
  exact ⟨hsteps, hsteps.invariant (fun _ _ _ ha hs => hs.valid ha) bootView_valid⟩

/-- A list of moves that can be made has its list of sections. -/
theorem goOn_sections {xs : List (Move SigSet Call)} {c c' : Cpu}
    (h : goOn order xs c = some c') (hes : (machine order).sections xs c = some es) :
    Sections order c es c' := by
  have hgo : (machine order).drive (fun s => !s.freed) xs c = some c' := h
  refine Trace.drive ?_ .nil hgo hes
  intro s hs
  show s.freed = false
  simpa using hs

end Serial

/-! ## §2. A run that is interrupted in a call. -/

/-- A tick arrives in the middle of `uthread_spawn` and is delivered after it. -/
def spawnWithTick : List (Move SigSet Call) :=
  .invoke (.spawn ⟨some 4096, true⟩ (some 1)) :: .next :: .next :: .arrive
    :: List.replicate 7 .next ++ .deliver :: List.replicate 15 .next

/-- Its sections: the call, and then the handler on top of user code. -/
def spawnThenTick : List (Entry Call SigSet) :=
  [.call (.spawn ⟨some 4096, true⟩ (some 1)), .signal ∅]

/-- The tick waits for the end of the call: the sections are the call and the handler. -/
theorem spawnWithTick_sections :
    ∃ c : Cpu, Sections .listing (startCpu 1000) spawnThenTick c ∧ sigvtalrm ∉ c.mask
      ∧ c.mem.currThreadId = 1 := by
  have hrun : (goOn .listing spawnWithTick (startCpu 1000)).map
      (fun c => (decide (sigvtalrm ∈ c.mask), c.mem.currThreadId)) = some (false, 1) := by
    with_unfolding_all rfl
  obtain ⟨c, hc, hobs⟩ := Option.map_eq_some_iff.mp hrun
  injection hobs with hmask hcurr
  have hsections : (machine .listing).sections spawnWithTick (startCpu 1000)
      = some spawnThenTick := by
    with_unfolding_all rfl
  exact ⟨c, goOn_sections hc hsections, of_decide_eq_false hmask, hcurr⟩

/-- Executed in one piece, one after the other, they leave the same state. -/
theorem serializable_spawnWithTick :
    ∃ c : Cpu, Sections .listing (startCpu 1000) spawnThenTick c ∧ c.mem.currThreadId = 1
      ∧ run (step .listing) (initialState 1000) (spawnThenTick.map sectionEvent) = some c.mem := by
  obtain ⟨c, hsections, hmask, hcurr⟩ := spawnWithTick_sections
  have h₀ : Booted (startCpu 1000) := booted_startCpu (by decide)
  exact ⟨c, hsections, hcurr, ((serializable .listing h₀).2 _ c hsections).1 hmask⟩

/-- And they are two steps of the abstract scheduler. -/
theorem machine_refines_scheduler_spawnWithTick :
    ∃ c : Cpu, Sections .listing (startCpu 1000) spawnThenTick c
      ∧ Steps SpecStep bootView (labels (step .listing) Event.op (initialState 1000)
          (spawnThenTick.map sectionEvent)) c.mem.view ∧ c.mem.view.Valid := by
  obtain ⟨c, hsections, hmask, _⟩ := spawnWithTick_sections
  have hregular : AllSteps (step .listing) (fun v e => e.Regular v) (initialState 1000)
      (spawnThenTick.map sectionEvent) := by
    decide +kernel
  exact ⟨c, hsections,
    machine_refines_scheduler (booted_startCpu (by decide)) hsections hmask hregular⟩

end UThreads
