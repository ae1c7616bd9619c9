/-
  UThreads.Properties.Scheduler
  ─────────────────────────────
  **ONE RUNNING THREAD, A FAITHFUL READY QUEUE, ALWAYS SOMEBODY TO DISPATCH.**

  The representation invariant read off at the states in which user code runs,
  and at the states in which `set_ready_to_run` reads the queue's front.
-/
import UThreads.Invariant.Preservation
import UThreads.Effects.FrontReads

namespace UThreads

open Interruptible Runs

/-! ## §1. Observing a state. -/

/-- The state of thread `i`, if there is one. -/
def State.stateOf (s : State) (i : Int) : Option ThreadState := (s.threads.get i).map Thread.state

/-- The state of a thread is that in its record. -/
theorem stateOf_eq_some {s : State} {i : Int} {st : ThreadState} :
    s.stateOf i = some st ↔ ∃ t, s.threads.get i = some t ∧ t.state = st := by
  unfold State.stateOf
  exact Option.map_eq_some_iff

/-- The two states have the same threads, with every record, the same queue, set
and heap, the same current thread and the same total. -/
structure State.Same (s s' : State) : Prop where
  threads : s'.threads = s.threads
  ready : s'.readyThreads = s.readyThreads
  sleeping : s'.sleepingThreads = s.sleepingThreads
  heap : s'.minHeapId = s.minHeapId
  curr : s'.currThreadId = s.currThreadId
  total : s'.totalQuantom = s.totalQuantom

/-- A list without repetition counts its members once. -/
theorem count_of_nodup {q : List Int} (h : q.Nodup) (i : Int) :
    q.count i = if i ∈ q then 1 else 0 := by
  by_cases hi : i ∈ q
  · rw [if_pos hi, List.count_eq_one_of_mem h hi]
  · rw [if_neg hi, List.count_eq_zero_of_not_mem hi]

/-! ## §2. The representation invariant. -/

/-- **When user code runs**, the current thread is the one RUNNING thread, and
the queue holds each READY thread once and nobody else. -/
theorem scheduler_representation {order : IterOrder} {s : State} (h : Reachable order s) :
    s.stateOf s.currThreadId = some .running
      ∧ (∀ i, s.stateOf i = some .running → i = s.currThreadId)
      ∧ (∀ i, s.readyThreads.count i = if s.stateOf i = some .ready then 1 else 0) := by
  have hw := h.wellFormed
  refine ⟨stateOf_eq_some.mpr hw.curr, ?_, ?_⟩
  · intro i hi
    obtain ⟨t, ht, hst⟩ := stateOf_eq_some.mp hi
    exact hw.onlyCurr i t ht hst
  · intro i
    have hiff : i ∈ s.readyThreads ↔ s.stateOf i = some .ready :=
      (hw.readyIff i).trans stateOf_eq_some.symm
    rw [count_of_nodup hw.readyNodup i]
    simp only [hiff]

/-- A run with a preemption, a sleep, two blocks, a resume and a reused id. -/
def mixedRun : List Event :=
  [.call (.spawn ⟨some 4096, true⟩ (some 1)), .call (.spawn ⟨some 8192, true⟩ (some 2)),
   .tick ∅, .call (.sleep 2), .call (.block 1), .call (.block 2), .tick ∅,
   .call (.terminate 2), .call (.spawn ⟨some 8192, true⟩ (some 3)), .call (.resume 1)]

/-- The run goes through. -/
theorem mixedRun_ends : (run (step .listing) (initialState 1000) mixedRun).isSome = true := by
  decide +kernel

/-- The examples' runs start from a successful `uthread_init`. -/
theorem reachable_of_run {order : IterOrder} {q : Int} {es : List Event} {s : State} (hq : 0 < q)
    (h : run (step order) (initialState q) es = some s) : Reachable order s :=
  ⟨initialState q, es, initial_iff.mpr ⟨q, hq, rfl⟩, h⟩

/-- Queue and states after that run. -/
theorem scheduler_representation_mixedRun :
    ∃ s, run (step .listing) (initialState 1000) mixedRun = some s
      ∧ s.stateOf s.currThreadId = some .running
      ∧ ∀ i, s.readyThreads.count i = if s.stateOf i = some .ready then 1 else 0 := by
  obtain ⟨s, hs⟩ := Option.isSome_iff_exists.mp mixedRun_ends
  have hrep := scheduler_representation (reachable_of_run (by decide) hs)
  exact ⟨s, hs, hrep.1, hrep.2.2⟩

/-! ## §3. The dispatch is defined. -/

/-- **At the front's read the queue is non-empty and its head is READY**; each
switching event reads the front once and no other event does; the main thread
is always RUNNING or READY. -/
theorem dispatch_defined {order : IterOrder} {s : State} (h : Reachable order s) :
    (∀ e : Event, e.Switches s → ∃ p next rest, e.frontReads order s = [p]
        ∧ p.readyThreads = next :: rest ∧ p.stateOf next = some .ready)
      ∧ (∀ e : Event, ¬ e.Switches s → e.frontReads order s = [])
      ∧ (s.stateOf 0 = some .running ∨ s.stateOf 0 = some .ready) := by
  have hw := h.wellFormed
  refine ⟨?_, fun e he => frontReads_other hw he, ?_⟩
  · intro e he
    obtain ⟨t, hcurr, hrun⟩ := hw.curr
    obtain ⟨p, hp⟩ := he.suspends t
    -- nobody has been taken out of the queue but the thread that gives up the CPU
    obtain ⟨next, rest, u, hq, hu, hready⟩ := (hw.suspends hcurr hrun hp).front
    exact ⟨p, next, rest, frontReads_suspends hw hcurr hrun hp, hq,
      stateOf_eq_some.mpr ⟨u, hu, hready⟩⟩
  · obtain ⟨t, ht, hst⟩ := hw.main
    rcases hst with hst | hst
    · exact Or.inl (stateOf_eq_some.mpr ⟨t, ht, hst⟩)
    · exact Or.inr (stateOf_eq_some.mpr ⟨t, ht, hst⟩)

/-- The front that the tick after that run finds. -/
theorem dispatch_defined_mixedRun :
    ∃ s, run (step .listing) (initialState 1000) mixedRun = some s
      ∧ ∃ p next rest, (Event.tick ∅).frontReads .listing s = [p]
        ∧ p.readyThreads = next :: rest ∧ p.stateOf next = some .ready := by
  obtain ⟨s, hs⟩ := Option.isSome_iff_exists.mp mixedRun_ends
  exact ⟨s, hs, (dispatch_defined (reachable_of_run (by decide) hs)).1 (.tick ∅) trivial⟩

end UThreads
