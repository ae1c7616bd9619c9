/-
  UThreads.Model.System
  ─────────────────────
  **RUNS OF A PROGRAM THAT USES THE LIBRARY.**

  User code is arbitrary: whenever it runs it may make any library call, and
  the timer may tick.  An event is one such call or tick, executed up to the
  next point where user code runs: the caller's, if the call returns, or that
  of the thread `siglongjmp` switches to.  No event follows an exit or a fault.
-/
import UThreads.Model.Api
import UThreads.Lib.Run

namespace UThreads

open Interruptible Runs

/-! ## §1. Events. -/

/-- A library call, with the result of the allocator where there is one. -/
inductive Call where
  | spawn (mem : Malloc) (entryPoint : Option Nat)
  | terminate (tid : Int)
  | block (tid : Int)
  | resume (tid : Int)
  | sleep (numQuantums : Int)
  | getTid
  | getTotalQuantums
  | getQuantums (tid : Int)
  deriving DecidableEq, Repr

/-- The code of a call. -/
def Call.prog (order : IterOrder) : Call → Lib Int
  | .spawn mem entryPoint => uthreadSpawn mem entryPoint
  | .terminate tid        => uthreadTerminate order tid
  | .block tid            => uthreadBlock order tid
  | .resume tid           => uthreadResume tid
  | .sleep numQuantums    => uthreadSleep order numQuantums
  | .getTid               => uthreadGetTid
  | .getTotalQuantums     => uthreadGetTotalQuantums
  | .getQuantums tid      => uthreadGetQuantums tid

/-- A call by the running thread, or a delivery of `SIGVTALRM` while its
signal mask is `mask`. -/
inductive Event where
  | call (c : Call)
  | tick (mask : SigSet)
  deriving DecidableEq

/-! ## §2. Steps. -/

/-- One event, up to the state in which user code runs next.  The handler runs
with `SIGVTALRM` added to the mask; a call sets the mask itself, so the
caller's does not matter. -/
def step (order : IterOrder) (s : State) : Event → Option State
  | .call c    => settle ((c.prog order).exec s ∅)
  | .tick mask => settle ((timerHandler order).exec s (insert sigvtalrm mask))

/-- How an event stops the process, if it does. -/
def Event.stop (order : IterOrder) (s : State) : Event → Option Stop
  | .call c    => ((c.prog order).exec s ∅).stopped
  | .tick mask => ((timerHandler order).exec s (insert sigvtalrm mask)).stopped

/-! ## §3. Runs from `uthread_init`. -/

/-- A state that a successful `uthread_init` leaves. -/
def Initial (s : State) : Prop :=
  ∃ calloc quantumUsecs mask mask',
    (uthreadInit calloc quantumUsecs).exec boot mask = .ret successReturnValue s mask'

/-- A state in which user code runs. -/
def Reachable (order : IterOrder) (s : State) : Prop :=
  ∃ s₀ es, Initial s₀ ∧ run (step order) s₀ es = some s

theorem Reachable.step {order : IterOrder} {s s' : State} {e : Event}
    (h : Reachable order s) (hs : step order s e = some s') : Reachable order s' := by
  obtain ⟨s₀, es, h₀, hrun⟩ := h
  exact ⟨s₀, es ++ [e], h₀, run_snoc.mpr ⟨s, hrun, hs⟩⟩

theorem Reachable.run {order : IterOrder} {s s' : State} {es : List Event}
    (h : Reachable order s) (hs : run (UThreads.step order) s es = some s') :
    Reachable order s' := by
  obtain ⟨s₀, es₀, h₀, hrun⟩ := h
  exact ⟨s₀, es₀ ++ es, h₀, run_append.mpr ⟨s, hrun, hs⟩⟩

/-- **An inductive invariant holds in every reachable state.** -/
theorem Reachable.invariant {order : IterOrder} (I : State → Prop)
    (hinit : ∀ s, Initial s → I s)
    (hstep : ∀ s e s', I s → UThreads.step order s e = some s' → I s') {s : State}
    (h : Reachable order s) : I s := by
  obtain ⟨s₀, es, h₀, hrun⟩ := h
  exact run_invariant I hstep es s₀ s (hinit s₀ h₀) hrun

/-! ## §4. The state after `uthread_init`. -/

/-- The record of the main thread. -/
def mainThread : Thread where
  id := 0
  state := .running
  stack := none
  quantum := 1
  env := ⟨0, .unset, none, ∅⟩
  sleepingTime := notSleeping

/-- The state that `uthread_init` leaves for a quantum length. -/
def initialState (quantumUsecs : Int) : State :=
  { boot with
    threads := (Table.empty maxThreadNum Thread).set 0 (some mainThread)
    minHeapId := (List.range' 1 99).map (fun k : Nat => (k : Int))
    timer := ⟨quantumUsecs.tdiv second, quantumUsecs.tmod second,
              quantumUsecs.tdiv second, quantumUsecs.tmod second⟩
    totalQuantom := 1
    quantomLen := quantumUsecs }

/-- A heap after pushing a list of ids. -/
def pushAll (h : List Int) (is : List Nat) : List Int :=
  is.foldl (fun h (i : Nat) => h.orderedInsert (· ≤ ·) (i : Int)) h

theorem exec_initMinHeapId_go (m : SigSet) :
    ∀ (is : List Nat) (s : State),
      (initMinHeapId.go is).exec s m
        = .ret () (s.setHeap (pushAll s.minHeapId is)) m := by
  intro is
  induction is with
  | nil => exact fun _ => rfl
  | cons i is ih =>
      intro s
      rw [initMinHeapId.go, exec_bind, exec_pushHeap, Outcome.andThen_ret, ih]
      rfl

/-- Pushing the ids 0 to 99 gives the heap that lists them in order. -/
theorem heap_of_range :
    pushAll [] (List.range maxThreadNum)
      = 0 :: (List.range' 1 99).map (fun k : Nat => (k : Int)) := by
  decide +kernel

theorem exec_uthreadInit (quantumUsecs : Int) (h : 0 < quantumUsecs) (m : SigSet) :
    (uthreadInit true quantumUsecs).exec boot m
      = .ret successReturnValue (initialState quantumUsecs) m := by
  have hpos : ¬ quantumUsecs ≤ 0 := by omega
  -- the heap is filled with all ids, then the main thread takes 0
  have hgo := exec_initMinHeapId_go m (List.range maxThreadNum)
    ((boot.setLen quantumUsecs).setTotal 1)
  have hheap : pushAll ((boot.setLen quantumUsecs).setTotal 1).minHeapId
      (List.range maxThreadNum) = 0 :: (List.range' 1 99).map (fun k : Nat => (k : Int)) :=
    heap_of_range
  rw [hheap] at hgo
  have hmin := exec_getMinAvailableId (m := m) (s := ((boot.setLen quantumUsecs).setTotal 1).setHeap
    (0 :: (List.range' 1 99).map (fun k : Nat => (k : Int)))) rfl
  rw [uthreadInit]
  simp only [exec_bind, if_neg hpos, exec_modify, Outcome.andThen_ret, Bool.true_eq_false,
    if_false, exec_pure, initMinHeapId, hgo, hmin, initTimer]
  rfl

theorem initial_iff {s : State} :
    Initial s ↔ ∃ quantumUsecs, 0 < quantumUsecs ∧ s = initialState quantumUsecs := by
  constructor
  · intro hall
    obtain ⟨calloc, q, m, m', h⟩ := hall
    -- the other two branches return a failure or exit
    by_cases hq : q ≤ 0
    · simp [uthreadInit, hq, successReturnValue, failureReturnValue] at h
    · cases calloc with
      | false => simp [uthreadInit, hq, markFreed] at h
      | true =>
          rw [exec_uthreadInit q (by omega) m] at h
          injection h with _ hs _
          exact ⟨q, by omega, hs.symm⟩
  · intro hall
    obtain ⟨q, hq, rfl⟩ := hall
    exact ⟨true, q, ∅, ∅, exec_uthreadInit q hq ∅⟩

end UThreads
