/-
  UThreads.Model.State
  ────────────────────
  **THE DATA OF THE LIBRARY** (`uthreads.h`, `uthreads.cpp`: macros, `Thread`,
  global variables).

  `State` holds the global variables of `uthreads.cpp` and what the process has
  besides: the text on `std::cerr`, whether `free_threads` has run, and the
  history of context switches that the control theorems speak about.

  The C++ `int` counters are unbounded here: a signed overflow is undefined in
  C++, so up to the first one both readings agree.
-/
import UThreads.Lib.Table
import UThreads.Lib.Prog
import Mathlib.Data.Finset.Insert
import Mathlib.Data.List.Sort

namespace UThreads

/-! ## §1. Macros. -/

/-- `MAX_THREAD_NUM`. -/
def maxThreadNum : Nat := 100

/-- `STACK_SIZE`, in bytes. -/
def stackSize : Nat := 4096

/-- `sizeof(address_t)` on a 64-bit machine. -/
def sizeofAddress : Nat := 8

/-- `SECOND`, in microseconds. -/
def second : Int := 1000000

/-- The least and the greatest `int`, of 32 bits. -/
def intMin : Int := -2 ^ 31
def intMax : Int := 2 ^ 31 - 1

def successReturnValue : Int := 0
def failureReturnValue : Int := -1
def runningTerminated : Int := -1
def notSleeping : Int := -1
def fullThreads : Int := -1

def systemErrorPrefix : String := "system error: "
def libraryErrorPrefix : String := "thread library error: "

def memoryErrorMsg : String := "Memory allocation failed."
def quantumErrorMsg : String := "Quantum must be a positive value (ms)."
def entryPointErrorMsg : String := "Entry point cannot be null."
def fullThreadsErrorMsg : String := "Cannot create more threads."
def invalidTidErrorMsg : String := "Thread ID does not exist."
def sleepMtErrorMsg : String := "Main thread can't sleep itself."

/-! ## §2. Signals. -/

/-- A set of signal numbers (`sigset_t`). -/
abbrev SigSet := Finset Nat

/-- The number of `SIGVTALRM`. -/
def sigvtalrm : Nat := 26

/-- The global `signal_set`, as `init_sig_set` leaves it: nothing else writes it. -/
def signalSet : SigSet := {sigvtalrm}

/-! ## §3. The thread record. -/

/-- `thread_state`. -/
inductive ThreadState where
  | running
  | ready
  | blocked
  | sleeping
  deriving DecidableEq, Repr

/-- The `sigsetjmp` calls that a thread can be resumed from.  (That of
`set_new_thread` never returns again: its program counter is overwritten.) -/
inductive JmpSite where
  | timerHandler
  | uthreadBlock
  | uthreadSleep
  deriving DecidableEq, Repr

/-- The program counter stored in a `sigjmp_buf`: none yet, just after a
`sigsetjmp`, or an entry point written over it by `set_new_thread`. -/
inductive JmpPc where
  | unset
  | site (s : JmpSite)
  | entry (address : Nat)
  deriving DecidableEq, Repr

/-- `sigjmp_buf`.  `token` numbers the `sigsetjmp` calls of a run: it tells one
saved context from another and no code reads it. -/
structure SigJmpBuf where
  token : Nat
  pc : JmpPc
  sp : Option Nat
  savedMask : SigSet
  deriving DecidableEq

/-- `struct Thread`. -/
structure Thread where
  id : Nat
  state : ThreadState
  stack : Option Nat
  quantum : Int
  env : SigJmpBuf
  sleepingTime : Int
  deriving DecidableEq

/-- `struct itimerval`: value and interval, in seconds and microseconds. -/
structure Itimerval where
  valueSec : Int
  valueUsec : Int
  intervalSec : Int
  intervalUsec : Int
  deriving DecidableEq, Repr

/-! ## §4. Global variables. -/

/-- One step in the life of a saved context. -/
inductive JmpEvent where
  /-- `uthread_spawn` put the record of a new thread in the table. -/
  | spawned (tid : Int) (token : Nat) (address : Nat)
  /-- `sigsetjmp(threads[tid]->env, 1)`. -/
  | saved (tid : Int) (token : Nat) (site : JmpSite)
  /-- `siglongjmp(threads[tid]->env, 1)`. -/
  | resumed (tid : Int) (token : Nat) (pc : JmpPc)
  /-- `threads[tid] = nullptr`, and the `quantum` the record had. -/
  | terminated (tid : Int) (quantum : Int)
  deriving DecidableEq, Repr

/-- The global variables of `uthreads.cpp`, and what the process has besides.

`sleepingThreads` lists the members of the unordered set (the order in which
the code iterates over it is `IterOrder` below); `minHeapId` lists the
priority queue from its top; `readyThreads` lists the queue from its front.
`nextToken` and `history` number and record the context switches; no branch of
the code depends on them, but the history says which records have been freed. -/
@[ext] structure State where
  threads : Table maxThreadNum Thread
  sleepingThreads : List Int
  minHeapId : List Int
  readyThreads : List Int
  timer : Itimerval
  totalQuantom : Int
  quantomLen : Int
  currThreadId : Int
  cerr : List String
  freed : Bool
  nextToken : Nat
  history : List JmpEvent

/-- The static initial values. -/
def boot : State where
  threads := Table.empty maxThreadNum Thread
  sleepingThreads := []
  minHeapId := []
  readyThreads := []
  timer := ⟨0, 0, 0, 0⟩
  totalQuantom := 0
  quantomLen := 0
  currThreadId := 0
  cerr := []
  freed := false
  nextToken := 1
  history := []

/-! ## §5. Assignments. -/

namespace State

variable (s : State)

@[simps] def setThread (tid : Int) (v : Option Thread) : State :=
  { s with threads := s.threads.set tid v }

@[simps] def setSleeping (l : List Int) : State := { s with sleepingThreads := l }

@[simps] def setHeap (l : List Int) : State := { s with minHeapId := l }

@[simps] def setReady (l : List Int) : State := { s with readyThreads := l }

@[simps] def setTimer (t : Itimerval) : State := { s with timer := t }

@[simps] def setTotal (n : Int) : State := { s with totalQuantom := n }

@[simps] def setLen (n : Int) : State := { s with quantomLen := n }

@[simps] def setCurr (tid : Int) : State := { s with currThreadId := tid }

@[simps] def print (line : String) : State := { s with cerr := s.cerr ++ [line] }

@[simps] def setFreed : State := { s with freed := true }

/-- Draw the next token. -/
@[simps] def drawToken : State := { s with nextToken := s.nextToken + 1 }

/-- Add an event to the history. -/
@[simps] def record (ev : JmpEvent) : State := { s with history := s.history ++ [ev] }

end State

/-! ## §6. Platform. -/

/-- The iteration order of `std::unordered_set`: some listing of the members,
chosen anew for every pass (one pass a quantum, so the quantum number names
the pass). -/
structure IterOrder where
  enum : Int → List Int → List Int
  perm : ∀ q l, (enum q l).Perm l

/-- Iterate in the order of the listing. -/
def IterOrder.listing : IterOrder where
  enum := fun _ l => l
  perm := fun _ l => List.Perm.refl l

/-- What the two `malloc` calls of one `uthread_spawn` return: the address of
the stack, and whether there is a record. -/
structure Malloc where
  stack : Option Nat
  thread : Bool
  deriving DecidableEq, Repr

/-- Memory allocation succeeds. -/
def Malloc.Succeeds (mem : Malloc) : Prop := mem.stack.isSome ∧ mem.thread = true

theorem Malloc.Succeeds.eq {mem : Malloc} (h : mem.Succeeds) :
    ∃ newStack, mem = ⟨some newStack, true⟩ := by
  obtain ⟨stack, thread⟩ := mem
  obtain ⟨hstack, hthread⟩ := h
  obtain ⟨newStack, hnew⟩ := Option.isSome_iff_exists.mp hstack
  exact ⟨newStack, congrArg₂ Malloc.mk hnew hthread⟩

/-- Undefined behaviour of the C++ code. -/
inductive Fault where
  /-- dereference of `threads[i]` with a null or no entry at `i` -/
  | nullThread
  /-- dereference of a record that has been freed -/
  | freedThread
  /-- `front()` or `pop()` of an empty queue -/
  | emptyQueue
  /-- `top()` or `pop()` of an empty heap -/
  | emptyHeap
  /-- `erase(end())` -/
  | eraseEnd
  deriving DecidableEq, Repr

/-- How the process stops. -/
inductive Stop where
  | exit (code : Int)
  | fault (f : Fault)
  deriving DecidableEq, Repr

end UThreads
