/-
  UThreads.Model.Memory
  ─────────────────────
  **THE LIBRARY WITH ITS ALLOCATIONS** (`uthreads.cpp`: every `malloc`, `calloc`
  and `free`).

  The model of the API takes the results of the allocator as inputs and keeps
  the records inside the table.  Here the process also has a heap and the
  table holds the addresses of the records: `free_threads`, `uthread_init`,
  `uthread_spawn` and `uthread_terminate` are written again with each
  allocation and each release a statement of its own, and their uses of a
  record check that it is still there.  No other function of the library
  allocates or frees; its code runs as it is (`plain`), the heap unchanged.

  The stacks are blocks of the heap as well, and a thread can free the one that it
  runs on.  `onStack` is code that notices: before each of its statements it checks
  that the stack it runs on is still allocated.

  The containers of the C++ library allocate for themselves: their memory is
  not modelled.
-/
import UThreads.Model.System
import UThreads.Lib.Guard
import UThreads.Lib.Zoom
import UThreads.Lib.Heap

namespace UThreads

open Interruptible Runs Allocation

/-! ## §1. The memory of the process. -/

/-- `sizeof(Thread)` on a 64-bit machine. -/
def sizeofThread : Nat := 232

/-- The heap, and the addresses that `threads` holds. -/
structure Memory where
  heap : Heap
  pointers : Table maxThreadNum Nat

/-- How the process stops. -/
inductive Trap where
  /-- `exit(code)`, and what is still allocated then -/
  | exit (code : Int) (leaked : List Block)
  /-- undefined behaviour, as in the model without a heap -/
  | fault (f : Fault)
  /-- `free` of an address at which no live block starts -/
  | badFree (address : Nat)
  /-- use of a record that has been freed -/
  | dangling (address : Nat)
  /-- a statement of code whose own stack has been freed -/
  | freedStack
  /-- the allocator's answer is not a block that it may hand out -/
  | badAnswer (address : Nat)
  deriving DecidableEq

/-- A stop of code that does not touch the heap. -/
def Trap.of (mem : Memory) : Stop → Trap
  | .exit code => .exit code mem.heap.live
  | .fault f   => .fault f

/-- The stop of the model without a heap, where there is one. -/
def Trap.erased : Trap → Option Stop
  | .exit code _ => some (.exit code)
  | .fault f     => some (.fault f)
  | _            => none

/-- Code of the library, with the heap. -/
abbrev MemLib := Prog (State × Memory) SigSet Trap Access

namespace Memory

/-- Code that does not touch the heap. -/
abbrev plain {α : Type} (p : Lib α) : MemLib α := p.zoom Trap.of

/-! ## §2. Statements. -/

def setHeap (mem : Memory) (heap : Heap) : Memory := { mem with heap := heap }

/-- `malloc(size)`, with the allocator's answer: an address, or none. -/
def malloc (answer : Option Nat) (size : Nat) : MemLib (Option Nat) :=
  .stmt .other (fun x => match answer with
    | none         => .ok (none, x)
    | some address => match x.2.heap.alloc ⟨address, size⟩ with
      | some heap => .ok (some address, (x.1, x.2.setHeap heap))
      | none      => .error (.badAnswer address)) .ret

/-- `free(pointer)`: nothing for the null pointer. -/
def free (pointer : Option Nat) : MemLib Unit :=
  .stmt .other (fun x => match pointer with
    | none         => .ok ((), x)
    | some address => match x.2.heap.free address with
      | some heap => .ok ((), (x.1, x.2.setHeap heap))
      | none      => .error (.badFree address)) .ret

/-- The pointer `threads[tid]`. -/
def entry (tid : Int) : MemLib (Option Nat) :=
  .stmt .shared (fun x => .ok (x.2.pointers.get tid, x)) .ret

/-- The record that `threads[tid]` points to has not been freed. -/
def checkLive (tid : Int) : MemLib Unit :=
  .stmt .shared (fun x => match x.2.pointers.get tid with
    | none         => .ok ((), x)
    | some address =>
        if ⟨address, sizeofThread⟩ ∈ x.2.heap.live then .ok ((), x)
        else .error (.dangling address)) .ret

/-- `*threads[tid]`. -/
def deref (tid : Int) : MemLib Thread := do
  checkLive tid
  plain (UThreads.deref tid)

/-- Write fields of `*threads[tid]`. -/
def update (tid : Int) (f : Thread → Thread) : MemLib Unit := do
  checkLive tid
  plain (UThreads.update tid f)

/-- `threads[tid] = pointer`, for a record that has been filled in. -/
def putThread (tid : Int) (t : Thread) (pointer : Nat) (note : State → State) : MemLib Unit :=
  .stmt .shared (fun x => .ok ((), (note (x.1.setThread tid (some t)),
    { x.2 with pointers := x.2.pointers.set tid (some pointer) }))) .ret

/-- `threads[tid] = nullptr`; the history keeps the quantum that the record had. -/
def clearThread (tid : Int) (quantum : Int) : MemLib Unit :=
  .stmt .shared (fun x => .ok ((), ((x.1.setThread tid none).record (.terminated tid quantum),
    { x.2 with pointers := x.2.pointers.set tid none }))) .ret

/-! ## §3. Start and end of the process. -/

/-- The loop of `free_threads`. -/
def freeLoop : List Nat → MemLib Unit
  | []      => pure ()
  | i :: is => do
      if (← entry i).isSome then
        let stack := (← deref i).stack
        if stack.isSome then
          free stack
      -- also for a null entry
      free (← entry i)
      freeLoop is

/-- `free_threads`.  The table is not cleared: its pointers dangle from here on, as the
mark at the end says.  The stack of the caller is freed on the way, unless it is the
main thread, and the loop goes on. -/
def freeThreads : MemLib Unit := do
  freeLoop (List.range maxThreadNum)
  plain markFreed

/-- `uthread_init`; `answer` is the address that `calloc` returns. -/
def uthreadInit (answer : Option Nat) (quantumUsecs : Int) : MemLib Int := do
  if quantumUsecs ≤ 0 then
    plain (report libraryErrorPrefix quantumErrorMsg)
    return failureReturnValue
  match ← malloc answer sizeofThread with
  | none =>
      plain (report systemErrorPrefix memoryErrorMsg)
      freeThreads
      plain (exit 1)
  | some pointer =>
      plain (modify .other (fun s => s.setLen quantumUsecs))
      plain (modify .other (fun s => s.setTotal 1))
      plain initMinHeapId
      let minId ← plain getMinAvailableId
      -- `calloc` zeroes the stack pointer and the environment
      let mainThread : Thread :=
        { id := minId.toNat
          state := .running
          stack := none
          quantum := 1
          env := ⟨0, .unset, none, ∅⟩
          sleepingTime := notSleeping }
      putThread 0 mainThread pointer id
      plain (modify .shared (fun s => s.setCurr 0))
      plain initTimer
      return successReturnValue

/-! ## §4. Spawning. -/

/-- `uthread_spawn`; `mem` says what the two allocations return, `record` is
the address of the second where it succeeds. -/
def uthreadSpawn (mem : Malloc) (record : Nat) (entryPoint : Option Nat) : MemLib Int := do
  plain maskTimer
  match entryPoint with
  | none =>
      plain (report libraryErrorPrefix entryPointErrorMsg)
      plain unmaskTimer
      return failureReturnValue
  | some entryPoint =>
      let newId ← plain getMinAvailableId
      if newId = fullThreads then
        plain (report libraryErrorPrefix fullThreadsErrorMsg)
        plain unmaskTimer
        return failureReturnValue
      match ← malloc mem.stack stackSize with
      | none =>
          plain (report systemErrorPrefix memoryErrorMsg)
          freeThreads
          plain unmaskTimer
          plain (exit 1)
      | some newStack =>
          match ← malloc (if mem.thread then some record else none) sizeofThread with
          | none =>
              -- the table does not know the new stack: `free_threads` would miss it
              free (some newStack)
              plain (report systemErrorPrefix memoryErrorMsg)
              freeThreads
              plain unmaskTimer
              plain (exit 1)
          | some newThread =>
              let token ← plain freshToken
              putThread newId (setNewThread entryPoint newId newStack token) newThread
                (fun s => s.record (.spawned newId token entryPoint))
              plain (pushReady newId)
              plain unmaskTimer
              return newId

/-! ## §5. Terminating. -/

/-- `free(threads[tid]->stack); threads[tid]->stack = nullptr;
free(threads[tid]); threads[tid] = nullptr`. -/
def removeThread (tid : Int) : MemLib Unit := do
  let target ← deref tid
  free target.stack
  update tid (fun t => { t with stack := none })
  free (← entry tid)
  clearThread tid target.quantum

/-- `uthread_terminate`. -/
def uthreadTerminate (order : IterOrder) (tid : Int) : MemLib Int := do
  plain maskTimer
  if (← plain (unknownTid tid)) = true then
    plain (report libraryErrorPrefix invalidTidErrorMsg)
    plain unmaskTimer
    return failureReturnValue
  if tid = 0 then
    freeThreads
    plain unmaskTimer
    plain (exit 0)
  let target ← deref tid
  if target.state = .ready ∨ target.state = .blocked then
    removeThread tid
    plain (pushHeap tid)
    plain (removeTidFromReadyQueue tid)
    plain unmaskTimer
    return successReturnValue
  if (← deref tid).state = .sleeping then
    plain (eraseSleeping tid)
    removeThread tid
    plain (pushHeap tid)
    plain unmaskTimer
    return successReturnValue
  if (← deref tid).state = .running then
    -- the stack that is freed here is the one this code runs on
    removeThread tid
    plain (pushHeap tid)
    plain (modify .shared (fun s => s.setCurr runningTerminated))
    plain (setReadyToRun order)
  plain unmaskTimer
  return successReturnValue

/-! ## §6. Runs. -/

/-- The code of a call. -/
def prog (order : IterOrder) (record : Nat) : Call → MemLib Int
  | .spawn mem entryPoint => uthreadSpawn mem record entryPoint
  | .terminate tid        => uthreadTerminate order tid
  | c                     => plain (c.prog order)

/-- One event, with the address of the record that it allocates, if it does. -/
def step (order : IterOrder) (x : State × Memory) (e : Event × Nat) : Option (State × Memory) :=
  match e.1 with
  | .call c    => settle ((prog order e.2 c).exec x ∅)
  | .tick mask => settle ((plain (timerHandler order)).exec x (insert sigvtalrm mask))

/-- How an event stops the process, if it does. -/
def stop (order : IterOrder) (x : State × Memory) (e : Event × Nat) : Option Trap :=
  match e.1 with
  | .call c    => ((prog order e.2 c).exec x ∅).stopped
  | .tick mask => ((plain (timerHandler order)).exec x (insert sigvtalrm mask)).stopped

/-- The stack that the running thread has of its own; the main thread runs on the one
of the process. -/
def runningStack (s : State) : Option Nat := (s.threads.get s.currThreadId).bind Thread.stack

/-- The stack is still allocated; that of the process always is. -/
def StackLive (stack : Option Nat) (x : State × Memory) : Prop :=
  ∀ base ∈ stack, ⟨base, stackSize⟩ ∈ x.2.heap.live

instance (stack : Option Nat) : DecidablePred (StackLive stack) :=
  fun x => inferInstanceAs (Decidable (∀ base ∈ stack, ⟨base, stackSize⟩ ∈ x.2.heap.live))

/-- Code that runs on a stack: where that is not allocated any more, no statement can
be executed. -/
def onStack {α : Type} (stack : Option Nat) (p : MemLib α) : MemLib α :=
  p.guard (StackLive stack) .freedStack

/-- One event, on the stack of the thread that runs. -/
def safeStep (order : IterOrder) (x : State × Memory) (e : Event × Nat) :
    Option (State × Memory) :=
  match e.1 with
  | .call c    => settle ((onStack (runningStack x.1) (prog order e.2 c)).exec x ∅)
  | .tick mask =>
      settle ((onStack (runningStack x.1) (plain (timerHandler order))).exec x
        (insert sigvtalrm mask))

/-- How it stops the process, if it does. -/
def safeStop (order : IterOrder) (x : State × Memory) (e : Event × Nat) : Option Trap :=
  match e.1 with
  | .call c    => ((onStack (runningStack x.1) (prog order e.2 c)).exec x ∅).stopped
  | .tick mask =>
      ((onStack (runningStack x.1) (plain (timerHandler order))).exec x
        (insert sigvtalrm mask)).stopped

/-- The statements of one event, each with the state and the memory it starts from. -/
def visits (order : IterOrder) (x : State × Memory) (e : Event × Nat) :
    List (Access × (State × Memory)) :=
  match e.1 with
  | .call c    => (prog order e.2 c).visits x ∅
  | .tick mask => (plain (timerHandler order)).visits x (insert sigvtalrm mask)

/-- The memory before `uthread_init`. -/
def empty : Memory := ⟨Heap.empty, Table.empty maxThreadNum Nat⟩

/-- What a successful `uthread_init` leaves. -/
def Initial (x : State × Memory) : Prop :=
  ∃ answer quantumUsecs mask mask',
    (uthreadInit answer quantumUsecs).exec (boot, empty) mask = .ret successReturnValue x mask'

/-- A state and a memory in which user code runs. -/
def Reachable (order : IterOrder) (x : State × Memory) : Prop :=
  ∃ x₀ es, Initial x₀ ∧ run (step order) x₀ es = some x

end Memory

end UThreads
