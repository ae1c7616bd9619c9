/-
  UThreads.Model.Api
  ──────────────────
  **THE LIBRARY CALLS** (`uthreads.cpp`, lines 373-733).

  The calls to `sigprocmask`, `sigemptyset`, `sigaction` and `setitimer` get
  valid arguments and are taken to succeed; the results of the allocator are
  inputs.
-/
import UThreads.Model.Scheduler

namespace UThreads

open Interruptible

/-! ## §1. Start and end of the process. -/

/-- What `free_threads` leaves of the scheduler: every record is gone, and the table
still points to them.  The function itself, one `free` after the other, is
`Memory.freeThreads`; it also frees the stack of its caller. -/
def markFreed : Lib Unit := modify .shared (fun s => s.setFreed)

/-- `uthread_init`; `calloc` says whether the main thread's record could be
allocated. -/
def uthreadInit (calloc : Bool) (quantumUsecs : Int) : Lib Int := do
  if quantumUsecs ≤ 0 then
    report libraryErrorPrefix quantumErrorMsg
    return failureReturnValue
  if calloc = false then
    report systemErrorPrefix memoryErrorMsg
    markFreed
    exit 1
  modify .other (fun s => s.setLen quantumUsecs)
  modify .other (fun s => s.setTotal 1)
  initMinHeapId
  -- always 0, the id of the main thread
  let minId ← getMinAvailableId
  -- `calloc` zeroes the stack pointer and the environment
  let mainThread : Thread :=
    { id := minId.toNat
      state := .running
      stack := none
      quantum := 1
      env := ⟨0, .unset, none, ∅⟩
      sleepingTime := notSleeping }
  modify .shared (fun s => s.setThread 0 (some mainThread))
  modify .shared (fun s => s.setCurr 0)
  initTimer
  return successReturnValue

/-! ## §2. Spawning. -/

/-- `set_new_thread`: the record of a new thread.  `token` numbers its
`sigsetjmp`, whose program counter, stack pointer and mask are overwritten. -/
def setNewThread (entryPoint : Nat) (newId : Int) (newStack token : Nat) : Thread :=
  { id := newId.toNat
    state := .ready
    sleepingTime := notSleeping
    stack := some newStack
    quantum := 0
    env := ⟨token, .entry entryPoint, some (newStack + stackSize - sizeofAddress), ∅⟩ }

/-- The `sigsetjmp` of `set_new_thread`. -/
def freshToken : Lib Nat :=
  .stmt .other (fun s => .ok (s.nextToken, s.drawToken)) .ret

/-- `uthread_spawn`; `entryPoint` is `none` for the null pointer. -/
def uthreadSpawn (mem : Malloc) (entryPoint : Option Nat) : Lib Int := do
  maskTimer
  match entryPoint with
  -- a null entry point is refused before an id is taken
  | none =>
      report libraryErrorPrefix entryPointErrorMsg
      unmaskTimer
      return failureReturnValue
  | some entryPoint =>
      let newId ← getMinAvailableId
      if newId = fullThreads then
        report libraryErrorPrefix fullThreadsErrorMsg
        unmaskTimer
        return failureReturnValue
      -- from here on `newId` has left the heap: a failed allocation ends the process
      match mem.stack with
      | none =>
          report systemErrorPrefix memoryErrorMsg
          markFreed
          unmaskTimer
          exit 1
      | some newStack =>
          if mem.thread = false then
            report systemErrorPrefix memoryErrorMsg
            markFreed
            unmaskTimer
            exit 1
          let token ← freshToken
          -- only now does the table know the thread
          putThread newId (setNewThread entryPoint newId newStack token) entryPoint
          pushReady newId
          unmaskTimer
          return newId

/-! ## §3. Terminating. -/

/-- `tid >= MAX_THREAD_NUM || tid < 0 || threads[tid] == nullptr`. -/
def unknownTid (tid : Int) : Lib Bool :=
  if tid ≥ maxThreadNum ∨ tid < 0 then pure true
  else read .shared (fun s => (s.threads.get tid).isNone)

/-- `lower && tid < MAX_THREAD_NUM && threads[tid] != nullptr`, where `lower`
is the caller's lower bound on `tid`. -/
def legalId (lower : Bool) (tid : Int) : Lib Bool :=
  if lower ∧ tid < maxThreadNum then read .shared (fun s => (s.threads.get tid).isSome)
  else pure false

/-- `uthread_terminate`. -/
def uthreadTerminate (order : IterOrder) (tid : Int) : Lib Int := do
  maskTimer
  if (← unknownTid tid) = true then
    report libraryErrorPrefix invalidTidErrorMsg
    unmaskTimer
    return failureReturnValue
  -- the main thread ends the process
  if tid = 0 then
    markFreed
    unmaskTimer
    exit 0
  let target ← deref tid
  -- `sleeping_threads` is left alone here, also for a blocked sleeper
  if target.state = .ready ∨ target.state = .blocked then
    removeThread tid
    pushHeap tid
    -- relevant for a ready thread only
    removeTidFromReadyQueue tid
    unmaskTimer
    return successReturnValue
  if (← deref tid).state = .sleeping then
    eraseSleeping tid
    removeThread tid
    pushHeap tid
    unmaskTimer
    return successReturnValue
  if (← deref tid).state = .running then
    removeThread tid
    pushHeap tid
    -- nothing is saved: the thread is not requeued and never jumped back to
    modify .shared (fun s => s.setCurr runningTerminated)
    setReadyToRun order
  unmaskTimer
  return successReturnValue

/-! ## §4. Blocking and resuming. -/

/-- `uthread_block`. -/
def uthreadBlock (order : IterOrder) (tid : Int) : Lib Int := do
  maskTimer
  if (← legalId (0 < tid) tid) = false then
    report libraryErrorPrefix invalidTidErrorMsg
    unmaskTimer
    return failureReturnValue
  if (← deref tid).state = .blocked then
    unmaskTimer
    return successReturnValue
  -- a blocked sleeper stays in `sleeping_threads` and keeps counting down
  if (← deref tid).state = .sleeping then
    setState tid .blocked
    unmaskTimer
    return successReturnValue
  if (← deref tid).state = .running then
    setState tid .blocked
    let curr ← read .shared (fun s => s.currThreadId)
    -- 0 at the bookmark; 1 when the thread is dispatched again
    let retVal ← sigsetjmp curr .uthreadBlock
    if retVal = 0 then
      setReadyToRun order
    unmaskTimer
    return successReturnValue
  if (← deref tid).state = .ready then
    removeTidFromReadyQueue tid
    setState tid .blocked
    unmaskTimer
    return successReturnValue
  unmaskTimer
  return successReturnValue

/-- `uthread_resume`. -/
def uthreadResume (tid : Int) : Lib Int := do
  maskTimer
  if (← legalId (0 < tid) tid) = false then
    report libraryErrorPrefix invalidTidErrorMsg
    unmaskTimer
    return failureReturnValue
  let target ← deref tid
  if target.state = .running ∨ target.state = .ready then
    unmaskTimer
    return successReturnValue
  if (← deref tid).state = .blocked then
    if (← deref tid).sleepingTime = notSleeping then
      setState tid .ready
      pushReady tid
    else
      -- a blocked sleeper goes on sleeping
      setState tid .sleeping
  unmaskTimer
  return successReturnValue

/-! ## §5. Sleeping. -/

/-- `uthread_sleep`. -/
def uthreadSleep (order : IterOrder) (numQuantums : Int) : Lib Int := do
  maskTimer
  if (← read .shared (fun s => s.currThreadId)) = 0 then
    report libraryErrorPrefix sleepMtErrorMsg
    unmaskTimer
    return failureReturnValue
  let curr ← read .shared (fun s => s.currThreadId)
  -- the bookmark is set while the thread still counts as running
  let retVal ← sigsetjmp curr .uthreadSleep
  if retVal = 0 then
    update curr (fun t => { t with sleepingTime := numQuantums })
    setState curr .sleeping
    insertSleeping curr
    setReadyToRun order
  unmaskTimer
  return successReturnValue

/-! ## §6. Getters. -/

/-- `uthread_get_tid`. -/
def uthreadGetTid : Lib Int := read .shared (fun s => s.currThreadId)

/-- `uthread_get_total_quantums`. -/
def uthreadGetTotalQuantums : Lib Int := read .other (fun s => s.totalQuantom)

/-- `uthread_get_quantums`: the timer is not masked, and `threads[tid]->quantum` loads
the pointer and then reads the field behind it. -/
def uthreadGetQuantums (tid : Int) : Lib Int := do
  if (← legalId (0 ≤ tid) tid) = true then
    let thread ← loadPtr tid
    return (← derefPtr thread).quantum
  return failureReturnValue

end UThreads
