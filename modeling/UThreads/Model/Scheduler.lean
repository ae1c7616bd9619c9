/-
  UThreads.Model.Scheduler
  ────────────────────────
  **THE SCHEDULER** (`uthreads.cpp`, lines 175-370): waking sleepers, the
  context switch, the timer handler and the removal from the ready queue.
-/
import UThreads.Model.Statements

namespace UThreads

open Interruptible

/-! ## §1. Identifiers. -/

/-- `init_min_heap_id`. -/
def initMinHeapId : Lib Unit := go (List.range maxThreadNum)
where
  go : List Nat → Lib Unit
    | []      => pure ()
    | i :: is => do
        pushHeap i
        go is

/-- `get_min_available_id`. -/
def getMinAvailableId : Lib Int := do
  if (← read .shared (fun s => s.minHeapId.isEmpty)) then
    return fullThreads
  let minId ← topHeap
  popHeap
  return minId

theorem exec_getMinAvailableId {s : State} {x : Int} {xs : List Int} (m : SigSet)
    (h : s.minHeapId = x :: xs) :
    getMinAvailableId.exec s m = .ret x (s.setHeap xs) m := by
  simp [getMinAvailableId, h, exec_topHeap m h, exec_popHeap m h]

theorem exec_getMinAvailableId_empty {s : State} (m : SigSet) (h : s.minHeapId = []) :
    getMinAvailableId.exec s m = .ret fullThreads s m := by
  simp [getMinAvailableId, h]

/-! ## §2. Waking sleepers. -/

/-- One iteration of the first loop of `wake_sleeping_threads`. -/
def wakeOne (index : Int) (toDelete : List Int) : Lib (List Int) := do
  update index (fun t => { t with sleepingTime := t.sleepingTime - 1 })
  if (← deref index).sleepingTime = 0 then
    update index (fun t => { t with sleepingTime := notSleeping })
    -- a blocked sleeper leaves the set too, but stays blocked
    if (← deref index).state = .sleeping then
      setState index .ready
      pushReady (← deref index).id
    return toDelete ++ [index]
  return toDelete

/-- The first loop of `wake_sleeping_threads`. -/
def wakeLoop : List Int → List Int → Lib (List Int)
  | [], toDelete => pure toDelete
  | index :: rest, toDelete => do wakeLoop rest (← wakeOne index toDelete)

/-- The second loop of `wake_sleeping_threads`. -/
def eraseLoop : List Int → Lib Unit
  | []            => pure ()
  | index :: rest => do
      eraseSleeping index
      eraseLoop rest

/-- `wake_sleeping_threads`. -/
def wakeSleepingThreads (order : IterOrder) : Lib Unit := do
  -- `to_delete` keeps the set unchanged while it is iterated over
  let members ← read .shared (fun s => order.enum s.totalQuantom s.sleepingThreads)
  let toDelete ← wakeLoop members []
  eraseLoop toDelete

/-! ## §3. The context switch. -/

/-- `init_timer`.  `sigaction` and `setitimer` get valid arguments and succeed. -/
def initTimer : Lib Unit :=
  modify .other (fun s =>
    s.setTimer ⟨s.quantomLen.tdiv second, s.quantomLen.tmod second,
                s.quantomLen.tdiv second, s.quantomLen.tmod second⟩)

/-- The first `if` of `set_ready_to_run`: a thread that is still running goes
to the tail of the queue. -/
def requeueCurrent : Lib Unit := do
  let curr ← read .shared (fun s => s.currThreadId)
  -- after a self-termination there is no record to look at
  if curr ≠ runningTerminated then
    if (← deref curr).state = .running then
      pushReady curr
      setState curr .ready

/-- `set_ready_to_run` from the read of the queue's front on. -/
def dispatchFront (order : IterOrder) : Lib Unit := do
  -- an empty queue would be undefined behaviour: the source does not check
  let next ← frontReady .front
  modify .shared (fun s => s.setCurr next)
  setState next .running
  popReady
  update next (fun t => { t with quantum := t.quantum + 1 })
  modify .other (fun s => s.setTotal (s.totalQuantom + 1))
  -- sleepers are woken behind the thread that is dispatched now
  wakeSleepingThreads order
  initTimer
  siglongjmp next

/-- `set_ready_to_run`. -/
def setReadyToRun (order : IterOrder) : Lib Unit := do
  requeueCurrent
  dispatchFront order

/-- `timer_handler`. -/
def timerHandler (order : IterOrder) : Lib Unit := do
  let curr ← read .shared (fun s => s.currThreadId)
  let retVal ← sigsetjmp curr .timerHandler
  -- on a jump back the handler returns to the interrupted code
  if retVal = 0 then
    setReadyToRun order

/-! ## §4. The ready queue. -/

/-- The loop of `remove_tid_from_ready_queue`, with its temporary queue: one
iteration for each element of the queue. -/
def removeLoop (tid : Int) : Nat → List Int → Lib (List Int)
  | 0, tempQueue => pure tempQueue
  | n + 1, tempQueue => do
      let front ← frontReady .shared
      popReady
      removeLoop tid n (if front ≠ tid then tempQueue ++ [front] else tempQueue)

/-- `remove_tid_from_ready_queue`. -/
def removeTidFromReadyQueue (tid : Int) : Lib Unit := do
  let size ← read .shared (fun s => s.readyThreads.length)
  let tempQueue ← removeLoop tid size []
  modify .shared (fun s => s.setReady tempQueue)

end UThreads
