/-
  UThreads.Effects.Switch
  ───────────────────────
  **GIVING UP THE CPU.**

  The timer handler, a self-block, `uthread_sleep` and a self-termination all
  end in `set_ready_to_run`.  Each is executed here up to the point where the
  queue's front is read; `Suspends s t e p` says that event `e` brings the
  running thread (record `t`) from state `s` to state `p` at that point.
-/
import UThreads.Effects.Calls

namespace UThreads

open Interruptible

/-! ## §1. The states in which the queue's front is read. -/

/-- `sigsetjmp` on the running thread, whose record ends up as `t`. -/
def State.saveCurrent (s : State) (t : Thread) (site : JmpSite) : State :=
  ((s.setThread s.currThreadId (some t)).drawToken).record
    (.saved s.currThreadId s.nextToken site)

/-- After a tick: the running thread is at the tail of the queue. -/
def State.suspendTick (s : State) (t : Thread) (m : SigSet) : State :=
  (s.saveCurrent { t.save s.nextToken .timerHandler m with state := .ready } .timerHandler).setReady
    (s.readyThreads ++ [s.currThreadId])

/-- After a self-block. -/
def State.suspendBlock (s : State) (t : Thread) : State :=
  s.saveCurrent { t.save s.nextToken .uthreadBlock signalSet with state := .blocked } .uthreadBlock

/-- After `uthread_sleep(num_quantums)`. -/
def State.suspendSleep (s : State) (t : Thread) (numQuantums : Int) : State :=
  (s.saveCurrent { t.save s.nextToken .uthreadSleep signalSet with
      sleepingTime := numQuantums, state := .sleeping } .uthreadSleep).setSleeping
    (s.sleepingThreads.insert s.currThreadId)

/-- After a self-termination. -/
def State.suspendTerminate (s : State) (t : Thread) : State :=
  (s.retire s.currThreadId t).setCurr runningTerminated

/-- Event `e` suspends the running thread: `p` is the state in which
`set_ready_to_run` reads the queue's front. -/
inductive Suspends (s : State) (t : Thread) : Event → State → Prop where
  | tick (mask : SigSet) :
      Suspends s t (.tick mask) (s.suspendTick t (insert sigvtalrm mask))
  | block (h0 : s.currThreadId ≠ 0) :
      Suspends s t (.call (.block s.currThreadId)) (s.suspendBlock t)
  | sleep (h0 : s.currThreadId ≠ 0) (numQuantums : Int) :
      Suspends s t (.call (.sleep numQuantums)) (s.suspendSleep t numQuantums)
  | terminate (h0 : s.currThreadId ≠ 0) :
      Suspends s t (.call (.terminate s.currThreadId)) (s.suspendTerminate t)

/-! ## §2. The first `if` of `set_ready_to_run`. -/

variable {s : State} {t : Thread} (m : SigSet)

/-- No live thread has the id that stands for a terminated one. -/
theorem ne_runningTerminated {tid : Int} (h : s.threads.get tid = some t) :
    tid ≠ runningTerminated := by
  have hr := (Table.inRange_of_get h).1
  unfold runningTerminated
  omega

/-- A RUNNING thread becomes READY and goes to the end of the queue. -/
theorem exec_requeueCurrent_running (hf : s.freed = false)
    (h : s.threads.get s.currThreadId = some t) (hst : t.state = .running) :
    requeueCurrent.exec s m
      = .ret () ((s.setReady (s.readyThreads ++ [s.currThreadId])).setThread s.currThreadId
          (some { t with state := .ready })) m := by
  have hload : (s.setReady (s.readyThreads ++ [s.currThreadId])).load s.currThreadId = .ok t :=
    load_of_get hf h
  have hne := ne_runningTerminated h
  simp only [requeueCurrent, exec_bind, exec_read, Outcome.andThen_ret, ne_eq, hne,
    not_false_eq_true, if_true, exec_deref _ (load_of_get hf h), hst, exec_pushReady,
    exec_setState _ _ hload]

/-- A thread that has already been BLOCKED or put to sleep stays out of it. -/
theorem exec_requeueCurrent_suspended (hf : s.freed = false)
    (h : s.threads.get s.currThreadId = some t) (hst : t.state ≠ .running) :
    requeueCurrent.exec s m = .ret () s m := by
  have hne := ne_runningTerminated h
  simp only [requeueCurrent, exec_bind, exec_read, Outcome.andThen_ret, ne_eq, hne,
    not_false_eq_true, if_true, exec_deref _ (load_of_get hf h), hst, if_false, exec_pure]

/-- For a terminated thread there is nothing to do. -/
theorem exec_requeueCurrent_terminated (h : s.currThreadId = runningTerminated) :
    requeueCurrent.exec s m = .ret () s m := by
  simp only [requeueCurrent, exec_bind, exec_read, Outcome.andThen_ret, ne_eq, h, not_true_eq_false,
    if_false, exec_pure]

/-! ## §3. What the calls write before the first `if`. -/

/-- The record is written twice by a self-block: the new state, then the
environment. -/
theorem suspendBlock_eq (s : State) (t : Thread) :
    (((s.setThread s.currThreadId (some { t with state := .blocked })).setThread
      s.currThreadId (some (Thread.save { t with state := .blocked } s.nextToken .uthreadBlock
        signalSet))).drawToken).record (.saved s.currThreadId s.nextToken .uthreadBlock)
      = s.suspendBlock t := by
  apply State.ext <;> try rfl
  exact Table.set_set s.threads s.currThreadId _ _

/-- Three times by `uthread_sleep`: the environment, then the countdown and the
state. -/
theorem suspendSleep_eq (s : State) (t : Thread) (n : Int) :
    (((s.saveCurrent (t.save s.nextToken .uthreadSleep signalSet) .uthreadSleep).setThread
        s.currThreadId
          (some { t.save s.nextToken .uthreadSleep signalSet with sleepingTime := n })).setThread
        s.currThreadId (some { t.save s.nextToken .uthreadSleep signalSet with
          sleepingTime := n, state := .sleeping })).setSleeping
      (s.sleepingThreads.insert s.currThreadId)
      = s.suspendSleep t n := by
  apply State.ext <;> try rfl
  show ((Table.set _ _ _).set _ _).set _ _ = s.threads.set _ _
  rw [Table.set_set, Table.set_set]

/-- The statements of the self-termination, in the source's order. -/
theorem suspendTerminate_eq (s : State) (t : Thread) :
    (((s.setThread s.currThreadId none).record
      (.terminated s.currThreadId t.quantum)).setHeap
        (s.minHeapId.orderedInsert (· ≤ ·) s.currThreadId)).setCurr runningTerminated
      = s.suspendTerminate t := rfl

/-- A blocked thread does not go back to the queue, nor does a sleeper, nor a
thread that is gone. -/
theorem exec_requeueCurrent_suspendBlock (hf : s.freed = false)
    (h : s.threads.get s.currThreadId = some t) :
    requeueCurrent.exec (s.suspendBlock t) m = .ret () (s.suspendBlock t) m :=
  exec_requeueCurrent_suspended m hf
    (Table.get_set_self s.threads (Table.inRange_of_get h) _) (by simp)

/-- The sleeper is SLEEPING already: the first `if` passes it over. -/
theorem exec_requeueCurrent_suspendSleep (n : Int) (hf : s.freed = false)
    (h : s.threads.get s.currThreadId = some t) :
    requeueCurrent.exec (s.suspendSleep t n) m = .ret () (s.suspendSleep t n) m :=
  exec_requeueCurrent_suspended m hf
    (Table.get_set_self s.threads (Table.inRange_of_get h) _) (by simp)

/-- `curr_thread_id` is `RUNNING_TERMINATED` by then. -/
theorem exec_requeueCurrent_suspendTerminate :
    requeueCurrent.exec (s.suspendTerminate t) m = .ret () (s.suspendTerminate t) m :=
  exec_requeueCurrent_terminated m rfl

/-- After the `sigsetjmp` of the handler the first `if` requeues the thread. -/
theorem exec_requeueCurrent_suspendTick (hf : s.freed = false)
    (h : s.threads.get s.currThreadId = some t) (hst : t.state = .running) :
    requeueCurrent.exec (s.saveCurrent (t.save s.nextToken .timerHandler m) .timerHandler) m
      = .ret () (s.suspendTick t m) m := by
  have hget : (s.saveCurrent (t.save s.nextToken .timerHandler m) .timerHandler).threads.get
      s.currThreadId = some (t.save s.nextToken .timerHandler m) :=
    Table.get_set_self s.threads (Table.inRange_of_get h) _
  rw [exec_requeueCurrent_running
    (s := s.saveCurrent (t.save s.nextToken .timerHandler m) .timerHandler) m hf hget hst]
  congr 1
  apply State.ext <;> try rfl
  exact Table.set_set s.threads s.currThreadId _ _

/-- `uthread_sleep` writes to the record it has just saved. -/
theorem load_saveCurrent (hf : s.freed = false) (h : s.threads.get s.currThreadId = some t)
    (u : Thread) (site : JmpSite) : (s.saveCurrent u site).load s.currThreadId = .ok u :=
  load_setThread hf h

/-- The record can be read after a save and a write. -/
theorem load_saveCurrent_set (hf : s.freed = false) (h : s.threads.get s.currThreadId = some t)
    (u v : Thread) (site : JmpSite) :
    ((s.saveCurrent u site).setThread s.currThreadId (some v)).load s.currThreadId = .ok v :=
  load_setThread (s := s.saveCurrent u site) hf
    (Table.get_set_self s.threads (Table.inRange_of_get h) _)

/-! ## §4. The four ways to the dispatch. -/

/-- **The handler up to the read of the front.** -/
theorem exec_timerHandler (order : IterOrder) (hf : s.freed = false)
    (h : s.threads.get s.currThreadId = some t) (hst : t.state = .running) :
    (timerHandler order).exec s m = (dispatchFront order).exec (s.suspendTick t m) m := by
  rw [timerHandler, exec_bind, exec_read, Outcome.andThen_ret, exec_bind,
      exec_sigsetjmp m _ (load_of_get hf h), Outcome.andThen_ret, if_pos rfl, setReadyToRun,
      exec_bind]
  show (requeueCurrent.exec (s.saveCurrent (t.save s.nextToken .timerHandler m) .timerHandler)
    m).andThen _ = _
  rw [exec_requeueCurrent_suspendTick m hf h hst, Outcome.andThen_ret]

/-- A call that suspends its caller has nothing to do after the dispatch but
to unmask the timer and return, when the caller resumes. -/
def finish : Unit → State → SigSet → Outcome State SigSet Stop Int :=
  fun _ s m => .ret successReturnValue s (m \ signalSet)

/-- **A thread that blocks itself**, up to the read of the front; the rest is executed
when it is resumed. -/
theorem exec_uthreadBlock_self (order : IterOrder) (hf : s.freed = false)
    (h0 : s.currThreadId ≠ 0) (h : s.threads.get s.currThreadId = some t)
    (hst : t.state = .running) :
    (uthreadBlock order s.currThreadId).exec s m
      = ((dispatchFront order).exec (s.suspendBlock t) signalSet).andThen finish := by
  have hload : (s.setThread s.currThreadId (some { t with state := .blocked })).load s.currThreadId
      = .ok { t with state := .blocked } := load_setThread hf h
  have hrequeue := exec_requeueCurrent_suspendBlock signalSet hf h
  simp only [uthreadBlock, exec_bind, exec_maskTimer, Outcome.andThen_ret, exec_legalId_live _ h0 h,
    Bool.true_eq_false, if_false, exec_deref _ (load_of_get hf h), hst, reduceCtorEq, if_true,
    exec_setState _ _ (load_of_get hf h), exec_read, State.setThread_currThreadId,
    State.setThread_nextToken, exec_sigsetjmp _ _ hload, setReadyToRun, suspendBlock_eq, hrequeue]
  rfl

/-- The main thread is refused, with a message. -/
theorem exec_uthreadSleep_main (order : IterOrder) (n : Int) (h0 : s.currThreadId = 0) :
    (uthreadSleep order n).exec s m
      = .ret failureReturnValue (s.print (libraryErrorPrefix ++ sleepMtErrorMsg))
          (signalSet \ signalSet) := by
  simp only [uthreadSleep, exec_bind, exec_maskTimer, Outcome.andThen_ret, exec_read, h0, if_true,
    exec_report, exec_unmaskTimer, exec_pure]

/-- **A thread that goes to sleep**, up to the read of the front. -/
theorem exec_uthreadSleep (order : IterOrder) (n : Int) (hf : s.freed = false)
    (h0 : s.currThreadId ≠ 0) (h : s.threads.get s.currThreadId = some t) :
    (uthreadSleep order n).exec s m
      = ((dispatchFront order).exec (s.suspendSleep t n) signalSet).andThen finish := by
  have hsave : ((s.setThread s.currThreadId (some (t.save s.nextToken .uthreadSleep signalSet))).drawToken).record
      (.saved s.currThreadId s.nextToken .uthreadSleep)
      = s.saveCurrent (t.save s.nextToken .uthreadSleep signalSet) .uthreadSleep := rfl
  have hsleeping : (s.saveCurrent (t.save s.nextToken .uthreadSleep signalSet)
      .uthreadSleep).sleepingThreads = s.sleepingThreads := rfl
  have hrequeue := exec_requeueCurrent_suspendSleep signalSet n hf h
  simp only [uthreadSleep, exec_bind, exec_maskTimer, Outcome.andThen_ret, exec_read, h0, if_false,
    exec_sigsetjmp _ _ (load_of_get hf h), if_true, hsave,
    exec_update _ _ (load_saveCurrent hf h _ _), exec_setState _ _ (load_saveCurrent_set hf h _ _ _),
    exec_insertSleeping, setReadyToRun, State.setThread_sleepingThreads, hsleeping,
    suspendSleep_eq, hrequeue]
  rfl

/-- **A thread that terminates itself**, up to the read of the front. -/
theorem exec_uthreadTerminate_self (order : IterOrder) (hf : s.freed = false)
    (h0 : s.currThreadId ≠ 0) (h : s.threads.get s.currThreadId = some t)
    (hst : t.state = .running) :
    (uthreadTerminate order s.currThreadId).exec s m
      = ((dispatchFront order).exec (s.suspendTerminate t) signalSet).andThen finish := by
  simp only [uthreadTerminate, exec_bind, exec_maskTimer, Outcome.andThen_ret, exec_unknownTid_live _ h,
    Bool.false_eq_true, if_false, h0, exec_deref _ (load_of_get hf h), hst,
    reduceCtorEq, or_self, if_true, exec_removeThread _ (load_of_get hf h), exec_pushHeap,
    exec_modify, setReadyToRun, State.record_minHeapId, State.setThread_minHeapId,
    suspendTerminate_eq, exec_requeueCurrent_suspendTerminate]
  rfl

end UThreads
