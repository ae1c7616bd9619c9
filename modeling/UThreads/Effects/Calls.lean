/-
  UThreads.Effects.Calls
  ──────────────────────
  **WHAT EACH LIBRARY CALL DOES**, in closed form.

  One lemma for each branch of each call: under the branch's condition the
  call's execution is a named state change.  The calls that give up the CPU
  (and the timer handler) are executed up to the read of the queue's front:
  `suspendTick`, `suspendBlock`, `suspendSleep` and `suspendTerminate` are the
  states in which `set_ready_to_run` reads it.
-/
import UThreads.Effects.Dispatch

namespace UThreads

open Interruptible

/-! ## §1. The ready queue. -/

/-- The rotation of `remove_tid_from_ready_queue` goes once round the queue and
collects what is not `tid`, in order: by induction on the queue. -/
theorem exec_removeLoop (tid : Int) (m : SigSet) :
    ∀ (q : List Int) (s : State) (tempQueue : List Int), s.readyThreads = q →
      (removeLoop tid q.length tempQueue).exec s m
        = .ret (tempQueue ++ q.filter (fun i => decide (i ≠ tid))) (s.setReady []) m := by
  intro q
  induction q with
  | nil =>
      intro s tempQueue hq
      have hs : s.setReady [] = s := by
        rw [← hq]
        rfl
      simp [removeLoop, hs]
  | cons x q ih =>
      intro s tempQueue hq
      rw [List.length_cons, removeLoop, exec_bind, exec_frontReady m _ hq, Outcome.andThen_ret,
          exec_bind, exec_popReady m hq, Outcome.andThen_ret, ih (s.setReady q) _ rfl]
      -- the front is kept or dropped; the rest of the loop sees the shorter queue
      by_cases hx : x = tid
      · simp [hx]
        rfl
      · simp [hx]
        rfl

/-- **`remove_tid_from_ready_queue` is a filter.** -/
theorem exec_removeTidFromReadyQueue (tid : Int) (s : State) (m : SigSet) :
    (removeTidFromReadyQueue tid).exec s m
      = .ret () (s.setReady (s.readyThreads.filter (fun i => decide (i ≠ tid)))) m := by
  rw [removeTidFromReadyQueue, exec_bind, exec_read, Outcome.andThen_ret, exec_bind,
      exec_removeLoop tid m s.readyThreads s [] rfl, Outcome.andThen_ret, exec_modify,
      List.nil_append]
  rfl

/-! ## §2. Spawning. -/

/-- The state after a successful `uthread_spawn`. -/
def State.spawn (s : State) (newId : Int) (ids : List Int) (newStack entryPoint : Nat) : State :=
  ((((s.setHeap ids).drawToken).setThread newId
      (some (setNewThread entryPoint newId newStack s.nextToken))).record
        (.spawned newId s.nextToken entryPoint)).setReady (s.readyThreads ++ [newId])

/-- A null entry point is refused, with a message, before an id is taken. -/
theorem exec_uthreadSpawn_null (mem : Malloc) (s : State) (m : SigSet) :
    (uthreadSpawn mem none).exec s m
      = .ret failureReturnValue (s.print (libraryErrorPrefix ++ entryPointErrorMsg))
          (signalSet \ signalSet) := rfl

/-- When no id is left the call fails with a message. -/
theorem exec_uthreadSpawn_full (mem : Malloc) (entryPoint : Nat) {s : State} (m : SigSet)
    (h : s.minHeapId = []) :
    (uthreadSpawn mem (some entryPoint)).exec s m
      = .ret failureReturnValue (s.print (libraryErrorPrefix ++ fullThreadsErrorMsg))
          (signalSet \ signalSet) := by
  simp only [uthreadSpawn, exec_bind, exec_maskTimer, Outcome.andThen_ret,
    exec_getMinAvailableId_empty signalSet h, if_true, exec_report, exec_unmaskTimer, exec_pure]

/-- **A spawn that gets an id and memory** leaves a READY thread under the least
free id, at the end of the queue. -/
theorem exec_uthreadSpawn (newStack entryPoint : Nat) {s : State} (m : SigSet)
    {newId : Int} {ids : List Int} (h : s.minHeapId = newId :: ids) (hid : 0 ≤ newId) :
    (uthreadSpawn ⟨some newStack, true⟩ (some entryPoint)).exec s m
      = .ret newId (s.spawn newId ids newStack entryPoint) (signalSet \ signalSet) := by
  -- an id from the heap is not the sentinel for a full table
  have hne : newId ≠ fullThreads := by
    unfold fullThreads
    omega
  simp only [uthreadSpawn, exec_bind, exec_maskTimer, Outcome.andThen_ret,
    exec_getMinAvailableId signalSet h, if_neg hne, Bool.true_eq_false, if_false, exec_putThread,
    exec_pushReady, exec_unmaskTimer, exec_pure]
  rfl

/-- When the allocator fails the process exits. -/
theorem exec_uthreadSpawn_nomem {mem : Malloc} (hmem : ¬ mem.Succeeds) (entryPoint : Nat)
    {s : State} (m : SigSet) {newId : Int} {ids : List Int} (h : s.minHeapId = newId :: ids)
    (hid : 0 ≤ newId) :
    (uthreadSpawn mem (some entryPoint)).exec s m = .stop (.exit 1) := by
  have hne : newId ≠ fullThreads := by
    unfold fullThreads
    omega
  obtain ⟨stack, thread⟩ := mem
  -- the stack is allocated first, then the record
  cases stack with
  | none =>
      simp only [uthreadSpawn, exec_bind, exec_maskTimer, Outcome.andThen_ret,
        exec_getMinAvailableId signalSet h, if_neg hne, markFreed, exec_report, exec_modify,
        exec_unmaskTimer, exec_exit]
  | some newStack =>
      have hthread : thread = false := by
        cases thread with
        | false => rfl
        | true => exact absurd ⟨rfl, rfl⟩ hmem
      simp only [uthreadSpawn, exec_bind, exec_maskTimer, Outcome.andThen_ret,
        exec_getMinAvailableId signalSet h, if_neg hne, hthread, if_true, markFreed, exec_report,
        exec_modify, exec_unmaskTimer, exec_exit, Outcome.andThen_stop]

/-! ## §3. Validation. -/

/-- The test of `uthread_terminate` says whether there is no record. -/
theorem exec_unknownTid (tid : Int) (s : State) (m : SigSet) :
    (unknownTid tid).exec s m = .ret (s.threads.get tid).isNone s m := by
  unfold unknownTid
  by_cases h : tid ≥ maxThreadNum ∨ tid < 0
  · -- outside the table there is no record either
    have hr : ¬ Table.InRange maxThreadNum tid := by
      unfold Table.InRange
      omega
    rw [if_pos h, exec_pure, Table.get_of_not_inRange _ hr]
    rfl
  · rw [if_neg h]
    rfl

/-- The test of the calls that do not accept the main thread. -/
theorem exec_legalId (tid : Int) (s : State) (m : SigSet) :
    (legalId (0 < tid) tid).exec s m
      = .ret (decide (tid ≠ 0) && (s.threads.get tid).isSome) s m := by
  unfold legalId
  by_cases h : 0 < tid ∧ tid < maxThreadNum
  · have h0 : tid ≠ 0 := by omega
    rw [if_pos (by simpa using h)]
    simp [h0]
  · rw [if_neg (by simpa using h), exec_pure]
    by_cases h0 : tid = 0
    · simp [h0]
    · have hr : ¬ Table.InRange maxThreadNum tid := by
        unfold Table.InRange
        omega
      rw [Table.get_of_not_inRange _ hr]
      simp

/-- The tests let a thread of the table through. -/
theorem exec_unknownTid_live {tid : Int} {s : State} {t : Thread} (m : SigSet)
    (h : s.threads.get tid = some t) : (unknownTid tid).exec s m = .ret false s m := by
  rw [exec_unknownTid, h]
  rfl

/-- The test of the other calls lets every thread but main through. -/
theorem exec_legalId_live {tid : Int} {s : State} {t : Thread} (m : SigSet) (h0 : tid ≠ 0)
    (h : s.threads.get tid = some t) : (legalId (0 < tid) tid).exec s m = .ret true s m := by
  rw [exec_legalId, h]
  simp [h0]

/-- It refuses the main thread and an id nobody has. -/
theorem exec_legalId_illegal {tid : Int} {s : State} (m : SigSet)
    (h : tid = 0 ∨ s.threads.get tid = none) :
    (legalId (0 < tid) tid).exec s m = .ret false s m := by
  rw [exec_legalId]
  rcases h with h | h <;> simp [h]

/-! ## §4. Terminating another thread. -/

/-- The record of `tid` is freed and its id goes back to the heap. -/
def State.retire (s : State) (tid : Int) (t : Thread) : State :=
  ((s.setThread tid none).record (.terminated tid t.quantum)).setHeap
    (s.minHeapId.orderedInsert (· ≤ ·) tid)

/-- Terminating nobody fails with a message. -/
theorem exec_uthreadTerminate_unknown (order : IterOrder) {tid : Int} {s : State} (m : SigSet)
    (h : s.threads.get tid = none) :
    (uthreadTerminate order tid).exec s m
      = .ret failureReturnValue (s.print (libraryErrorPrefix ++ invalidTidErrorMsg))
          (signalSet \ signalSet) := by
  simp only [uthreadTerminate, exec_bind, exec_maskTimer, Outcome.andThen_ret, exec_unknownTid, h,
    Option.isNone_none, if_true, exec_report, exec_unmaskTimer, exec_pure]

/-- Terminating the main thread ends the process with status 0. -/
theorem exec_uthreadTerminate_main (order : IterOrder) {s : State} (m : SigSet)
    (h : s.threads.get 0 ≠ none) :
    (uthreadTerminate order 0).exec s m = .stop (.exit 0) := by
  obtain ⟨t, ht⟩ := Option.ne_none_iff_exists'.mp h
  simp only [uthreadTerminate, exec_bind, exec_maskTimer, Outcome.andThen_ret, exec_unknownTid_live _ ht,
    Bool.false_eq_true, if_false, if_true, markFreed, exec_modify,
    exec_unmaskTimer, exec_exit, Outcome.andThen_stop]

/-- Terminating a READY or BLOCKED thread: the record goes, the id comes back, and
the queue is filtered.  The set of sleeping threads is not looked at. -/
theorem exec_uthreadTerminate_idle (order : IterOrder) {tid : Int} {s : State} (m : SigSet)
    {t : Thread} (hf : s.freed = false) (h0 : tid ≠ 0) (h : s.threads.get tid = some t)
    (hst : t.state = .ready ∨ t.state = .blocked) :
    (uthreadTerminate order tid).exec s m
      = .ret successReturnValue
          ((s.retire tid t).setReady (s.readyThreads.filter (fun i => decide (i ≠ tid))))
          (signalSet \ signalSet) := by
  simp only [uthreadTerminate, exec_bind, exec_maskTimer, Outcome.andThen_ret, exec_unknownTid_live _ h,
    Bool.false_eq_true, if_false, h0, exec_deref _ (load_of_get hf h), hst,
    if_true, exec_removeThread _ (load_of_get hf h), exec_pushHeap, exec_removeTidFromReadyQueue,
    exec_unmaskTimer, exec_pure]
  rfl

/-- Terminating a SLEEPING thread: it leaves the set as well. -/
theorem exec_uthreadTerminate_sleeping (order : IterOrder) {tid : Int} {s : State} (m : SigSet)
    {t : Thread} (hf : s.freed = false) (h0 : tid ≠ 0) (h : s.threads.get tid = some t)
    (hst : t.state = .sleeping) (hmem : tid ∈ s.sleepingThreads) :
    (uthreadTerminate order tid).exec s m
      = .ret successReturnValue ((s.setSleeping (s.sleepingThreads.erase tid)).retire tid t)
          (signalSet \ signalSet) := by
  -- the id leaves the set while the record is still there
  have hload : (s.setSleeping (s.sleepingThreads.erase tid)).load tid = .ok t := load_of_get hf h
  simp only [uthreadTerminate, exec_bind, exec_maskTimer, Outcome.andThen_ret, exec_unknownTid_live _ h,
    Bool.false_eq_true, if_false, h0, exec_deref _ (load_of_get hf h), hst,
    reduceCtorEq, or_self, if_true, exec_eraseSleeping _ hmem, exec_removeThread _ hload,
    exec_pushHeap, exec_unmaskTimer, exec_pure]
  rfl

/-! ## §5. Blocking and resuming another thread. -/

/-- Blocking the main thread or nobody fails with a message. -/
theorem exec_uthreadBlock_illegal (order : IterOrder) {tid : Int} {s : State} (m : SigSet)
    (h : tid = 0 ∨ s.threads.get tid = none) :
    (uthreadBlock order tid).exec s m
      = .ret failureReturnValue (s.print (libraryErrorPrefix ++ invalidTidErrorMsg))
          (signalSet \ signalSet) := by
  simp only [uthreadBlock, exec_bind, exec_maskTimer, Outcome.andThen_ret, exec_legalId_illegal _ h,
    if_true, exec_report, exec_unmaskTimer, exec_pure]

section Legal

variable {tid : Int} {s : State} (m : SigSet) {t : Thread}

/-- Blocking a BLOCKED thread does nothing. -/
theorem exec_uthreadBlock_blocked (order : IterOrder) (hf : s.freed = false) (h0 : tid ≠ 0)
    (h : s.threads.get tid = some t) (hst : t.state = .blocked) :
    (uthreadBlock order tid).exec s m = .ret successReturnValue s (signalSet \ signalSet) := by
  simp only [uthreadBlock, exec_bind, exec_maskTimer, Outcome.andThen_ret, exec_legalId_live _ h0 h,
    Bool.true_eq_false, if_false, exec_deref _ (load_of_get hf h), hst, if_true, exec_unmaskTimer, exec_pure]

/-- Blocking a SLEEPING thread changes its state only: its count goes on. -/
theorem exec_uthreadBlock_sleeping (order : IterOrder) (hf : s.freed = false) (h0 : tid ≠ 0)
    (h : s.threads.get tid = some t) (hst : t.state = .sleeping) :
    (uthreadBlock order tid).exec s m
      = .ret successReturnValue (s.setThread tid (some { t with state := .blocked }))
          (signalSet \ signalSet) := by
  simp only [uthreadBlock, exec_bind, exec_maskTimer, Outcome.andThen_ret, exec_legalId_live _ h0 h,
    Bool.true_eq_false, if_false, exec_deref _ (load_of_get hf h), hst, reduceCtorEq, if_true,
    exec_setState _ _ (load_of_get hf h), exec_unmaskTimer, exec_pure]

/-- Blocking a READY thread takes it out of the queue. -/
theorem exec_uthreadBlock_ready (order : IterOrder) (hf : s.freed = false) (h0 : tid ≠ 0)
    (h : s.threads.get tid = some t) (hst : t.state = .ready) :
    (uthreadBlock order tid).exec s m
      = .ret successReturnValue
          ((s.setReady (s.readyThreads.filter (fun i => decide (i ≠ tid)))).setThread tid
            (some { t with state := .blocked }))
          (signalSet \ signalSet) := by
  have hload : (s.setReady (s.readyThreads.filter (fun i => decide (i ≠ tid)))).load tid = .ok t :=
    load_of_get hf h
  simp only [uthreadBlock, exec_bind, exec_maskTimer, Outcome.andThen_ret, exec_legalId_live _ h0 h,
    Bool.true_eq_false, if_false, exec_deref _ (load_of_get hf h), hst, reduceCtorEq, if_true,
    exec_removeTidFromReadyQueue, exec_setState _ _ hload, exec_unmaskTimer, exec_pure]

/-- Resuming the main thread or nobody fails with a message. -/
theorem exec_uthreadResume_illegal (h : tid = 0 ∨ s.threads.get tid = none) :
    (uthreadResume tid).exec s m
      = .ret failureReturnValue (s.print (libraryErrorPrefix ++ invalidTidErrorMsg))
          (signalSet \ signalSet) := by
  simp only [uthreadResume, exec_bind, exec_maskTimer, Outcome.andThen_ret, exec_legalId_illegal _ h,
    if_true, exec_report, exec_unmaskTimer, exec_pure]

/-- Resuming a thread that is not BLOCKED does nothing. -/
theorem exec_uthreadResume_other (hf : s.freed = false) (h0 : tid ≠ 0)
    (h : s.threads.get tid = some t) (hst : t.state ≠ .blocked) :
    (uthreadResume tid).exec s m = .ret successReturnValue s (signalSet \ signalSet) := by
  by_cases hrun : t.state = .running ∨ t.state = .ready
  · simp only [uthreadResume, exec_bind, exec_maskTimer, Outcome.andThen_ret, exec_legalId_live _ h0 h,
      Bool.true_eq_false, if_false, exec_deref _ (load_of_get hf h), hrun, if_true, exec_unmaskTimer, exec_pure]
  · simp only [uthreadResume, exec_bind, exec_maskTimer, Outcome.andThen_ret, exec_legalId_live _ h0 h,
      Bool.true_eq_false, if_false, exec_deref _ (load_of_get hf h), hrun, hst, exec_unmaskTimer, exec_pure]

/-- Resuming a BLOCKED thread that does not sleep puts it at the end of the queue. -/
theorem exec_uthreadResume_blocked (hf : s.freed = false) (h0 : tid ≠ 0)
    (h : s.threads.get tid = some t) (hst : t.state = .blocked)
    (hsl : t.sleepingTime = notSleeping) :
    (uthreadResume tid).exec s m
      = .ret successReturnValue
          ((s.setThread tid (some { t with state := .ready })).setReady (s.readyThreads ++ [tid]))
          (signalSet \ signalSet) := by
  simp only [uthreadResume, exec_bind, exec_maskTimer, Outcome.andThen_ret, exec_legalId_live _ h0 h,
    Bool.true_eq_false, if_false, exec_deref _ (load_of_get hf h), hst, reduceCtorEq, or_self, if_true, hsl,
    exec_setState _ _ (load_of_get hf h), exec_pushReady, exec_unmaskTimer, exec_pure]
  rfl

/-- Resuming a BLOCKED thread whose count still runs makes it SLEEPING. -/
theorem exec_uthreadResume_counting (hf : s.freed = false) (h0 : tid ≠ 0)
    (h : s.threads.get tid = some t) (hst : t.state = .blocked)
    (hsl : t.sleepingTime ≠ notSleeping) :
    (uthreadResume tid).exec s m
      = .ret successReturnValue (s.setThread tid (some { t with state := .sleeping }))
          (signalSet \ signalSet) := by
  simp only [uthreadResume, exec_bind, exec_maskTimer, Outcome.andThen_ret, exec_legalId_live _ h0 h,
    Bool.true_eq_false, if_false, exec_deref _ (load_of_get hf h), hst, reduceCtorEq, or_self, if_true, hsl,
    exec_setState _ _ (load_of_get hf h), exec_unmaskTimer, exec_pure]

end Legal

/-! ## §6. Getters. -/

/-- `uthread_get_quantums` reads the count of a live thread, or returns -1. -/
theorem exec_uthreadGetQuantums (tid : Int) {s : State} (m : SigSet) (hf : s.freed = false) :
    (uthreadGetQuantums tid).exec s m
      = .ret (((s.threads.get tid).map Thread.quantum).getD failureReturnValue) s m := by
  unfold uthreadGetQuantums legalId
  by_cases hr : 0 ≤ tid ∧ tid < maxThreadNum
  · cases ht : s.threads.get tid with
    | none => simp [hr, ht]
    | some t => simp [hr, ht, loadPtr, exec_derefPtr m (follow_pointer hf ht)]
  · have hrange : ¬ Table.InRange maxThreadNum tid := hr
    rw [Table.get_of_not_inRange _ hrange, exec_bind, if_neg (by simpa using hr), exec_pure]
    rfl

end UThreads
