/-
  UThreads.Effects.Stacks
  ───────────────────────
  **STACKS COME AND GO WITH THREADS, AND ONLY TWO CALLS EXIT.**

  A dispatch, a wake-up and a save leave the stack pointers of the records
  alone.  No statement but those of `uthread_init`, `uthread_spawn`, `uthread_terminate`
  and `free_threads` writes a stack pointer, adds or removes a record or ends the
  process: everything else is `Steady`.
-/
import UThreads.Lib.Frame
import UThreads.Effects.Step

namespace UThreads

open Interruptible

/-! ## §1. Steady code. -/

/-- The two states have the same threads on the same stacks. -/
structure SameStacks (s s' : State) : Prop where
  stack : ∀ i, (s'.threads.get i).map Thread.stack = (s.threads.get i).map Thread.stack
  freed : s'.freed = s.freed

/-- Undefined behaviour, not an exit. -/
def Stop.IsFault : Stop → Prop
  | .fault _ => True
  | .exit _  => False

/-- Every statement keeps the stacks, and none exits. -/
abbrev Steady {α : Type} (p : Lib α) : Prop := p.Frames SameStacks Stop.IsFault

/-- Nothing has been done. -/
theorem SameStacks.refl (s : State) : SameStacks s s := ⟨fun _ => rfl, rfl⟩

/-- One piece of code after another. -/
theorem SameStacks.trans {s t u : State} (h : SameStacks s t) (h' : SameStacks t u) :
    SameStacks s u :=
  ⟨fun i => (h'.stack i).trans (h.stack i), h'.freed.trans h.freed⟩

/-- `threads[tid]->…` without a record is undefined behaviour. -/
theorem load_isFault {s : State} {tid : Int} {e : Stop} (h : s.load tid = .error e) :
    e.IsFault := by
  unfold State.load at h
  split at h
  · injection h with h
    exact h ▸ trivial
  · split at h
    · cases h
    · injection h with h
      exact h ▸ trivial

/-- A null or dangling pointer is undefined behaviour. -/
theorem follow_isFault {s : State} {thread : Option RecordPtr} {e : Stop}
    (h : s.follow thread = .error e) : e.IsFault := by
  cases thread with
  | none =>
      injection h with h
      exact h ▸ trivial
  | some p =>
      simp only [State.follow] at h
      split at h
      · exact load_isFault h
      · injection h with h
        exact h ▸ trivial

/-- A record is written over, on the same stack. -/
theorem sameStacks_set {s : State} {tid : Int} {t t' : Thread} (ht : s.threads.get tid = some t)
    (hstack : t'.stack = t.stack) : SameStacks s (s.setThread tid (some t')) := by
  refine ⟨fun i => ?_, rfl⟩
  show ((s.threads.set tid (some t')).get i).map Thread.stack = _
  rw [Table.get_set _ (Table.inRange_of_get ht)]
  by_cases hi : i = tid
  · rw [if_pos hi, hi, ht, Option.map_some, Option.map_some, hstack]
  · rw [if_neg hi]

/-- Counting down and waking up leave the stack pointer alone. -/
theorem wakeRecord_stack (t : Thread) : (wakeRecord t).stack = t.stack := by
  unfold wakeRecord
  split <;> rfl

section Statements

variable {α : Type}

/-- A read keeps every stack. -/
theorem steady_read (l : Access) (f : State → α) : Steady (read l f) :=
  ⟨fun s => .refl s, fun _ => trivial⟩

/-- An assignment to another variable than the table. -/
theorem steady_modify (l : Access) {f : State → State}
    (hf : ∀ s, (f s).threads = s.threads ∧ (f s).freed = s.freed) : Steady (modify l f) :=
  ⟨fun s => ⟨fun i => by rw [show ((f s).threads.get i) = s.threads.get i by rw [(hf s).1]],
    (hf s).2⟩, fun _ => trivial⟩

/-- A statement on the record `threads[tid]`. -/
theorem framed_load {s : State} {tid : Int} {β : Type} {f : Thread → β × State}
    (hf : ∀ t, s.threads.get tid = some t → SameStacks s (f t).2) :
    Framed (SameStacks s) Stop.IsFault ((s.load tid).map f) := by
  cases hload : s.load tid with
  | error e => exact load_isFault hload
  | ok t => exact hf t (get_of_load hload)

/-- A read or write through `threads[tid]` that keeps the stack of the record. -/
theorem steady_load (tid : Int) {f : State → Thread → α × State}
    (hf : ∀ s t, s.threads.get tid = some t → SameStacks s (f s t).2) :
    Steady (.stmt .shared (fun s => (s.load tid).map (f s)) .ret : Lib α) :=
  ⟨fun s => framed_load (hf s), fun _ => trivial⟩

/-- A statement on the front of a queue or the top of a heap. -/
theorem steady_front (l : Access) {q : State → List Int} {f : Fault}
    {g : State → Int → List Int → α × State} (hg : ∀ s x xs, SameStacks s (g s x xs).2) :
    Steady (.stmt l (fun s => match q s with
      | x :: xs => .ok (g s x xs)
      | []      => .error (.fault f)) .ret : Lib α) := by
  refine ⟨fun s => ?_, fun _ => trivial⟩
  show Framed _ _ (match q s with
    | x :: xs => .ok (g s x xs)
    | [] => .error (Stop.fault f))
  cases hq : q s with
  | nil => exact trivial
  | cons x xs => exact hg s x xs

/-- A message on `std::cerr` exits from nothing. -/
theorem steady_report (pre msg : String) : Steady (report pre msg) :=
  steady_modify .other (fun _ => ⟨rfl, rfl⟩)

/-- `threads[tid]->…` only reads the record. -/
theorem steady_deref (tid : Int) : Steady (deref tid) := steady_load tid (fun s _ _ => .refl s)

/-- The field read behind a loaded pointer: the record, or undefined behaviour. -/
theorem steady_derefPtr (thread : Option RecordPtr) : Steady (derefPtr thread) := by
  refine ⟨fun s => ?_, fun _ => trivial⟩
  show Framed (SameStacks s) Stop.IsFault ((s.follow thread).map (fun t => (t, s)))
  cases hfollow : s.follow thread with
  | error e => exact follow_isFault hfollow
  | ok t => exact SameStacks.refl s

/-- Fields of a record are written, but not its stack pointer. -/
theorem steady_update (tid : Int) {f : Thread → Thread} (hf : ∀ t, (f t).stack = t.stack) :
    Steady (update tid f) :=
  steady_load tid (fun _ t ht => sameStacks_set ht (hf t))

/-- `threads[tid]->set_state(st)` leaves the stack pointer alone. -/
theorem steady_setState (tid : Int) (st : ThreadState) : Steady (setState tid st) :=
  steady_update tid (fun _ => rfl)

/-- `ready_threads.push(tid)`. -/
theorem steady_pushReady (tid : Int) : Steady (pushReady tid) :=
  steady_modify .shared (fun _ => ⟨rfl, rfl⟩)

/-- `sleeping_threads.insert(tid)`. -/
theorem steady_insertSleeping (tid : Int) : Steady (insertSleeping tid) :=
  steady_modify .shared (fun _ => ⟨rfl, rfl⟩)

/-- `ready_threads.front()`, undefined on an empty queue. -/
theorem steady_frontReady (l : Access) : Steady (frontReady l) :=
  steady_front l (fun s _ _ => .refl s)

/-- `ready_threads.pop()`, undefined on an empty queue. -/
theorem steady_popReady : Steady popReady := steady_front .shared (fun _ _ _ => ⟨fun _ => rfl, rfl⟩)

/-- `sleeping_threads.erase(find(tid))`, undefined when the id is not in the set. -/
theorem steady_eraseSleeping (tid : Int) : Steady (eraseSleeping tid) := by
  refine ⟨fun s => ?_, fun _ => trivial⟩
  show Framed _ _ (if tid ∈ s.sleepingThreads then _ else _)
  split
  · exact ⟨fun _ => rfl, rfl⟩
  · trivial

/-- `mask_timer` changes nothing of the process. -/
theorem steady_maskTimer : Steady maskTimer := frames_setmask _

/-- Neither does `unmask_timer`. -/
theorem steady_unmaskTimer : Steady unmaskTimer := frames_setmask _

/-- Saving a context leaves the stack pointer of the record alone. -/
theorem steady_sigsetjmp (tid : Int) (site : JmpSite) : Steady (sigsetjmp tid site) := by
  refine ⟨fun m s => framed_load (fun t ht => ?_), fun _ => trivial⟩
  have hset : SameStacks s (s.setThread tid (some (t.save s.nextToken site m))) :=
    sameStacks_set ht rfl
  exact ⟨hset.stack, hset.freed⟩

/-- A jump reads the record, records what it resumed and keeps the table. -/
theorem steady_siglongjmp (tid : Int) : Steady (siglongjmp tid) := by
  intro s
  show Framed _ _ ((s.load tid).map _)
  cases hload : s.load tid with
  | error e => exact load_isFault hload
  | ok t => exact ⟨fun _ => rfl, rfl⟩

end Statements

/-! ## §2. The functions that neither allocate nor free. -/

section Functions

variable (order : IterOrder)

/-- One round of the loop of `wake_sleeping_threads`. -/
theorem steady_wakeOne (index : Int) (toDelete : List Int) : Steady (wakeOne index toDelete) := by
  refine frames_bind (steady_update index (fun _ => rfl)) (fun _ => ?_)
  refine frames_bind (steady_deref index) (fun _ => frames_ite ?_ (frames_pure _))
  refine frames_bind (steady_update index (fun _ => rfl)) (fun _ => ?_)
  refine frames_bind (steady_deref index) (fun _ => frames_ite ?_ (frames_pure _))
  refine frames_bind (steady_setState index .ready) (fun _ => ?_)
  exact frames_bind (steady_deref index) (fun _ =>
    frames_bind (steady_pushReady _) (fun _ => frames_pure _))

/-- The loop, by induction on the ids still to visit. -/
theorem steady_wakeLoop : ∀ is toDelete : List Int, Steady (wakeLoop is toDelete) := by
  intro is
  induction is with
  | nil => exact fun toDelete => frames_pure toDelete
  | cons i is ih => exact fun toDelete => frames_bind (steady_wakeOne i toDelete) (fun _ => ih _)

/-- The loop over the ids to delete from the set. -/
theorem steady_eraseLoop : ∀ is : List Int, Steady (eraseLoop is) := by
  intro is
  induction is with
  | nil => exact frames_pure ()
  | cons i is ih => exact frames_bind (steady_eraseSleeping i) (fun _ => ih)

/-- `wake_sleeping_threads` writes states and counts, no stack pointer. -/
theorem steady_wakeSleepingThreads : Steady (wakeSleepingThreads order) :=
  frames_bind (steady_read _ _) (fun _ =>
    frames_bind (steady_wakeLoop _ []) (fun _ => steady_eraseLoop _))

/-- A dispatch moves the CPU, not the stacks: the jump is its last statement. -/
theorem steady_dispatchFront : Steady (dispatchFront order) := by
  refine frames_bind (steady_frontReady .front) (fun next => ?_)
  refine frames_bind (steady_modify .shared (fun _ => ⟨rfl, rfl⟩)) (fun _ => ?_)
  refine frames_bind (steady_setState next .running) (fun _ => ?_)
  refine frames_bind steady_popReady (fun _ => ?_)
  refine frames_bind (steady_update next (fun _ => rfl)) (fun _ => ?_)
  refine frames_bind (steady_modify .other (fun _ => ⟨rfl, rfl⟩)) (fun _ => ?_)
  refine frames_bind (steady_wakeSleepingThreads order) (fun _ => ?_)
  exact frames_bind (steady_modify .other (fun _ => ⟨rfl, rfl⟩)) (fun _ => steady_siglongjmp next)

/-- `set_ready_to_run`, whether the running thread is requeued or not. -/
theorem steady_setReadyToRun : Steady (setReadyToRun order) := by
  refine frames_bind (frames_bind (steady_read _ _) (fun curr => frames_ite ?_ (frames_pure _)))
    (fun _ => steady_dispatchFront order)
  refine frames_bind (steady_deref curr) (fun _ => frames_ite ?_ (frames_pure _))
  exact frames_bind (steady_pushReady curr) (fun _ => steady_setState curr .ready)

/-- The handler saves a context and dispatches. -/
theorem steady_timerHandler : Steady (timerHandler order) :=
  frames_bind (steady_read _ _) (fun curr => frames_bind (steady_sigsetjmp curr .timerHandler)
    (fun _ => frames_ite (steady_setReadyToRun order) (frames_pure _)))

/-- The rotation of `remove_tid_from_ready_queue`, by induction on the rounds left. -/
theorem steady_removeLoop (tid : Int) :
    ∀ (n : Nat) (q : List Int), Steady (removeLoop tid n q) := by
  intro n
  induction n with
  | zero => exact fun q => frames_pure q
  | succ n ih =>
      exact fun q => frames_bind (steady_frontReady .shared) (fun _ =>
        frames_bind steady_popReady (fun _ => ih _))

/-- `remove_tid_from_ready_queue` works on the queue only. -/
theorem steady_removeTidFromReadyQueue (tid : Int) : Steady (removeTidFromReadyQueue tid) :=
  frames_bind (steady_read _ _) (fun _ => frames_bind (steady_removeLoop tid _ [])
    (fun _ => steady_modify .shared (fun _ => ⟨rfl, rfl⟩)))

/-- The check of the id only reads. -/
theorem steady_legalId (lower : Bool) (tid : Int) : Steady (legalId lower tid) :=
  frames_ite (steady_read _ _) (frames_pure _)

/-- `unmask_timer(); return r;` -/
theorem steady_return (r : Int) : Steady (do unmaskTimer; return r) :=
  frames_bind steady_unmaskTimer (fun _ => frames_pure r)

/-- `uthread_block`, on each of its ways: an illegal id, a thread that is BLOCKED,
SLEEPING, RUNNING or READY. -/
theorem steady_uthreadBlock (tid : Int) : Steady (uthreadBlock order tid) := by
  refine frames_bind steady_maskTimer (fun _ => frames_bind (steady_legalId _ tid) (fun _ => ?_))
  refine frames_ite (frames_bind (steady_report _ _) (fun _ => steady_return _)) ?_
  refine frames_bind (steady_deref tid) (fun _ => frames_ite (steady_return _) ?_)
  refine frames_bind (steady_deref tid) (fun _ => frames_ite ?_ ?_)
  · exact frames_bind (steady_setState tid .blocked) (fun _ => steady_return _)
  refine frames_bind (steady_deref tid) (fun _ => frames_ite ?_ ?_)
  · refine frames_bind (steady_setState tid .blocked) (fun _ => ?_)
    refine frames_bind (steady_read _ _) (fun curr => ?_)
    refine frames_bind (steady_sigsetjmp curr .uthreadBlock) (fun _ => frames_ite ?_ ?_)
    · exact frames_bind (steady_setReadyToRun order) (fun _ => steady_return _)
    · exact steady_return _
  refine frames_bind (steady_deref tid) (fun _ => frames_ite ?_ (steady_return _))
  exact frames_bind (steady_removeTidFromReadyQueue tid) (fun _ =>
    frames_bind (steady_setState tid .blocked) (fun _ => steady_return _))

/-- `uthread_resume`, on each of its ways. -/
theorem steady_uthreadResume (tid : Int) : Steady (uthreadResume tid) := by
  refine frames_bind steady_maskTimer (fun _ => frames_bind (steady_legalId _ tid) (fun _ => ?_))
  refine frames_ite (frames_bind (steady_report _ _) (fun _ => steady_return _)) ?_
  refine frames_bind (steady_deref tid) (fun _ => frames_ite (steady_return _) ?_)
  refine frames_bind (steady_deref tid) (fun _ => frames_ite ?_ (steady_return _))
  refine frames_bind (steady_deref tid) (fun _ => frames_ite ?_ ?_)
  · exact frames_bind (steady_setState tid .ready) (fun _ =>
      frames_bind (steady_pushReady tid) (fun _ => steady_return _))
  · exact frames_bind (steady_setState tid .sleeping) (fun _ => steady_return _)

/-- `uthread_sleep`, refused to the main thread, a dispatch for any other. -/
theorem steady_uthreadSleep (n : Int) : Steady (uthreadSleep order n) := by
  refine frames_bind steady_maskTimer (fun _ => frames_bind (steady_read _ _) (fun _ => ?_))
  refine frames_ite (frames_bind (steady_report _ _) (fun _ => steady_return _)) ?_
  refine frames_bind (steady_read _ _) (fun curr => ?_)
  refine frames_bind (steady_sigsetjmp curr .uthreadSleep) (fun _ => frames_ite ?_ ?_)
  · refine frames_bind (steady_update curr (fun _ => rfl)) (fun _ => ?_)
    refine frames_bind (steady_setState curr .sleeping) (fun _ => ?_)
    refine frames_bind (steady_insertSleeping curr) (fun _ => ?_)
    exact frames_bind (steady_setReadyToRun order) (fun _ => steady_return _)
  · exact steady_return _

/-- `uthread_get_quantums`, with its two separate reads. -/
theorem steady_uthreadGetQuantums (tid : Int) : Steady (uthreadGetQuantums tid) :=
  frames_bind (steady_legalId _ tid) (fun _ => frames_ite
    (frames_bind (steady_read _ _) (fun thread =>
      frames_bind (steady_derefPtr thread) (fun _ => frames_pure _))) (frames_pure _))

end Functions

/-! ## §3. The end of the process. -/

/-- The event ends the process: `uthread_terminate(0)`, or a `uthread_spawn` that
gets an id and no memory. -/
def Event.EndsProcess (s : State) : Event → Prop
  | .call (.terminate tid)        => tid = 0
  | .call (.spawn mem entryPoint) => entryPoint ≠ none ∧ s.minHeapId ≠ [] ∧ ¬ mem.Succeeds
  | _                             => False

section Exits

variable {order : IterOrder} {s : State} {e : Event}

/-- Steady code does not exit. -/
theorem not_exit_of_steady {α : Type} {p : Lib α} (hp : Steady p) (s : State) (m : SigSet)
    (code : Int) : (p.exec s m).stopped ≠ some (.exit code) := by
  have hframe := hp.exec SameStacks.refl SameStacks.trans s m
  cases hexec : p.exec s m with
  | ret a s' m' => exact nofun
  | jump t s' m' => exact nofun
  | stop e =>
      rw [hexec] at hframe
      intro he
      injection he with he
      rw [he] at hframe
      exact hframe

/-- Without memory for a thread. -/
theorem stop_spawn_nomem (hw : WellFormed s) {mem : Malloc} {entryPoint : Option Nat}
    (h : (Event.call (.spawn mem entryPoint)).EndsProcess s) :
    (Event.call (.spawn mem entryPoint)).stop order s = some (.exit 1) := by
  obtain ⟨hentry, hheap, hmem⟩ := h
  obtain ⟨address, rfl⟩ := Option.ne_none_iff_exists'.mp hentry
  obtain ⟨newId, ids, hids⟩ := List.exists_cons_of_ne_nil hheap
  show ((uthreadSpawn mem (some address)).exec s ∅).stopped = _
  rw [exec_uthreadSpawn_nomem hmem address ∅ hids (hw.heap_top_free hids).1.1]
  rfl

/-- Otherwise `uthread_spawn` returns. -/
theorem spawn_not_exit (hw : WellFormed s) {mem : Malloc} {entryPoint : Option Nat}
    (h : ¬ (Event.call (.spawn mem entryPoint)).EndsProcess s) (code : Int) :
    (Event.call (.spawn mem entryPoint)).stop order s ≠ some (.exit code) := by
  show ((uthreadSpawn mem entryPoint).exec s ∅).stopped ≠ _
  cases entryPoint with
  | none =>
      rw [exec_uthreadSpawn_null]
      exact nofun
  | some address =>
      cases hids : s.minHeapId with
      | nil =>
          rw [exec_uthreadSpawn_full mem address ∅ hids]
          exact nofun
      | cons newId ids =>
          have hmem : mem.Succeeds := by
            by_contra hmem
            exact h ⟨by simp, by simp [hids], hmem⟩
          obtain ⟨newStack, rfl⟩ := hmem.eq
          rw [exec_uthreadSpawn newStack address ∅ hids (hw.heap_top_free hids).1.1]
          exact nofun

/-- Terminating another thread than the main one returns, or switches. -/
theorem terminate_not_exit (hw : WellFormed s) {tid : Int} (h0 : tid ≠ 0) (code : Int) :
    (Event.call (.terminate tid)).stop order s ≠ some (.exit code) := by
  show ((uthreadTerminate order tid).exec s ∅).stopped ≠ _
  cases ht : s.threads.get tid with
  | none =>
      rw [exec_uthreadTerminate_unknown order ∅ ht]
      exact nofun
  | some t =>
      cases hst : t.state with
      | ready =>
          rw [exec_uthreadTerminate_idle order ∅ hw.freed h0 ht (Or.inl hst)]
          exact nofun
      | blocked =>
          rw [exec_uthreadTerminate_idle order ∅ hw.freed h0 ht (Or.inr hst)]
          exact nofun
      | sleeping =>
          rw [exec_uthreadTerminate_sleeping order ∅ hw.freed h0 ht hst
            (hw.sleepMem tid t ht (Or.inl hst))]
          exact nofun
      | running =>
          -- the caller: the dispatch jumps or faults
          obtain rfl := hw.onlyCurr tid t ht hst
          rw [exec_uthreadTerminate_self ∅ order hw.freed h0 ht hst]
          rcases (hw.suspends ht hst (.terminate h0)).exec_dispatch order signalSet with
            ⟨_, _, _, _, _, _, _, hexec⟩ | ⟨_, hexec⟩
          · rw [hexec]
            exact nofun
          · rw [hexec]
            simp [Outcome.stopped]

/-- **The process exits** with 0 when the main thread is terminated, with 1 when
there is no memory for a thread, and at no other event. -/
theorem exit_iff (hw : WellFormed s) (code : Int) :
    e.stop order s = some (.exit code)
      ↔ e.EndsProcess s ∧ code = if e = .call (.terminate 0) then 0 else 1 := by
  cases e with
  | tick mask =>
      exact ⟨fun h => absurd h (not_exit_of_steady (steady_timerHandler order) s _ code),
        fun h => absurd h.1 id⟩
  | call c =>
      cases c with
      | spawn mem entryPoint =>
          rw [if_neg (by simp)]
          by_cases hends : (Event.call (.spawn mem entryPoint)).EndsProcess s
          · rw [stop_spawn_nomem hw hends]
            simp [hends, eq_comm]
          · refine ⟨fun h => absurd h (spawn_not_exit hw hends code), fun h => absurd h.1 hends⟩
      | terminate tid =>
          by_cases h0 : tid = 0
          · subst h0
            have hexit : (Event.call (.terminate 0)).stop order s = some (.exit 0) := by
              show ((uthreadTerminate order 0).exec s ∅).stopped = _
              rw [exec_uthreadTerminate_main order ∅ hw.main_live]
              rfl
            rw [hexit, if_pos rfl]
            simp [Event.EndsProcess, eq_comm]
          · exact ⟨fun h => absurd h (terminate_not_exit hw h0 code), fun h => absurd h.1 h0⟩
      | block tid =>
          exact ⟨fun h => absurd h (not_exit_of_steady (steady_uthreadBlock order tid) s ∅ code),
            fun h => absurd h.1 id⟩
      | resume tid =>
          exact ⟨fun h => absurd h (not_exit_of_steady (steady_uthreadResume tid) s ∅ code),
            fun h => absurd h.1 id⟩
      | sleep n =>
          exact ⟨fun h => absurd h (not_exit_of_steady (steady_uthreadSleep order n) s ∅ code),
            fun h => absurd h.1 id⟩
      | getTid => exact ⟨nofun, fun h => absurd h.1 id⟩
      | getTotalQuantums => exact ⟨nofun, fun h => absurd h.1 id⟩
      | getQuantums tid =>
          exact ⟨fun h => absurd h (not_exit_of_steady (steady_uthreadGetQuantums tid) s ∅ code),
            fun h => absurd h.1 id⟩

end Exits

end UThreads
