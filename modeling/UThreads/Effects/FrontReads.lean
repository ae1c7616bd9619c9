/-
  UThreads.Effects.FrontReads
  ───────────────────────────
  **WHERE `set_ready_to_run` READS THE FRONT OF THE QUEUE.**

  `frontReads order s e` lists the process states in which the code of event
  `e`, started from `s`, executes `ready_threads.front()` in
  `set_ready_to_run`.  An event that suspends the running thread does so once,
  in the state `Suspends` names; no other event does.
-/
import UThreads.Effects.Step
import UThreads.Effects.Straight

namespace UThreads

open Interruptible

/-! ## §1. Code that does not read the front. -/

/-- No statement of the program is the front read of `set_ready_to_run`. -/
abbrev Quiet {α : Type} (p : Lib α) : Prop := p.Labels (· ≠ .front)

/-- An assignment anywhere but at the front read. -/
theorem quiet_modify {l : Access} (hl : l ≠ .front) (f : State → State) : Quiet (modify l f) :=
  ⟨hl, fun _ => trivial⟩

/-- `mask_timer` has no statement on the scheduler's variables. -/
theorem quiet_maskTimer : Quiet maskTimer := trivial

/-- Neither has `unmask_timer`. -/
theorem quiet_unmaskTimer : Quiet unmaskTimer := trivial

/-- A save reads and writes a record of the table. -/
theorem quiet_sigsetjmp (tid : Int) (site : JmpSite) : Quiet (sigsetjmp tid site) :=
  ⟨by decide, fun _ => trivial⟩

/-- A jump reads a record of the table. -/
theorem quiet_siglongjmp (tid : Int) : Quiet (siglongjmp tid) :=
  show Access.shared ≠ .front by decide

/-! ## §2. The context switch. -/

/-- What follows the front read in `set_ready_to_run`. -/
theorem quiet_afterFront (order : IterOrder) (next : Int) :
    Quiet (do
      modify .shared (fun s => s.setCurr next)
      setState next .running
      popReady
      update next (fun t => { t with quantum := t.quantum + 1 })
      modify .other (fun s => s.setTotal (s.totalQuantom + 1))
      wakeSleepingThreads order
      initTimer
      siglongjmp next : Lib Unit) := by
  refine labels_bind (quiet_modify (by decide) _) (fun _ => ?_)
  refine labels_bind (straight_setState next .running).labels (fun _ => ?_)
  refine labels_bind straight_popReady.labels (fun _ => ?_)
  refine labels_bind (straight_update next (fun _ => rfl)).labels (fun _ => ?_)
  refine labels_bind (quiet_modify (by decide) _) (fun _ => ?_)
  refine labels_bind (straight_wakeSleepingThreads order).labels (fun _ => ?_)
  exact labels_bind (quiet_modify (by decide) _) (fun _ => quiet_siglongjmp next)

/-- **The dispatch reads the front once**, in the state it starts from. -/
theorem startsAt_dispatchFront (order : IterOrder) (s : State) (m : SigSet) :
    (dispatchFront order).startsAt .front s m = [s] := by
  have hfront : (frontReady .front).startsAt .front s m = [s] := by
    unfold frontReady Prog.startsAt
    cases hq : s.readyThreads <;> simp [Prog.visits, hq]
  rw [dispatchFront, startsAt_bind, hfront]
  cases (frontReady .front).exec s m with
  | ret next s' m' =>
      rw [visitsThen_ret, startsAt_of_labels (quiet_afterFront order next)]
      rfl
  | jump t s' m' => rfl
  | stop e => rfl

/-- `set_ready_to_run` reads the front once the first `if` is done. -/
theorem startsAt_setReadyToRun (order : IterOrder) {s p : State} {m : SigSet}
    (h : requeueCurrent.exec s m = .ret () p m) :
    (setReadyToRun order).startsAt .front s m = [p] := by
  rw [setReadyToRun, startsAt_bind, startsAt_of_labels straight_requeueCurrent.labels, h, visitsThen_ret,
      List.nil_append, startsAt_dispatchFront]

/-! ## §3. The events. -/

/-- The states in which the code of an event reads the front. -/
def Event.frontReads (order : IterOrder) (s : State) : Event → List State
  | .call c    => (c.prog order).startsAt .front s ∅
  | .tick mask => (timerHandler order).startsAt .front s (insert sigvtalrm mask)

/-- The end of every call. -/
theorem quiet_finish (r : Int) : Quiet (do unmaskTimer; return r : Lib Int) :=
  labels_bind quiet_unmaskTimer (fun _ => labels_pure _ _)

/-- The end of every call that fails. -/
theorem quiet_reportFinish (pre msg : String) :
    Quiet (do report pre msg; unmaskTimer; return failureReturnValue : Lib Int) :=
  labels_bind (straight_report pre msg).labels (fun _ => quiet_finish _)

/-- `uthread_spawn` does not switch: on none of its ways out, the two where the
allocator fails included, does it get to `set_ready_to_run`. -/
theorem quiet_uthreadSpawn (mem : Malloc) (entryPoint : Option Nat) :
    Quiet (uthreadSpawn mem entryPoint) := by
  refine labels_bind quiet_maskTimer (fun _ => ?_)
  cases entryPoint with
  | none => exact quiet_reportFinish _ _
  | some entryPoint =>
      refine labels_bind straight_getMinAvailableId.labels (fun newId =>
        labels_ite (quiet_reportFinish _ _) ?_)
      cases mem.stack with
      | none =>
          refine labels_bind (straight_report _ _).labels (fun _ => ?_)
          refine labels_bind (quiet_modify (by decide) _) (fun _ => ?_)
          exact labels_bind quiet_unmaskTimer (fun _ => (straight_exit 1).labels)
      | some newStack =>
          have hput : Quiet (do
              let token ← freshToken
              putThread newId (setNewThread entryPoint newId newStack token) entryPoint
              pushReady newId
              unmaskTimer
              return newId : Lib Int) := by
            refine labels_bind straight_freshToken.labels (fun token => ?_)
            refine labels_bind (straight_putThread _ _ rfl).labels (fun _ => ?_)
            exact labels_bind (straight_pushReady newId).labels (fun _ => quiet_finish newId)
          refine labels_ite ?_ hput
          refine labels_bind (straight_report _ _).labels (fun _ => ?_)
          refine labels_bind (quiet_modify (by decide) _) (fun _ => ?_)
          refine labels_bind quiet_unmaskTimer (fun _ => ?_)
          exact labels_bind (straight_exit 1).labels (fun _ => hput)

/-- `uthread_resume` moves a thread to the queue's end and looks at no front. -/
theorem quiet_uthreadResume (tid : Int) : Quiet (uthreadResume tid) := by
  refine labels_bind quiet_maskTimer (fun _ => ?_)
  refine labels_bind (straight_legalId _ tid).labels (fun legal =>
    labels_ite (quiet_reportFinish _ _) ?_)
  refine labels_bind (straight_deref tid).labels (fun target => labels_ite (quiet_finish _) ?_)
  refine labels_bind (straight_deref tid).labels (fun target => labels_ite ?_ (quiet_finish _))
  refine labels_bind (straight_deref tid).labels (fun target => labels_ite ?_ ?_)
  · refine labels_bind (straight_setState tid .ready).labels (fun _ => ?_)
    exact labels_bind (straight_pushReady tid).labels (fun _ => quiet_finish _)
  · exact labels_bind (straight_setState tid .sleeping).labels (fun _ => quiet_finish _)

/-- `uthread_get_quantums` reads the table only. -/
theorem quiet_uthreadGetQuantums (tid : Int) : Quiet (uthreadGetQuantums tid) := by
  refine labels_bind (straight_legalId _ tid).labels (fun legal => labels_ite ?_ (labels_pure _ _))
  refine labels_bind (straight_loadPtr tid).labels (fun thread => ?_)
  exact labels_bind (straight_derefPtr thread).labels (fun _ => labels_pure _ _)

section Suspending

variable {order : IterOrder} {s : State} {t : Thread} (m : SigSet)

/-- Reading a record, a global or a test's outcome on the way to the front. -/
theorem startsAt_deref {α : Type} {tid : Int} {q : Thread → Lib α} (h : s.load tid = .ok t) :
    (deref tid >>= q).startsAt .front s m = (q t).startsAt .front s m :=
  startsAt_skip (straight_deref tid).labels (exec_deref m h)

/-- A read on the way leaves the state, and so the front, as it is. -/
theorem startsAt_read {α β : Type} {l : Access} (hl : l ≠ .front) (f : State → α)
    (q : α → Lib β) : (read l f >>= q).startsAt .front s m = (q (f s)).startsAt .front s m :=
  startsAt_skip (straight_read hl f).labels (exec_read s m l f)

/-- Behind `mask_timer` the search goes on with every signal blocked. -/
theorem startsAt_maskTimer {α : Type} (q : Unit → Lib α) :
    (maskTimer >>= q).startsAt .front s m = (q ()).startsAt .front s signalSet :=
  startsAt_skip quiet_maskTimer (exec_maskTimer s m)

/-- A save returns 0 and the search goes on with the environment in the record. -/
theorem startsAt_sigsetjmp {α : Type} {tid : Int} {site : JmpSite} {q : Int → Lib α}
    (h : s.load tid = .ok t) :
    (sigsetjmp tid site >>= q).startsAt .front s m
      = (q 0).startsAt .front (((s.setThread tid (some (t.save s.nextToken site m))).drawToken).record
          (.saved tid s.nextToken site)) m :=
  startsAt_skip (quiet_sigsetjmp tid site) (exec_sigsetjmp m site h)

/-- The test lets a thread of the table through, and the code behind it decides. -/
theorem startsAt_legalId_live {α : Type} {tid : Int} {q : Bool → Lib α} (h0 : tid ≠ 0)
    (h : s.threads.get tid = some t) :
    (legalId (0 < tid) tid >>= q).startsAt .front s m = (q true).startsAt .front s m :=
  startsAt_skip (straight_legalId _ tid).labels (exec_legalId_live m h0 h)

/-- The same for the test of `uthread_terminate`. -/
theorem startsAt_unknownTid_live {α : Type} {tid : Int} {q : Bool → Lib α}
    (h : s.threads.get tid = some t) :
    (unknownTid tid >>= q).startsAt .front s m = (q false).startsAt .front s m :=
  startsAt_skip (straight_unknownTid tid).labels (exec_unknownTid_live m h)

/-- The handler saves the context of the running thread, requeues it and reads the
front. -/
theorem startsAt_timerHandler (hf : s.freed = false)
    (h : s.threads.get s.currThreadId = some t) (hst : t.state = .running) :
    (timerHandler order).startsAt .front s m = [s.suspendTick t m] := by
  rw [timerHandler, startsAt_read m (by decide), startsAt_sigsetjmp m (load_of_get hf h), if_pos rfl]
  exact startsAt_setReadyToRun order (exec_requeueCurrent_suspendTick m hf h hst)

/-- A thread that blocks itself is BLOCKED and saved when the front is read. -/
theorem startsAt_uthreadBlock_self (hf : s.freed = false) (h0 : s.currThreadId ≠ 0)
    (h : s.threads.get s.currThreadId = some t) (hst : t.state = .running) :
    (uthreadBlock order s.currThreadId).startsAt .front s m = [s.suspendBlock t] := by
  have hread := load_of_get hf h
  have hload : (s.setThread s.currThreadId (some { t with state := .blocked })).load s.currThreadId
      = .ok { t with state := .blocked } := load_setThread hf h
  -- BLOCKED and SLEEPING are asked for first
  rw [uthreadBlock, startsAt_maskTimer, startsAt_legalId_live _ h0 h, if_neg (by simp),
      startsAt_deref _ hread, if_neg (by simp [hst]), startsAt_deref _ hread,
      if_neg (by simp [hst]), startsAt_deref _ hread, if_pos hst,
      startsAt_skip (straight_setState _ _).labels (exec_setState _ _ hread),
      startsAt_read _ (by decide), State.setThread_currThreadId, startsAt_sigsetjmp _ hload,
      State.setThread_nextToken, suspendBlock_eq, if_pos rfl,
      startsAt_drop _ _ _ (fun _ => quiet_finish _)]
  exact startsAt_setReadyToRun order (exec_requeueCurrent_suspendBlock signalSet hf h)

/-- A thread that goes to sleep is saved, has its count and is in the set by then. -/
theorem startsAt_uthreadSleep (n : Int) (hf : s.freed = false) (h0 : s.currThreadId ≠ 0)
    (h : s.threads.get s.currThreadId = some t) :
    (uthreadSleep order n).startsAt .front s m = [s.suspendSleep t n] := by
  have hsave : ((s.setThread s.currThreadId (some (t.save s.nextToken .uthreadSleep signalSet))).drawToken).record
      (.saved s.currThreadId s.nextToken .uthreadSleep)
      = s.saveCurrent (t.save s.nextToken .uthreadSleep signalSet) .uthreadSleep := rfl
  have hsleeping : (s.saveCurrent (t.save s.nextToken .uthreadSleep signalSet)
      .uthreadSleep).sleepingThreads = s.sleepingThreads := rfl
  rw [uthreadSleep, startsAt_maskTimer, startsAt_read _ (by decide), if_neg h0,
      startsAt_read _ (by decide), startsAt_sigsetjmp _ (load_of_get hf h), if_pos rfl, hsave,
      startsAt_skip (straight_update _ (f := fun t => { t with sleepingTime := n })
        (fun _ => rfl)).labels (exec_update _ _ (load_saveCurrent hf h _ _)),
      startsAt_skip (straight_setState _ _).labels (exec_setState _ _ (load_saveCurrent_set hf h _ _ _)),
      startsAt_skip (straight_insertSleeping _).labels (exec_insertSleeping _ _ _),
      State.setThread_sleepingThreads, State.setThread_sleepingThreads, hsleeping,
      suspendSleep_eq, startsAt_drop _ _ _ (fun _ => quiet_finish _)]
  exact startsAt_setReadyToRun order (exec_requeueCurrent_suspendSleep signalSet n hf h)

/-- A thread that terminates itself is out of the table, its id in the heap, by
then, and no context has been saved. -/
theorem startsAt_uthreadTerminate_self (hf : s.freed = false) (h0 : s.currThreadId ≠ 0)
    (h : s.threads.get s.currThreadId = some t) (hst : t.state = .running) :
    (uthreadTerminate order s.currThreadId).startsAt .front s m = [s.suspendTerminate t] := by
  have hread := load_of_get hf h
  -- READY, BLOCKED and SLEEPING are asked for first
  rw [uthreadTerminate, startsAt_maskTimer, startsAt_unknownTid_live _ h, if_neg (by simp),
      if_neg h0, startsAt_deref _ hread, if_neg (by simp [hst]), startsAt_deref _ hread,
      if_neg (by simp [hst]), startsAt_deref _ hread, if_pos hst,
      startsAt_skip (straight_removeThread _).labels (exec_removeThread _ hread),
      startsAt_skip (straight_pushHeap _).labels (exec_pushHeap _ _ _),
      startsAt_skip (quiet_modify (by decide) _) (exec_modify _ _ _ _),
      State.record_minHeapId, State.setThread_minHeapId, suspendTerminate_eq,
      startsAt_drop _ _ _ (fun _ => quiet_finish _)]
  exact startsAt_setReadyToRun order (exec_requeueCurrent_suspendTerminate signalSet)

end Suspending

section Others

variable {order : IterOrder} {s : State} {tid : Int} {t : Thread} (m : SigSet)

/-- Blocking the main thread or nobody fails before any dispatch. -/
theorem startsAt_uthreadBlock_illegal (h : tid = 0 ∨ s.threads.get tid = none) :
    (uthreadBlock order tid).startsAt .front s m = [] := by
  rw [uthreadBlock, startsAt_maskTimer,
      startsAt_skip (straight_legalId _ _).labels (exec_legalId_illegal signalSet h), if_pos rfl,
      startsAt_of_labels (quiet_reportFinish _ _)]

/-- Blocking a thread that does not run reads no front. -/
theorem startsAt_uthreadBlock_other (hf : s.freed = false) (h0 : tid ≠ 0)
    (h : s.threads.get tid = some t) (hst : t.state ≠ .running) :
    (uthreadBlock order tid).startsAt .front s m = [] := by
  have hload := load_of_get hf h
  rw [uthreadBlock, startsAt_maskTimer, startsAt_legalId_live _ h0 h, if_neg (by simp),
      startsAt_deref _ hload]
  by_cases hb : t.state = .blocked
  · rw [if_pos hb, startsAt_of_labels (quiet_finish _)]
  · rw [if_neg hb, startsAt_deref _ hload]
    by_cases hs : t.state = .sleeping
    · rw [if_pos hs, startsAt_skip (straight_setState _ _).labels (exec_setState _ _ hload),
          startsAt_of_labels (quiet_finish _)]
    · rw [if_neg hs, startsAt_deref _ hload, if_neg hst, startsAt_deref _ hload]
      refine startsAt_of_labels (labels_ite ?_ (quiet_finish _)) s signalSet
      refine labels_bind (straight_removeTidFromReadyQueue tid).labels (fun _ => ?_)
      exact labels_bind (straight_setState tid .blocked).labels (fun _ => quiet_finish _)

/-- The main thread may not sleep. -/
theorem startsAt_uthreadSleep_main (n : Int) (h0 : s.currThreadId = 0) :
    (uthreadSleep order n).startsAt .front s m = [] := by
  rw [uthreadSleep, startsAt_maskTimer, startsAt_read _ (by decide), if_pos h0,
      startsAt_of_labels (quiet_reportFinish _ _)]

/-- Terminating nobody fails before any dispatch. -/
theorem startsAt_uthreadTerminate_unknown (h : s.threads.get tid = none) :
    (uthreadTerminate order tid).startsAt .front s m = [] := by
  rw [uthreadTerminate, startsAt_maskTimer,
      startsAt_skip (straight_unknownTid _).labels (exec_unknownTid _ s signalSet), if_pos (by simp [h]),
      startsAt_of_labels (quiet_reportFinish _ _)]

/-- Terminating the main thread exits, with no dispatch on the way. -/
theorem startsAt_uthreadTerminate_main (h : s.threads.get 0 ≠ none) :
    (uthreadTerminate order 0).startsAt .front s m = [] := by
  obtain ⟨t, ht⟩ := Option.ne_none_iff_exists'.mp h
  rw [uthreadTerminate, startsAt_maskTimer, startsAt_unknownTid_live _ ht, if_neg (by simp),
      if_pos rfl, markFreed, startsAt_skip (quiet_modify (by decide) _) (exec_modify _ _ _ _),
      startsAt_skip quiet_unmaskTimer (exec_unmaskTimer _ _)]
  rfl

/-- Terminating a thread that does not run reads no front. -/
theorem startsAt_uthreadTerminate_other (hf : s.freed = false) (h0 : tid ≠ 0)
    (h : s.threads.get tid = some t) (hst : t.state ≠ .running) :
    (uthreadTerminate order tid).startsAt .front s m = [] := by
  have hload := load_of_get hf h
  rw [uthreadTerminate, startsAt_maskTimer, startsAt_unknownTid_live _ h, if_neg (by simp),
      if_neg h0, startsAt_deref _ hload]
  by_cases hi : t.state = .ready ∨ t.state = .blocked
  · rw [if_pos hi]
    refine startsAt_of_labels (labels_bind (straight_removeThread tid).labels (fun _ => ?_)) s signalSet
    refine labels_bind (straight_pushHeap tid).labels (fun _ => ?_)
    exact labels_bind (straight_removeTidFromReadyQueue tid).labels (fun _ => quiet_finish _)
  · rw [if_neg hi, startsAt_deref _ hload]
    by_cases hs : t.state = .sleeping
    · rw [if_pos hs]
      refine startsAt_of_labels (labels_bind (straight_eraseSleeping tid).labels (fun _ => ?_)) s signalSet
      refine labels_bind (straight_removeThread tid).labels (fun _ => ?_)
      exact labels_bind (straight_pushHeap tid).labels (fun _ => quiet_finish _)
    · rw [if_neg hs, startsAt_deref _ hload, if_neg hst, startsAt_of_labels (quiet_finish _)]

end Others

/-- **A suspending event reads the front once**, in the state that `Suspends`
names. -/
theorem frontReads_suspends {order : IterOrder} {s p : State} {t : Thread} {e : Event}
    (h : WellFormed s) (hcurr : s.threads.get s.currThreadId = some t) (hrun : t.state = .running)
    (hp : Suspends s t e p) : e.frontReads order s = [p] := by
  cases hp with
  | tick mask => exact startsAt_timerHandler _ h.freed hcurr hrun
  | block h0 => exact startsAt_uthreadBlock_self ∅ h.freed h0 hcurr hrun
  | sleep h0 n => exact startsAt_uthreadSleep ∅ n h.freed h0 hcurr
  | terminate h0 => exact startsAt_uthreadTerminate_self ∅ h.freed h0 hcurr hrun

/-- **No other event reads the front.** -/
theorem frontReads_other {order : IterOrder} {s : State} {e : Event} (h : WellFormed s)
    (he : ¬ e.Switches s) : e.frontReads order s = [] := by
  have hself := h.onlyCurr
  cases e with
  | tick mask => exact absurd trivial he
  | call c =>
      cases c with
      | spawn mem entryPoint => exact startsAt_of_labels (quiet_uthreadSpawn _ _) s ∅
      | resume tid => exact startsAt_of_labels (quiet_uthreadResume tid) s ∅
      | getTid => exact rfl
      | getTotalQuantums => exact rfl
      | getQuantums tid => exact startsAt_of_labels (quiet_uthreadGetQuantums tid) s ∅
      | sleep n =>
          by_cases h0 : s.currThreadId = 0
          · exact startsAt_uthreadSleep_main ∅ n h0
          · exact absurd h0 he
      | block tid =>
          by_cases hillegal : tid = 0 ∨ s.threads.get tid = none
          · exact startsAt_uthreadBlock_illegal ∅ hillegal
          · obtain ⟨h0, hlive⟩ := not_or.mp hillegal
            obtain ⟨u, hu⟩ := Option.ne_none_iff_exists'.mp hlive
            by_cases hst : u.state = .running
            · have htid := hself tid u hu hst
              exact absurd ⟨htid, h0⟩ he
            · exact startsAt_uthreadBlock_other ∅ h.freed h0 hu hst
      | terminate tid =>
          cases hu : s.threads.get tid with
          | none => exact startsAt_uthreadTerminate_unknown ∅ hu
          | some u =>
              by_cases h0 : tid = 0
              · subst h0
                exact startsAt_uthreadTerminate_main ∅ h.main_live
              · by_cases hst : u.state = .running
                · have htid := hself tid u hu hst
                  exact absurd ⟨htid, h0⟩ he
                · exact startsAt_uthreadTerminate_other ∅ h.freed h0 hu hst

end UThreads
