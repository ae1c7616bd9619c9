/-
  UThreads.Interrupt.Discipline
  ─────────────────────────────
  **THE LIBRARY IS DISCIPLINED.**

  Each of the five calls that change the scheduler masks the timer first and
  unmasks it last, on every path; the getters only read; the handler never
  touches the mask and returns at once when its context is resumed.
-/
import UThreads.Interrupt.Landing

namespace UThreads

open Interruptible

/-! ## §1. Statements. -/

/-- Work of the library that ends in `E`. -/
abbrev Works (order : IterOrder) {α : Type} (E : Lib α → Prop) (p : Lib α) : Prop :=
  p.Until (contract order) TimerBlocked E

/-- The end of a call. -/
abbrev Ends {α : Type} (p : Lib α) : Prop := p.Unblocks TimerBlocked

section Rules

variable {order : IterOrder} {α β : Type} {E : Lib β → Prop}

/-- Straight code behind a mask is work like any other. -/
theorem works_straight {p : Lib α} {q : α → Lib β} (hp : Straight p)
    (hq : ∀ a, Works order E (q a)) : Works order E (p >>= q) := by
  refine until_bind hp ?_ hq
  intro s s' hcalm _ n hn
  have hn' : n ∈ s'.savedTokens := hn
  rw [hcalm.tokens] at hn'
  exact hn'

/-- Nothing is asked of the code after `free_threads`. -/
theorem works_free {q : Unit → Lib β} : Works order E (markFreed >>= q) := by
  intro s b s' h halive
  injection h with h
  injection h with _ hs
  rw [← hs] at halive
  cases halive

/-- `sigsetjmp` returns 0 now; later it returns 1, at the end `E`. -/
theorem works_sigsetjmp (tid : Int) (site : JmpSite) {q : Int → Lib β}
    (h0 : Works order E (q 0)) (h1 : E (q 1)) : Works order E (sigsetjmp tid site >>= q) := by
  refine ⟨?_, h0, h1⟩
  intro m s n s' h
  obtain ⟨t, _, hsave⟩ := load_map_ok h
  injection hsave with hn hs
  subst hn hs
  intro i hi
  have hi' : i ∈ (s.history ++ [JmpEvent.saved tid s.nextToken site]).filterMap JmpEvent.savedToken := hi
  rw [List.filterMap_append, List.mem_append] at hi'
  rcases hi' with hi' | hi'
  · exact Set.mem_insert_of_mem _ hi'
  · -- the one new token is the one this `sigsetjmp` saved under
    exact Set.mem_insert_iff.mpr (Or.inl (List.mem_singleton.mp hi'))

/-- A jump lands at an entry point, unblocked, or in a saved context, blocked. -/
theorem works_siglongjmp {E : Lib Unit → Prop} (tid : Int) : Works order E (siglongjmp tid) :=
  lands_siglongjmp order tid

/-- Behind `unmask_timer` SIGVTALRM is not blocked. -/
theorem unblocks_unmask (m : SigSet) : ¬ TimerBlocked (m \ signalSet) := by
  intro h
  exact (Finset.mem_sdiff.mp h).2 mem_signalSet

/-- The end of every call: `unmask_timer(); return r;`. -/
theorem works_finish (r : Int) : Works order Ends (do unmaskTimer; return r : Lib Int) :=
  ⟨_, r, rfl, unblocks_unmask⟩

/-- The end of a call that fails. -/
theorem works_reportFinish (pre msg : String) :
    Works order Ends (do report pre msg; unmaskTimer; return failureReturnValue : Lib Int) :=
  works_straight (straight_report pre msg) (fun _ => works_finish _)

end Rules

/-! ## §2. The context switch. -/

section Switch

variable (order : IterOrder)

/-- `set_ready_to_run` always ends in its `siglongjmp`. -/
theorem works_setReadyToRun (E : Lib Unit → Prop) : Works order E (setReadyToRun order) := by
  refine works_straight straight_requeueCurrent (fun _ => ?_)
  refine until_bind plain_frontReady (fun s s' hcalm _ n hn => ?_) (fun next => ?_)
  · have hn' : n ∈ s'.savedTokens := hn
    rw [hcalm.tokens] at hn'
    exact hn'
  refine works_straight (straight_assign (by decide) (fun _ => ⟨rfl, rfl, rfl, rfl⟩)) (fun _ => ?_)
  refine works_straight (straight_setState next .running) (fun _ => ?_)
  refine works_straight straight_popReady (fun _ => ?_)
  refine works_straight (straight_update next (fun _ => rfl)) (fun _ => ?_)
  refine works_straight (straight_assign (by decide) (fun _ => ⟨rfl, rfl, rfl, rfl⟩)) (fun _ => ?_)
  refine works_straight (straight_wakeSleepingThreads order) (fun _ => ?_)
  exact works_straight straight_initTimer (fun _ => works_siglongjmp next)

/-- **The handler** works until it jumps; resumed, it returns. -/
theorem works_timerHandler : Works order (· = .ret ()) (timerHandler order) := by
  refine works_straight (straight_read (by decide) _) (fun curr => ?_)
  -- resumed, nothing is left to do: the return restores the interrupted mask
  refine works_sigsetjmp curr .timerHandler ?_ rfl
  exact works_setReadyToRun order _

end Switch

/-! ## §3. The calls. -/

section Calls

variable (order : IterOrder)

/-- A call masks the timer, and then works to its end. -/
theorem blocks_call {q : Unit → Lib Int} (hq : Works order Ends (q ())) :
    (maskTimer >>= q).Blocks (contract order) TimerBlocked :=
  ⟨_, q (), rfl, fun _ => mem_signalSet, hq⟩

/-- `uthread_spawn` masks the timer before it looks at anything. -/
theorem blocks_uthreadSpawn (mem : Malloc) (entryPoint : Option Nat) :
    (uthreadSpawn mem entryPoint).Blocks (contract order) TimerBlocked := by
  refine blocks_call order ?_
  cases entryPoint with
  | none => exact works_reportFinish _ _
  | some entryPoint =>
      refine works_straight straight_getMinAvailableId (fun newId =>
        until_ite (works_reportFinish _ _) ?_)
      cases mem.stack with
      | none => exact works_straight (straight_report _ _) (fun _ => works_free)
      | some newStack =>
          refine until_ite (works_straight (straight_report _ _) (fun _ => works_free)) ?_
          refine works_straight straight_freshToken (fun token => ?_)
          refine works_straight (straight_putThread _ _ rfl) (fun _ => ?_)
          exact works_straight (straight_pushReady newId) (fun _ => works_finish newId)

/-- So does `uthread_terminate`. -/
theorem blocks_uthreadTerminate (tid : Int) :
    (uthreadTerminate order tid).Blocks (contract order) TimerBlocked := by
  refine blocks_call order ?_
  refine works_straight (straight_unknownTid tid) (fun _ =>
    until_ite (works_reportFinish _ _) (until_ite works_free ?_))
  refine works_straight (straight_deref tid) (fun target => until_ite ?_ ?_)
  · refine works_straight (straight_removeThread tid) (fun _ => ?_)
    refine works_straight (straight_pushHeap tid) (fun _ => ?_)
    exact works_straight (straight_removeTidFromReadyQueue tid) (fun _ => works_finish _)
  refine works_straight (straight_deref tid) (fun target => until_ite ?_ ?_)
  · refine works_straight (straight_eraseSleeping tid) (fun _ => ?_)
    refine works_straight (straight_removeThread tid) (fun _ => ?_)
    exact works_straight (straight_pushHeap tid) (fun _ => works_finish _)
  -- a self-termination never comes back to unmask
  refine works_straight (straight_deref tid) (fun target => until_ite ?_ (works_finish _))
  refine works_straight (straight_removeThread tid) (fun _ => ?_)
  refine works_straight (straight_pushHeap tid) (fun _ => ?_)
  refine works_straight (straight_assign (by decide) (fun _ => ⟨rfl, rfl, rfl, rfl⟩)) (fun _ => ?_)
  exact until_bind_jumps (works_setReadyToRun order _)

/-- So does `uthread_block`; the context it saves is resumed with the timer masked. -/
theorem blocks_uthreadBlock (tid : Int) :
    (uthreadBlock order tid).Blocks (contract order) TimerBlocked := by
  refine blocks_call order ?_
  refine works_straight (straight_legalId _ tid) (fun _ => until_ite (works_reportFinish _ _) ?_)
  refine works_straight (straight_deref tid) (fun target => until_ite (works_finish _) ?_)
  refine works_straight (straight_deref tid) (fun target => until_ite ?_ ?_)
  · exact works_straight (straight_setState tid .blocked) (fun _ => works_finish _)
  refine works_straight (straight_deref tid) (fun target => until_ite ?_ ?_)
  · refine works_straight (straight_setState tid .blocked) (fun _ => ?_)
    refine works_straight (straight_read (by decide) _) (fun curr => ?_)
    -- resumed with the timer masked, the call goes on to unmask it
    refine works_sigsetjmp curr .uthreadBlock ?_ ⟨_, successReturnValue, rfl, unblocks_unmask⟩
    exact until_bind_jumps (works_setReadyToRun order _)
  refine works_straight (straight_deref tid) (fun target => until_ite ?_ (works_finish _))
  refine works_straight (straight_removeTidFromReadyQueue tid) (fun _ => ?_)
  exact works_straight (straight_setState tid .blocked) (fun _ => works_finish _)

/-- So does `uthread_resume`. -/
theorem blocks_uthreadResume (tid : Int) :
    (uthreadResume tid).Blocks (contract order) TimerBlocked := by
  refine blocks_call order ?_
  refine works_straight (straight_legalId _ tid) (fun _ => until_ite (works_reportFinish _ _) ?_)
  refine works_straight (straight_deref tid) (fun target => until_ite (works_finish _) ?_)
  refine works_straight (straight_deref tid) (fun target => until_ite ?_ (works_finish _))
  refine works_straight (straight_deref tid) (fun target => until_ite ?_ ?_)
  · refine works_straight (straight_setState tid .ready) (fun _ => ?_)
    exact works_straight (straight_pushReady tid) (fun _ => works_finish _)
  · exact works_straight (straight_setState tid .sleeping) (fun _ => works_finish _)

/-- So does `uthread_sleep`; the context it saves is resumed with the timer masked. -/
theorem blocks_uthreadSleep (numQuantums : Int) :
    (uthreadSleep order numQuantums).Blocks (contract order) TimerBlocked := by
  refine blocks_call order ?_
  refine works_straight (straight_read (by decide) _) (fun _ => until_ite (works_reportFinish _ _) ?_)
  refine works_straight (straight_read (by decide) _) (fun curr => ?_)
  refine works_sigsetjmp curr .uthreadSleep ?_ ⟨_, successReturnValue, rfl, unblocks_unmask⟩
  refine works_straight (straight_update curr (fun _ => rfl)) (fun _ => ?_)
  refine works_straight (straight_setState curr .sleeping) (fun _ => ?_)
  refine works_straight (straight_insertSleeping curr) (fun _ => ?_)
  exact until_bind_jumps (works_setReadyToRun order _)

end Calls

/-! ## §4. The getters. -/

section Getters

variable {α : Type}

/-- A read writes nothing. -/
theorem reads_read (l : Access) (f : State → α) : (read l f).Reads := by
  intro s b s' h
  injection h with h
  injection h with _ hs
  exact ⟨hs.symm, trivial⟩

/-- The field read behind a loaded pointer writes nothing. -/
theorem reads_derefPtr (thread : Option RecordPtr) : (derefPtr thread).Reads := by
  intro s b s' h
  obtain ⟨t, _, hmap⟩ := load_map_ok h
  injection hmap with _ hs
  exact ⟨hs.symm, trivial⟩

/-- The check of the id writes nothing. -/
theorem reads_legalId (lower : Bool) (tid : Int) : (legalId lower tid).Reads := by
  unfold legalId
  split
  · exact reads_read _ _
  · trivial

/-- `uthread_get_quantums` does not mask the timer: all it does is read. -/
theorem reads_uthreadGetQuantums (tid : Int) : (uthreadGetQuantums tid).Reads := by
  refine reads_bind (reads_legalId _ tid) (fun legal => ?_)
  split
  · exact reads_bind (reads_read _ _) (fun thread =>
      reads_bind (reads_derefPtr thread) (fun _ => trivial))
  · trivial

end Getters

/-! ## §5. All together. -/

/-- A call that changes the scheduler is not one that only reads. -/
theorem not_reads_of_mutates (order : IterOrder) {c : Call} (hc : c.Mutates) :
    ¬ (c.prog order).Reads := by
  -- its first statement masks the timer
  cases c with
  | spawn mem entryPoint => exact id
  | terminate tid => exact id
  | block tid => exact id
  | resume tid => exact id
  | sleep n => exact id
  | getTid => exact absurd hc id
  | getTotalQuantums => exact absurd hc id
  | getQuantums tid => exact absurd hc id

/-- **The library is disciplined**, and its sections take reachable states to
reachable states. -/
theorem machine_disciplined (order : IterOrder) :
    (machine order).Disciplined (contract order) where
  call := by
    intro c
    cases c with
    | spawn mem entryPoint => exact Or.inl (blocks_uthreadSpawn order mem entryPoint)
    | terminate tid => exact Or.inl (blocks_uthreadTerminate order tid)
    | block tid => exact Or.inl (blocks_uthreadBlock order tid)
    | resume tid => exact Or.inl (blocks_uthreadResume order tid)
    | sleep n => exact Or.inl (blocks_uthreadSleep order n)
    | getTid => exact Or.inr (reads_read _ _)
    | getTotalQuantums => exact Or.inr (reads_read _ _)
    | getQuantums tid => exact Or.inr (reads_uthreadGetQuantums tid)
  handler := works_timerHandler order
  enter := Finset.mem_insert_self sigvtalrm
  callGood := by
    intro c s m s' hgood hs
    have hreach : Reachable order s := hgood
    have hstep : step order s (.call c) = some s' := by
      rw [← settle_call hreach.wellFormed.freed c m]
      exact hs
    exact hreach.step hstep
  handlerGood := by
    intro s m s' hgood hs
    have hreach : Reachable order s := hgood
    have hstep : step order s (.tick m) = some s' := hs
    exact hreach.step hstep

end UThreads
