/-
  UThreads.Interrupt.Points
  ─────────────────────────
  **WHAT THE STATEMENTS OF THE LIBRARY DO**, for runs that are interrupted
  anywhere.

  Every statement of a call is calm, or frees the threads on the way to an exit,
  or saves the caller's context, or jumps to a context from the table; a saved
  call is resumed at its last two statements.  No path is left out, so this holds
  of every step of the machine (`CpuReachable.within`).
-/
import UThreads.Lib.Points
import UThreads.Interrupt.Machine

namespace UThreads

open Interruptible Relation

/-! ## §1. The facts. -/

/-- `sigsetjmp`: one new environment, under a fresh token, with the mask in force. -/
structure Saves (m : SigSet) (s : State) (token : Nat) (s' : State) : Prop where
  fresh : token = s.nextToken
  drawn : s'.nextToken = s.nextToken + 1
  grows : s.history <+: s'.history
  freed : s'.freed = s.freed
  envs : ∀ i t', s'.threads.get i = some t' →
    (∃ j t, s.threads.get j = some t ∧ t'.env = t.env)
      ∨ (t'.env.target = .saved token ∧ t'.env.savedMask = m)

/-- `siglongjmp`: to an environment of the table, with the mask stored there. -/
structure Jumps (s : State) (target : Target) (m : SigSet) (s' : State) : Prop where
  env : ∃ i t, s.threads.get i = some t ∧ target = t.env.target ∧ m = t.env.savedMask
  threads : s'.threads = s.threads
  drawn : s'.nextToken = s.nextToken
  grows : s.history <+: s'.history
  freed : s'.freed = s.freed

/-- `unmask_timer(); return r;`. -/
def finishes (r : Int) : Lib Int := do
  unmaskTimer
  return r

/-- The calls that end the process, and their exit status: `uthread_terminate(0)`,
and `uthread_spawn` without memory. -/
def Call.Ends : Call → Int → Prop
  | .terminate tid, code => tid = 0 ∧ code = 0
  | .spawn mem _, code   => ¬ mem.Succeeds ∧ code = 1
  | _, _                 => False

/-- The call is one of those that end the process. -/
def Call.MayEnd (c : Call) : Prop := ∃ code, c.Ends code

/-- The calls that can suspend their caller and return later. -/
def Call.Waits : Call → Prop
  | .block _ | .sleep _ => True
  | _                   => False

/-- No signal but `SIGVTALRM` is blocked. -/
def Narrow (m : SigSet) : Prop := m ⊆ signalSet

/-- What the statements of a call do. -/
def callFacts (c : Call) : Facts State SigSet Stop Access Int where
  stmt := fun s s' _ => Calm s s' ∨ (s' = s.setFreed ∧ c.MayEnd)
  setmask := fun g => ∀ m, Narrow m → Narrow (g m)
  setjmp := Saves
  resumed := fun p => c.Waits ∧ p = finishes successReturnValue
  longjmp := Jumps

/-- What the statements of the handler do: it never touches the mask. -/
def handlerFacts : Facts State SigSet Stop Access Unit where
  stmt := fun s s' _ => Calm s s'
  setmask := fun _ => False
  setjmp := Saves
  resumed := fun p => p = .ret ()
  longjmp := Jumps

/-! ## §2. Statements. -/

section Rules

variable {α β : Type} {F : Facts State SigSet Stop Access β}

/-- The facts allow calm statements and jumps. -/
structure Lenient (F : Facts State SigSet Stop Access β) : Prop where
  stmt : ∀ s s' rest, Calm s s' → F.stmt s s' rest
  longjmp : ∀ s t m s', Jumps s t m s' → F.longjmp s t m s'

/-- The facts about calls allow what any straight code, save or jump does. -/
theorem lenient_call (c : Call) : Lenient (callFacts c) :=
  ⟨fun _ _ _ h => Or.inl h, fun _ _ _ _ h => h⟩

/-- So do the facts about the handler. -/
theorem lenient_handler : Lenient handlerFacts := ⟨fun _ _ _ h => h, fun _ _ _ _ h => h⟩

/-- What follows a program does not change what its statements may do. -/
theorem Lenient.before (hF : Lenient F) (q : α → Lib β) : Lenient (F.before q) :=
  ⟨fun s s' rest h => hF.stmt s s' (rest.bind q) h, hF.longjmp⟩

/-- Calm code in front. -/
theorem obeys_calm {P : Access → Prop} {p : Lib α} {q : α → Lib β} (hF : Lenient F)
    (hp : p.Plain P Calm) (hq : ∀ a, (q a).Obeys F) : (p >>= q).Obeys F :=
  obeys_bind (hp.obeys (hF.before q).stmt) hq

/-- What a `sigsetjmp` does to the process. -/
theorem saves_sigsetjmp (tid : Int) (site : JmpSite) (m : SigSet) {s : State} {t : Thread}
    (ht : s.threads.get tid = some t) :
    Saves m s s.nextToken (((s.setThread tid (some (t.save s.nextToken site m))).drawToken).record
      (.saved tid s.nextToken site)) where
  fresh := rfl
  drawn := rfl
  grows := List.prefix_append _ _
  freed := rfl
  envs := by
    intro i t' ht'
    have hget : (s.threads.set tid (some (t.save s.nextToken site m))).get i = some t' := ht'
    rw [Table.get_set _ (Table.inRange_of_get ht)] at hget
    by_cases hi : i = tid
    · rw [if_pos hi] at hget
      injection hget with hget
      exact Or.inr (hget ▸ ⟨rfl, rfl⟩)
    · rw [if_neg hi] at hget
      exact Or.inl ⟨i, t', hget, rfl⟩

/-- `sigsetjmp` goes on in the branch for 0; the context is resumed in that for 1. -/
theorem obeys_sigsetjmp (hF : ∀ m s n s', Saves m s n s' → F.setjmp m s n s') (tid : Int)
    (site : JmpSite) {q : Int → Lib β} (h0 : (q 0).Obeys F) (hr : F.resumed (q 1))
    (h1 : (q 1).Obeys F) : (sigsetjmp tid site >>= q).Obeys F := by
  refine ⟨?_, hr, h0, h1⟩
  intro m s n s' h
  obtain ⟨t, hload, hsave⟩ := load_map_ok h
  injection hsave with hn hs
  subst hn hs
  exact hF _ _ _ _ (saves_sigsetjmp tid site m (get_of_load hload))

/-- A jump does what it may. -/
theorem obeys_siglongjmp {F : Facts State SigSet Stop Access Unit} (hF : Lenient F) (tid : Int) :
    (siglongjmp tid).Obeys F := by
  intro s target m s' h
  obtain ⟨t, hload, hjump⟩ := load_map_ok h
  injection hjump with htarget hjump
  injection hjump with hmask hs
  subst htarget hmask hs
  exact hF.longjmp _ _ _ _
    ⟨⟨tid, t, get_of_load hload, rfl, rfl⟩, rfl, rfl, List.prefix_append _ _, rfl⟩

/-- `set_ready_to_run` is straight code up to its jump. -/
theorem obeys_setReadyToRun (order : IterOrder) {F : Facts State SigSet Stop Access Unit}
    (hF : Lenient F) : (setReadyToRun order).Obeys F := by
  refine obeys_calm hF straight_requeueCurrent (fun _ => ?_)
  refine obeys_calm hF plain_frontReady (fun next => ?_)
  refine obeys_calm hF (straight_assign (by decide) (fun _ => ⟨rfl, rfl, rfl, rfl⟩)) (fun _ => ?_)
  refine obeys_calm hF (straight_setState next .running) (fun _ => ?_)
  refine obeys_calm hF straight_popReady (fun _ => ?_)
  refine obeys_calm hF (straight_update next (fun _ => rfl)) (fun _ => ?_)
  refine obeys_calm hF (straight_assign (by decide) (fun _ => ⟨rfl, rfl, rfl, rfl⟩)) (fun _ => ?_)
  refine obeys_calm hF (straight_wakeSleepingThreads order) (fun _ => ?_)
  exact obeys_calm hF straight_initTimer (fun _ => obeys_siglongjmp hF next)

end Rules

/-! ## §3. The calls and the handler. -/

section Calls

variable (order : IterOrder) {c : Call}

/-- `unmask_timer` touches nothing of the process. -/
theorem obeys_unmask {q : Lib Int} (hq : q.Obeys (callFacts c)) :
    (unmaskTimer >>= fun _ => q).Obeys (callFacts c) :=
  ⟨fun _ hm => Finset.sdiff_subset.trans hm, hq⟩

/-- The end of a call does what it may. -/
theorem obeys_finish (r : Int) : (finishes r).Obeys (callFacts c) := obeys_unmask (obeys_pure r)

/-- The end of a call that fails does what it may. -/
theorem obeys_reportFinish (pre msg : String) :
    (do report pre msg; unmaskTimer; return failureReturnValue : Lib Int).Obeys (callFacts c) :=
  obeys_calm (lenient_call c) (straight_report pre msg) (fun _ => obeys_finish _)

/-- A call masks the timer first. -/
theorem obeys_mask {q : Unit → Lib Int} (hq : (q ()).Obeys (callFacts c)) :
    (maskTimer >>= q).Obeys (callFacts c) :=
  ⟨fun _ _ => Finset.Subset.refl _, hq⟩

/-- After `free_threads` the process unmasks the timer and exits. -/
theorem obeys_free {code : Int} (hc : c.Ends code) {α : Type} {q : α → Lib Int} :
    (markFreed >>= fun _ => unmaskTimer >>= fun _ => (exit code : Lib α) >>= q).Obeys
      (callFacts c) := by
  intro s b s' h
  injection h with h
  injection h with _ hs
  refine ⟨Or.inr ⟨hs.symm, code, hc⟩, obeys_unmask ?_⟩
  intro s b s' h
  cases h

/-- `uthread_spawn`: straight code, or the mark of `free_threads` when an allocation
fails. -/
theorem obeys_uthreadSpawn (mem : Malloc) (entryPoint : Option Nat) :
    (uthreadSpawn mem entryPoint).Obeys (callFacts (.spawn mem entryPoint)) := by
  have hF := lenient_call (.spawn mem entryPoint)
  refine obeys_mask ?_
  cases entryPoint with
  | none => exact obeys_reportFinish _ _
  | some entryPoint =>
      refine obeys_calm hF straight_getMinAvailableId (fun newId =>
        obeys_ite (obeys_reportFinish _ _) ?_)
      obtain ⟨stack, thread⟩ := mem
      cases stack with
      | none =>
          have hends : (Call.spawn ⟨none, thread⟩ (some entryPoint)).Ends 1 :=
            ⟨fun hmem => Bool.false_ne_true hmem.1, rfl⟩
          exact obeys_calm hF (straight_report _ _) (fun _ => obeys_free hends (q := pure))
      | some newStack =>
          cases thread with
          | false =>
              have hends : (Call.spawn ⟨some newStack, false⟩ (some entryPoint)).Ends 1 :=
                ⟨fun hmem => Bool.false_ne_true hmem.2, rfl⟩
              exact obeys_calm hF (straight_report _ _) (fun _ => obeys_free hends)
          | true =>
              refine obeys_calm hF straight_freshToken (fun token => ?_)
              refine obeys_calm hF (straight_putThread _ _ rfl) (fun _ => ?_)
              exact obeys_calm hF (straight_pushReady newId) (fun _ => obeys_finish newId)

/-- `uthread_terminate`: straight code and a switch, or the mark of `free_threads` for
the main thread. -/
theorem obeys_uthreadTerminate (tid : Int) :
    (uthreadTerminate order tid).Obeys (callFacts (.terminate tid)) := by
  have hF := lenient_call (.terminate tid)
  refine obeys_mask ?_
  refine obeys_calm hF (straight_unknownTid tid) (fun _ => obeys_ite (obeys_reportFinish _ _) ?_)
  by_cases h0 : tid = 0
  · have hends : (Call.terminate tid).Ends 0 := ⟨h0, rfl⟩
    rw [if_pos h0]
    exact obeys_free hends
  rw [if_neg h0]
  refine obeys_calm hF (straight_deref tid) (fun target => obeys_ite ?_ ?_)
  · refine obeys_calm hF (straight_removeThread tid) (fun _ => ?_)
    refine obeys_calm hF (straight_pushHeap tid) (fun _ => ?_)
    exact obeys_calm hF (straight_removeTidFromReadyQueue tid) (fun _ => obeys_finish _)
  refine obeys_calm hF (straight_deref tid) (fun target => obeys_ite ?_ ?_)
  · refine obeys_calm hF (straight_eraseSleeping tid) (fun _ => ?_)
    refine obeys_calm hF (straight_removeThread tid) (fun _ => ?_)
    exact obeys_calm hF (straight_pushHeap tid) (fun _ => obeys_finish _)
  refine obeys_calm hF (straight_deref tid) (fun target => obeys_ite ?_ (obeys_finish _))
  refine obeys_calm hF (straight_removeThread tid) (fun _ => ?_)
  refine obeys_calm hF (straight_pushHeap tid) (fun _ => ?_)
  refine obeys_calm hF (straight_assign (by decide) (fun _ => ⟨rfl, rfl, rfl, rfl⟩)) (fun _ => ?_)
  exact obeys_bind (obeys_setReadyToRun order (hF.before _)) (fun _ => obeys_finish _)

/-- `uthread_block`: straight code, a save and a switch. -/
theorem obeys_uthreadBlock (tid : Int) :
    (uthreadBlock order tid).Obeys (callFacts (.block tid)) := by
  have hF := lenient_call (.block tid)
  refine obeys_mask ?_
  refine obeys_calm hF (straight_legalId _ tid) (fun _ => obeys_ite (obeys_reportFinish _ _) ?_)
  refine obeys_calm hF (straight_deref tid) (fun target => obeys_ite (obeys_finish _) ?_)
  refine obeys_calm hF (straight_deref tid) (fun target => obeys_ite ?_ ?_)
  · exact obeys_calm hF (straight_setState tid .blocked) (fun _ => obeys_finish _)
  refine obeys_calm hF (straight_deref tid) (fun target => obeys_ite ?_ ?_)
  · refine obeys_calm hF (straight_setState tid .blocked) (fun _ => ?_)
    refine obeys_calm hF (straight_read (by decide) _) (fun curr => ?_)
    refine obeys_sigsetjmp (fun _ _ _ _ h => h) curr .uthreadBlock ?_ ⟨trivial, rfl⟩
      (obeys_finish _)
    exact obeys_bind (obeys_setReadyToRun order (hF.before _)) (fun _ => obeys_finish _)
  refine obeys_calm hF (straight_deref tid) (fun target => obeys_ite ?_ (obeys_finish _))
  refine obeys_calm hF (straight_removeTidFromReadyQueue tid) (fun _ => ?_)
  exact obeys_calm hF (straight_setState tid .blocked) (fun _ => obeys_finish _)

/-- `uthread_resume`: straight code. -/
theorem obeys_uthreadResume (tid : Int) : (uthreadResume tid).Obeys (callFacts (.resume tid)) := by
  have hF := lenient_call (.resume tid)
  refine obeys_mask ?_
  refine obeys_calm hF (straight_legalId _ tid) (fun _ => obeys_ite (obeys_reportFinish _ _) ?_)
  refine obeys_calm hF (straight_deref tid) (fun target => obeys_ite (obeys_finish _) ?_)
  refine obeys_calm hF (straight_deref tid) (fun target => obeys_ite ?_ (obeys_finish _))
  refine obeys_calm hF (straight_deref tid) (fun target => obeys_ite ?_ ?_)
  · refine obeys_calm hF (straight_setState tid .ready) (fun _ => ?_)
    exact obeys_calm hF (straight_pushReady tid) (fun _ => obeys_finish _)
  · exact obeys_calm hF (straight_setState tid .sleeping) (fun _ => obeys_finish _)

/-- `uthread_sleep`: straight code, a save and a switch. -/
theorem obeys_uthreadSleep (numQuantums : Int) :
    (uthreadSleep order numQuantums).Obeys (callFacts (.sleep numQuantums)) := by
  have hF := lenient_call (.sleep numQuantums)
  refine obeys_mask ?_
  refine obeys_calm hF (straight_read (by decide) _)
    (fun _ => obeys_ite (obeys_reportFinish _ _) ?_)
  refine obeys_calm hF (straight_read (by decide) _) (fun curr => ?_)
  refine obeys_sigsetjmp (fun _ _ _ _ h => h) curr .uthreadSleep ?_ ⟨trivial, rfl⟩ (obeys_finish _)
  refine obeys_calm hF (straight_update curr (fun _ => rfl)) (fun _ => ?_)
  refine obeys_calm hF (straight_setState curr .sleeping) (fun _ => ?_)
  refine obeys_calm hF (straight_insertSleeping curr) (fun _ => ?_)
  exact obeys_bind (obeys_setReadyToRun order (hF.before _)) (fun _ => obeys_finish _)

/-- `uthread_get_quantums`: reads. -/
theorem obeys_uthreadGetQuantums (tid : Int) :
    (uthreadGetQuantums tid).Obeys (callFacts (.getQuantums tid)) := by
  have hF := lenient_call (.getQuantums tid)
  refine obeys_calm hF (straight_legalId _ tid) (fun legal => obeys_ite ?_ (obeys_pure _))
  refine obeys_calm hF (straight_loadPtr tid) (fun thread => ?_)
  exact obeys_calm hF (straight_derefPtr thread) (fun _ => obeys_pure _)

/-- The handler: a save and a switch. -/
theorem obeys_timerHandler : (timerHandler order).Obeys handlerFacts := by
  refine obeys_calm lenient_handler (straight_read (by decide) _) (fun curr => ?_)
  refine obeys_sigsetjmp (fun _ _ _ _ h => h) curr .timerHandler ?_ rfl (obeys_pure _)
  exact obeys_setReadyToRun order lenient_handler

/-- **The library obeys the facts.** -/
theorem machine_obeys : (machine order).Obeys callFacts handlerFacts where
  call := by
    intro c
    cases c with
    | spawn mem entryPoint => exact obeys_uthreadSpawn mem entryPoint
    | terminate tid => exact obeys_uthreadTerminate order tid
    | block tid => exact obeys_uthreadBlock order tid
    | resume tid => exact obeys_uthreadResume tid
    | sleep n => exact obeys_uthreadSleep order n
    | getTid => exact (straight_read (by decide) _).obeys (lenient_call _).stmt
    | getTotalQuantums => exact (straight_read (by decide) _).obeys (lenient_call _).stmt
    | getQuantums tid => exact obeys_uthreadGetQuantums tid
  handler := obeys_timerHandler order

end Calls

/-! ## §4. Runs. -/

/-- Control and the saved contexts of a run. -/
abbrev InCode (c : Cpu) : Prop := System.Within callFacts handlerFacts c

/-- A reachable machine has been run from a booted one. -/
theorem CpuReachable.steps {order : IterOrder} {c : Cpu} (h : CpuReachable order c) :
    ∃ c₀, Booted c₀ ∧ ReflTransGen (machine order).Step c₀ c := by
  obtain ⟨c₀, h₀, hrun⟩ := h
  exact ⟨c₀, h₀, hrun.lift id (fun _ _ hstep => hstep.2)⟩

/-- Wherever it is, it is in the code of a call, of the handler or of the user. -/
theorem CpuReachable.within {order : IterOrder} {c : Cpu} (h : CpuReachable order c) :
    InCode c := by
  obtain ⟨c₀, h₀, hrun⟩ := h.steps
  exact System.Within.run (machine_obeys order) (.start h₀.ctrl h₀.conts) hrun

end UThreads
