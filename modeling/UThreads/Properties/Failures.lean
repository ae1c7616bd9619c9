/-
  UThreads.Properties.Failures
  ────────────────────────────
  **THE CALLS FAIL WHEN `uthreads.h` SAYS, AND A FAILURE CHANGES NOTHING.**

  Each of the five calls that change the scheduler validates its arguments in its
  own way.  `Call.Fails` is what the header documents, `Answers` is how a call
  can end; a call that suspends its caller is resumed at its last two statements,
  where it returns 0.
-/
import UThreads.Interrupt.Points
import UThreads.Properties.ThreadIds

namespace UThreads

open Interruptible Runs

/-! ## §1. Answers. -/

/-- The failures that `uthreads.h` documents. -/
def Call.Fails (s : State) : Call → Prop
  | .spawn _ entryPoint => entryPoint = none ∨ s.liveCount = maxThreadNum
  | .terminate tid      => s.live tid = false
  | .block tid          => tid = 0 ∨ s.live tid = false
  | .resume tid         => tid = 0 ∨ s.live tid = false
  | .sleep _            => s.currThreadId = 0
  | _                   => False

/-- What a call returns when it does not fail: 0, and `uthread_spawn` the id of a
thread that is live now and was not. -/
def Call.Succeeds (s : State) (r : Int) (s' : State) : Call → Prop
  | .spawn _ _ => s.live r = false ∧ s'.live r = true
  | _          => r = successReturnValue

/-- How a call can end, up to the next context switch: with -1, one line of text
and the timer unmasked; with a success, the timer unmasked; or without returning. -/
inductive Answers (s : State) (c : Call) : Outcome State SigSet Stop Int → Prop where
  | fails (line : String) (h : c.Fails s) :
      Answers s c (.ret failureReturnValue (s.print line) (signalSet \ signalSet))
  | succeeds (r : Int) (s' : State) (h : ¬ c.Fails s) (hr : c.Succeeds s r s')
      (hne : r ≠ failureReturnValue) : Answers s c (.ret r s' (signalSet \ signalSet))
  | leaves (o : Outcome State SigSet Stop Int) (h : ¬ c.Fails s) (ho : ∀ r s' m, o ≠ .ret r s' m) :
      Answers s c o

section Calls

variable {order : IterOrder} {s : State} (m : SigSet)

/-- A call returns 0 in the state `s'`. -/
theorem answers_zero {c : Call} {s' : State} (h : ¬ c.Fails s)
    (hc : c.Succeeds s successReturnValue s') :
    Answers s c (.ret successReturnValue s' (signalSet \ signalSet)) :=
  .succeeds _ s' h hc (by decide)

/-- `uthread_spawn` answers with an id, or fails for the documented reasons. -/
theorem spawn_answers (hw : WellFormed s) (mem : Malloc) (entryPoint : Option Nat) :
    Answers s (.spawn mem entryPoint) ((uthreadSpawn mem entryPoint).exec s m) := by
  cases entryPoint with
  | none =>
      rw [exec_uthreadSpawn_null]
      exact .fails _ (Or.inl rfl)
  | some entryPoint =>
      cases hheap : s.minHeapId with
      | nil =>
          rw [exec_uthreadSpawn_full mem entryPoint m hheap]
          exact .fails _ (Or.inr (hw.heap_nil_iff.mp hheap))
      | cons newId ids =>
          obtain ⟨hr, hfree, _⟩ := hw.heap_top hheap
          have hno : ¬ (Call.spawn mem (some entryPoint)).Fails s := by
            intro hfail
            rcases hfail with hfail | hfull
            · cases hfail
            · rw [hw.heap_nil_iff.mpr hfull] at hheap
              cases hheap
          by_cases hmem : mem.Succeeds
          · obtain ⟨newStack, rfl⟩ := hmem.eq
            rw [exec_uthreadSpawn newStack entryPoint m hheap hr.1]
            refine .succeeds newId _ hno ⟨hfree, ?_⟩ ?_
            · show ((s.threads.set newId _).get newId).isSome = true
              rw [Table.get_set_self s.threads hr]
              rfl
            · have := hr.1
              unfold failureReturnValue
              omega
          · -- without memory the process exits
            rw [exec_uthreadSpawn_nomem hmem entryPoint m hheap hr.1]
            exact .leaves _ hno nofun

/-- `uthread_terminate` fails for an id that nobody has. -/
theorem terminate_answers (hw : WellFormed s) (tid : Int) :
    Answers s (.terminate tid) ((uthreadTerminate order tid).exec s m) := by
  cases ht : s.threads.get tid with
  | none =>
      rw [exec_uthreadTerminate_unknown order m ht]
      exact .fails _ (not_live.mpr ht)
  | some t =>
      have hno : ¬ (Call.terminate tid).Fails s := by
        intro hfail
        cases (not_live.mp hfail).symm.trans ht
      by_cases h0 : tid = 0
      · subst h0
        rw [exec_uthreadTerminate_main order m hw.main_live]
        exact .leaves _ hno nofun
      · cases hst : t.state with
        | ready =>
            rw [exec_uthreadTerminate_idle order m hw.freed h0 ht (Or.inl hst)]
            exact answers_zero hno rfl
        | blocked =>
            rw [exec_uthreadTerminate_idle order m hw.freed h0 ht (Or.inr hst)]
            exact answers_zero hno rfl
        | sleeping =>
            rw [exec_uthreadTerminate_sleeping order m hw.freed h0 ht hst
              (hw.sleepMem tid t ht (Or.inl hst))]
            exact answers_zero hno rfl
        | running =>
            have htid := hw.onlyCurr tid t ht hst
            subst htid
            rw [exec_uthreadTerminate_self m order hw.freed h0 ht hst]
            exact .leaves _ hno
              ((hw.suspends ht hst (.terminate h0)).dispatch_not_ret order signalSet finish)

/-- `uthread_block` fails for the main thread and for an id that nobody has. -/
theorem block_answers (hw : WellFormed s) (tid : Int) :
    Answers s (.block tid) ((uthreadBlock order tid).exec s m) := by
  by_cases hillegal : tid = 0 ∨ s.threads.get tid = none
  · rw [exec_uthreadBlock_illegal order m hillegal]
    exact .fails _ (hillegal.imp_right not_live.mpr)
  · have hno : ¬ (Call.block tid).Fails s := fun hfail => hillegal (hfail.imp_right not_live.mp)
    obtain ⟨h0, hlive⟩ := not_or.mp hillegal
    obtain ⟨t, ht⟩ := Option.ne_none_iff_exists'.mp hlive
    cases hst : t.state with
    | blocked =>
        rw [exec_uthreadBlock_blocked m order hw.freed h0 ht hst]
        exact answers_zero hno rfl
    | sleeping =>
        rw [exec_uthreadBlock_sleeping m order hw.freed h0 ht hst]
        exact answers_zero hno rfl
    | ready =>
        rw [exec_uthreadBlock_ready m order hw.freed h0 ht hst]
        exact answers_zero hno rfl
    | running =>
        have htid := hw.onlyCurr tid t ht hst
        subst htid
        rw [exec_uthreadBlock_self m order hw.freed h0 ht hst]
        exact .leaves _ hno
          ((hw.suspends ht hst (.block h0)).dispatch_not_ret order signalSet finish)

/-- `uthread_resume` fails for the same reasons. -/
theorem resume_answers (hw : WellFormed s) (tid : Int) :
    Answers s (.resume tid) ((uthreadResume tid).exec s m) := by
  by_cases hillegal : tid = 0 ∨ s.threads.get tid = none
  · rw [exec_uthreadResume_illegal m hillegal]
    exact .fails _ (hillegal.imp_right not_live.mpr)
  · have hno : ¬ (Call.resume tid).Fails s := fun hfail => hillegal (hfail.imp_right not_live.mp)
    obtain ⟨h0, hlive⟩ := not_or.mp hillegal
    obtain ⟨t, ht⟩ := Option.ne_none_iff_exists'.mp hlive
    by_cases hst : t.state = .blocked
    · by_cases hsl : t.sleepingTime = notSleeping
      · rw [exec_uthreadResume_blocked m hw.freed h0 ht hst hsl]
        exact answers_zero hno rfl
      · rw [exec_uthreadResume_counting m hw.freed h0 ht hst hsl]
        exact answers_zero hno rfl
    · rw [exec_uthreadResume_other m hw.freed h0 ht hst]
      exact answers_zero hno rfl

/-- `uthread_sleep` fails for the main thread. -/
theorem sleep_answers (hw : WellFormed s) (n : Int) :
    Answers s (.sleep n) ((uthreadSleep order n).exec s m) := by
  obtain ⟨t, ht, hst⟩ := hw.curr
  by_cases h0 : s.currThreadId = 0
  · rw [exec_uthreadSleep_main m order n h0]
    exact .fails _ h0
  · rw [exec_uthreadSleep m order n hw.freed h0 ht]
    exact .leaves _ h0
      ((hw.suspends ht hst (.sleep h0 n)).dispatch_not_ret order signalSet finish)

/-- **Every call that changes something answers as documented.** -/
theorem call_answers (order : IterOrder) (hw : WellFormed s) {c : Call} (hc : c.Mutates) :
    Answers s c ((c.prog order).exec s m) := by
  cases c with
  | spawn mem entryPoint => exact spawn_answers m hw mem entryPoint
  | terminate tid => exact terminate_answers m hw tid
  | block tid => exact block_answers m hw tid
  | resume tid => exact resume_answers m hw tid
  | sleep n => exact sleep_answers m hw n
  | _ => exact absurd hc id

end Calls

/-! ## §2. Failures. -/

/-- Behind `unmask_timer` the timer is not blocked. -/
theorem timer_unmasked : sigvtalrm ∉ signalSet \ signalSet := by
  simp

/-- What an answer says about a return. -/
theorem Answers.ret {s s' : State} {c : Call} {r : Int} {m : SigSet}
    (h : Answers s c (.ret r s' m)) :
    sigvtalrm ∉ m ∧ (r = failureReturnValue → c.Fails s ∧ s.Same s')
      ∧ (r ≠ failureReturnValue → ¬ c.Fails s ∧ c.Succeeds s r s') := by
  cases h with
  | fails line hf =>
      exact ⟨timer_unmasked, fun _ => ⟨hf, rfl, rfl, rfl, rfl, rfl, rfl⟩, fun hne => absurd rfl hne⟩
  | succeeds r s' hf hr hne => exact ⟨timer_unmasked, fun he => absurd he hne, fun _ => ⟨hf, hr⟩⟩
  | leaves o hf ho => exact absurd rfl (ho r s' m)

/-- **The failed calls are the documented ones, and they are atomic.**  A call
returns -1 exactly when it should; then the scheduler is as before and the timer
unmasked; a call that returns something else has succeeded.  A call that
suspends its caller returns after a later dispatch: it is resumed in code that
unmasks the timer and returns 0. -/
theorem failures_documented_and_atomic (order : IterOrder) :
    (∀ s, Reachable order s → ∀ c : Call, c.Mutates → ∀ m,
        (c.Fails s ↔ ∃ s' m', (c.prog order).exec s m = .ret failureReturnValue s' m')
          ∧ ∀ r s' m', (c.prog order).exec s m = .ret r s' m' →
              sigvtalrm ∉ m' ∧ (r = failureReturnValue → s.Same s')
                ∧ (r ≠ failureReturnValue → c.Succeeds s r s'))
      ∧ ∀ cpu, CpuReachable order cpu → ∀ n c begun p, cpu.conts n = some (.call c begun p) →
          c.Waits ∧ ∀ s m, p.exec s m = .ret successReturnValue s (m \ signalSet) := by
  constructor
  · intro s hreach c hc m
    have hall := call_answers m order hreach.wellFormed hc
    refine ⟨⟨?_, ?_⟩, ?_⟩
    · intro hfail
      cases hexec : (c.prog order).exec s m with
      | ret r s' m' =>
          by_cases hr : r = failureReturnValue
          · exact ⟨s', m', hr ▸ rfl⟩
          · rw [hexec] at hall
            exact absurd hfail (hall.ret.2.2 hr).1
      | jump t s' m' =>
          rw [hexec] at hall
          cases hall with
          | leaves _ hno _ => exact absurd hfail hno
      | stop e =>
          rw [hexec] at hall
          cases hall with
          | leaves _ hno _ => exact absurd hfail hno
    · intro hret
      obtain ⟨s', m', hexec⟩ := hret
      rw [hexec] at hall
      exact (hall.ret.2.1 rfl).1
    · intro r s' m' hexec
      rw [hexec] at hall
      obtain ⟨hmask, hfail, hsucc⟩ := hall.ret
      exact ⟨hmask, fun he => (hfail he).2, fun hne => (hsucc hne).2⟩
  · intro cpu hreach n c begun p hn
    obtain ⟨hwaits, rfl⟩ := (hreach.within.conts n _ hn).2
    exact ⟨hwaits, fun _ _ => rfl⟩

/-- The first thread runs, and blocks itself. -/
def blocksItself : List (Move SigSet Call) :=
  .invoke (.spawn ⟨some 4096, true⟩ (some 1)) :: List.replicate 9 .next
    ++ .arrive :: .deliver :: List.replicate 15 .next
    ++ .invoke (.block 1) :: List.replicate 8 .next

/-- A call that is saved, if one is. -/
def savedCall : Option (Ctrl State SigSet Stop Access Call Int) → Option Call
  | some (.call c _ _) => some c
  | _                  => none

/-- A context saved by a call is one of that call. -/
theorem savedCall_eq {ctrl : Option (Ctrl State SigSet Stop Access Call Int)} {c : Call}
    (h : savedCall ctrl = some c) : ∃ begun p, ctrl = some (.call c begun p) := by
  unfold savedCall at h
  split at h
  · injection h with h
    subst h
    exact ⟨_, _, rfl⟩
  · cases h

/-- The main thread cannot be blocked; a thread that has blocked itself will return 0. -/
theorem failures_documented_mixedRun :
    (∃ s, run (step .listing) (initialState 1000) mixedRun = some s
      ∧ ∃ s' m', (uthreadBlock .listing 0).exec s ∅ = .ret failureReturnValue s' m'
        ∧ s.Same s' ∧ sigvtalrm ∉ m')
      ∧ ∃ cpu begun p, CpuReachable .listing cpu
        ∧ cpu.conts 3 = some (.call (.block 1) begun p)
        ∧ ∀ s m, p.exec s m = .ret successReturnValue s (m \ signalSet) := by
  obtain ⟨hcalls, hsuspended⟩ := failures_documented_and_atomic .listing
  constructor
  · obtain ⟨s, hs⟩ := Option.isSome_iff_exists.mp mixedRun_ends
    obtain ⟨hfails, hret⟩ := hcalls s (reachable_of_run (by decide) hs) (.block 0) trivial ∅
    obtain ⟨s', m', hexec⟩ := hfails.mp (Or.inl rfl)
    obtain ⟨hmask, hsame, _⟩ := hret _ s' m' hexec
    exact ⟨s, hs, s', m', hexec, hsame rfl, hmask⟩
  · have hrun : (goOn .listing blocksItself (startCpu 1000)).map (fun cpu => savedCall (cpu.conts 3))
        = some (some (.block 1)) := by
      with_unfolding_all rfl
    obtain ⟨cpu, hcpu, hobs⟩ := Option.map_eq_some_iff.mp hrun
    obtain ⟨begun, p, hconts⟩ := savedCall_eq hobs
    have hreach : CpuReachable .listing cpu := (cpuReachable_start .listing (by decide)).goOn hcpu
    exact ⟨cpu, begun, p, hreach, hconts, (hsuspended cpu hreach 3 _ begun p hconts).2⟩

end UThreads
