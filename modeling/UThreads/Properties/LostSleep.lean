/-
  UThreads.Properties.LostSleep
  ─────────────────────────────
  **A SLEEP OF ZERO OR FEWER QUANTA LOSES THE THREAD.**

  `uthread_sleep` does not check its argument, and the countdown is decremented
  before it is compared with 0.  A countdown that starts at 0 or below never
  meets the test: only a block and a resume, or a termination, by another thread
  end such a sleep.
-/
import UThreads.Properties.Scheduler

namespace UThreads

open Interruptible Runs

/-! ## §1. A countdown below zero. -/

/-- The thread is SLEEPING, in the set, with a countdown that only moves away
from 0. -/
def State.Lost (s : State) (tid : Int) : Prop :=
  tid ∈ s.sleepingThreads ∧ tid ∉ s.readyThreads
    ∧ ∃ t, s.threads.get tid = some t ∧ t.state = .sleeping ∧ t.sleepingTime < 0

/-- The event blocks or terminates `tid`. -/
def Event.Frees (tid : Int) (e : Event) : Prop :=
  e = .call (.block tid) ∨ e = .call (.terminate tid)

instance (tid : Int) (e : Event) : Decidable (e.Frees tid) :=
  inferInstanceAs (Decidable (_ ∨ _))

section Step

variable {order : IterOrder} {s s' p : State} {tid next : Int} {rest : List Int} {t u : Thread}
  {e : Event}

/-- The record decides: the queue and the set follow it. -/
theorem State.Lost.of_record (hw : WellFormed s) (ht : s.threads.get tid = some t)
    (hst : t.state = .sleeping) (hneg : t.sleepingTime < 0) : s.Lost tid :=
  ⟨hw.sleepMem tid t ht (Or.inl hst), hw.notMem_ready ht (by simp [hst]), t, ht, hst, hneg⟩

/-- A dispatch counts a sleeper with a countdown below one further down. -/
theorem dispatched_sinks (order : IterOrder) (rest : List Int) (hp : Paused p)
    (hu : p.threads.get next = some u) (hready : u.state = .ready)
    (ht : p.threads.get tid = some t) (hst : t.state = .sleeping) (hcount : t.sleepingTime ≤ 0) :
    ∃ t', (p.dispatched order next rest u).threads.get tid = some t' ∧ t'.state = .sleeping
      ∧ t'.sleepingTime = t.sleepingTime - 1 := by
  have hne : tid ≠ next := by
    intro he
    obtain rfl := same_record (he ▸ ht) hu
    cases hst.symm.trans hready
  have hz : t.sleepingTime - 1 ≠ 0 := by omega
  refine ⟨wakeRecord t, ?_, (wakeRecord_sleeping t).mpr ⟨hz, hst⟩, ?_⟩
  · rw [dispatched_get_ne hu hne, if_pos (hp.sleepMem tid t ht (Or.inl hst)), ht]
    rfl
  · rw [wakeRecord_sleepingTime, if_neg hz]

/-- **A lost thread stays lost** until it is blocked or terminated. -/
theorem State.Lost.step (h : s.Lost tid) (hw : WellFormed s) (hfree : ¬ e.Frees tid)
    (hs : UThreads.step order s e = some s') : s'.Lost tid := by
  obtain ⟨_, _, t, ht, hst, hneg⟩ := h
  -- every other call is about another thread
  have hother : ∀ i v, s.threads.get i = some v → v.state ≠ .sleeping → tid ≠ i := by
    intro i v hv hvst he
    obtain rfl := same_record (he ▸ ht) hv
    exact hvst hst
  have hkeep : ∀ i (v : Option Thread), tid ≠ i → WellFormed s' →
      s'.threads.get tid = (if tid = i then v else s.threads.get tid) → s'.Lost tid := by
    intro i v hne hw' hget
    exact .of_record hw' (hget.trans ((if_neg hne).trans ht)) hst hneg
  have hw' := hw.step hs
  have he := step_effect hw hs
  cases he with
  | reject c line hr => exact .of_record hw' ht hst hneg
  | idle c hi => exact .of_record hw' ht hst hneg
  | spawn newStack entryPoint newId ids hids =>
      exact hkeep newId _ (hw.ne_heap_top ht hids) hw'
        (Table.get_set s.threads (hw.heap_top_free hids).1 _ tid)
  | retireIdle i v h0 hv hvst =>
      refine hkeep i none (hother i v hv ?_) hw' (retire_get hv tid)
      rcases hvst with hvst | hvst <;> simp [hvst]
  | retireSleeping i v h0 hv hvst =>
      have hne : tid ≠ i := by
        intro he
        exact hfree (Or.inr (he ▸ rfl))
      exact hkeep i none hne hw' (retire_get hv tid)
  | blockSleeping i v h0 hv hvst =>
      have hne : tid ≠ i := by
        intro he
        exact hfree (Or.inl (he ▸ rfl))
      exact hkeep i _ hne hw' (setThread_get hv _ tid)
  | blockReady i v h0 hv hvst =>
      exact hkeep i _ (hother i v hv (by simp [hvst])) hw' (setThread_get hv _ tid)
  | resumeBlocked i v h0 hv hvst hsl =>
      exact hkeep i _ (hother i v hv (by simp [hvst])) hw' (setThread_get hv _ tid)
  | resumeCounting i v h0 hv hvst hsl =>
      exact hkeep i _ (hother i v hv (by simp [hvst])) hw' (setThread_get hv _ tid)
  | switch e v p next rest u hcurr hrun hp hq hu hready hlive =>
      -- the running thread is another one, so the suspension leaves the sleeper alone
      have hne : tid ≠ s.currThreadId := hother _ v hcurr (by simp [hrun])
      obtain ⟨hget, _, _⟩ := hp.frame hcurr hne
      obtain ⟨t', ht', hst', hcount⟩ := dispatched_sinks order rest
        (hw.suspends hcurr hrun hp) hu hready (hget.trans ht) hst (by omega)
      exact .of_record hw' ht' hst' (by omega)

/-- **No run wakes a lost thread** without a call that blocks or terminates it. -/
theorem State.Lost.run {es : List Event} (h : s.Lost tid) (hw : WellFormed s)
    (hfree : ∀ e ∈ es, ¬ e.Frees tid) (hrun : Runs.run (UThreads.step order) s es = some s') :
    s'.Lost tid := by
  have hsteps : AllSteps (UThreads.step order) (fun _ e => ¬ e.Frees tid ∧ True) s es :=
    allSteps_and_events es s hfree (allSteps_true es s)
  exact (run_guarded (fun v => WellFormed v ∧ v.Lost tid) (fun _ e => ¬ e.Frees tid ∧ True)
    (fun v e w hI hP hs => ⟨hI.1.step hs, hI.2.step hI.1 hP.1 hs⟩) es s s' ⟨hw, h⟩ hsteps hrun).2

end Step

/-! ## §2. The call. -/

/-- What a sleep that is not positive may do: refuse, and change nothing; or be
over with its own dispatch, the thread READY and in the queue. -/
def SleepsNoLonger (order : IterOrder) (s : State) (numQuantums : Int) : Prop :=
  (∃ m s' m', (uthreadSleep order numQuantums).exec s m = .ret failureReturnValue s' m'
      ∧ s.Same s')
    ∨ ∃ s' t, step order s (.call (.sleep numQuantums)) = some s'
      ∧ s.currThreadId ∉ s'.sleepingThreads ∧ s.currThreadId ∈ s'.readyThreads
      ∧ s'.threads.get s.currThreadId = some t ∧ t.sleepingTime = notSleeping ∧ t.state = .ready

/-- The sleep ends in a dispatch, so it does not return -1. -/
theorem sleep_not_ret {order : IterOrder} {s s' : State} (hw : WellFormed s)
    (h0 : s.currThreadId ≠ 0) (n r : Int) (m m' : SigSet) :
    (uthreadSleep order n).exec s m ≠ .ret r s' m' := by
  obtain ⟨t, ht, hrun⟩ := hw.curr
  rw [exec_uthreadSleep m order n hw.freed h0 ht]
  exact (hw.suspends ht hrun (.sleep h0 n)).dispatch_not_ret order signalSet finish r s' m'

/-- **After a sleep of `n ≤ 0` the caller is lost**, with the countdown at `n - 1`. -/
theorem sleep_loses {order : IterOrder} {s s' : State} (hw : WellFormed s)
    (h0 : s.currThreadId ≠ 0) {n : Int} (hn : n ≤ 0)
    (hs : step order s (.call (.sleep n)) = some s') :
    s'.Lost s.currThreadId
      ∧ ∃ t, s'.threads.get s.currThreadId = some t ∧ t.sleepingTime = n - 1 := by
  have hw' := hw.step hs
  have he := step_effect hw hs
  cases he with
  | reject c line hr => exact absurd hr h0
  | idle c hi => exact absurd hi id
  | switch e v p next rest u hcurr hrun hp hq hu hready hlive =>
      cases hp with
      | sleep _ n =>
          have hget : (s.suspendSleep v n).threads.get s.currThreadId
              = some { v.save s.nextToken .uthreadSleep signalSet with
                  sleepingTime := n, state := .sleeping } :=
            Table.get_set_self s.threads (Table.inRange_of_get hcurr) _
          obtain ⟨t', ht', hst', hcount⟩ := dispatched_sinks order rest
            (hw.suspends hcurr hrun (.sleep h0 n)) hu hready hget rfl hn
          refine ⟨.of_record hw' ht' hst' ?_, t', ht', hcount⟩
          have hcount' : t'.sleepingTime = n - 1 := hcount
          omega

/-- **A sleep that is not positive never ends as it should**: the call does not
refuse, and when its dispatch is complete the caller is SLEEPING.  Unless its count
was the least `int`, which has no predecessor, it is below zero then, and stays so
for as long as nobody blocks or terminates it (and no later decrement overflows: the
counts are unbounded here). -/
theorem nonpositive_sleep_lost {order : IterOrder} {s : State} (h : Reachable order s)
    (h0 : s.currThreadId ≠ 0) {n : Int} (hn : n ≤ 0) :
    ¬ SleepsNoLonger order s n
      ∧ (intMin < n → ∀ s', step order s (.call (.sleep n)) = some s' →
          (∃ t, s'.threads.get s.currThreadId = some t ∧ t.sleepingTime = n - 1)
            ∧ ∀ es s'', (∀ e ∈ es, ¬ e.Frees s.currThreadId) →
                run (step order) s' es = some s'' → s''.Lost s.currThreadId) := by
  have hw := h.wellFormed
  constructor
  · intro hsleep
    rcases hsleep with ⟨m, s', m', hret, _⟩ | ⟨s', t, hs, hout, _⟩
    · exact sleep_not_ret hw h0 n _ m m' hret
    · exact hout (sleep_loses hw h0 hn hs).1.1
  · intro _ s' hs
    obtain ⟨hlost, hcount⟩ := sleep_loses hw h0 hn hs
    exact ⟨hcount, fun es s'' hfree hrun => hlost.run (hw.step hs) hfree hrun⟩

/-- The first thread runs. -/
def firstRuns : List Event := [.call (.spawn ⟨some 4096, true⟩ (some 1)), .tick ∅]

theorem nonpositive_sleep_lost_firstRuns :
    ∃ s, run (step .listing) (initialState 1000) firstRuns = some s
      ∧ s.currThreadId ≠ 0 ∧ ¬ SleepsNoLonger .listing s (-3) := by
  have hend : (run (step .listing) (initialState 1000) firstRuns).map State.currThreadId
      = some 1 := by
    decide +kernel
  obtain ⟨s, hs, hcurr⟩ := Option.map_eq_some_iff.mp hend
  have h0 : s.currThreadId ≠ 0 := by
    rw [hcurr]
    decide
  exact ⟨s, hs, h0, (nonpositive_sleep_lost (reachable_of_run (by decide) hs) h0 (by decide)).1⟩

/-- **`uthread_sleep(0)` loses its caller**: three quanta later it sleeps still,
at -4. -/
theorem sleep_zero_lost :
    ∃ s, run (step .listing) (initialState 1000) firstRuns = some s
      ∧ s.currThreadId = 1 ∧ ¬ SleepsNoLonger .listing s 0
      ∧ ∃ s' t, run (step .listing) s [.call (.sleep 0), .tick ∅, .tick ∅, .tick ∅] = some s'
        ∧ s'.readyThreads = [] ∧ s'.sleepingThreads = [1] ∧ s'.threads.get 1 = some t
        ∧ t.state = .sleeping ∧ t.sleepingTime = -4 := by
  have hfirst : (run (step .listing) (initialState 1000) firstRuns).map (fun s =>
      (s.currThreadId, (step .listing s (.call (.sleep 0))).map State.sleepingThreads))
      = some (1, some [1]) := by
    decide +kernel
  have hend : (run (step .listing) (initialState 1000)
      (firstRuns ++ [.call (.sleep 0), .tick ∅, .tick ∅, .tick ∅])).map (fun s' =>
        (s'.readyThreads, s'.sleepingThreads,
          (s'.threads.get 1).map (fun t => (t.state, t.sleepingTime))))
      = some ([], [1], some (ThreadState.sleeping, -4)) := by
    decide +kernel
  obtain ⟨s, hs, hobs⟩ := Option.map_eq_some_iff.mp hfirst
  injection hobs with hcurr hset
  obtain ⟨s', hrun, hobs'⟩ := Option.map_eq_some_iff.mp hend
  injection hobs' with hready hobs'
  injection hobs' with hsleeping hobs'
  obtain ⟨t, ht, hobs''⟩ := Option.map_eq_some_iff.mp hobs'
  injection hobs'' with hst hcount
  obtain ⟨v, hv, hs'⟩ := run_append.mp hrun
  obtain rfl := Option.some.inj (hs.symm.trans hv)
  refine ⟨s, hs, hcurr, ?_, s', t, hs', hready, hsleeping, ht, hst, hcount⟩
  intro hsleep
  rcases hsleep with ⟨m, v, m', hret, _⟩ | ⟨v, u, hv, hout, _⟩
  · have h0 : s.currThreadId ≠ 0 := by
      rw [hcurr]
      decide
    exact sleep_not_ret (reachable_of_run (by decide) hs).wellFormed h0 0 _ m m' hret
  · -- the caller is in the set
    rw [hv] at hset
    injection hset with hset
    rw [hset, hcurr] at hout
    exact hout (by decide)

end UThreads
