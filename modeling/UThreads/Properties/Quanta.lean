/-
  UThreads.Properties.Quanta
  ──────────────────────────
  **QUANTA ARE CONSERVED.**

  Every dispatch adds one to `total_quantom` and to the `quantum` of the thread
  that gets the CPU; nothing else writes either.  So the total is the sum of
  what the live threads have and what the terminated ones had.
-/
import UThreads.Properties.History
import UThreads.Properties.RoundRobin

namespace UThreads

open Interruptible Runs

/-! ## §1. The invariant. -/

/-- What the counters count. -/
structure Quanta (s : State) : Prop where
  /-- a thread's quantum is the number of its lifetime's resumes -/
  perThread : ∀ i t, s.threads.get i = some t →
    t.quantum = dispatches i s.history + if i = 0 then 1 else 0
  total : s.totalQuantom = 1 + resumeCount s.history
  sum : s.totalQuantom = s.threads.sum Thread.quantum + retiredQuanta s.history

section OneEntry

variable {s s' : State} {tid : Int} {t t' : Thread}

/-- A new record with the old quantum changes nothing that is counted. -/
theorem Quanta.replace (h : Quanta s) (ht : s.threads.get tid = some t)
    (hthreads : s'.threads = s.threads.set tid (some t')) (hquantum : t'.quantum = t.quantum)
    (htotal : s'.totalQuantom = s.totalQuantom) (hhistory : s'.history = s.history) :
    Quanta s' := by
  have hr := Table.inRange_of_get ht
  refine ⟨?_, by rw [htotal, hhistory]; exact h.total, ?_⟩
  · intro i u hu
    rw [hthreads, Table.get_set _ hr] at hu
    rw [hhistory]
    by_cases hi : i = tid
    · rw [if_pos hi] at hu
      injection hu with hu
      rw [← hu, hquantum, hi]
      exact h.perThread tid t ht
    · rw [if_neg hi] at hu
      exact h.perThread i u hu
  · rw [htotal, hhistory, hthreads, Table.sum_set _ _ hr, ht]
    have := h.sum
    simp only [Option.map_some, Option.getD_some]
    omega

/-- A record that is freed leaves its quantum behind. -/
theorem Quanta.remove (h : Quanta s) (ht : s.threads.get tid = some t)
    (hthreads : s'.threads = s.threads.set tid none)
    (htotal : s'.totalQuantom = s.totalQuantom)
    (hhistory : s'.history = s.history ++ [.terminated tid t.quantum]) :
    Quanta s' := by
  have hr := Table.inRange_of_get ht
  refine ⟨?_, ?_, ?_⟩
  · intro i u hu
    rw [hthreads, Table.get_set _ hr] at hu
    rw [hhistory, dispatches_snoc]
    by_cases hi : i = tid
    · rw [if_pos hi] at hu
      cases hu
    · rw [if_neg hi] at hu
      exact h.perThread i u hu
  · rw [htotal, hhistory, resumeCount_snoc, h.total]
    simp only [JmpEvent.resumes]
    omega
  · rw [htotal, hhistory, retiredQuanta_snoc, hthreads, Table.sum_set _ _ hr, ht]
    have := h.sum
    simp only [Option.map_some, Option.getD_some, Option.map_none, Option.getD_none,
      JmpEvent.finalQuantum]
    omega

/-- A new record starts a lifetime with quantum 0. -/
theorem Quanta.add (h : Quanta s) (hr : Table.InRange maxThreadNum tid)
    (hnull : s.threads.get tid = none) (h0 : tid ≠ 0)
    (hthreads : s'.threads = s.threads.set tid (some t')) (hquantum : t'.quantum = 0)
    (htotal : s'.totalQuantom = s.totalQuantom) {token address : Nat}
    (hhistory : s'.history = s.history ++ [.spawned tid token address]) :
    Quanta s' := by
  refine ⟨?_, ?_, ?_⟩
  · intro i u hu
    rw [hthreads, Table.get_set _ hr] at hu
    rw [hhistory, dispatches_snoc]
    by_cases hi : i = tid
    · rw [if_pos hi] at hu
      injection hu with hu
      rw [← hu, hquantum, hi]
      simp [countLife, h0]
    · rw [if_neg hi] at hu
      rw [countLife, if_neg (Ne.symm hi)]
      exact h.perThread i u hu
  · rw [htotal, hhistory, resumeCount_snoc, h.total]
    simp only [JmpEvent.resumes]
    omega
  · rw [htotal, hhistory, retiredQuanta_snoc, hthreads, Table.sum_set _ _ hr, hnull]
    have := h.sum
    simp only [Option.map_some, Option.getD_some, Option.map_none, Option.getD_none,
      JmpEvent.finalQuantum, hquantum]
    omega

/-- A save is not counted. -/
theorem Quanta.record_saved (h : Quanta s) (i : Int) (token : Nat) (site : JmpSite)
    (hthreads : s'.threads = s.threads) (htotal : s'.totalQuantom = s.totalQuantom)
    (hhistory : s'.history = s.history ++ [.saved i token site]) : Quanta s' := by
  refine ⟨?_, ?_, ?_⟩
  · intro j u hu
    rw [hthreads] at hu
    rw [hhistory, dispatches_snoc]
    exact h.perThread j u hu
  · rw [htotal, hhistory, resumeCount_snoc, h.total]
    simp only [JmpEvent.resumes]
    omega
  · rw [htotal, hhistory, retiredQuanta_snoc, hthreads, h.sum]
    simp only [JmpEvent.finalQuantum]
    omega

end OneEntry

/-! ## §2. The context switch. -/

section Switch

variable {order : IterOrder} {s p : State} {t u : Thread} {e : Event} {next : Int}
  {rest : List Int}

/-- Saving the running thread keeps its quantum. -/
theorem Quanta.saveCurrent (h : Quanta s) (hcurr : s.threads.get s.currThreadId = some t)
    (t' : Thread) (site : JmpSite) (hquantum : t'.quantum = t.quantum) :
    Quanta (s.saveCurrent t' site) := by
  have hset : Quanta (s.setThread s.currThreadId (some t')) :=
    h.replace hcurr rfl hquantum rfl rfl
  exact hset.record_saved s.currThreadId s.nextToken site rfl rfl rfl

theorem Quanta.suspends (h : Quanta s) (hcurr : s.threads.get s.currThreadId = some t)
    (hp : Suspends s t e p) : Quanta p := by
  cases hp with
  | tick mask =>
      have hsave := h.saveCurrent hcurr { t.save s.nextToken .timerHandler
        (insert sigvtalrm mask) with state := .ready } .timerHandler rfl
      exact ⟨hsave.perThread, hsave.total, hsave.sum⟩
  | block h0 =>
      exact h.saveCurrent hcurr { t.save s.nextToken .uthreadBlock signalSet with
        state := .blocked } .uthreadBlock rfl
  | sleep h0 n =>
      have hsave := h.saveCurrent hcurr { t.save s.nextToken .uthreadSleep signalSet with
        sleepingTime := n, state := .sleeping } .uthreadSleep rfl
      exact ⟨hsave.perThread, hsave.total, hsave.sum⟩
  | terminate h0 =>
      have hremove : Quanta (s.retire s.currThreadId t) := h.remove hcurr rfl rfl rfl
      exact ⟨hremove.perThread, hremove.total, hremove.sum⟩

/-- **A dispatch adds one** to the total, to the thread that runs and to the
number of resumes. -/
theorem Quanta.dispatched (h : Quanta p) (hu : p.threads.get next = some u) :
    Quanta (p.dispatched order next rest u) := by
  have hr := Table.inRange_of_get hu
  refine ⟨?_, ?_, ?_⟩
  · intro i t' ht'
    obtain ⟨v, hv, hcase⟩ := dispatched_get_cases hu ht'
    -- the wake-up does not touch the quantum
    have hquantum : t'.quantum = v.quantum := by
      rcases hcase with ⟨_, rfl⟩ | ⟨_, rfl⟩
      · exact wakeRecord_quantum v
      · rfl
    rw [hquantum, dispatched_history, dispatches_snoc]
    by_cases hi : i = next
    · rw [if_pos hi] at hv
      injection hv with hv
      -- one more resume of this lifetime, one more quantum
      have hold := h.perThread next u hu
      rw [← hv, hi, countLife, if_pos rfl]
      simp only [Thread.started]
      omega
    · rw [if_neg hi] at hv
      rw [countLife, if_neg (Ne.symm hi)]
      exact h.perThread i v hv
  · rw [dispatched_total, dispatched_history, resumeCount_snoc, h.total]
    simp only [JmpEvent.resumes]
    omega
  · rw [dispatched_total, dispatched_history, retiredQuanta_snoc]
    -- the wake-up moves no quantum
    have hsum : (p.dispatched order next rest u).threads.sum Thread.quantum
        = p.threads.sum Thread.quantum + 1 := by
      show ((p.threads.set next (some u.started)).mapOn _ wakeRecord).sum Thread.quantum = _
      rw [Table.sum_mapOn _ _ _ _ wakeRecord_quantum, Table.sum_set _ _ hr, hu]
      simp only [Option.map_some, Option.getD_some, Thread.started]
      omega
    have := h.sum
    rw [hsum]
    simp only [JmpEvent.finalQuantum]
    omega

end Switch

/-! ## §3. Every step and every run. -/

theorem Quanta.effect {order : IterOrder} {s s' : State} {e : Event} (hw : WellFormed s)
    (h : Quanta s) (he : Effect order s e s') : Quanta s' := by
  cases he with
  | reject c line hr => exact ⟨h.perThread, h.total, h.sum⟩
  | idle c hi => exact h
  | spawn newStack entryPoint newId ids hids =>
      obtain ⟨hr, hnull⟩ := hw.heap_top_free hids
      exact h.add hr hnull (hw.ne_main_of_null hnull) rfl rfl rfl rfl
  | retireIdle tid t h0 ht hst =>
      have hremove : Quanta (s.retire tid t) := h.remove ht rfl rfl rfl
      exact ⟨hremove.perThread, hremove.total, hremove.sum⟩
  | retireSleeping tid t h0 ht hst =>
      have hremove : Quanta (s.retire tid t) := h.remove ht rfl rfl rfl
      exact ⟨hremove.perThread, hremove.total, hremove.sum⟩
  | blockSleeping tid t h0 ht hst => exact h.replace ht rfl rfl rfl rfl
  | blockReady tid t h0 ht hst => exact h.replace ht rfl rfl rfl rfl
  | resumeBlocked tid t h0 ht hst hsl => exact h.replace ht rfl rfl rfl rfl
  | resumeCounting tid t h0 ht hst hsl => exact h.replace ht rfl rfl rfl rfl
  | switch e t p next rest u hcurr hrun hp hq hu hready hlive =>
      exact (h.suspends hcurr hp).dispatched hu

theorem initial_quanta {s : State} (h : Initial s) : Quanta s := by
  obtain ⟨q, _, rfl⟩ := initial_iff.mp h
  refine ⟨?_, rfl, ?_⟩
  · intro i t ht
    rw [initialState_get] at ht
    by_cases hi : i = 0
    · rw [if_pos hi] at ht
      injection ht with ht
      rw [← ht, hi]
      rfl
    · rw [if_neg hi] at ht
      cases ht
  · show (1 : Int) = ((Table.empty maxThreadNum Thread).set 0 (some mainThread)).sum _ + 0
    rw [Table.sum_set _ _ (by decide), Table.sum_empty, Table.get_empty]
    rfl

theorem Reachable.quanta {order : IterOrder} {s : State} (h : Reachable order s) : Quanta s :=
  h.effect_invariant Quanta (fun _ => initial_quanta) (fun _ _ _ hw hI he => hI.effect hw he)

/-- **The total goes up by one at a quantum start and at no other event.** -/
theorem total_step {order : IterOrder} {s s' : State} {e : Event} (h : WellFormed s)
    (hs : step order s e = some s') : s'.totalQuantom = s.totalQuantom + quantumStart s e := by
  unfold quantumStart
  rcases (step_effect h hs).switches_or h with
    ⟨hno, _, htotal⟩ | ⟨hsw, t, p, next, rest, u, _, _, hp, _, _, _, rfl⟩
  · rw [if_neg hno, htotal, Int.add_zero]
  · rw [if_pos hsw, dispatched_total, hp.total]

/-- The total starts at 1 and goes up at the quantum starts. -/
theorem total_of_run {order : IterOrder} {s₀ s : State} {es : List Event} (h₀ : Initial s₀)
    (hrun : run (step order) s₀ es = some s) :
    s.totalQuantom = 1 + tally (step order) quantumStart s₀ es := by
  have hone : s₀.totalQuantom = 1 := by
    obtain ⟨q, _, rfl⟩ := initial_iff.mp h₀
    rfl
  rw [run_tally WellFormed (fun _ _ => True) State.totalQuantom quantumStart
    (fun _ _ _ hI _ hs => hI.step hs) (fun _ _ _ hI _ hs => total_step hI hs) es s₀ s
    (initial_wellFormed h₀) (allSteps_true es s₀) hrun, hone]

/-- Every quantum is between 0 and the total. -/
theorem Quanta.quantum_bounds {s : State} (h : Quanta s) {i : Int} {t : Thread}
    (ht : s.threads.get i = some t) : 0 ≤ t.quantum ∧ t.quantum ≤ s.totalQuantom := by
  have hquantum := h.perThread i t ht
  have hpos := dispatches_bounds i s.history
  have htotal := h.total
  split at hquantum <;> omega

/-- **Quantum accounting** over a run from `uthread_init`.  While fewer than
`2 ^ 31 - 1` quanta start, the counters also fit a 32-bit `int`. -/
theorem quantum_accounting {order : IterOrder} {s₀ s : State} {es : List Event}
    (h₀ : Initial s₀) (hrun : run (step order) s₀ es = some s) :
    s.totalQuantom = 1 + tally (step order) quantumStart s₀ es
      ∧ (∀ e s', step order s e = some s' →
          s'.totalQuantom = s.totalQuantom + if e.Switches s then 1 else 0)
      ∧ (∀ i t, s.threads.get i = some t →
          t.quantum = dispatches i s.history + (if i = 0 then 1 else 0)
            ∧ (t.quantum = 0 ↔ i ≠ 0 ∧ dispatches i s.history = 0))
      ∧ s.totalQuantom = s.threads.sum Thread.quantum + retiredQuanta s.history
      ∧ (tally (step order) quantumStart s₀ es < 2 ^ 31 - 1 →
          s.totalQuantom ≤ 2 ^ 31 - 1
            ∧ ∀ i t, s.threads.get i = some t → 0 ≤ t.quantum ∧ t.quantum ≤ 2 ^ 31 - 1) := by
  have hreach : Reachable order s := ⟨s₀, es, h₀, hrun⟩
  have hq := hreach.quanta
  have htotal := total_of_run h₀ hrun
  refine ⟨htotal, fun e s' hs => total_step hreach.wellFormed hs, ?_, hq.sum, ?_⟩
  · intro i t ht
    have hquantum := hq.perThread i t ht
    have hpos := (dispatches_bounds i s.history).1
    refine ⟨hquantum, ?_⟩
    rw [hquantum]
    by_cases hi : i = 0
    · simp only [hi, if_true, ne_eq, not_true_eq_false, false_and, iff_false]
      rw [hi] at hpos
      omega
    · simp [hi]
  · intro hbound
    refine ⟨by omega, ?_⟩
    intro i t ht
    obtain ⟨hpos, hle⟩ := hq.quantum_bounds ht
    exact ⟨hpos, by omega⟩

theorem quantum_accounting_mixedRun :
    ∃ s, run (step .listing) (initialState 1000) mixedRun = some s
      ∧ s.totalQuantom = s.threads.sum Thread.quantum + retiredQuanta s.history := by
  obtain ⟨s, hs⟩ := Option.isSome_iff_exists.mp mixedRun_ends
  exact ⟨s, hs, (quantum_accounting (initial_iff.mpr ⟨1000, by decide, rfl⟩) hs).2.2.2.1⟩

end UThreads
