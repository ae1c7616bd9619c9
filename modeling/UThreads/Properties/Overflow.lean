/-
  UThreads.Properties.Overflow
  ────────────────────────────
  **WHEN THE COUNTERS FIT AN `int`.**

  `total_quantom` and `quantum` count quantum starts, and a countdown goes down
  by one at each.  So the number of quantum starts bounds them all, and nothing
  in the library bounds that number: a run of `2 ^ 31 - 1` ticks overflows
  `total_quantom`.
-/
import UThreads.Properties.LostSleep
import UThreads.Properties.Quanta
import UThreads.Properties.SleepingSet
import UThreads.Properties.ThreadIds

namespace UThreads

open Interruptible Runs

/-! ## §1. How far down a countdown gets. -/

/-- The argument of a sleep is at least `least`, unless the main thread calls,
which is refused. -/
def Event.SleepsAtLeast (s : State) (least : Int) : Event → Prop
  | .call (.sleep n) => s.currThreadId ≠ 0 → least ≤ n
  | _                => True

instance (s : State) (least : Int) : (e : Event) → Decidable (e.SleepsAtLeast s least)
  | .call (.sleep n) => inferInstanceAs (Decidable (s.currThreadId ≠ 0 → least ≤ n))
  | .call (.spawn _ _) | .call (.terminate _) | .call (.block _) | .call (.resume _)
  | .call .getTid | .call .getTotalQuantums | .call (.getQuantums _) | .tick _ =>
      inferInstanceAs (Decidable True)

/-- Every countdown can go down at each quantum start until the total is `final`. -/
def CountsAbove (final : Int) (s : State) : Prop :=
  ∀ i t, s.threads.get i = some t → intMin + (final - s.totalQuantom) ≤ t.sleepingTime

section Step

variable {order : IterOrder} {s s' p : State} {t u : Thread} {e : Event} {final : Int}

/-- One entry gets a record that does not count down, or counts as before. -/
theorem CountsAbove.replace (h : CountsAbove final s) (tid : Int) {v : Option Thread}
    (hget : ∀ i, s'.threads.get i = if i = tid then v else s.threads.get i)
    (htotal : s'.totalQuantom = s.totalQuantom)
    (hv : ∀ t, v = some t → intMin + (final - s.totalQuantom) ≤ t.sleepingTime) :
    CountsAbove final s' := by
  intro i t' ht'
  rw [hget] at ht'
  rw [htotal]
  by_cases hi : i = tid
  · rw [if_pos hi] at ht'
    exact hv t' ht'
  · rw [if_neg hi] at ht'
    exact h i t' ht'

/-- The same countdown in a new record. -/
theorem CountsAbove.keep (h : CountsAbove final s) {tid : Int} (ht : s.threads.get tid = some t)
    {t' : Thread} (hget : ∀ i, s'.threads.get i = if i = tid then some t' else s.threads.get i)
    (htotal : s'.totalQuantom = s.totalQuantom) (hsl : t'.sleepingTime = t.sleepingTime) :
    CountsAbove final s' := by
  refine h.replace tid hget htotal ?_
  intro v hv
  cases hv
  rw [hsl]
  exact h tid t ht

theorem CountsAbove.suspends (h : CountsAbove final s)
    (hcurr : s.threads.get s.currThreadId = some t) (hp : Suspends s t e p)
    (he : e.SleepsAtLeast s (intMin + (final - s.totalQuantom))) : CountsAbove final p := by
  cases hp with
  | tick mask => exact h.keep hcurr (saveCurrent_get hcurr _ .timerHandler) rfl rfl
  | block h0 => exact h.keep hcurr (saveCurrent_get hcurr _ .uthreadBlock) rfl rfl
  | sleep h0 n =>
      refine h.replace s.currThreadId (saveCurrent_get hcurr _ .uthreadSleep) rfl ?_
      intro v hv
      cases hv
      exact he h0
  | terminate h0 =>
      exact h.replace s.currThreadId (Table.get_set s.threads (Table.inRange_of_get hcurr) none) rfl
        (fun _ hv => nomatch hv)

/-- A quantum start takes one off each countdown, and adds one to the total. -/
theorem CountsAbove.dispatched (h : CountsAbove final p) (hfinal : final ≤ intMax)
    (htotal : 1 ≤ p.totalQuantom) {next : Int} {rest : List Int}
    (hu : p.threads.get next = some u) : CountsAbove final (p.dispatched order next rest u) := by
  intro i t' ht'
  rw [dispatched_total]
  obtain ⟨v, hv, hcase⟩ := dispatched_get_cases hu ht'
  -- the record before the wake-up
  have hcount : intMin + (final - p.totalQuantom) ≤ v.sleepingTime := by
    by_cases hi : i = next
    · rw [if_pos hi] at hv
      injection hv with hv
      rw [← hv]
      exact h next u hu
    · rw [if_neg hi] at hv
      exact h i v hv
  rcases hcase with ⟨_, rfl⟩ | ⟨_, rfl⟩
  · rw [wakeRecord_sleepingTime]
    split
    · unfold intMin intMax notSleeping at *
      omega
    · omega
  · omega

theorem CountsAbove.step (h : CountsAbove final s) (hw : WellFormed s)
    (hfinal : final ≤ intMax) (htotal : 1 ≤ s.totalQuantom)
    (hsl : e.SleepsAtLeast s (intMin + (final - s.totalQuantom)))
    (hs : UThreads.step order s e = some s') : CountsAbove final s' := by
  have he := step_effect hw hs
  cases he with
  | reject c line hr => exact h
  | idle c hi => exact h
  | spawn newStack entryPoint newId ids hids =>
      refine h.replace newId (Table.get_set s.threads (hw.heap_top_free hids).1 _) rfl ?_
      intro v hv
      cases hv
      show intMin + (final - s.totalQuantom) ≤ notSleeping
      unfold intMin intMax notSleeping at *
      omega
  | retireIdle tid t h0 ht hst => exact h.replace tid (retire_get ht) rfl (fun _ hv => nomatch hv)
  | retireSleeping tid t h0 ht hst =>
      exact h.replace tid (retire_get ht) rfl (fun _ hv => nomatch hv)
  | blockSleeping tid t h0 ht hst => exact h.keep ht (setThread_get ht _) rfl rfl
  | blockReady tid t h0 ht hst => exact h.keep ht (setThread_get ht _) rfl rfl
  | resumeBlocked tid t h0 ht hst hsl => exact h.keep ht (setThread_get ht _) rfl rfl
  | resumeCounting tid t h0 ht hst hsl => exact h.keep ht (setThread_get ht _) rfl rfl
  | switch e t p next rest u hcurr hrun hp hq hu hready hlive =>
      exact (h.suspends hcurr hp hsl).dispatched hfinal (hp.total ▸ htotal) hu

theorem initial_countsAbove (h : Initial s) (hfinal : final ≤ intMax) :
    CountsAbove final s := by
  obtain ⟨q, _, rfl⟩ := initial_iff.mp h
  intro i t ht
  rw [initialState_get] at ht
  split at ht
  · injection ht with ht
    rw [← ht]
    show intMin + (final - 1) ≤ notSleeping
    unfold intMin intMax notSleeping at *
    omega
  · cases ht

end Step

/-- A sleep leaves room for the quantum starts that are still to come. -/
abbrev LeavesRoom (final : Int) (s : State) (e : Event) : Prop :=
  e.SleepsAtLeast s (intMin + (final - s.totalQuantom))

/-- The invariant over a run whose sleeps leave room. -/
theorem countsAbove_run {order : IterOrder} {s₀ s : State} {es : List Event} {final : Int}
    (h₀ : Initial s₀) (hfinal : final ≤ intMax)
    (hsl : AllSteps (step order) (LeavesRoom final) s₀ es)
    (hrun : run (step order) s₀ es = some s) : CountsAbove final s := by
  have hpos : ∀ v, Reachable order v → 1 ≤ v.totalQuantom := by
    intro v hv
    have hcount := (dispatches_bounds 0 v.history)
    have htotal := hv.quanta.total
    omega
  exact (run_guarded (fun v => Reachable order v ∧ CountsAbove final v) (LeavesRoom final)
    (fun v e w hI hP hs => ⟨hI.1.step hs, hI.2.step hI.1.wellFormed hfinal (hpos v hI.1) hP hs⟩)
    es s₀ s ⟨⟨s₀, [], h₀, rfl⟩, initial_countsAbove h₀ hfinal⟩ hsl hrun).2

/-! ## §2. The counters fit. -/

/-- Every counter of the library is an `int`. -/
structure CountersFit (s : State) : Prop where
  total : 1 ≤ s.totalQuantom ∧ s.totalQuantom ≤ intMax
  quantum : ∀ i t, s.threads.get i = some t → 0 ≤ t.quantum ∧ t.quantum ≤ intMax
  sleepingTime : ∀ i t, s.threads.get i = some t → intMin ≤ t.sleepingTime

theorem counters_fit_at {order : IterOrder} {s₀ s : State} {es : List Event} {final : Int}
    (h₀ : Initial s₀) (hrun : run (step order) s₀ es = some s) (hfinal : final ≤ intMax)
    (htotal : s.totalQuantom ≤ final) (hsl : AllSteps (step order) (LeavesRoom final) s₀ es) :
    CountersFit s := by
  have hreach : Reachable order s := ⟨s₀, es, h₀, hrun⟩
  have hcount := (dispatches_bounds 0 s.history)
  have hone := hreach.quanta.total
  refine ⟨by omega, ?_, ?_⟩
  · intro i t ht
    obtain ⟨hpos, hle⟩ := hreach.quanta.quantum_bounds ht
    exact ⟨hpos, by omega⟩
  · intro i t ht
    have habove := countsAbove_run h₀ hfinal hsl hrun i t ht
    omega

/-- **The counters of a bounded run.**  Let fewer than `2 ^ 31 - 1` quanta start
in a run, and let the argument of every sleep be at least `INT_MIN` plus the
number of quanta that start from that call on.  Then every counter fits an `int`
in every state of the run, the total goes up at every quantum start, and
`uthread_get_quantums` returns -1 exactly for the ids of no live thread. -/
theorem counters_fit {order : IterOrder} {s₀ : State} {es : List Event} (h₀ : Initial s₀)
    (hbound : tally (step order) quantumStart s₀ es < intMax)
    (hsl : AllSteps (step order)
      (LeavesRoom (1 + tally (step order) quantumStart s₀ es)) s₀ es) :
    Throughout (step order) CountersFit s₀ es
      ∧ AllSteps (step order) (fun v e => ∀ w, step order v e = some w → e.Switches v →
          v.totalQuantom < w.totalQuantom) s₀ es
      ∧ Throughout (step order) (fun v => ∀ tid m, ∃ r,
          (uthreadGetQuantums tid).exec v m = .ret r v m
            ∧ (r = failureReturnValue ↔ v.live tid = false)) s₀ es := by
  have hw₀ := initial_wellFormed h₀
  -- the total of a prefix is bounded by that of the whole
  have hfit : ∀ es₁ es₂ v, es = es₁ ++ es₂ → run (step order) s₀ es₁ = some v → CountersFit v := by
    intro es₁ es₂ v hes hv
    have htotal := total_of_run h₀ hv
    have htally := tally_append (w := quantumStart) es₂ es₁ s₀ hv
    have hrest : 0 ≤ tally (step order) quantumStart v es₂ := by
      refine tally_nonneg ?_ es₂ v
      intro w e
      unfold quantumStart
      split <;> decide
    subst hes
    have hprefix := allSteps_prefix es₁ s₀ hsl
    exact counters_fit_at h₀ hv (by omega) (by omega) hprefix
  refine ⟨(throughout_iff es s₀).mpr hfit, ?_, (throughout_iff es s₀).mpr ?_⟩
  · refine allSteps_guarded (fun _ _ _ hI _ hs => WellFormed.step hI hs) ?_ es s₀ hw₀
      (allSteps_true es s₀)
    intro v e hv _ w hs hsw
    have htotal := total_step hv hs
    rw [quantumStart, if_pos hsw] at htotal
    omega
  · intro es₁ es₂ v hes hv tid m
    have hw := WellFormed.run hw₀ hv
    refine ⟨_, exec_uthreadGetQuantums tid m hw.freed, ?_⟩
    unfold State.live
    cases ht : v.threads.get tid with
    | none => exact ⟨fun _ => rfl, fun _ => rfl⟩
    | some t =>
        -- a quantum is not negative
        have hpos := ((hfit es₁ es₂ v hes hv).quantum tid t ht).1
        simp only [Option.map_some, Option.getD_some, Option.isSome_some, Bool.true_eq_false,
          iff_false]
        unfold failureReturnValue
        omega

theorem counters_fit_mixedRun :
    Throughout (step .listing) CountersFit (initialState 1000) mixedRun := by
  have hbound : tally (step .listing) quantumStart (initialState 1000) mixedRun < intMax := by
    decide +kernel
  have hsl : AllSteps (step .listing)
      (LeavesRoom (1 + tally (step .listing) quantumStart (initialState 1000) mixedRun))
      (initialState 1000) mixedRun := by
    decide +kernel
  exact (counters_fit (initial_iff.mpr ⟨1000, by decide, rfl⟩) hbound hsl).1

/-! ## §3. They do not fit in every run. -/

/-- A tick of a good state is handled. -/
theorem Sleepers.tick {s : State} (h : Sleepers s) (order : IterOrder) (hw : WellFormed s)
    (mask : SigSet) : ∃ s', UThreads.step order s (.tick mask) = some s' := by
  obtain ⟨t, hcurr, hrun⟩ := hw.curr
  have hpaused := hw.suspends hcurr hrun (.tick mask)
  obtain ⟨next, rest, u, hq, hu, hready⟩ := hpaused.front
  have hlive := h.liveSleepers (.tick mask) t _ hcurr hrun (.tick mask)
  refine ⟨(s.suspendTick t (insert sigvtalrm mask)).dispatched order next rest u, ?_⟩
  show settle _ = _
  rw [exec_timerHandler _ order hw.freed hcurr hrun,
    exec_dispatchFront order _ hpaused.freed hq hu hpaused.ids hpaused.sleepNodup hlive]
  rfl

/-- Any number of ticks in a row is handled, and each adds one to the total. -/
theorem ticks_run (order : IterOrder) {s : State} (h : Sleepers s) (hw : WellFormed s) (n : Nat) :
    ∃ s', run (step order) s (List.replicate n (.tick ∅)) = some s'
      ∧ s'.totalQuantom = s.totalQuantom + n := by
  induction n generalizing s with
  | zero => exact ⟨s, rfl, by simp⟩
  | succ n ih =>
      obtain ⟨v, hv⟩ := h.tick order hw ∅
      obtain ⟨s', hrun, htotal⟩ := ih (h.step hw hv trivial id) (hw.step hv)
      have hone : v.totalQuantom = s.totalQuantom + 1 := total_step hw hv
      refine ⟨s', run_cons.mpr ⟨v, hv, hrun⟩, ?_⟩
      rw [htotal, hone]
      push_cast
      omega

/-- **`total_quantom` overflows** after `2 ^ 31 - 1` ticks, and a countdown at the
first quantum start after `uthread_sleep(INT_MIN)`. -/
theorem total_overflows :
    Initial (initialState 1000)
      ∧ (∃ s, run (step .listing) (initialState 1000)
            (List.replicate (2 ^ 31 - 1) (.tick ∅)) = some s ∧ intMax < s.totalQuantom)
      ∧ ∃ s t, run (step .listing) (initialState 1000)
            (firstRuns ++ [.call (.sleep intMin)]) = some s
          ∧ s.threads.get 1 = some t ∧ t.sleepingTime < intMin := by
  have h₀ : Initial (initialState 1000) := initial_iff.mpr ⟨1000, by decide, rfl⟩
  obtain ⟨s, hrun, htotal⟩ :=
    ticks_run .listing (initial_sleepers h₀) (initial_wellFormed h₀) (2 ^ 31 - 1)
  have hone : (initialState 1000).totalQuantom = 1 := rfl
  have hend : (run (step .listing) (initialState 1000)
      (firstRuns ++ [.call (.sleep intMin)])).map (fun v =>
        (v.threads.get 1).map Thread.sleepingTime) = some (some (intMin - 1)) := by
    decide +kernel
  obtain ⟨v, hv, hobs⟩ := Option.map_eq_some_iff.mp hend
  obtain ⟨t, ht, hcount⟩ := Option.map_eq_some_iff.mp hobs
  refine ⟨h₀, ⟨s, hrun, ?_⟩, v, t, hv, ht, by omega⟩
  rw [htotal, hone]
  decide

end UThreads
