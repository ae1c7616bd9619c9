/-
  UThreads.Properties.SleepingSet
  ───────────────────────────────
  **THE SLEEPING SET HOLDS EXACTLY THE UNFINISHED SLEEPS, UNLESS A BLOCKED
  SLEEPER IS TERMINATED.**

  `uthread_terminate` takes a SLEEPING thread out of the sleeping set, but not
  a BLOCKED one whose sleep still counts: its id stays in the set after the
  table entry is null.  Runs without such a call keep the set exact
  (`Sleepers`); the first such call breaks it.
-/
import UThreads.Effects.Faults
import UThreads.Properties.Scheduler

namespace UThreads

open Interruptible Runs

/-! ## §1. The invariant of the good runs. -/

/-- Every member of the set is a live thread in the middle of a sleep, SLEEPING
or blocked meanwhile. -/
def Sleepers (s : State) : Prop :=
  ∀ i ∈ s.sleepingThreads, ∃ t, s.threads.get i = some t ∧ 1 ≤ t.sleepingTime
    ∧ (t.state = .sleeping ∨ t.state = .blocked)

/-- The call that leaves a dead id in the set: `uthread_terminate` of a BLOCKED
thread whose sleep still counts. -/
def Event.EndsBlockedSleeper (s : State) : Event → Prop
  | .call (.terminate tid) => ∃ t, s.threads.get tid = some t ∧ t.state = .blocked
      ∧ t.sleepingTime ≠ notSleeping
  | _ => False

instance (s : State) : (e : Event) → Decidable (e.EndsBlockedSleeper s)
  | .call (.terminate tid) =>
      decidable_of_iff
        ((s.threads.get tid).any (fun t => t.state = .blocked ∧ t.sleepingTime ≠ notSleeping))
        (by simp [Event.EndsBlockedSleeper, Option.any_eq_true])
  | .call (.spawn _ _) | .call (.block _) | .call (.resume _) | .call (.sleep _)
  | .call .getTid | .call .getTotalQuantums | .call (.getQuantums _) | .tick _ =>
      inferInstanceAs (Decidable False)

/-- The argument of a sleep is at least 1. -/
def Event.SleepsPositive : Event → Prop
  | .call (.sleep n) => 1 ≤ n
  | _                => True

instance : (e : Event) → Decidable e.SleepsPositive
  | .call (.sleep n) => inferInstanceAs (Decidable (1 ≤ n))
  | .call (.spawn _ _) | .call (.terminate _) | .call (.block _) | .call (.resume _)
  | .call .getTid | .call .getTotalQuantums | .call (.getQuantums _) | .tick _ =>
      inferInstanceAs (Decidable True)

section Step

variable {order : IterOrder} {s s' p : State} {t u : Thread} {e : Event} {next : Int}
  {rest : List Int}

/-- A thread that is READY or RUNNING is not in the set. -/
theorem Sleepers.notMem (h : Sleepers s) {i : Int} (ht : s.threads.get i = some t)
    (hst : t.state = .ready ∨ t.state = .running) : i ∉ s.sleepingThreads := by
  intro hi
  obtain ⟨v, hv, _, hvst⟩ := h i hi
  obtain rfl := same_record ht hv
  rcases hst with hst | hst <;> simp [hst] at hvst

/-- The countdown of a member of the set. -/
theorem Sleepers.counts (h : Sleepers s) {i : Int} (ht : s.threads.get i = some t)
    (hi : i ∈ s.sleepingThreads) : 1 ≤ t.sleepingTime := by
  obtain ⟨v, hv, hpos, _⟩ := h i hi
  exact same_record hv ht ▸ hpos

/-- A new record, in the middle of the same sleep. -/
theorem Sleepers.replace (h : Sleepers s) (tid : Int) {t' : Thread}
    (hget : ∀ i, s'.threads.get i = if i = tid then some t' else s.threads.get i)
    (hset : ∀ i ∈ s'.sleepingThreads, i ∈ s.sleepingThreads)
    (hnew : tid ∈ s.sleepingThreads →
      1 ≤ t'.sleepingTime ∧ (t'.state = .sleeping ∨ t'.state = .blocked)) : Sleepers s' := by
  intro i hi
  rw [hget]
  by_cases hne : i = tid
  · rw [if_pos hne]
    exact ⟨t', rfl, hnew (hne ▸ hset i hi)⟩
  · rw [if_neg hne]
    exact h i (hset i hi)

/-- A record that goes and is not in the set any more. -/
theorem Sleepers.remove (h : Sleepers s) (tid : Int)
    (hget : ∀ i, s'.threads.get i = if i = tid then none else s.threads.get i)
    (hset : ∀ i ∈ s'.sleepingThreads, i ∈ s.sleepingThreads ∧ i ≠ tid) : Sleepers s' := by
  intro i hi
  rw [hget, if_neg (hset i hi).2]
  exact h i (hset i hi).1

/-- A suspension: the caller of `uthread_sleep` joins the set, and nobody else
that runs is in it. -/
theorem Sleepers.suspends (h : Sleepers s) (hcurr : s.threads.get s.currThreadId = some t)
    (hrun : t.state = .running) (hp : Suspends s t e p) (he : e.SleepsPositive) : Sleepers p := by
  have hout : s.currThreadId ∉ s.sleepingThreads := h.notMem hcurr (Or.inr hrun)
  cases hp with
  | tick mask =>
      exact h.replace _ (saveCurrent_get hcurr _ .timerHandler) (fun _ hi => hi)
        (fun hm => absurd hm hout)
  | block h0 =>
      exact h.replace _ (saveCurrent_get hcurr _ .uthreadBlock) (fun _ hi => hi)
        (fun hm => absurd hm hout)
  | sleep h0 n =>
      intro i hi
      have hget : (s.suspendSleep t n).threads.get i
          = if i = s.currThreadId
            then some { t.save s.nextToken .uthreadSleep signalSet with
              sleepingTime := n, state := .sleeping }
            else s.threads.get i := saveCurrent_get hcurr _ .uthreadSleep i
      rw [hget]
      by_cases hne : i = s.currThreadId
      · rw [if_pos hne]
        exact ⟨_, rfl, he, Or.inl rfl⟩
      · rw [if_neg hne]
        have hmem : i ∈ s.sleepingThreads.insert s.currThreadId := hi
        exact h i ((List.mem_insert_iff.mp hmem).resolve_left hne)
  | terminate h0 =>
      refine h.remove s.currThreadId
        (Table.get_set s.threads (Table.inRange_of_get hcurr) none) ?_
      intro i hi
      exact ⟨hi, ne_of_mem_of_not_mem hi hout⟩

/-- A dispatch counts everybody in the set down and lets the expired ones go. -/
theorem Sleepers.dispatched (h : Sleepers p) (hu : p.threads.get next = some u)
    (hready : u.state = .ready) : Sleepers (p.dispatched order next rest u) := by
  intro i hi
  have hmem := sleeping_of_dispatched hu hi
  obtain ⟨v, hv, hpos, hst⟩ := h i hmem
  have hz : v.sleepingTime - 1 ≠ 0 := ((mem_dispatched_sleeping hu hv).mp hi).2
  have hne : i ≠ next := by
    intro he
    exact h.notMem hu (Or.inl hready) (he ▸ hmem)
  refine ⟨wakeRecord v, ?_, ?_, ?_⟩
  · rw [dispatched_get_ne hu hne, if_pos hmem, hv]
    rfl
  · rw [wakeRecord_sleepingTime, if_neg hz]
    omega
  · rcases hst with hst | hst
    · exact Or.inl ((wakeRecord_sleeping v).mpr ⟨hz, hst⟩)
    · exact Or.inr ((wakeRecord_blocked v).mpr hst)

/-- **The step lemma of the good runs.** -/
theorem Sleepers.step (h : Sleepers s) (hw : WellFormed s)
    (hs : UThreads.step order s e = some s') (hpos : e.SleepsPositive)
    (hgood : ¬ e.EndsBlockedSleeper s) : Sleepers s' := by
  have he := step_effect hw hs
  cases he with
  | reject c line hr => exact h
  | idle c hi => exact h
  | spawn newStack entryPoint newId ids hids =>
      -- a free id is not in the set
      obtain ⟨hr, hnull⟩ := hw.heap_top_free hids
      refine h.replace newId (Table.get_set s.threads hr _) (fun _ hi => hi) ?_
      intro hm
      obtain ⟨v, hv, _⟩ := h newId hm
      rw [hnull] at hv
      cases hv
  | retireIdle tid t h0 ht hst =>
      have hout : tid ∉ s.sleepingThreads := by
        intro hm
        rcases hst with hst | hst
        · exact h.notMem ht (Or.inl hst) hm
        · -- that would be the bad call
          have hpos := h.counts ht hm
          refine hgood ⟨t, ht, hst, ?_⟩
          unfold notSleeping
          omega
      exact h.remove tid (retire_get ht) (fun i hi => ⟨hi, ne_of_mem_of_not_mem hi hout⟩)
  | retireSleeping tid t h0 ht hst =>
      -- this branch erases the id first
      refine h.remove tid (retire_get ht) ?_
      intro i hi
      exact ⟨List.mem_of_mem_erase hi, ((hw.sleepNodup.mem_erase_iff).mp hi).1⟩
  | blockSleeping tid t h0 ht hst =>
      refine h.replace tid (setThread_get ht _) (fun _ hi => hi) ?_
      intro hm
      have hcount := h.counts ht hm
      exact ⟨hcount, Or.inr rfl⟩
  | blockReady tid t h0 ht hst =>
      refine h.replace tid (setThread_get ht _) (fun _ hi => hi) ?_
      exact fun hm => absurd hm (h.notMem ht (Or.inl hst))
  | resumeBlocked tid t h0 ht hst hsl =>
      refine h.replace tid (setThread_get ht _) (fun _ hi => hi) ?_
      intro hm
      have hcount := h.counts ht hm
      rw [hsl] at hcount
      unfold notSleeping at hcount
      omega
  | resumeCounting tid t h0 ht hst hsl =>
      refine h.replace tid (setThread_get ht _) (fun _ hi => hi) ?_
      intro hm
      have hcount := h.counts ht hm
      exact ⟨hcount, Or.inl rfl⟩
  | switch e t p next rest u hcurr hrun hp hq hu hready hlive =>
      exact (h.suspends hcurr hrun hp hpos).dispatched hu hready

theorem initial_sleepers (h : Initial s) : Sleepers s := by
  obtain ⟨q, _, rfl⟩ := initial_iff.mp h
  intro i hi
  cases hi

end Step

/-! ## §2. What the invariant gives. -/

/-- The set holds exactly the live threads whose sleep is unfinished, and every
other live thread has `NOT_SLEEPING`. -/
def SleepingSetExact (s : State) : Prop :=
  ∀ tid, (tid ∈ s.sleepingThreads ↔ ∃ t, s.threads.get tid = some t ∧ 1 ≤ t.sleepingTime)
    ∧ ∀ t, s.threads.get tid = some t → tid ∉ s.sleepingThreads → t.sleepingTime = notSleeping

/-- `uthread_terminate` deletes its thread from every structure. -/
def Purges (order : IterOrder) (s : State) (e : Event) : Prop :=
  ∀ tid s', e = .call (.terminate tid) → s.threads.get tid ≠ none → step order s e = some s' →
    s'.threads.get tid = none ∧ tid ∉ s'.readyThreads ∧ tid ∉ s'.sleepingThreads
      ∧ s'.currThreadId ≠ tid ∧ tid ∈ s'.minHeapId

section Consequences

variable {order : IterOrder} {s s' : State} {e : Event} {tid : Int}

theorem Sleepers.exact (h : Sleepers s) (hw : WellFormed s) : SleepingSetExact s := by
  intro tid
  refine ⟨⟨?_, ?_⟩, ?_⟩
  · intro hm
    obtain ⟨t, ht, hpos, _⟩ := h tid hm
    exact ⟨t, ht, hpos⟩
  · intro hall
    obtain ⟨t, ht, hpos⟩ := hall
    refine hw.sleepMem tid t ht (Or.inr ?_)
    unfold notSleeping
    omega
  · exact fun t ht hm => (hw.awake ht hm).2

/-- When a thread of a good state is suspended, every member of the set is live. -/
theorem Sleepers.liveSleepers (h : Sleepers s) (e : Event) : LiveSleepers s e := by
  intro t p hcurr hrun hp i hi
  have hout : s.currThreadId ∉ s.sleepingThreads := h.notMem hcurr (Or.inr hrun)
  by_cases hne : i = s.currThreadId
  · subst hne
    cases hp with
    | tick mask => exact absurd hi hout
    | block h0 => exact absurd hi hout
    | sleep h0 n =>
        intro hnone
        have hlive := (saveCurrent_get_none hcurr _ .uthreadSleep _).mp hnone
        rw [hcurr] at hlive
        cases hlive
    | terminate h0 => exact absurd hi hout
  · obtain ⟨hget, hmem, _⟩ := hp.frame hcurr hne
    obtain ⟨v, hv, _⟩ := h i (hmem.mp hi)
    rw [hget, hv]
    simp

/-- No event of a good state faults. -/
theorem Sleepers.no_fault (h : Sleepers s) (hw : WellFormed s) (f : Fault) :
    e.stop order s ≠ some (.fault f) :=
  UThreads.no_fault hw (h.liveSleepers e) f

/-- After `uthread_terminate` the table entry is null, whatever the thread's
state was. -/
theorem terminate_removes (hw : WellFormed s)
    (hs : step order s (.call (.terminate tid)) = some s') : s'.threads.get tid = none := by
  have he := step_effect hw hs
  cases he with
  | reject c line hr => exact hr
  | idle c hi => exact absurd hi id
  | retireIdle tid t h0 ht hst => exact (retire_get ht tid).trans (if_pos rfl)
  | retireSleeping tid t h0 ht hst => exact (retire_get ht tid).trans (if_pos rfl)
  | switch e t p next rest u hcurr hrun hp hq hu hready hlive =>
      rw [dispatched_get_none hu]
      cases hp with
      | terminate h0 => exact Table.get_set_self s.threads (Table.inRange_of_get hcurr) none

/-- A null entry in a good state stands in the heap and nowhere else. -/
theorem Sleepers.purged (h : Sleepers s) (hw : WellFormed s) (hr : Table.InRange maxThreadNum tid)
    (hnull : s.threads.get tid = none) :
    tid ∉ s.readyThreads ∧ tid ∉ s.sleepingThreads ∧ s.currThreadId ≠ tid ∧ tid ∈ s.minHeapId := by
  refine ⟨hw.notMem_ready_of_null hnull, ?_, Ne.symm (hw.ne_curr_of_null hnull),
    (hw.heapIff tid).mpr ⟨hr, hnull⟩⟩
  intro hm
  obtain ⟨t, ht, _⟩ := h tid hm
  rw [hnull] at ht
  cases ht

theorem Sleepers.purges (h : Sleepers s) (hw : WellFormed s) (hgood : ¬ e.EndsBlockedSleeper s) :
    Purges order s e := by
  intro tid s' he hlive hs
  subst he
  obtain ⟨t, ht⟩ := Option.ne_none_iff_exists'.mp hlive
  have hnull := terminate_removes hw hs
  exact ⟨hnull, (h.step hw hs trivial hgood).purged (hw.step hs) (Table.inRange_of_get ht) hnull⟩

/-- **The bad call breaks the set**: the dead id stays in it. -/
theorem EndsBlockedSleeper.breaks (hw : WellFormed s) (hs : step order s e = some s')
    (hbad : e.EndsBlockedSleeper s) : ¬ SleepingSetExact s' := by
  cases e with
  | tick mask => exact absurd hbad id
  | call c =>
      cases c with
      | terminate tid =>
          obtain ⟨t, ht, hst, hsl⟩ := hbad
          have hnull := terminate_removes hw hs
          have hmem : tid ∈ s.sleepingThreads := hw.sleepMem tid t ht (Or.inr hsl)
          -- the branch for READY and BLOCKED threads does not touch the set
          have hmem' : tid ∈ s'.sleepingThreads := by
            have he := step_effect hw hs
            cases he with
            | reject c line hr => exact hmem
            | idle c hi => exact hmem
            | retireIdle tid t h0 ht hst => exact hmem
            | retireSleeping tid u h0 hu hust =>
                obtain rfl := same_record ht hu
                cases hst.symm.trans hust
            | switch e v p next rest u hcurr hrun hp hq hu hready hlive =>
                cases hp with
                | terminate h0 =>
                    obtain rfl := same_record ht hcurr
                    cases hst.symm.trans hrun
          intro hexact
          obtain ⟨v, hv, _⟩ := (hexact tid).1.mp hmem'
          rw [hnull] at hv
          cases hv
      | _ => exact absurd hbad id

end Consequences

/-! ## §3. The exact condition. -/

/-- **The sleeping set along a run** with positive sleeps.  No step terminates a
BLOCKED thread whose sleep still counts if and only if the set is exact in
every state (and no event faults there) and every `uthread_terminate` deletes
its thread from every structure. -/
theorem sleeping_set_exact_iff {order : IterOrder} {s₀ s : State} {es : List Event}
    (h₀ : Initial s₀) (hpos : ∀ e ∈ es, e.SleepsPositive)
    (hrun : run (step order) s₀ es = some s) :
    AllSteps (step order) (fun v e => ¬ e.EndsBlockedSleeper v) s₀ es
      ↔ Throughout (step order) (fun v => SleepingSetExact v
            ∧ ∀ e f, Event.stop order v e ≠ some (.fault f)) s₀ es
          ∧ AllSteps (step order) (Purges order) s₀ es := by
  have hw₀ := initial_wellFormed h₀
  have hs₀ := initial_sleepers h₀
  constructor
  · intro hgood
    have hsteps := allSteps_and_events es s₀ hpos hgood
    have hkeep : ∀ v e w, (WellFormed v ∧ Sleepers v) →
        (e.SleepsPositive ∧ ¬ e.EndsBlockedSleeper v) → step order v e = some w →
        WellFormed w ∧ Sleepers w :=
      fun v e w hI hP hs => ⟨hI.1.step hs, hI.2.step hI.1 hs hP.1 hP.2⟩
    constructor
    · exact throughout_guarded hkeep
        (fun v hI => ⟨hI.2.exact hI.1, fun e f => hI.2.no_fault hI.1 f⟩) es s₀ ⟨hw₀, hs₀⟩ hsteps
    · exact allSteps_guarded hkeep (fun v e hI hP => hI.2.purges hI.1 hP.2) es s₀ ⟨hw₀, hs₀⟩ hsteps
  · intro hall
    obtain ⟨hexact, _⟩ := hall
    refine allSteps_of_post (I := WellFormed) (fun _ _ _ hI hs => hI.step hs) ?_ es s₀ s hw₀ hrun
      hexact
    exact fun v e w hI hs hQ hbad => EndsBlockedSleeper.breaks hI hs hbad hQ.1

theorem sleeping_set_exact_iff_mixedRun :
    ∃ s, run (step .listing) (initialState 1000) mixedRun = some s
      ∧ Throughout (step .listing) (fun v => SleepingSetExact v
          ∧ ∀ e f, Event.stop .listing v e ≠ some (.fault f)) (initialState 1000) mixedRun := by
  obtain ⟨s, hs⟩ := Option.isSome_iff_exists.mp mixedRun_ends
  have hgood : AllSteps (step .listing) (fun v e => ¬ e.EndsBlockedSleeper v)
      (initialState 1000) mixedRun := by
    decide +kernel
  exact ⟨s, hs, ((sleeping_set_exact_iff (initial_iff.mpr ⟨1000, by decide, rfl⟩) (by decide)
    hs).mp hgood).1⟩

/-- A thread is put to sleep, blocked and terminated. -/
def blockedSleeperRun : List Event :=
  [.call (.spawn ⟨some 4096, true⟩ (some 1)), .tick ∅, .call (.sleep 5), .call (.block 1),
   .call (.terminate 1)]

/-- **The id of a terminated thread is left in the sleeping set**, and the next
quantum start dereferences its null entry. -/
theorem terminated_sleeper_stays :
    Initial (initialState 1000) ∧ (∀ e ∈ blockedSleeperRun, e.SleepsPositive)
      ∧ ∃ s, run (step .listing) (initialState 1000) blockedSleeperRun = some s
        ∧ (1 : Int) ∈ s.sleepingThreads ∧ s.threads.get 1 = none ∧ ¬ SleepingSetExact s
        ∧ Event.stop .listing s (.tick ∅) = some (.fault .nullThread) := by
  have hend : (run (step .listing) (initialState 1000) blockedSleeperRun).map (fun s =>
      (s.sleepingThreads, s.threads.get 1, Event.stop .listing s (.tick ∅)))
      = some ([1], none, some (.fault .nullThread)) := by
    decide +kernel
  obtain ⟨s, hs, hobs⟩ := Option.map_eq_some_iff.mp hend
  injection hobs with hset hobs
  injection hobs with hnull hstop
  have hmem : (1 : Int) ∈ s.sleepingThreads := by
    rw [hset]
    decide
  refine ⟨initial_iff.mpr ⟨1000, by decide, rfl⟩, by decide, s, hs, hmem, hnull, ?_, hstop⟩
  intro hexact
  obtain ⟨t, ht, _⟩ := (hexact 1).1.mp hmem
  rw [hnull] at ht
  cases ht

end UThreads
