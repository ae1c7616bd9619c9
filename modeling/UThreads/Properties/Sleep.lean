/-
  UThreads.Properties.Sleep
  ─────────────────────────
  **A SLEEPER WAKES AT ITS DEADLINE, WHATEVER IS BLOCKED OR RESUMED MEANWHILE.**

  A thread that calls `uthread_sleep(n)` when the total is `q` has the deadline
  `q + n`.  Until then `Counting` holds: the thread is in the sleeping set, its
  countdown is the deadline minus the total, and it is BLOCKED or SLEEPING as
  the last block or resume left it.  One step either keeps `Counting` or, at
  the quantum start that reaches the deadline, wakes the thread.
-/
import UThreads.Properties.Scheduler

namespace UThreads

open Interruptible Runs

/-! ## §1. Before the deadline. -/

/-- Whether the last block or resume of `tid` is a block. -/
def noteBlock (tid : Int) (blocked : Bool) (e : Event) : Bool :=
  if e = .call (.block tid) then true
  else if e = .call (.resume tid) then false
  else blocked

def lastIsBlock (tid : Int) (es : List Event) : Bool := es.foldl (noteBlock tid) false

/-- `tid` sleeps and counts down to the total `deadline`. -/
structure Counting (tid deadline : Int) (blocked : Bool) (s : State) : Prop where
  before : s.totalQuantom < deadline
  asleep : tid ∈ s.sleepingThreads
  record : ∃ t, s.threads.get tid = some t ∧ t.sleepingTime = deadline - s.totalQuantom
    ∧ t.state = if blocked then .blocked else .sleeping

/-- `tid` has been put in the queue of `s'`, behind all that was in the queue of
`s`. -/
def Appended (tid : Int) (s s' : State) : Prop :=
  ∃ late next rest added, s.readyThreads ++ late = next :: rest
    ∧ s'.readyThreads = rest ++ added ∧ tid ∈ added

/-- `tid` has woken: it is READY, unless a block is pending. -/
structure Woken (tid : Int) (blocked : Bool) (s : State) : Prop where
  awake : tid ∉ s.sleepingThreads
  record : ∃ t, s.threads.get tid = some t ∧ t.sleepingTime = notSleeping
    ∧ t.state = if blocked then .blocked else .ready

section Dispatch

variable {order : IterOrder} {s p : State} {next tid deadline : Int} {rest : List Int}
  {u : Thread} {blocked : Bool}

/-- A sleeper is not READY. -/
theorem Counting.ne_ready (h : Counting tid deadline blocked p) {i : Int}
    (hu : p.threads.get i = some u) (hready : u.state = .ready) : tid ≠ i := by
  intro he
  obtain ⟨t, ht, _, hst⟩ := h.record
  obtain rfl := same_record ht (he ▸ hu)
  rw [hst] at hready
  cases blocked <;> cases hready

/-- **The quantum start before the deadline** counts down. -/
theorem Counting.dispatched (h : Counting tid deadline blocked p)
    (hu : p.threads.get next = some u) (hready : u.state = .ready)
    (hlt : p.totalQuantom + 1 < deadline) :
    Counting tid deadline blocked (p.dispatched order next rest u) := by
  obtain ⟨t, ht, hsl, hst⟩ := h.record
  have hne := h.ne_ready hu hready
  -- one quantum less to go, and still some
  have hz : t.sleepingTime - 1 ≠ 0 := by omega
  refine ⟨hlt, ?_, wakeRecord t, ?_, ?_, ?_⟩
  · exact (mem_dispatched_sleeping hu ht).mpr ⟨h.asleep, hz⟩
  · rw [dispatched_get_ne hu hne, if_pos h.asleep, ht]
    rfl
  · rw [wakeRecord_sleepingTime, if_neg hz, dispatched_total]
    omega
  · cases blocked with
    | true => exact (wakeRecord_blocked t).mpr hst
    | false => exact (wakeRecord_sleeping t).mpr ⟨hz, hst⟩

/-- **The quantum start that reaches the deadline** wakes the thread, and puts
it in the queue if no block is pending. -/
theorem Counting.expires (order : IterOrder) (rest : List Int) (h : Counting tid deadline blocked p)
    (hu : p.threads.get next = some u) (hready : u.state = .ready)
    (heq : p.totalQuantom + 1 = deadline) :
    Woken tid blocked (p.dispatched order next rest u)
      ∧ (blocked = false → ∃ added, (p.dispatched order next rest u).readyThreads = rest ++ added
          ∧ tid ∈ added) := by
  obtain ⟨t, ht, hsl, hst⟩ := h.record
  have hne := h.ne_ready hu hready
  have hz : t.sleepingTime - 1 = 0 := by omega
  refine ⟨⟨?_, wakeRecord t, ?_, ?_, ?_⟩, ?_⟩
  · intro hm
    exact ((mem_dispatched_sleeping hu ht).mp hm).2 hz
  · rw [dispatched_get_ne hu hne, if_pos h.asleep, ht]
    rfl
  · rw [wakeRecord_sleepingTime, if_pos hz]
  · cases blocked with
    | true => exact (wakeRecord_blocked t).mpr hst
    | false => exact (wakeRecord_ready t).mpr (Or.inr ⟨hz, hst⟩)
  · -- a SLEEPING thread is among those the pass pushes
    intro hb
    rw [hb] at hst
    refine ⟨_, dispatched_ready hu (by simp [hready]), List.mem_filter.mpr ⟨?_, ?_⟩⟩
    · exact (order.perm _ _).mem_iff.mpr h.asleep
    · exact waking_iff.mpr ⟨t, ht, hz, hst⟩

end Dispatch

/-! ## §2. One event. -/

theorem noteBlock_block (tid : Int) (b : Bool) : noteBlock tid b (.call (.block tid)) = true :=
  if_pos rfl

theorem noteBlock_resume (tid : Int) (b : Bool) : noteBlock tid b (.call (.resume tid)) = false := by
  rw [noteBlock, if_neg (by simp), if_pos rfl]

theorem noteBlock_other {tid : Int} {b : Bool} {e : Event} (hb : e ≠ .call (.block tid))
    (hr : e ≠ .call (.resume tid)) : noteBlock tid b e = b := by
  rw [noteBlock, if_neg hb, if_neg hr]

section Step

variable {order : IterOrder} {s s' p : State} {tid deadline : Int} {b : Bool} {e : Event}
  {t : Thread}

/-- Nothing about the sleeper changes. -/
theorem Counting.frame (h : Counting tid deadline b s) (htotal : s'.totalQuantom = s.totalQuantom)
    (hmem : tid ∈ s'.sleepingThreads) (hget : s'.threads.get tid = s.threads.get tid) :
    Counting tid deadline b s' :=
  ⟨htotal ▸ h.before, hmem, by rw [hget, htotal]; exact h.record⟩

/-- A sleeper does not run. -/
theorem Counting.ne_curr (h : Counting tid deadline b s) (hw : WellFormed s) :
    tid ≠ s.currThreadId := by
  obtain ⟨t, ht, _, hst⟩ := h.record
  refine hw.ne_curr ht ?_
  cases b <;> simp [hst]

/-- The event of a switch is not a block or a resume of the sleeper. -/
theorem Suspends.noteBlock (hp : Suspends s t e p) (hne : tid ≠ s.currThreadId) :
    UThreads.noteBlock tid b e = b := by
  refine noteBlock_other ?_ ?_
  · intro he
    rw [he] at hp
    exact hne hp.switches.1
  · intro he
    rw [he] at hp
    exact hp.switches

/-- A sleeper survives the suspension of another thread. -/
theorem Counting.suspends (h : Counting tid deadline b s) (hw : WellFormed s)
    (hcurr : s.threads.get s.currThreadId = some t) (hp : Suspends s t e p) :
    Counting tid deadline b p := by
  obtain ⟨hget, hmem, _⟩ := hp.frame hcurr (h.ne_curr hw)
  exact h.frame hp.total (hmem.mpr h.asleep) hget

/-- A block or resume that does nothing to the sleeper repeats the last one. -/
theorem Counting.idle (h : Counting tid deadline b s) {c : Call} (hi : Idle s c) :
    UThreads.noteBlock tid b (.call c) = b := by
  obtain ⟨t, ht, _, hst⟩ := h.record
  -- an idle block finds the sleeper BLOCKED, an idle resume finds it SLEEPING
  by_cases hcb : Event.call c = .call (.block tid)
  · injection hcb with hcb
    subst hcb
    obtain ⟨_, v, hv, hvst⟩ := hi
    obtain rfl := same_record ht hv
    rw [hst] at hvst
    cases b with
    | true => exact noteBlock_block tid true
    | false => cases hvst
  · by_cases hcr : Event.call c = .call (.resume tid)
    · injection hcr with hcr
      subst hcr
      obtain ⟨_, v, hv, hvst⟩ := hi
      obtain rfl := same_record ht hv
      rw [hst] at hvst
      cases b with
      | true => exact absurd rfl hvst
      | false => exact noteBlock_resume tid false
    · exact noteBlock_other hcb hcr

/-- A block or resume of the sleeper is not rejected. -/
theorem Counting.rejected (h : Counting tid deadline b s) (h0 : tid ≠ 0) {c : Call}
    (hr : Rejected s c) : UThreads.noteBlock tid b (.call c) = b := by
  obtain ⟨t, ht, _, _⟩ := h.record
  have hlive : ¬ (tid = 0 ∨ s.threads.get tid = none) := by
    rw [ht]
    simp [h0]
  refine noteBlock_other ?_ ?_
  · intro hc
    injection hc with hc
    subst hc
    exact hlive hr
  · intro hc
    injection hc with hc
    subst hc
    exact hlive hr

/-- **Between two quantum starts** the sleeper counts on, BLOCKED or SLEEPING
as the last block or resume says. -/
theorem Counting.calls (h : Counting tid deadline b s) (hw : WellFormed s)
    (he : Effect order s e s') (hterm : e ≠ .call (.terminate tid)) (hno : ¬ e.Switches s) :
    Counting tid deadline (noteBlock tid b e) s' := by
  obtain ⟨t, ht, hsl, hst⟩ := h.record
  have h0 : tid ≠ 0 := fun he => hw.sleepMain (he ▸ h.asleep)
  have hbefore := h.before
  cases he with
  | reject c line hr =>
      rw [h.rejected h0 hr]
      exact h.frame rfl h.asleep rfl
  | idle c hi =>
      rw [h.idle hi]
      exact h
  | spawn newStack entryPoint newId ids hids =>
      have hne := hw.ne_heap_top ht hids
      rw [noteBlock_other (by simp) (by simp)]
      exact h.frame rfl h.asleep (Table.get_set_ne s.threads hne _)
  | retireIdle i v hi0 hv hvst =>
      have hne : tid ≠ i := fun he => hterm (he ▸ rfl)
      rw [noteBlock_other (by simp) (by simp)]
      exact h.frame rfl h.asleep (Table.get_set_ne s.threads hne _)
  | retireSleeping i v hi0 hv hvst =>
      have hne : tid ≠ i := fun he => hterm (he ▸ rfl)
      rw [noteBlock_other (by simp) (by simp)]
      exact h.frame rfl ((List.mem_erase_of_ne hne).mpr h.asleep)
        (Table.get_set_ne s.threads hne _)
  | blockSleeping i v hi0 hv hvst =>
      by_cases hne : tid = i
      · subst hne
        obtain rfl := same_record ht hv
        rw [noteBlock_block]
        exact ⟨h.before, h.asleep, _, (setThread_get ht _ tid).trans (if_pos rfl), hsl, rfl⟩
      · rw [noteBlock_other (by simpa using Ne.symm hne) (by simp)]
        exact h.frame rfl h.asleep (Table.get_set_ne s.threads hne _)
  | blockReady i v hi0 hv hvst =>
      have hne := h.ne_ready hv hvst
      rw [noteBlock_other (by simpa using Ne.symm hne) (by simp)]
      exact h.frame rfl h.asleep (Table.get_set_ne s.threads hne _)
  | resumeBlocked i v hi0 hv hvst hvsl =>
      -- the sleeper's countdown is positive
      have hne : tid ≠ i := by
        intro he
        obtain rfl := same_record ht (he ▸ hv)
        rw [hsl] at hvsl
        unfold notSleeping at hvsl
        omega
      rw [noteBlock_other (by simp) (by simpa using Ne.symm hne)]
      exact h.frame rfl h.asleep (Table.get_set_ne s.threads hne _)
  | resumeCounting i v hi0 hv hvst hvsl =>
      by_cases hne : tid = i
      · subst hne
        obtain rfl := same_record ht hv
        rw [noteBlock_resume]
        exact ⟨h.before, h.asleep, _, (setThread_get ht _ tid).trans (if_pos rfl), hsl, rfl⟩
      · rw [noteBlock_other (by simp) (by simpa using Ne.symm hne)]
        exact h.frame rfl h.asleep (Table.get_set_ne s.threads hne _)
  | switch e v p next rest u hcurr hrun hp hq hu hready hlive => exact absurd hp.switches hno

/-- **The step lemma**: an event other than the sleeper's termination lets it
count on, or is the quantum start that wakes it. -/
theorem Counting.step (h : Counting tid deadline b s) (hw : WellFormed s)
    (hs : step order s e = some s') (hterm : e ≠ .call (.terminate tid)) :
    (s'.totalQuantom < deadline ∧ Counting tid deadline (noteBlock tid b e) s')
      ∨ (s'.totalQuantom = deadline ∧ noteBlock tid b e = b ∧ Woken tid b s'
          ∧ (b = false → Appended tid s s')) := by
  have he := step_effect hw hs
  rcases he.switches_or hw with
    ⟨hno, _, _⟩ | ⟨_, t, p, next, rest, u, hcurr, _, hp, hq, hu, hready, rfl⟩
  · have hc := h.calls hw he hterm hno
    exact Or.inl ⟨hc.before, hc⟩
  · have hne := h.ne_curr hw
    have hc := h.suspends hw hcurr hp
    have hbefore := hc.before
    rw [hp.noteBlock hne]
    by_cases hlt : p.totalQuantom + 1 < deadline
    · exact Or.inl ⟨hlt, hc.dispatched hu hready hlt⟩
    · have heq : p.totalQuantom + 1 = deadline := by omega
      obtain ⟨hwoken, happend⟩ := hc.expires order rest hu hready heq
      obtain ⟨_, _, late, hlate⟩ := hp.frame hcurr hne
      refine Or.inr ⟨heq, rfl, hwoken, ?_⟩
      intro hb
      obtain ⟨added, hadded, hmem⟩ := happend hb
      exact ⟨late, next, rest, added, hlate ▸ hq, hadded, hmem⟩

/-- **The call itself** starts the countdown; with `n = 1` its own dispatch is
the quantum start that wakes the caller. -/
theorem Counting.start {n : Int} (hw : WellFormed s) (hcurr : s.currThreadId = tid) (h0 : tid ≠ 0)
    (hn : 1 ≤ n) (hs : UThreads.step order s (.call (.sleep n)) = some s') :
    (s'.totalQuantom < s.totalQuantom + n ∧ Counting tid (s.totalQuantom + n) false s')
      ∨ (s'.totalQuantom = s.totalQuantom + n ∧ Woken tid false s' ∧ Appended tid s s') := by
  subst hcurr
  rcases (step_effect hw hs).switches_or hw with
    ⟨hno, _, _⟩ | ⟨_, t, p, next, rest, u, hget, _, hp, hq, hu, hready, rfl⟩
  · exact absurd h0 hno
  · cases hp with
    | sleep _ _ =>
        have hc : Counting s.currThreadId (s.totalQuantom + n) false (s.suspendSleep t n) := by
          refine ⟨?_, List.mem_insert_self, _, (saveCurrent_get hget _ .uthreadSleep _).trans
            (if_pos rfl), ?_, rfl⟩
          · show s.totalQuantom < s.totalQuantom + n
            omega
          · show n = s.totalQuantom + n - s.totalQuantom
            omega
        have htotal : (s.suspendSleep t n).totalQuantom = s.totalQuantom := rfl
        by_cases hlt : (s.suspendSleep t n).totalQuantom + 1 < s.totalQuantom + n
        · exact Or.inl ⟨hlt, hc.dispatched hu hready hlt⟩
        · have heq : (s.suspendSleep t n).totalQuantom + 1 = s.totalQuantom + n := by omega
          obtain ⟨hwoken, happend⟩ := hc.expires order rest hu hready heq
          obtain ⟨added, hadded, hmem⟩ := happend rfl
          exact Or.inr ⟨heq, hwoken, [], next, rest, added, by rw [List.append_nil]; exact hq,
            hadded, hmem⟩

/-- A thread whose sleep is over and that is still blocked stays so until it is
resumed. -/
theorem Woken.parked (h : Woken tid true s) (hw : WellFormed s) (hs : step order s e = some s')
    (hterm : e ≠ .call (.terminate tid)) (hres : e ≠ .call (.resume tid)) :
    Woken tid true s' := by
  obtain ⟨t, ht, hsl, hst⟩ := h.record
  have hblocked : t.state = .blocked := hst
  -- nothing about the thread changes
  have hframe : ∀ v : State, (tid ∈ v.sleepingThreads → tid ∈ s.sleepingThreads) →
      v.threads.get tid = s.threads.get tid → Woken tid true v := fun v hmem hget =>
    ⟨fun hm => h.awake (hmem hm), by rw [hget]; exact h.record⟩
  have he := step_effect hw hs
  cases he with
  | reject c line hr => exact hframe _ id rfl
  | idle c hi => exact h
  | spawn newStack entryPoint newId ids hids =>
      have hne := hw.ne_heap_top ht hids
      exact hframe _ id (Table.get_set_ne s.threads hne _)
  | retireIdle i v hi0 hv hvst =>
      have hne : tid ≠ i := fun he => hterm (he ▸ rfl)
      exact hframe _ id (Table.get_set_ne s.threads hne _)
  | retireSleeping i v hi0 hv hvst =>
      have hne : tid ≠ i := fun he => hterm (he ▸ rfl)
      exact hframe _ List.mem_of_mem_erase (Table.get_set_ne s.threads hne _)
  | blockSleeping i v hi0 hv hvst =>
      have hne : tid ≠ i := by
        intro he
        obtain rfl := same_record ht (he ▸ hv)
        cases hblocked.symm.trans hvst
      exact hframe _ id (Table.get_set_ne s.threads hne _)
  | blockReady i v hi0 hv hvst =>
      have hne : tid ≠ i := by
        intro he
        obtain rfl := same_record ht (he ▸ hv)
        cases hblocked.symm.trans hvst
      exact hframe _ id (Table.get_set_ne s.threads hne _)
  | resumeBlocked i v hi0 hv hvst hvsl =>
      have hne : tid ≠ i := fun he => hres (he ▸ rfl)
      exact hframe _ id (Table.get_set_ne s.threads hne _)
  | resumeCounting i v hi0 hv hvst hvsl =>
      have hne : tid ≠ i := fun he => hres (he ▸ rfl)
      exact hframe _ id (Table.get_set_ne s.threads hne _)
  | switch e v p next rest u hcurr hrun hp hq hu hready hlive =>
      -- it neither gives up the CPU nor gets it, and nobody counts it down
      obtain ⟨hget, hmem, _⟩ := hp.frame hcurr (hw.ne_curr ht (by simp [hblocked]))
      have hne : tid ≠ next := by
        intro he
        rw [he, hu, ← he, ht] at hget
        injection hget with hget
        rw [hget, hblocked] at hready
        cases hready
      have hout : tid ∉ p.sleepingThreads := fun hm => h.awake (hmem.mp hm)
      refine hframe _ (fun hm => ?_) ?_
      · rw [dispatched_sleeping hu] at hm
        exact absurd (List.mem_of_mem_filter hm) hout
      · rw [dispatched_get_ne hu hne, if_neg hout, hget]

/-- Its resume puts it at the tail of the queue. -/
theorem Woken.resume (order : IterOrder) (h : Woken tid true s) (hw : WellFormed s)
    (h0 : tid ≠ 0) :
    ∃ s', step order s (.call (.resume tid)) = some s'
      ∧ s'.readyThreads = s.readyThreads ++ [tid] ∧ s'.stateOf tid = some .ready := by
  obtain ⟨t, ht, hsl, hst⟩ := h.record
  have hexec := exec_uthreadResume_blocked ∅ hw.freed h0 ht hst hsl
  have hstep : step order s (.call (.resume tid)) = settle ((uthreadResume tid).exec s ∅) := rfl
  rw [hexec] at hstep
  exact ⟨_, hstep, rfl, stateOf_eq_some.mpr ⟨_, (setThread_get ht _ tid).trans (if_pos rfl), rfl⟩⟩

end Step

/-! ## §3. Whole runs. -/

section Run

variable {order : IterOrder} {tid deadline : Int}

/-- The total never goes down. -/
theorem total_mono {s u : State} {es : List Event} (h : WellFormed s)
    (hrun : run (step order) s es = some u) : s.totalQuantom ≤ u.totalQuantom := by
  refine (run_invariant (fun v => WellFormed v ∧ s.totalQuantom ≤ v.totalQuantom) ?_ es s u
    ⟨h, Int.le_refl _⟩ hrun).2
  intro v e w hI hs
  refine ⟨hI.1.step hs, ?_⟩
  rcases (step_effect hI.1 hs).switches_or hI.1 with
    ⟨_, _, htotal⟩ | ⟨_, t, p, next, rest, u, _, _, hp, _, _, _, rfl⟩
  · rw [htotal]
    exact hI.2
  · rw [dispatched_total, hp.total]
    have := hI.2
    omega

/-- **The run lemma**: before its deadline the sleeper counts. -/
theorem counting_run :
    ∀ (es : List Event) (s u : State) (b : Bool), Counting tid deadline b s → WellFormed s →
      run (step order) s es = some u → (∀ e ∈ es, e ≠ .call (.terminate tid)) →
      u.totalQuantom < deadline → Counting tid deadline (es.foldl (noteBlock tid) b) u := by
  intro es
  induction es with
  | nil =>
      intro s u b h _ hrun _ _
      injection hrun with hrun
      exact hrun ▸ h
  | cons e es ih =>
      intro s u b h hw hrun hterm hlt
      obtain ⟨v, hv, hu⟩ := run_cons.mp hrun
      have hwv := hw.step hv
      rcases h.step hw hv (hterm e List.mem_cons_self) with ⟨_, hc⟩ | ⟨heq, _, _, _⟩
      · exact ih v u _ hc hwv hu (fun f hf => hterm f (List.mem_cons_of_mem _ hf)) hlt
      · -- awake already, the total would be past the deadline at the end
        have hmono := total_mono hwv hu
        omega

theorem parked_run {es : List Event} {s u : State} (h : Woken tid true s) (hw : WellFormed s)
    (hrun : run (step order) s es = some u)
    (hes : ∀ e ∈ es, e ≠ .call (.terminate tid) ∧ e ≠ .call (.resume tid)) :
    Woken tid true u := by
  refine (run_guarded (fun v => WellFormed v ∧ Woken tid true v) _ ?_ es s u
    ⟨hw, h⟩ (allSteps_of_throughout es s hes ((throughout_iff es s).mpr
      (fun _ _ _ _ _ => trivial))) hrun).2
  intro v e w hI hP hs
  exact ⟨hI.1.step hs, hI.2.parked hI.1 hs hP.1.1 hP.1.2⟩

/-- **From the call on**: as long as the deadline is ahead the caller counts,
with the last block or resume of it noted. -/
theorem counting_after_sleep {s u : State} {n : Int} {es : List Event} (hw : WellFormed s)
    (hcurr : s.currThreadId = tid) (h0 : tid ≠ 0) (hn : 1 ≤ n)
    (hrun : run (step order) s (.call (.sleep n) :: es) = some u)
    (hterm : ∀ e ∈ es, e ≠ .call (.terminate tid)) (hlt : u.totalQuantom < s.totalQuantom + n) :
    Counting tid (s.totalQuantom + n) (lastIsBlock tid (.call (.sleep n) :: es)) u := by
  obtain ⟨s₁, hs₁, hu⟩ := run_cons.mp hrun
  have hw₁ := hw.step hs₁
  rcases Counting.start hw hcurr h0 hn hs₁ with ⟨_, hc⟩ | ⟨heq, _, _⟩
  · exact counting_run es s₁ u false hc hw₁ hu hterm hlt
  · have hmono := total_mono hw₁ hu
    omega

/-- **The event that reaches the deadline** wakes the thread, as the last block
or resume of it says. -/
theorem woken_at_deadline {s v u : State} {n : Int} {es es₁ : List Event} {e : Event}
    (hw : WellFormed s) (hcurr : s.currThreadId = tid) (h0 : tid ≠ 0) (hn : 1 ≤ n)
    (hpath : .call (.sleep n) :: es = es₁ ++ [e]) (hv : run (step order) s es₁ = some v)
    (hue : step order v e = some u) (hterm : ∀ f ∈ es, f ≠ .call (.terminate tid))
    (hlt : v.totalQuantom < s.totalQuantom + n) (heq : u.totalQuantom = s.totalQuantom + n) :
    Woken tid (lastIsBlock tid es₁) u ∧ (lastIsBlock tid es₁ = false → Appended tid v u) := by
  cases es₁ with
  | nil =>
      -- the dispatch of the call itself
      rw [List.nil_append] at hpath
      injection hpath with he _
      injection hv with hv
      subst hv he
      rcases Counting.start hw hcurr h0 hn hue with ⟨hlt', _⟩ | ⟨_, hwoken, happend⟩
      · omega
      · exact ⟨hwoken, fun _ => happend⟩
  | cons f es₁ =>
      rw [List.cons_append] at hpath
      injection hpath with hf hes
      subst hf
      have hterm₁ : ∀ g ∈ es₁, g ≠ .call (.terminate tid) := fun g hg =>
        hterm g (hes ▸ List.mem_append_left _ hg)
      have hterme : e ≠ .call (.terminate tid) :=
        hterm e (hes ▸ List.mem_append_right _ List.mem_cons_self)
      have hcv := counting_after_sleep hw hcurr h0 hn hv hterm₁ hlt
      have hwv := hw.run hv
      rcases hcv.step hwv hue hterme with ⟨hlt', _⟩ | ⟨_, _, hwoken, happend⟩
      · omega
      · exact ⟨hwoken, happend⟩

end Run

/-- **Exact wake-up.**  The running thread `tid` calls `uthread_sleep(n)` and is
not terminated in the run `es` that follows.  Before the deadline it counts
down and is neither READY nor RUNNING.  At the quantum start that reaches the
deadline it leaves the sleeping set; it joins the queue then, unless the last
block or resume of it was a block, and then at its next resume. -/
theorem exact_wakeup {order : IterOrder} {s u : State} {tid n : Int} {es : List Event}
    (h : Reachable order s) (hcurr : s.currThreadId = tid) (h0 : tid ≠ 0) (hn : 1 ≤ n)
    (hrun : run (step order) s (.call (.sleep n) :: es) = some u)
    (hterm : ∀ e ∈ es, e ≠ .call (.terminate tid)) :
    (u.totalQuantom < s.totalQuantom + n →
        tid ∈ u.sleepingThreads ∧ ∃ t, u.threads.get tid = some t
          ∧ t.sleepingTime = s.totalQuantom + n - u.totalQuantom
          ∧ t.state ≠ .ready ∧ t.state ≠ .running)
      ∧ (∀ es₁ e v, .call (.sleep n) :: es = es₁ ++ [e] → run (step order) s es₁ = some v →
        v.totalQuantom < s.totalQuantom + n → u.totalQuantom = s.totalQuantom + n →
        tid ∉ u.sleepingThreads ∧ ∃ t, u.threads.get tid = some t ∧ t.sleepingTime = notSleeping
          ∧ (lastIsBlock tid es₁ = false → t.state = .ready ∧ Appended tid v u)
          ∧ (lastIsBlock tid es₁ = true → t.state = .blocked
            ∧ ∀ fs w, run (step order) u fs = some w →
              (∀ f ∈ fs, f ≠ .call (.terminate tid) ∧ f ≠ .call (.resume tid)) →
              w.stateOf tid = some .blocked
                ∧ ∃ w', step order w (.call (.resume tid)) = some w'
                  ∧ w'.readyThreads = w.readyThreads ++ [tid] ∧ w'.stateOf tid = some .ready)) := by
  have hw := h.wellFormed
  constructor
  · intro hlt
    have hcu := counting_after_sleep hw hcurr h0 hn hrun hterm hlt
    obtain ⟨t, ht, hsl, hst⟩ := hcu.record
    refine ⟨hcu.asleep, t, ht, hsl, ?_⟩
    rw [hst]
    split <;> simp
  · intro es₁ e v hpath hv hvlt hueq
    have hue : step order v e = some u := by
      rw [hpath] at hrun
      obtain ⟨v', hv', hue⟩ := run_snoc.mp hrun
      rw [hv] at hv'
      injection hv' with hv'
      exact hv' ▸ hue
    obtain ⟨hwoken, happend⟩ :=
      woken_at_deadline hw hcurr h0 hn hpath hv hue hterm hvlt hueq
    obtain ⟨t, ht, hsl, hst⟩ := hwoken.record
    refine ⟨hwoken.awake, t, ht, hsl, ?_, ?_⟩
    · intro hb
      rw [hb] at hst
      exact ⟨hst, happend hb⟩
    · -- a pending block is kept until the next resume
      intro hb
      rw [hb] at hst hwoken
      refine ⟨hst, ?_⟩
      intro fs w hfs hfree
      have hparked := parked_run hwoken (h.run hrun).wellFormed hfs hfree
      obtain ⟨t', ht', _, hst'⟩ := hparked.record
      exact ⟨stateOf_eq_some.mpr ⟨t', ht', hst'⟩,
        hparked.resume order ((h.run hrun).run hfs).wellFormed h0⟩

/-- A thread sleeps for three quanta and is blocked meanwhile: it sleeps until the last
of them, is BLOCKED then, and queued by the resume. -/
theorem exact_wakeup_blockedSleeper :
    ∃ s u w w', run (step .listing) (initialState 1000)
          [.call (.spawn ⟨some 4096, true⟩ (some 1)), .tick ∅] = some s
      ∧ run (step .listing) s [.call (.sleep 3), .call (.block 1), .tick ∅] = some u
      ∧ (1 : Int) ∈ u.sleepingThreads
      ∧ run (step .listing) s [.call (.sleep 3), .call (.block 1), .tick ∅, .tick ∅] = some w
      ∧ (1 : Int) ∉ w.sleepingThreads ∧ w.stateOf 1 = some .blocked
      ∧ step .listing w (.call (.resume 1)) = some w' ∧ w'.readyThreads = w.readyThreads ++ [1]
      ∧ w'.stateOf 1 = some .ready := by
  have hall : (run (step .listing) (initialState 1000)
      [.call (.spawn ⟨some 4096, true⟩ (some 1)), .tick ∅]).bind (fun s =>
        (run (step .listing) s [.call (.sleep 3), .call (.block 1), .tick ∅]).bind (fun u =>
          (run (step .listing) s [.call (.sleep 3), .call (.block 1), .tick ∅, .tick ∅]).map
            (fun w => (s.currThreadId, s.totalQuantom, u.totalQuantom, w.totalQuantom))))
      = some (1, 2, 4, 5) := by
    decide +kernel
  obtain ⟨s, hs, hrest⟩ := Option.bind_eq_some_iff.mp hall
  obtain ⟨u, hu, hrest⟩ := Option.bind_eq_some_iff.mp hrest
  obtain ⟨w, hw, hobs⟩ := Option.map_eq_some_iff.mp hrest
  injection hobs with hcurr hobs
  injection hobs with htotal hobs
  injection hobs with hbefore hafter
  have hreach := reachable_of_run (by decide) hs
  have hasleep := (exact_wakeup hreach hcurr (by decide) (by decide) hu (by decide)).1 (by omega)
  -- the second tick reaches the deadline
  obtain ⟨hawake, _, _, _, _, hblocked⟩ :=
    (exact_wakeup hreach hcurr (by decide) (by decide) hw (by decide)).2
      [.call (.sleep 3), .call (.block 1), .tick ∅] (.tick ∅) u rfl hu (by omega) (by omega)
  obtain ⟨_, hparked⟩ := hblocked (by decide)
  obtain ⟨hst, w', hresume, hqueue, hready⟩ := hparked [] w rfl (fun _ hf => nomatch hf)
  exact ⟨s, u, w, w', hs, hu, hasleep.1, hw, hawake, hst, hresume, hqueue, hready⟩

end UThreads
