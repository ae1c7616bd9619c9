/-
  UThreads.Properties.Completeness
  ────────────────────────────────
  **WHATEVER THE ABSTRACT SCHEDULER MAY DO, THE LIBRARY DOES.**

  The converse of the refinement: every run of the abstract scheduler is
  what some run of the library looks like.  Each operation has its call; the
  iteration order of `sleeping_threads` is chosen so that the sleepers wake in
  the order that the abstract run has (a pass has a number, so one order does
  for the whole run).
-/
import UThreads.Properties.Refinement

namespace UThreads

open Interruptible RoundRobin Runs

/-! ## §1. Iteration orders. -/

/-- Iterate over the ids of `front` first, where they are members. -/
def IterOrder.first (front : List Int) : IterOrder where
  enum := fun _ l =>
    let l' := front ++ l.filter (fun i => decide (i ∉ front))
    if l'.Perm l then l' else l
  perm := by
    intro q l
    dsimp only
    split
    · assumption
    · exact List.Perm.refl l

theorem IterOrder.enum_first {front l : List Int} (hfront : front.Nodup) (hl : l.Nodup)
    (hsub : ∀ i ∈ front, i ∈ l) (q : Int) :
    (IterOrder.first front).enum q l = front ++ l.filter (fun i => decide (i ∉ front)) := by
  refine if_pos ?_
  have hnodup : (front ++ l.filter (fun i => decide (i ∉ front))).Nodup := by
    refine List.nodup_append.mpr ⟨hfront, hl.filter _, ?_⟩
    intro i hi j hj he
    exact of_decide_eq_true (List.mem_filter.mp hj).2 (he ▸ hi)
  refine (List.perm_ext_iff_of_nodup hnodup hl).mpr ?_
  intro i
  rw [List.mem_append, List.mem_filter, decide_eq_true_iff]
  constructor
  · rintro (hi | ⟨hi, _⟩)
    · exact hsub i hi
    · exact hi
  · intro hi
    by_cases hmem : i ∈ front
    · exact Or.inl hmem
    · exact Or.inr ⟨hi, hmem⟩

/-- One order up to the pass of quantum `n`, another one after it. -/
def IterOrder.upTo (n : Int) (a b : IterOrder) : IterOrder where
  enum := fun q l => if q ≤ n then a.enum q l else b.enum q l
  perm := by
    intro q l
    split
    · exact a.perm q l
    · exact b.perm q l

/-- The passes after quantum `n` go by the same order. -/
def IterOrder.AgreeAfter (n : Int) (a b : IterOrder) : Prop :=
  ∀ q l, n < q → a.enum q l = b.enum q l

section Orders

variable {a b order : IterOrder} {n k : Int}

theorem IterOrder.AgreeAfter.mono (h : order.AgreeAfter n a) (hnk : n ≤ k) :
    order.AgreeAfter k a := fun q l hq => h q l (by omega)

theorem IterOrder.AgreeAfter.of_upTo (h : order.AgreeAfter n (IterOrder.upTo k a b))
    (hnk : n ≤ k) : order.AgreeAfter k b := by
  intro q l hq
  exact (h q l (by omega)).trans (if_neg (by omega))

theorem IterOrder.AgreeAfter.now (h : order.AgreeAfter n (IterOrder.upTo (n + 1) a b))
    (l : List Int) : order.enum (n + 1) l = a.enum (n + 1) l :=
  (h (n + 1) l (by omega)).trans (if_pos (by omega))

end Orders

/-! ## §2. Each operation has its call. -/

section Performs

variable {s s' p : State} {t u : Thread} {o : Op Int} {b : Sched Int} {tid : Int}

/-- A step to `s'` on event `e`, under every iteration order, or under those
that agree with one order on the pass that the step makes. -/
inductive Does (s : State) (e : Event) (s' : State) : Prop where
  | stays (h : ∀ order, step order s e = some s') (htotal : s'.totalQuantom = s.totalQuantom)
  | passes (first : IterOrder) (htotal : s'.totalQuantom = s.totalQuantom + 1)
      (h : ∀ order : IterOrder, (∀ l, order.enum (s.totalQuantom + 1) l
        = first.enum (s.totalQuantom + 1) l) → step order s e = some s')

/-- What is to be shown of an operation: an event that stands for it leads to
the state that looks like its result. -/
def Performed (s : State) (o : Op Int) (b : Sched Int) : Prop :=
  ∃ e s', e.op s = some o ∧ e.Regular s ∧ Does s e s' ∧ s'.view = b

theorem does_of_exec {c : Call} {r : Int} {m : SigSet}
    (h : ∀ order, (c.prog order).exec s ∅ = .ret r s' m)
    (htotal : s'.totalQuantom = s.totalQuantom) : Does s (.call c) s' := by
  refine .stays ?_ htotal
  intro order
  show settle ((c.prog order).exec s ∅) = some s'
  rw [h order]
  rfl

/-- `uthread_spawn`, when memory is to be had. -/
theorem Sleepers.performs_enroll (h : Sleepers s) (hw : WellFormed s) {x : Int}
    (hnew : ¬ s.view.Knows x) (hleast : LeastFree s.view x) :
    Performed s (.enroll x) (s.view.enroll x) := by
  have hunknown : ∀ {i}, s.live i = false → ¬ s.view.Knows i := by
    intro i hi hk
    rw [(h.view_knows hw).mp hk] at hi
    cases hi
  have hfree : s.live x = false := by
    rw [← Bool.not_eq_true]
    exact fun hl => hnew ((h.view_knows hw).mpr hl)
  have hmem : x ∈ s.minHeapId := (hw.heapIff x).mpr ⟨hleast.1, not_live.mp hfree⟩
  cases hheap : s.minHeapId with
  | nil =>
      rw [hheap] at hmem
      cases hmem
  | cons newId ids =>
      obtain ⟨hr, hfree', htop⟩ := hw.heap_top hheap
      -- the top of the heap and the least free id are below each other
      obtain rfl : newId = x :=
        le_antisymm (htop x hleast.1 hfree) (hleast.2 newId hr (hunknown hfree'))
      refine ⟨.call (.spawn ⟨some 0, true⟩ (some 0)), s.spawn newId ids 0 0, ?_, ⟨trivial, id⟩,
        does_of_exec (fun order => exec_uthreadSpawn 0 0 ∅ hheap hr.1) rfl, view_spawn hw hheap 0 0⟩
      show s.minHeapId.head?.map Op.enroll = _
      rw [hheap]
      rfl

/-- `uthread_terminate` of another thread. -/
theorem Sleepers.performs_retire (h : Sleepers s) (hw : WellFormed s) (hknows : s.view.Knows tid)
    (hne : tid ≠ s.currThreadId) (h0 : tid ≠ 0)
    (hawake : ¬ (tid ∈ s.view.held ∧ s.view.wake tid ≠ none)) :
    Performed s (.retire tid) (s.view.retire tid) := by
  have hlive := (h.view_knows hw).mp hknows
  obtain ⟨t, ht⟩ := Option.isSome_iff_exists.mp hlive
  have hop : (Event.call (.terminate tid)).op s = some (.retire tid) := by
    rw [Event.op, hlive, if_neg (by decide), if_neg hne]
  have hregular : (Event.call (.terminate tid)).Regular s := by
    refine ⟨trivial, ?_⟩
    intro hbad
    obtain ⟨v, hv, hst, hsl⟩ := hbad
    refine hawake ⟨mem_held.mpr ⟨v, hv, hst⟩, ?_⟩
    rw [view_wake hv, Ne, wakeAt_eq_none]
    exact hsl
  have hidle : t.state = .ready ∨ t.state = .blocked →
      Performed s (.retire tid) (s.view.retire tid) := fun hst =>
    ⟨_, _, hop, hregular, does_of_exec
      (fun order => exec_uthreadTerminate_idle order ∅ hw.freed h0 ht hst) rfl,
      view_retire hw ht (retire_get ht) rfl rfl (Or.inr rfl)⟩
  cases hst : t.state with
  | running => exact absurd (hw.onlyCurr tid t ht hst) hne
  | ready => exact hidle (Or.inl hst)
  | blocked => exact hidle (Or.inr hst)
  | sleeping =>
      exact ⟨_, _, hop, hregular, does_of_exec (fun order => exec_uthreadTerminate_sleeping order ∅
        hw.freed h0 ht hst (hw.sleepMem tid t ht (Or.inl hst))) rfl,
        view_retire hw ht (retire_get ht) rfl rfl (Or.inl ⟨rfl, by simp [hst]⟩)⟩

/-- `uthread_block` of another thread. -/
theorem Sleepers.performs_hold (h : Sleepers s) (hw : WellFormed s) (hknows : s.view.Knows tid)
    (hne : tid ≠ s.currThreadId) (h0 : tid ≠ 0) : Performed s (.hold tid) (s.view.hold tid) := by
  have hlive := (h.view_knows hw).mp hknows
  obtain ⟨t, ht⟩ := Option.isSome_iff_exists.mp hlive
  have hop : (Event.call (.block tid)).op s = some (.hold tid) := by
    have hlegal : ¬ (tid = 0 ∨ s.live tid = false) := by
      rw [hlive]
      simp [h0]
    rw [Event.op, if_neg hlegal, if_neg hne]
  have hregular : (Event.call (.block tid)).Regular s := ⟨trivial, id⟩
  cases hst : t.state with
  | running => exact absurd (hw.onlyCurr tid t ht hst) hne
  | ready =>
      exact ⟨_, _, hop, hregular, does_of_exec
        (fun order => exec_uthreadBlock_ready ∅ order hw.freed h0 ht hst) rfl,
        view_hold hw ht (setThread_get ht _) rfl rfl (Or.inr rfl)⟩
  | blocked =>
      exact ⟨_, _, hop, hregular, does_of_exec
        (fun order => exec_uthreadBlock_blocked ∅ order hw.freed h0 ht hst) rfl,
        view_hold_blocked hw ht hst⟩
  | sleeping =>
      exact ⟨_, _, hop, hregular, does_of_exec
        (fun order => exec_uthreadBlock_sleeping ∅ order hw.freed h0 ht hst) rfl,
        view_hold hw ht (setThread_get ht _) rfl rfl (Or.inl ⟨rfl, by simp [hst]⟩)⟩

/-- `uthread_resume`. -/
theorem WellFormed.performs_release (hw : WellFormed s) (hheld : tid ∈ s.view.held) :
    Performed s (.release tid) (s.view.release tid) := by
  obtain ⟨t, ht, hst⟩ := mem_held.mp hheld
  have h0 : tid ≠ 0 := by
    -- the main thread is never blocked
    rintro rfl
    obtain ⟨v, hv, hvst⟩ := hw.main
    obtain rfl := same_record ht hv
    rcases hvst with hvst | hvst <;> cases hst.symm.trans hvst
  have hop : (Event.call (.resume tid)).op s = some (.release tid) := if_pos ⟨h0, hheld⟩
  have hregular : (Event.call (.resume tid)).Regular s := ⟨trivial, id⟩
  by_cases hsl : t.sleepingTime = notSleeping
  · exact ⟨_, _, hop, hregular, does_of_exec
      (fun _ => exec_uthreadResume_blocked ∅ hw.freed h0 ht hst hsl) rfl,
      view_release ht (setThread_get ht _) nofun rfl rfl rfl rfl (if_pos hsl).symm⟩
  · exact ⟨_, _, hop, hregular, does_of_exec
      (fun _ => exec_uthreadResume_counting ∅ hw.freed h0 ht hst hsl) rfl,
      view_release ht (setThread_get ht _) nofun rfl rfl rfl rfl (if_neg hsl).symm⟩

/-- Every switching event ends in the dispatch. -/
theorem Suspends.step_dispatched {e : Event} {next : Int} {rest : List Int} (hp : Suspends s t e p)
    (h : Sleepers s) (hw : WellFormed s) (hcurr : s.threads.get s.currThreadId = some t)
    (hrun : t.state = .running) (hq : p.readyThreads = next :: rest)
    (hu : p.threads.get next = some u) (order : IterOrder) :
    step order s e = some (p.dispatched order next rest u) := by
  have hpaused := hw.suspends hcurr hrun hp
  have hexec : ∀ m, (dispatchFront order).exec p m
      = .jump u.env.target (p.dispatched order next rest u) u.env.savedMask := fun m =>
    exec_dispatchFront order m hpaused.freed hq hu hpaused.ids hpaused.sleepNodup
      (h.liveSleepers e t p hcurr hrun hp)
  cases hp with
  | tick mask =>
      show settle ((timerHandler order).exec s (insert sigvtalrm mask)) = _
      rw [exec_timerHandler _ order hw.freed hcurr hrun, hexec]
      rfl
  | block h0 =>
      show settle ((uthreadBlock order s.currThreadId).exec s ∅) = _
      rw [exec_uthreadBlock_self ∅ order hw.freed h0 hcurr hrun, hexec]
      rfl
  | sleep h0 n =>
      show settle ((uthreadSleep order n).exec s ∅) = _
      rw [exec_uthreadSleep ∅ order n hw.freed h0 hcurr, hexec]
      rfl
  | terminate h0 =>
      show settle ((uthreadTerminate order s.currThreadId).exec s ∅) = _
      rw [exec_uthreadTerminate_self ∅ order hw.freed h0 hcurr hrun, hexec]
      rfl

/-- Each way to leave the CPU has its event. -/
theorem exists_suspends {why : Leave} (hpermit : Permits s.view (.switch why))
    (hcurr : s.threads.get s.currThreadId = some t) (hrun : t.state = .running) :
    ∃ e p, Suspends s t e p ∧ e.op s = some (.switch why) ∧ e.Regular s := by
  have hlive : s.live s.currThreadId = true := live_of_get hcurr
  cases why with
  | preempted => exact ⟨_, _, .tick ∅, rfl, trivial, id⟩
  | held =>
      have h0 : s.currThreadId ≠ 0 := hpermit
      refine ⟨_, _, .block h0, ?_, trivial, id⟩
      have hlegal : ¬ (s.currThreadId = 0 ∨ s.live s.currThreadId = false) := by
        rw [hlive]
        simp [h0]
      rw [Event.op, if_neg hlegal, if_pos rfl]
  | asleep n =>
      have h0 : s.currThreadId ≠ 0 := hpermit.1
      exact ⟨_, _, .sleep h0 n, if_neg h0, hpermit.2, id⟩
  | gone =>
      have h0 : s.currThreadId ≠ 0 := hpermit
      refine ⟨_, _, .terminate h0, ?_, trivial, ?_⟩
      · rw [Event.op, hlive, if_neg (by decide), if_pos rfl]
      · -- the running thread is not blocked
        intro hbad
        obtain ⟨v, hv, hst, _⟩ := hbad
        obtain rfl := same_record hcurr hv
        cases hrun.symm.trans hst

/-- **The context switch**, with the sleepers in the order that is asked for. -/
theorem Sleepers.performs_switch (h : Sleepers s) (hw : WellFormed s) {why : Leave} {x : Int}
    {rest woken : List Int} (hpermit : Permits s.view (.switch why))
    (hq : (s.view.leave why).ready = x :: rest) (hnodup : woken.Nodup)
    (hwoken : ∀ y, y ∈ woken ↔ (s.view.leave why).Due y ∧ y ∉ (s.view.leave why).held) :
    Performed s (.switch why) ((s.view.leave why).start x rest woken) := by
  obtain ⟨t, hcurr, hrun⟩ := hw.curr
  obtain ⟨e, p, hp, hop, hregular⟩ := exists_suspends hpermit hcurr hrun
  obtain ⟨why', hop', _, hview⟩ := hp.view h hw hcurr hrun hregular.1
  obtain rfl : why = why' := by
    rw [hop] at hop'
    injection hop' with hop'
    injection hop'
  have hpaused := hw.suspends hcurr hrun hp
  have hsleepers := h.suspends hcurr hrun hp hregular.1
  have hqueue : p.readyThreads = x :: rest := by
    have hready : p.view.ready = (s.view.leave why).ready := by rw [hview]
    exact hready.trans hq
  obtain ⟨u, hu, hready⟩ := (hpaused.readyIff x).mp (hqueue ▸ List.mem_cons_self)
  have hdue : ∀ y, y ∈ woken ↔ y ∈ p.sleepingThreads ∧ p.waking y = true := by
    intro y
    have hboth := hsleepers.waking_iff hpaused.toCore (i := y)
    rw [hview] at hboth
    exact (hwoken y).trans hboth.symm
  -- the members that wake stand first in the pass, the others do not wake
  have hfilter : ((IterOrder.first woken).enum (p.totalQuantom + 1) p.sleepingThreads).filter
      p.waking = woken := by
    have hothers : (p.sleepingThreads.filter (fun i => decide (i ∉ woken))).filter p.waking
        = [] := by
      refine List.filter_eq_nil_iff.mpr ?_
      intro y hy hw
      obtain ⟨hm, hout⟩ := List.mem_filter.mp hy
      exact of_decide_eq_true hout ((hdue y).mpr ⟨hm, hw⟩)
    rw [IterOrder.enum_first hnodup hpaused.sleepNodup (fun y hy => ((hdue y).mp hy).1),
      List.filter_append, List.filter_eq_self.mpr (fun y hy => ((hdue y).mp hy).2), hothers,
      List.append_nil]
  have htotal := hp.total
  refine ⟨e, p.dispatched (IterOrder.first woken) x rest u, hop, hregular,
    .passes (IterOrder.first woken) (congrArg (· + 1) htotal) ?_, ?_⟩
  · intro order horder
    rw [hp.step_dispatched h hw hcurr hrun hqueue hu order, State.dispatched, State.dispatched,
      htotal, horder]
  · rw [hsleepers.view_dispatched hpaused.toCore hu hready, hfilter, hview]
    rfl

/-- **One operation of the abstract scheduler is one event.** -/
theorem Sleepers.performs (h : Sleepers s) (hw : WellFormed s) (hstep : SpecStep s.view o b) :
    Performed s o b := by
  obtain ⟨hpermit, hstep⟩ := hstep
  cases hstep with
  | enroll x hnew => exact h.performs_enroll hw hnew hpermit
  | retire x hknows hx => exact h.performs_retire hw hknows hx hpermit.1 hpermit.2
  | hold x hknows hx => exact h.performs_hold hw hknows hx hpermit
  | release x hx => exact hw.performs_release hx
  | switch why x rest woken hq hnodup hwoken =>
      exact h.performs_switch hw hpermit hq hnodup hwoken

end Performs

/-! ## §3. Whole runs. -/

/-- The events lead from one state to the other, all of them regular, and stand
for the operations. -/
structure Plays (order : IterOrder) (s : State) (es : List Event) (os : List (Op Int))
    (s' : State) : Prop where
  runs : run (step order) s es = some s'
  regular : AllSteps (step order) (fun v e => e.Regular v) s es
  labels : labels (step order) Event.op s es = os

theorem Plays.cons {order : IterOrder} {s s₁ s' : State} {e : Event} {es : List Event} {o : Op Int}
    {os : List (Op Int)} (hs : step order s e = some s₁) (hop : e.op s = some o)
    (he : e.Regular s) (h : Plays order s₁ es os s') : Plays order s (e :: es) (o :: os) s' where
  runs := run_cons.mpr ⟨s₁, hs, h.runs⟩
  regular := by
    refine ⟨he, ?_⟩
    intro t ht
    rw [hs] at ht
    injection ht with ht
    exact ht ▸ h.regular
  labels := by
    rw [Runs.labels, hop, hs, Option.map_some, Option.getD_some, h.labels]
    rfl

/-- **Every run of the abstract scheduler is played**, from any good state that
looks like its start, under each order that agrees with the right one from here
on. -/
theorem Sleepers.plays {os : List (Op Int)} {a b : Sched Int} (hsteps : Steps SpecStep a os b) :
    ∀ {s : State}, Sleepers s → WellFormed s → s.view = a →
      ∃ right es s', s'.view = b ∧ ∀ order : IterOrder, order.AgreeAfter s.totalQuantom right →
        Plays order s es os s' := by
  induction hsteps with
  | nil a =>
      intro s _ _ hview
      exact ⟨.listing, [], s, hview, fun _ _ => ⟨rfl, trivial, rfl⟩⟩
  | cons hstep hsteps ih =>
      intro s h hw hview
      subst hview
      obtain ⟨e, s₁, hop, he, hdoes, rfl⟩ := h.performs hw hstep
      cases hdoes with
      | stays hs htotal =>
          obtain ⟨hw₁, h₁⟩ := h.regular hw he (hs .listing)
          obtain ⟨right, es, s', hb, hplays⟩ := ih h₁ hw₁ rfl
          refine ⟨right, e :: es, s', hb, ?_⟩
          intro order horder
          exact .cons (hs order) hop he (hplays order (htotal ▸ horder))
      | passes first htotal hs =>
          obtain ⟨hw₁, h₁⟩ := h.regular hw he (hs first (fun _ => rfl))
          obtain ⟨right, es, s', hb, hplays⟩ := ih h₁ hw₁ rfl
          -- `first` for this pass, and what the rest asks for after it
          refine ⟨.upTo (s.totalQuantom + 1) first right, e :: es, s', hb, ?_⟩
          intro order horder
          refine .cons (hs order horder.now) hop he (hplays order ?_)
          rw [htotal]
          exact (horder.mono (by omega)).of_upTo le_rfl

/-- **Completeness.**  The runs of the abstract scheduler are exactly what the
regular runs of the library look like, for some iteration order. -/
theorem complete_for_scheduler (os : List (Op Int)) (b : Sched Int) :
    Steps SpecStep bootView os b
      ↔ ∃ order quantumUsecs es s, 0 < quantumUsecs
          ∧ Plays order (initialState quantumUsecs) es os s ∧ s.view = b := by
  constructor
  · intro hsteps
    have h₀ : Initial (initialState 1) := initial_iff.mpr ⟨1, by decide, rfl⟩
    obtain ⟨right, es, s, hview, hplays⟩ :=
      Sleepers.plays hsteps (initial_sleepers h₀) (initial_wellFormed h₀) (initialState_view 1)
    exact ⟨right, 1, es, s, by decide, hplays right (fun _ _ _ => rfl), hview⟩
  · rintro ⟨order, q, es, s, hq, hplays, rfl⟩
    obtain ⟨hsteps, _⟩ := view_run (initial_iff.mpr ⟨q, hq, rfl⟩) hplays.regular hplays.runs
    rwa [hplays.labels] at hsteps

end UThreads
