/-
  UThreads.Properties.RoundRobin
  ──────────────────────────────
  **ROUND ROBIN, WITH EXACT POSITIONS.**

  The ready queue is a first-in-first-out queue with removals: every event
  makes one `Fifo.Move`.  The position of a waiting thread therefore goes down
  by one at every quantum start and at every removal ahead of it, and changes
  for no other reason.
-/
import UThreads.Lib.Fifo
import UThreads.Properties.Scheduler

namespace UThreads

open Interruptible Runs Fifo

/-! ## §1. The move an event makes. -/

/-- The thread that a call takes out of the queue, wherever it stands.
(`uthread_block(0)` is rejected.) -/
def Event.victim : Event → Option Int
  | .call (.block tid)     => if tid = 0 then none else some tid
  | .call (.terminate tid) => some tid
  | _                      => none

theorem victim_block {tid : Int} (h0 : tid ≠ 0) : (Event.call (.block tid)).victim = some tid :=
  if_neg h0

/-- The move that an event makes from `s` to `s'`. -/
def Event.move (s s' : State) (e : Event) : Move Int :=
  if e.Switches s then .serve s'.currThreadId
  else match e.victim with
    | some tid => .cancel tid
    | none     => .join

/-- Cancelling who does not stand in the queue changes nothing. -/
theorem moves_cancel_absent {q : List Int} {tid : Int} (h : tid ∉ q) :
    Moves (.cancel tid) q q := by
  have hfilter : q.filter (fun i => decide (i ≠ tid)) = q := by
    apply List.filter_eq_self.mpr
    intro i hi
    exact decide_eq_true (fun he => h (he ▸ hi))
  have hmove := Moves.cancel q tid
  rw [hfilter] at hmove
  exact hmove

theorem moves_join_nothing (q : List Int) : Moves .join q q := by
  have hmove := Moves.join q []
  rw [List.append_nil] at hmove
  exact hmove

section Moves

variable {order : IterOrder} {s s' : State}

/-- A rejected call leaves the queue alone: whom it names is not in it. -/
theorem Rejected.moves (h : WellFormed s) {c : Call} (hr : Rejected s c) (line : String) :
    Moves ((Event.call c).move s (s.print line)) s.readyThreads s.readyThreads := by
  rw [Event.move, if_neg (hr.not_switches h)]
  cases c with
  | terminate tid => exact moves_cancel_absent (h.notMem_ready_of_null hr)
  | block tid =>
      by_cases h0 : tid = 0
      · have hvictim : (Event.call (.block tid)).victim = none := if_pos h0
        rw [hvictim]
        exact moves_join_nothing _
      · rw [victim_block h0]
        exact moves_cancel_absent (h.notMem_ready_of_null (hr.resolve_left h0))
  | _ => exact moves_join_nothing _

/-- A call that takes out a thread that does not run makes the move `cancel`. -/
theorem move_of_victim {e : Event} {tid : Int} (hno : ¬ e.Switches s) (hv : e.victim = some tid) :
    e.move s s' = .cancel tid := by
  rw [Event.move, if_neg hno, hv]

/-- **Every event makes a queue move.** -/
theorem Effect.moves (h : WellFormed s) {e : Event} (he : Effect order s e s') :
    Moves (e.move s s') s.readyThreads s'.readyThreads := by
  cases he with
  | reject c line hr => exact hr.moves h line
  | idle c hi =>
      cases c with
      | block tid =>
          -- blocked already, so not in the queue
          obtain ⟨h0, t, ht, hst⟩ := hi
          rw [move_of_victim (block_not_switches h ht (by simp [hst])) (victim_block h0)]
          exact moves_cancel_absent (h.notMem_ready ht (by simp [hst]))
      | spawn mem entryPoint => exact absurd hi id
      | terminate tid => exact absurd hi id
      | sleep n => exact absurd hi id
      | resume tid => exact moves_join_nothing _
      | getTid => exact moves_join_nothing _
      | getTotalQuantums => exact moves_join_nothing _
      | getQuantums tid => exact moves_join_nothing _
  | spawn newStack entryPoint newId ids hids => exact .join _ [newId]
  | retireIdle tid t h0 ht hst =>
      have hne : t.state ≠ .running := by
        rcases hst with hst | hst <;> simp [hst]
      rw [move_of_victim (terminate_not_switches h ht hne) rfl]
      exact .cancel _ tid
  | retireSleeping tid t h0 ht hst =>
      rw [move_of_victim (terminate_not_switches h ht (by simp [hst])) rfl]
      exact moves_cancel_absent (h.notMem_ready ht (by simp [hst]))
  | blockSleeping tid t h0 ht hst =>
      rw [move_of_victim (block_not_switches h ht (by simp [hst])) (victim_block h0)]
      exact moves_cancel_absent (h.notMem_ready ht (by simp [hst]))
  | blockReady tid t h0 ht hst =>
      rw [move_of_victim (block_not_switches h ht (by simp [hst])) (victim_block h0)]
      exact .cancel _ tid
  | resumeBlocked tid t h0 ht hst hsl => exact .join _ [tid]
  | resumeCounting tid t h0 ht hst hsl => exact moves_join_nothing _
  | switch e t p next rest u hcurr hrun hp hq hu hready hlive =>
      rw [Event.move, if_pos hp.switches, dispatched_curr, dispatched_ready hu (by simp [hready])]
      -- a preempted thread joins behind the others before the head is served
      cases hp with
      | tick mask => exact .serve _ [s.currThreadId] next rest _ hq
      | block h0 => exact .serve _ [] next rest _ (by rw [List.append_nil]; exact hq)
      | sleep h0 n => exact .serve _ [] next rest _ (by rw [List.append_nil]; exact hq)
      | terminate h0 => exact .serve _ [] next rest _ (by rw [List.append_nil]; exact hq)

end Moves

/-! ## §2. Positions over a run. -/

/-- One for an event that starts a quantum. -/
def quantumStart (s : State) (e : Event) : Int := if e.Switches s then 1 else 0

/-- One for a `uthread_block` or `uthread_terminate` that takes out a thread
standing ahead of `tid`. -/
def removedAhead (tid : Int) (s : State) (e : Event) : Int :=
  match e.victim with
  | some r => if r ∈ s.readyThreads ∧ s.readyThreads.idxOf r < s.readyThreads.idxOf tid then 1 else 0
  | none   => 0

theorem quantumStart_le_one (s : State) (e : Event) : quantumStart s e ≤ 1 := by
  unfold quantumStart
  split <;> omega

theorem removedAhead_nonneg (tid : Int) (s : State) (e : Event) : 0 ≤ removedAhead tid s e := by
  unfold removedAhead
  split
  · split <;> omega
  · omega

section Run

variable {order : IterOrder} {s s' : State} {tid : Int} {e : Event}

/-- The advance of a move, counted from the event alone. -/
theorem advance_move (h : WellFormed s) (s' : State) :
    (e.move s s').advance s.readyThreads tid = quantumStart s e + removedAhead tid s e := by
  have hcurr := h.curr_notMem_ready
  by_cases hs : e.Switches s
  · -- who gives up the CPU is not in the queue, so nobody is removed from it
    have hremoved : removedAhead tid s e = 0 := by
      unfold removedAhead
      cases e with
      | tick mask => rfl
      | call c =>
          cases c with
          | block r => rw [victim_block hs.2]; simp [hs.1, hcurr]
          | terminate r => simp [Event.victim, hs.1, hcurr]
          | _ => rfl
    rw [Event.move, if_pos hs, hremoved, quantumStart, if_pos hs]
    rfl
  · rw [Event.move, if_neg hs, quantumStart, if_neg hs, removedAhead]
    cases e.victim <;> simp [Move.advance]

theorem move_ne_serve (hd : s'.currThreadId ≠ tid) : e.move s s' ≠ .serve tid := by
  unfold Event.move
  split
  · intro he
    injection he with he
    exact hd he
  · cases e.victim <;> simp

theorem move_ne_cancel (s s' : State) (hv : e.victim ≠ some tid) : e.move s s' ≠ .cancel tid := by
  unfold Event.move
  split
  · simp
  · cases hvictim : e.victim with
    | none => simp
    | some r =>
        intro he
        injection he with he
        exact hv (he ▸ hvictim)

/-- **The step lemma**: where a waiting thread stands after one event. -/
theorem position_step (h : WellFormed s) (hs : step order s e = some s')
    (hmem : tid ∈ s.readyThreads) (hv : e.victim ≠ some tid) (hd : s'.currThreadId ≠ tid) :
    tid ∈ s'.readyThreads ∧ (s'.readyThreads.idxOf tid : Int)
      = s.readyThreads.idxOf tid - (quantumStart s e + removedAhead tid s e) := by
  rw [← advance_move h s']
  exact ((step_effect h hs).moves h).position h.readyNodup hmem (move_ne_serve hd)
    (move_ne_cancel s s' hv)

/-- **The run lemma**: where a waiting thread stands after a run in which it is
neither removed nor dispatched. -/
theorem position_run {es : List Event} {u : State} (h : WellFormed s)
    (hmem : tid ∈ s.readyThreads) (hrun : run (step order) s es = some u)
    (hv : ∀ e ∈ es, e.victim ≠ some tid)
    (hwait : Throughout (step order) (fun v => v.currThreadId ≠ tid) s es) :
    tid ∈ u.readyThreads ∧ (u.readyThreads.idxOf tid : Int)
      = s.readyThreads.idxOf tid - tally (step order) quantumStart s es
          - tally (step order) (removedAhead tid) s es := by
  have hsteps := allSteps_of_throughout es s hv hwait
  -- it stays in the queue, so every step moves it by a known amount
  have hinv : WellFormed u ∧ tid ∈ u.readyThreads :=
    run_guarded (fun v => WellFormed v ∧ tid ∈ v.readyThreads) _
      (fun v f w hI hP hw => ⟨hI.1.step hw, (position_step hI.1 hw hI.2 hP.1 (hP.2 w hw)).1⟩)
      es s u ⟨h, hmem⟩ hsteps hrun
  have htally : (u.readyThreads.idxOf tid : Int) = s.readyThreads.idxOf tid
      + tally (step order) (fun v f => - (quantumStart v f + removedAhead tid v f)) s es :=
    run_tally (fun v => WellFormed v ∧ tid ∈ v.readyThreads) _
    (fun v => (v.readyThreads.idxOf tid : Int)) _
    (fun v f w hI hP hw => ⟨hI.1.step hw, (position_step hI.1 hw hI.2 hP.1 (hP.2 w hw)).1⟩)
    (fun v f w hI hP hw => by
      rw [(position_step hI.1 hw hI.2 hP.1 (hP.2 w hw)).2]
      omega)
    es s u ⟨h, hmem⟩ hsteps hrun
  rw [tally_neg, tally_add] at htally
  exact ⟨hinv.2, by omega⟩

/-- Two waiting threads keep their order as long as the first is not
dispatched; meanwhile the second is not dispatched either. -/
theorem order_step {b : Int} (h : WellFormed s) (hs : step order s e = some s')
    (ha : tid ∈ s.readyThreads) (hb : b ∈ s.readyThreads)
    (hlt : s.readyThreads.idxOf tid < s.readyThreads.idxOf b)
    (hva : e.victim ≠ some tid) (hvb : e.victim ≠ some b) (hd : s'.currThreadId ≠ tid) :
    tid ∈ s'.readyThreads ∧ b ∈ s'.readyThreads
      ∧ s'.readyThreads.idxOf tid < s'.readyThreads.idxOf b := by
  have hmoves := (step_effect h hs).moves h
  -- whoever is served stood at the head, ahead of `tid`
  have hsb : e.move s s' ≠ .serve b := by
    intro he
    rw [he] at hmoves
    exact hmoves.served_not_behind ha hlt
  have hsa := move_ne_serve (e := e) (s := s) hd
  have hca := move_ne_cancel s s' hva
  have hcb := move_ne_cancel s s' hvb
  exact ⟨(hmoves.position h.readyNodup ha hsa hca).1, (hmoves.position h.readyNodup hb hsb hcb).1,
    hmoves.before h.readyNodup ha hb hlt hsa hsb hca hcb⟩

theorem order_run {b : Int} {es : List Event} {u : State} (h : WellFormed s)
    (ha : tid ∈ s.readyThreads) (hb : b ∈ s.readyThreads)
    (hlt : s.readyThreads.idxOf tid < s.readyThreads.idxOf b)
    (hrun : run (step order) s es = some u)
    (hv : ∀ e ∈ es, e.victim ≠ some tid ∧ e.victim ≠ some b)
    (hwait : Throughout (step order) (fun v => v.currThreadId ≠ tid) s es) :
    b ∈ u.readyThreads :=
  (run_guarded (fun v => WellFormed v ∧ tid ∈ v.readyThreads ∧ b ∈ v.readyThreads
      ∧ v.readyThreads.idxOf tid < v.readyThreads.idxOf b) _
    (fun _ _ w hI hP hw => ⟨hI.1.step hw,
      order_step hI.1 hw hI.2.1 hI.2.2.1 hI.2.2.2 hP.1.1 hP.1.2 (hP.2 w hw)⟩)
    es s u ⟨h, ha, hb, hlt⟩ (allSteps_of_throughout es s hv hwait) hrun).2.2.1

/-- A thread that does not wait through a run is dispatched in it, for the first
time at the event `e`. -/
theorem exists_dispatch {es : List Event} {u : State} (hout : s.currThreadId ≠ tid)
    (hrun : run (step order) s es = some u)
    (hno : ¬ Throughout (step order) (fun v => v.currThreadId ≠ tid) s es) :
    ∃ es₀ e es₂ v w, es = (es₀ ++ [e]) ++ es₂ ∧ run (step order) s es₀ = some v
      ∧ run (step order) s (es₀ ++ [e]) = some w
      ∧ Throughout (step order) (fun v => v.currThreadId ≠ tid) s es₀ ∧ w.currThreadId = tid := by
  obtain ⟨es₀, e, es₂, v, w, hes, hv, hvw, hwait, hdisp⟩ := exists_first es s u hout hrun hno
  refine ⟨es₀, e, es₂, v, w, ?_, hv, run_snoc.mpr ⟨v, hv, hvw⟩, hwait, not_not.mp hdisp⟩
  rw [hes, List.append_assoc]
  rfl

/-- A thread that waits sees at most as many quantum starts as threads stand
ahead of it. -/
theorem starts_while_waiting {es : List Event} {u : State} (h : WellFormed s)
    (hmem : tid ∈ s.readyThreads) (hrun : run (step order) s es = some u)
    (hv : ∀ e ∈ es, e.victim ≠ some tid)
    (hwait : Throughout (step order) (fun v => v.currThreadId ≠ tid) s es) :
    tally (step order) quantumStart s es ≤ s.readyThreads.idxOf tid := by
  have hpos := (position_run h hmem hrun hv hwait).2
  have hrem : 0 ≤ tally (step order) (removedAhead tid) s es :=
    tally_nonneg (removedAhead_nonneg tid) es s
  omega

/-- **In time**: after more quantum starts than threads stand ahead, the thread
has been dispatched, with no more starts than that. -/
theorem dispatched_in_time {es : List Event} {u : State} (h : WellFormed s)
    (hmem : tid ∈ s.readyThreads) (hrun : run (step order) s es = some u)
    (hv : ∀ e ∈ es, e.victim ≠ some tid)
    (hlong : s.readyThreads.idxOf tid + 1 ≤ tally (step order) quantumStart s es) :
    ∃ es₁ es₂ v, es = es₁ ++ es₂ ∧ run (step order) s es₁ = some v
      ∧ tally (step order) quantumStart s es₁ ≤ s.readyThreads.idxOf tid + 1
      ∧ v.currThreadId = tid := by
  -- waiting through all of `es` would take the position below zero
  have hno : ¬ Throughout (step order) (fun v => v.currThreadId ≠ tid) s es := by
    intro hwait
    have hstarts := starts_while_waiting h hmem hrun hv hwait
    omega
  obtain ⟨es₀, e, es₂, v, w, hes, hv₀, hrunw, hwait, hdisp⟩ :=
    exists_dispatch (ne_of_mem_of_not_mem hmem h.curr_notMem_ready).symm hrun hno
  have hv' : ∀ f ∈ es₀, f.victim ≠ some tid := by
    intro f hf
    refine hv f ?_
    rw [hes]
    exact List.mem_append_left _ (List.mem_append_left _ hf)
  have hstarts := starts_while_waiting h hmem hv₀ hv' hwait
  have hone := quantumStart_le_one v e
  refine ⟨es₀ ++ [e], es₂, w, hes, hrunw, ?_, hdisp⟩
  rw [tally_snoc es₀ s hv₀]
  omega

/-- **In order**: when a thread runs, whoever stood ahead of it has been
dispatched before. -/
theorem dispatched_in_order {b : Int} {es : List Event} {u : State} (h : WellFormed s)
    (ha : tid ∈ s.readyThreads) (hb : b ∈ s.readyThreads)
    (hlt : s.readyThreads.idxOf tid < s.readyThreads.idxOf b)
    (hrun : run (step order) s es = some u)
    (hv : ∀ e ∈ es, e.victim ≠ some tid ∧ e.victim ≠ some b) (hub : u.currThreadId = b) :
    ∃ es₁ es₂ v, es = es₁ ++ es₂ ∧ es₂ ≠ [] ∧ run (step order) s es₁ = some v
      ∧ v.currThreadId = tid := by
  have hu := h.run hrun
  -- if `tid` waited through all of `es`, `b` would still stand in the queue
  have hno : ¬ Throughout (step order) (fun v => v.currThreadId ≠ tid) s es := by
    intro hwait
    exact hu.curr_notMem_ready (hub ▸ order_run h ha hb hlt hrun hv hwait)
  obtain ⟨es₀, e, es₂, v, w, hes, -, hrunw, -, hdisp⟩ :=
    exists_dispatch (ne_of_mem_of_not_mem ha h.curr_notMem_ready).symm hrun hno
  refine ⟨es₀ ++ [e], es₂, w, hes, ?_, hrunw, hdisp⟩
  intro hnil
  rw [hes, hnil, List.append_nil, hrunw] at hrun
  injection hrun with hrun
  -- then `tid` and `b` would run at once
  have hsame : tid = b := by rw [← hdisp, hrun, hub]
  rw [hsame] at hlt
  exact Nat.lt_irrefl _ hlt

end Run

/-! ## §3. Round robin. -/

/-- **Round robin.**  A thread at position `k` of the queue that is neither
blocked nor terminated: its position while it waits; its dispatch at the
`k + 1`-st quantum start at the latest; its dispatch before that of a thread
standing behind it. -/
theorem round_robin {order : IterOrder} {s : State} {tid : Int} {k : Nat}
    (h : Reachable order s) (hmem : tid ∈ s.readyThreads) (hk : s.readyThreads.idxOf tid = k) :
    (∀ es u, run (step order) s es = some u → (∀ e ∈ es, e.victim ≠ some tid) →
        Throughout (step order) (fun v => v.currThreadId ≠ tid) s es →
        tid ∈ u.readyThreads ∧ (u.readyThreads.idxOf tid : Int)
          = k - tally (step order) quantumStart s es - tally (step order) (removedAhead tid) s es)
      ∧ (∀ es u, run (step order) s es = some u → (∀ e ∈ es, e.victim ≠ some tid) →
        k + 1 ≤ tally (step order) quantumStart s es →
        ∃ es₁ es₂ v, es = es₁ ++ es₂ ∧ run (step order) s es₁ = some v
          ∧ tally (step order) quantumStart s es₁ ≤ k + 1
          ∧ v.currThreadId = tid ∧ v.stateOf tid = some .running)
      ∧ (∀ b ∈ s.readyThreads, k < s.readyThreads.idxOf b →
        ∀ es u, run (step order) s es = some u →
          (∀ e ∈ es, e.victim ≠ some tid ∧ e.victim ≠ some b) → u.currThreadId = b →
          ∃ es₁ es₂ v, es = es₁ ++ es₂ ∧ es₂ ≠ [] ∧ run (step order) s es₁ = some v
            ∧ v.currThreadId = tid) := by
  have hw := h.wellFormed
  refine ⟨?_, ?_, ?_⟩
  · intro es u hrun hv hwait
    have hpos := position_run hw hmem hrun hv hwait
    rw [hk] at hpos
    exact hpos
  · intro es u hrun hv hlong
    obtain ⟨es₁, es₂, v, hes, hrunv, hstarts, hdisp⟩ :=
      dispatched_in_time hw hmem hrun hv (hk.symm ▸ hlong)
    have hcurr := (h.run hrunv).wellFormed.curr
    rw [hdisp] at hcurr
    exact ⟨es₁, es₂, v, hes, hrunv, hk ▸ hstarts, hdisp, stateOf_eq_some.mpr hcurr⟩
  · intro b hb hlt es u hrun hv hub
    exact dispatched_in_order hw hmem hb (hk ▸ hlt) hrun hv hub

/-- The queue at the end of `mixedRun`. -/
theorem mixedRun_ready :
    (run (step .listing) (initialState 1000) mixedRun).map State.readyThreads = some [2, 1] := by
  decide +kernel

theorem round_robin_mixedRun :
    ∃ s, run (step .listing) (initialState 1000) mixedRun = some s
      ∧ ∀ es u, run (step .listing) s es = some u → (∀ e ∈ es, e.victim ≠ some 1) →
        Throughout (step .listing) (fun v => v.currThreadId ≠ 1) s es →
        1 ∈ u.readyThreads ∧ (u.readyThreads.idxOf 1 : Int)
          = (1 : Nat) - tally (step .listing) quantumStart s es
              - tally (step .listing) (removedAhead 1) s es := by
  obtain ⟨s, hs⟩ := Option.isSome_iff_exists.mp mixedRun_ends
  have hq : s.readyThreads = [2, 1] := by
    have hready := mixedRun_ready
    rw [hs] at hready
    exact Option.some.inj hready
  have hmem : (1 : Int) ∈ s.readyThreads := by
    rw [hq]
    decide
  have hk : s.readyThreads.idxOf 1 = 1 := by
    rw [hq]
    decide
  exact ⟨s, hs, (round_robin (reachable_of_run (by decide) hs) hmem hk).1⟩

end UThreads
