/-
  UThreads.Properties.Fairness
  ────────────────────────────
  **RUNNABLE THREADS SHARE THE CPU EVENLY, AND NOBODY STARVES.**

  The line is the ready queue with the running thread behind it.  Two threads
  that stay RUNNING or READY are dispatched in turn, whatever the others do: in
  any stretch of a run their quanta differ by at most one.  A thread that is
  READY, or will be when its sleep ends, runs again within the size of the
  table, counted in quantum starts.
-/
import UThreads.Properties.Sleep
import UThreads.Properties.RoundRobin
import UThreads.Properties.Quanta

namespace UThreads

open Interruptible Runs Fifo

/-! ## §1. The line. -/

/-- The thread is RUNNING or READY. -/
def Runnable (tid : Int) (s : State) : Prop :=
  s.stateOf tid = some .running ∨ s.stateOf tid = some .ready

instance (tid : Int) (s : State) : Decidable (Runnable tid s) :=
  inferInstanceAs (Decidable (_ ∨ _))

/-- The ready queue, and the running thread behind it. -/
def State.line (s : State) : List Int := s.readyThreads ++ [s.currThreadId]

/-- The number of quanta that a thread has got. -/
def State.quantumOf (s : State) (tid : Int) : Int :=
  ((s.threads.get tid).map Thread.quantum).getD 0

section Line

variable {order : IterOrder} {s s' : State} {tid a b : Int} {e : Event}

theorem WellFormed.runnable_iff (h : WellFormed s) : Runnable tid s ↔ tid ∈ s.line := by
  unfold State.line
  rw [List.mem_append, List.mem_singleton, h.readyIff, Runnable, stateOf_eq_some, stateOf_eq_some]
  constructor
  · intro hall
    rcases hall with ⟨t, ht, hst⟩ | hready
    · exact Or.inr (h.onlyCurr tid t ht hst)
    · exact Or.inl hready
  · intro hall
    rcases hall with hready | rfl
    · exact Or.inr hready
    · exact Or.inl h.curr

theorem WellFormed.line_nodup (h : WellFormed s) : s.line.Nodup := by
  unfold State.line
  rw [List.nodup_append_comm]
  exact List.nodup_cons.mpr ⟨h.curr_notMem_ready, h.readyNodup⟩

/-- Who is in service after the move of an event runs after it. -/
theorem move_server (h : WellFormed s) (hs : step order s e = some s') :
    (e.move s s').server s.currThreadId = s'.currThreadId := by
  unfold Event.move
  rcases (step_effect h hs).switches_or h with ⟨hno, hcurr, _⟩ | ⟨hsw, _⟩
  · rw [if_neg hno, hcurr]
    cases e.victim <;> rfl
  · rw [if_pos hsw]
    rfl

/-! ## §2. Quanta. -/

/-- One entry of the table changes, or goes, and the thread is another one or
keeps its quantum. -/
theorem quantumOf_of_get {v : Option Thread}
    (hget : ∀ i, s'.threads.get i = if i = tid then v else s.threads.get i)
    (hv : a = tid → v.map Thread.quantum = (s.threads.get tid).map Thread.quantum) :
    s'.quantumOf a = s.quantumOf a := by
  unfold State.quantumOf
  rw [hget]
  by_cases ha : a = tid
  · rw [if_pos ha, hv ha, ha]
  · rw [if_neg ha]

/-- Giving up the CPU is not counted. -/
theorem Suspends.quantumOf {t : Thread} {p : State} (hp : Suspends s t e p)
    (hcurr : s.threads.get s.currThreadId = some t) (ha : p.threads.get a ≠ none) :
    p.quantumOf a = s.quantumOf a := by
  cases hp with
  | tick mask =>
      exact quantumOf_of_get (saveCurrent_get hcurr _ .timerHandler) (fun _ => by rw [hcurr]; rfl)
  | block h0 =>
      exact quantumOf_of_get (saveCurrent_get hcurr _ .uthreadBlock) (fun _ => by rw [hcurr]; rfl)
  | sleep h0 n =>
      exact quantumOf_of_get (saveCurrent_get hcurr _ .uthreadSleep) (fun _ => by rw [hcurr]; rfl)
  | terminate h0 =>
      -- the thread that terminates is gone
      have hget : ∀ i, (s.suspendTerminate t).threads.get i
          = if i = s.currThreadId then none else s.threads.get i :=
        Table.get_set s.threads (Table.inRange_of_get hcurr) none
      refine quantumOf_of_get hget (fun he => ?_)
      rw [hget, if_pos he] at ha
      exact absurd rfl ha

/-- A dispatch counts one quantum for the thread that it starts. -/
theorem quantumOf_dispatched {p : State} {next : Int} {rest : List Int} {u : Thread}
    (hu : p.threads.get next = some u) :
    (p.dispatched order next rest u).quantumOf a
      = p.quantumOf a + if next = a then 1 else 0 := by
  unfold State.quantumOf
  -- the wake-up counts nothing
  have hwake : ∀ v : Option Thread,
      (v.map wakeRecord).map Thread.quantum = v.map Thread.quantum := by
    intro v
    rw [Option.map_map]
    exact congrArg (fun f => v.map f) (funext wakeRecord_quantum)
  by_cases ha : a = next
  · subst ha
    rw [dispatched_get_next hu, hu, if_pos rfl]
    split
    · rw [Option.map_some, wakeRecord_quantum]
      rfl
    · rfl
  · rw [dispatched_get_ne hu ha, if_neg (Ne.symm ha), Int.add_zero]
    split
    · rw [hwake]
    · rfl

theorem move_eq_serve : e.move s s' = .serve a ↔ e.Switches s ∧ s'.currThreadId = a := by
  unfold Event.move
  by_cases hsw : e.Switches s
  · rw [if_pos hsw, Move.serve.injEq]
    exact ⟨fun h => ⟨hsw, h⟩, fun h => h.2⟩
  · rw [if_neg hsw]
    refine ⟨fun h => ?_, fun h => absurd h.1 hsw⟩
    split at h <;> cases h

/-- **A quantum is counted for the thread that is dispatched**, and nothing else
changes the count of a thread that lives on. -/
theorem Effect.quantumOf (he : Effect order s e s') (h : WellFormed s)
    (ha : s.threads.get a ≠ none) (ha' : s'.threads.get a ≠ none) :
    s'.quantumOf a = s.quantumOf a + if e.move s s' = .serve a then 1 else 0 := by
  rcases he.switches_or h with ⟨hno, _, _⟩ | ⟨hsw, t, p, next, rest, u, hcurr, _, hp, _, hu, _, rfl⟩
  · rw [if_neg (fun hm => hno (move_eq_serve.mp hm).1), Int.add_zero]
    cases he with
    | reject c line hr => rfl
    | idle c hi => rfl
    | spawn newStack entryPoint newId ids hids =>
        obtain ⟨hr, hnull⟩ := h.heap_top_free hids
        exact quantumOf_of_get (Table.get_set s.threads hr _) (fun he => absurd (he ▸ hnull) ha)
    | retireIdle i v hi0 hv hvst =>
        have hget := Table.get_set s.threads (Table.inRange_of_get hv) none
        exact quantumOf_of_get hget (fun he => absurd ((hget a).trans (if_pos he)) ha')
    | retireSleeping i v hi0 hv hvst =>
        have hget := Table.get_set s.threads (Table.inRange_of_get hv) none
        exact quantumOf_of_get hget (fun he => absurd ((hget a).trans (if_pos he)) ha')
    | blockSleeping i v hi0 hv hvst =>
        exact quantumOf_of_get (setThread_get hv _) (fun _ => by rw [hv]; rfl)
    | blockReady i v hi0 hv hvst =>
        exact quantumOf_of_get (setThread_get hv _) (fun _ => by rw [hv]; rfl)
    | resumeBlocked i v hi0 hv hvst hvsl =>
        exact quantumOf_of_get (setThread_get hv _) (fun _ => by rw [hv]; rfl)
    | resumeCounting i v hi0 hv hvst hvsl =>
        exact quantumOf_of_get (setThread_get hv _) (fun _ => by rw [hv]; rfl)
    | switch e v p next rest u hcurr hrun hp hq hu hready hlive => exact absurd hp.switches hno
  · have hpa : p.threads.get a ≠ none := fun hn => ha' ((dispatched_get_none hu).mpr hn)
    rw [quantumOf_dispatched hu, hp.quantumOf hcurr hpa]
    congr 1
    exact if_congr ⟨fun hn => move_eq_serve.mpr ⟨hsw, hn⟩,
      fun hm => (move_eq_serve.mp hm).2⟩ rfl rfl

end Line

/-! ## §3. Even shares. -/

/-- `a` stands ahead of `b`, and has got `lead` quanta more. -/
def Ahead (a b lead : Int) (s : State) : Prop :=
  [a, b].Sublist s.line ∧ s.quantumOf a - s.quantumOf b = lead

section Share

variable {order : IterOrder} {s s' : State} {a b lead : Int} {e : Event}

theorem Runnable.live (h : Runnable a s) : s.threads.get a ≠ none := by
  rcases h with h | h <;>
  · obtain ⟨t, ht, _⟩ := stateOf_eq_some.mp h
    rw [ht]
    simp

/-- **The step lemma**: whoever stands ahead stays there, or gets a quantum and
goes behind. -/
theorem Ahead.step (h : Ahead a b lead s) (hw : WellFormed s) (hab : a ≠ b)
    (hs : UThreads.step order s e = some s') (ha : Runnable a s) (hb : Runnable b s)
    (ha' : Runnable a s') (hb' : Runnable b s') :
    Ahead a b lead s' ∨ Ahead b a (-(lead + 1)) s' := by
  obtain ⟨hahead, hlead⟩ := h
  have hw' := hw.step hs
  have heff := step_effect hw hs
  have hline : s'.readyThreads ++ [(e.move s s').server s.currThreadId] = s'.line := by
    rw [move_server hw hs]
    rfl
  have hmove := (heff.moves hw).turn hw.readyNodup hw.curr_notMem_ready hab hahead
    (hline ▸ hw'.runnable_iff.mp ha') (hline ▸ hw'.runnable_iff.mp hb')
    (heff.quantumOf hw ha.live ha'.live) (heff.quantumOf hw hb.live hb'.live)
  rw [hline, hlead] at hmove
  rcases hmove with ⟨hline', hlead'⟩ | ⟨hline', hlead'⟩
  · exact Or.inl ⟨hline', hlead'⟩
  · exact Or.inr ⟨hline', by omega⟩

/-- **The run lemma**: the two take turns. -/
theorem Ahead.run {u : State} {es : List Event} (h : Ahead a b lead s) (hw : WellFormed s)
    (hab : a ≠ b) (hrun : run (UThreads.step order) s es = some u)
    (hline : Throughout (UThreads.step order) (fun v => Runnable a v ∧ Runnable b v) s es) :
    Ahead a b lead u ∨ Ahead b a (-(lead + 1)) u := by
  refine (run_guarded (fun v => (WellFormed v ∧ Runnable a v ∧ Runnable b v)
    ∧ (Ahead a b lead v ∨ Ahead b a (-(lead + 1)) v)) _ ?_ es s u ⟨⟨hw, hline.head⟩, Or.inl h⟩
    (allSteps_of_throughout (G := fun _ => True) es s (fun _ _ => trivial) hline) hrun).2
  rintro v f w ⟨⟨hv, ha, hb⟩, hturn⟩ ⟨_, hpost⟩ hvw
  obtain ⟨ha', hb'⟩ := hpost w hvw
  refine ⟨⟨hv.step hvw, ha', hb'⟩, ?_⟩
  rcases hturn with hturn | hturn
  · exact hturn.step hv hab hvw ha hb ha' hb'
  · -- the turn comes back: `b` gets the quantum that it was behind
    have hback := hturn.step hv hab.symm hvw hb ha hb' ha'
    have hlead : -(-(lead + 1) + 1) = lead := by omega
    rw [hlead] at hback
    exact hback.symm

end Share

/-- The quanta that a thread gets from `s` to `u`. -/
def gained (s u : State) (tid : Int) : Int := u.quantumOf tid - s.quantumOf tid

/-- **Even shares.**  Two threads that are RUNNING or READY all along a stretch
of a run get the same number of quanta in it, or numbers that differ by one;
it is then the thread that stood ahead that has got one more. -/
theorem fair_share {order : IterOrder} {s u : State} {a b : Int} {es : List Event}
    (h : Reachable order s) (hab : a ≠ b) (hrun : run (step order) s es = some u)
    (hline : Throughout (step order) (fun v => Runnable a v ∧ Runnable b v) s es) :
    gained s u a ≤ gained s u b + 1 ∧ gained s u b ≤ gained s u a + 1
      ∧ ([a, b].Sublist s.line → gained s u b ≤ gained s u a) := by
  have hw := h.wellFormed
  unfold gained
  have hturn : ∀ {x y : Int}, x ≠ y → [x, y].Sublist s.line →
      Throughout (step order) (fun v => Runnable x v ∧ Runnable y v) s es →
      u.quantumOf x - u.quantumOf y = s.quantumOf x - s.quantumOf y
        ∨ u.quantumOf y - u.quantumOf x = -(s.quantumOf x - s.quantumOf y + 1) := by
    intro x y hxy hahead hthru
    have hfirst : Ahead x y (s.quantumOf x - s.quantumOf y) s := ⟨hahead, rfl⟩
    exact (hfirst.run hw hxy hrun hthru).imp And.right And.right
  obtain ⟨ha, hb⟩ := hline.head
  rcases ahead_or_behind hab s.line (hw.runnable_iff.mp ha) (hw.runnable_iff.mp hb) with
    hahead | hahead
  · have hlead := hturn hab hahead hline
    exact ⟨by omega, by omega, fun _ => by omega⟩
  · have hlead := hturn hab.symm hahead (hline.mono (fun _ => And.symm))
    refine ⟨by omega, by omega, fun hboth => ?_⟩
    -- in a line without repetition only one of them stands ahead
    exact absurd hahead (not_behind_of_ahead hw.line_nodup hab hboth)

/-- Two threads and the main thread, with ticks only: seven quanta for three. -/
theorem fair_share_ticks :
    ∃ s u, run (step .listing) (initialState 1000)
          [.call (.spawn ⟨some 4096, true⟩ (some 1)), .call (.spawn ⟨some 8192, true⟩ (some 2))]
          = some s
      ∧ run (step .listing) s (List.replicate 7 (.tick ∅)) = some u
      ∧ gained s u 1 ≤ gained s u 2 + 1 ∧ gained s u 2 ≤ gained s u 1 + 1 := by
  have hall : ((run (step .listing) (initialState 1000)
      [.call (.spawn ⟨some 4096, true⟩ (some 1)), .call (.spawn ⟨some 8192, true⟩ (some 2))]).bind
      (fun s => (run (step .listing) s (List.replicate 7 (.tick ∅))).bind (fun _ =>
        if Throughout (step .listing) (fun v => Runnable 1 v ∧ Runnable 2 v) s
          (List.replicate 7 (.tick ∅)) then some () else none))).isSome = true := by
    decide +kernel
  obtain ⟨_, hsome⟩ := Option.isSome_iff_exists.mp hall
  obtain ⟨s, hs, hrest⟩ := Option.bind_eq_some_iff.mp hsome
  obtain ⟨u, hu, hline⟩ := Option.bind_eq_some_iff.mp hrest
  have hline' : Throughout (step .listing) (fun v => Runnable 1 v ∧ Runnable 2 v) s
      (List.replicate 7 (.tick ∅)) := by
    by_contra hno
    rw [if_neg hno] at hline
    cases hline
  have hshare := fair_share (reachable_of_run (by decide) hs) (by decide) hu hline'
  exact ⟨s, u, hs, hu, hshare.1, hshare.2.1⟩

/-! ## §4. Response. -/

/-- **Nobody is far from the front**: the queue holds at most the other
threads of the table. -/
theorem WellFormed.idxOf_ready_lt {s : State} (h : WellFormed s) {tid : Int}
    (hmem : tid ∈ s.readyThreads) : (s.readyThreads.idxOf tid : Int) + 1 < maxThreadNum := by
  -- the queue and the running thread are different entries of the table
  have hnd : (s.currThreadId :: s.readyThreads).Nodup :=
    List.nodup_cons.mpr ⟨h.curr_notMem_ready, h.readyNodup⟩
  have hrange : s.currThreadId :: s.readyThreads ⊆ (List.range maxThreadNum).map Int.ofNat := by
    intro i hi
    have hr : Table.InRange maxThreadNum i := by
      rcases List.mem_cons.mp hi with rfl | hi
      · obtain ⟨t, ht, _⟩ := h.curr
        exact Table.inRange_of_get ht
      · obtain ⟨t, ht, _⟩ := (h.readyIff i).mp hi
        exact Table.inRange_of_get ht
    exact List.mem_map.mpr ⟨i.toNat, List.mem_range.mpr ((Int.toNat_lt hr.1).mpr hr.2),
      Int.toNat_of_nonneg hr.1⟩
  have hlen := (List.subperm_of_subset hnd hrange).length_le
  have hidx := List.idxOf_lt_length_of_mem hmem
  rw [List.length_cons, List.length_map, List.length_range] at hlen
  omega

section Run

variable {order : IterOrder} {s u : State} {tid n : Int} {es : List Event}

/-- As long as no quantum starts, the same thread runs. -/
theorem curr_of_total (h : WellFormed s) (hrun : run (step order) s es = some u)
    (htotal : u.totalQuantom = s.totalQuantom) : u.currThreadId = s.currThreadId := by
  have hinv := run_invariant (fun v => WellFormed v ∧ s.totalQuantom ≤ v.totalQuantom
    ∧ (v.totalQuantom = s.totalQuantom → v.currThreadId = s.currThreadId)) ?_ es s u
    ⟨h, Int.le_refl _, fun _ => rfl⟩ hrun
  · exact hinv.2.2 htotal
  · rintro v e w ⟨hv, hle, hsame⟩ hs
    have hw := hv.step hs
    rcases (step_effect hv hs).switches_or hv with
      ⟨_, hcurr, hkeep⟩ | ⟨_, t, p, _, _, _, _, _, hp, _, _, _, rfl⟩
    · rw [hcurr, hkeep]
      exact ⟨hw, hle, hsame⟩
    · have hp' := hp.total
      refine ⟨hw, ?_, fun heq => ?_⟩
      · rw [dispatched_total]
        omega
      · rw [dispatched_total] at heq
        omega

/-- **A READY thread runs** after at most 99 quantum starts, if it is neither
blocked nor terminated meanwhile. -/
theorem ready_runs (h : WellFormed s) (hmem : tid ∈ s.readyThreads)
    (hrun : run (step order) s es = some u) (hv : ∀ e ∈ es, e.victim ≠ some tid)
    (hlong : s.totalQuantom + (maxThreadNum - 1) ≤ u.totalQuantom) :
    ∃ es₁ es₂ v, es = es₁ ++ es₂ ∧ run (step order) s es₁ = some v
      ∧ v.totalQuantom ≤ s.totalQuantom + (maxThreadNum - 1) ∧ v.currThreadId = tid := by
  have hpos := h.idxOf_ready_lt hmem
  have htotal : ∀ {fs : List Event} {w : State}, run (step order) s fs = some w →
      w.totalQuantom = s.totalQuantom + tally (step order) quantumStart s fs := fun hw =>
    run_tally WellFormed (fun _ _ => True) State.totalQuantom quantumStart
      (fun _ _ _ hI _ hs => hI.step hs) (fun _ _ _ hI _ hs => total_step hI hs) _ s _ h
      (allSteps_true _ s) hw
  have hend := htotal hrun
  obtain ⟨es₁, es₂, v, hes, hrunv, hstarts, hdisp⟩ :=
    dispatched_in_time h hmem hrun hv (by omega)
  have hmid := htotal hrunv
  exact ⟨es₁, es₂, v, hes, hrunv, by omega, hdisp⟩

theorem lastIsBlock_none (hes : ∀ e ∈ es, e ≠ .call (.block tid)) : lastIsBlock tid es = false := by
  unfold lastIsBlock
  induction es with
  | nil => rfl
  | cons e es ih =>
      have hone : noteBlock tid false e = false := by
        rw [noteBlock, if_neg (hes e List.mem_cons_self)]
        split <;> rfl
      rw [List.foldl_cons, hone]
      exact ih (fun f hf => hes f (List.mem_cons_of_mem _ hf))

theorem victim_ne (h0 : tid ≠ 0) {e : Event} (hv : e.victim ≠ some tid) :
    e ≠ .call (.block tid) ∧ e ≠ .call (.terminate tid) :=
  ⟨fun he => hv (he ▸ victim_block h0), fun he => hv (he ▸ rfl)⟩

/-- **The end of the sleep**: when the total reaches the deadline the caller is
in the queue. -/
theorem sleep_ends (h : WellFormed s) (hcurr : s.currThreadId = tid) (h0 : tid ≠ 0) (hn : 1 ≤ n)
    (hrun : run (step order) s (.call (.sleep n) :: es) = some u)
    (hv : ∀ e ∈ es, e.victim ≠ some tid) (hlate : s.totalQuantom + n ≤ u.totalQuantom) :
    ∃ es₁ es₂ w, es = es₁ ++ es₂ ∧ run (step order) s (.call (.sleep n) :: es₁) = some w
      ∧ run (step order) w es₂ = some u ∧ w.totalQuantom = s.totalQuantom + n
      ∧ tid ∈ w.readyThreads := by
  -- the first event that brings the total to the deadline
  have hno : ¬ Throughout (step order) (fun v => v.totalQuantom < s.totalQuantom + n) s
      (.call (.sleep n) :: es) := by
    intro hthru
    have hend := (throughout_iff _ s).mp hthru _ [] u (List.append_nil _).symm hrun
    omega
  obtain ⟨es₀, e, es₂, v, w, hes, hrunv, hvw, hbefore, hreach⟩ :=
    exists_first _ s u (by omega) hrun hno
  have hwv := h.run hrunv
  have hvlt := (throughout_iff es₀ s).mp hbefore es₀ [] v (List.append_nil _).symm hrunv
  have hone := total_step hwv hvw
  have hle := quantumStart_le_one v e
  have hweq : w.totalQuantom = s.totalQuantom + n := by omega
  have hfirst : run (step order) s (es₀ ++ [e]) = some w := run_snoc.mpr ⟨v, hrunv, hvw⟩
  -- the call is the first of the events up to there
  obtain ⟨es₁, hpath⟩ : ∃ es₁, .call (.sleep n) :: es₁ = es₀ ++ [e] := by
    cases es₀ with
    | nil =>
        injection hes with he _
        exact ⟨[], by rw [he]; rfl⟩
    | cons f es₀ =>
        injection hes with hf _
        exact ⟨es₀ ++ [e], by rw [hf]; rfl⟩
  have hsplit : es = es₁ ++ es₂ := by
    have happend : .call (.sleep n) :: es = (.call (.sleep n) :: es₁) ++ es₂ := by
      rw [hes, hpath, List.append_assoc]
      rfl
    exact (List.cons.inj happend).2
  have hv₁ : ∀ f ∈ es₁, f.victim ≠ some tid := fun f hf =>
    hv f (hsplit ▸ List.mem_append_left _ hf)
  have hfree : lastIsBlock tid es₀ = false := by
    refine lastIsBlock_none (fun f hf => ?_)
    have hmem : f ∈ .call (.sleep n) :: es₁ := hpath ▸ List.mem_append_left _ hf
    rcases List.mem_cons.mp hmem with rfl | hmem
    · exact nofun
    · exact (victim_ne h0 (hv₁ f hmem)).1
  obtain ⟨_, happend⟩ := woken_at_deadline h hcurr h0 hn hpath hrunv hvw
    (fun f hf => (victim_ne h0 (hv₁ f hf)).2) hvlt hweq
  obtain ⟨late, next, rest, added, _, hready, hmem⟩ := happend hfree
  refine ⟨es₁, es₂, w, hsplit, by rw [hpath]; exact hfirst, ?_, hweq, ?_⟩
  · obtain ⟨v', hv', hu⟩ := run_append.mp (show run (step order) s ((es₀ ++ [e]) ++ es₂) = some u by
      rw [List.append_assoc]
      exact hes ▸ hrun)
    rw [hfirst] at hv'
    injection hv' with hv'
    exact hv' ▸ hu
  · rw [hready]
    exact List.mem_append_right _ hmem

end Run

/-- **A sleep lasts at least what is asked, and at most one round more.**  A
thread that calls `uthread_sleep(n)` and is neither blocked nor terminated
does not run before `n` quanta have started and another one starts; it runs
again before `n + 100` have started. -/
theorem sleep_response {order : IterOrder} {s u : State} {tid n : Int} {es : List Event}
    (h : Reachable order s) (hcurr : s.currThreadId = tid) (h0 : tid ≠ 0) (hn : 1 ≤ n)
    (hrun : run (step order) s (.call (.sleep n) :: es) = some u)
    (hv : ∀ e ∈ es, e.victim ≠ some tid) :
    (∀ es₁ es₂ v, es = es₁ ++ es₂ → run (step order) s (.call (.sleep n) :: es₁) = some v →
        v.currThreadId = tid → s.totalQuantom + n < v.totalQuantom)
      ∧ (s.totalQuantom + n + (maxThreadNum - 1) ≤ u.totalQuantom →
        ∃ es₁ es₂ v, es = es₁ ++ es₂ ∧ run (step order) s (.call (.sleep n) :: es₁) = some v
          ∧ v.currThreadId = tid ∧ v.totalQuantom ≤ s.totalQuantom + n + (maxThreadNum - 1)) := by
  have hw := h.wellFormed
  constructor
  · intro es₁ es₂ v hes hrunv hvcurr
    have hv₁ : ∀ e ∈ es₁, e.victim ≠ some tid := fun e he =>
      hv e (hes ▸ List.mem_append_left _ he)
    have hwv := hw.run hrunv
    by_contra hle
    rcases Int.lt_or_eq_of_le (Int.not_lt.mp hle) with hlt | heq
    · -- before the deadline it sleeps
      have hc := counting_after_sleep hw hcurr h0 hn hrunv
        (fun e he => (victim_ne h0 (hv₁ e he)).2) hlt
      exact hc.ne_curr hwv hvcurr.symm
    · -- at the deadline it stands in the queue, and waits for the next quantum
      obtain ⟨fs₁, fs₂, w, _, hrunw, hrest, hwtotal, hmem⟩ :=
        sleep_ends hw hcurr h0 hn hrunv hv₁ (Int.le_of_eq heq.symm)
      have hww := hw.run hrunw
      have hsame := curr_of_total hww hrest (by omega)
      exact hww.curr_notMem_ready (hsame ▸ hvcurr.symm ▸ hmem)
  · intro hlong
    have hbig : (maxThreadNum : Int) = 100 := rfl
    obtain ⟨es₁, es₂, w, hes, hrunw, hrest, hwtotal, hmem⟩ :=
      sleep_ends hw hcurr h0 hn hrun hv (by omega)
    have hv₂ : ∀ e ∈ es₂, e.victim ≠ some tid := fun e he =>
      hv e (hes ▸ List.mem_append_right _ he)
    obtain ⟨fs₁, fs₂, v, hfs, hrunv, hvtotal, hvcurr⟩ :=
      ready_runs (hw.run hrunw) hmem hrest hv₂ (by omega)
    refine ⟨es₁ ++ fs₁, fs₂, v, ?_, ?_, hvcurr, by omega⟩
    · rw [hes, hfs, List.append_assoc]
    · have happend : .call (.sleep n) :: (es₁ ++ fs₁) = (.call (.sleep n) :: es₁) ++ fs₁ := rfl
      rw [happend]
      exact run_append.mpr ⟨w, hrunw, hrunv⟩

theorem sleep_response_ticks :
    ∃ s u, run (step .listing) (initialState 1000)
          [.call (.spawn ⟨some 4096, true⟩ (some 1)), .tick ∅] = some s
      ∧ run (step .listing) s [.call (.sleep 2), .tick ∅, .tick ∅] = some u
      ∧ u.currThreadId = 1 ∧ s.totalQuantom + 2 < u.totalQuantom := by
  have hall : ((run (step .listing) (initialState 1000)
      [.call (.spawn ⟨some 4096, true⟩ (some 1)), .tick ∅]).bind (fun s =>
        (run (step .listing) s [.call (.sleep 2), .tick ∅, .tick ∅]).bind (fun u =>
          if s.currThreadId = 1 ∧ u.currThreadId = 1 then some () else none))).isSome = true := by
    decide +kernel
  obtain ⟨_, hsome⟩ := Option.isSome_iff_exists.mp hall
  obtain ⟨s, hs, hrest⟩ := Option.bind_eq_some_iff.mp hsome
  obtain ⟨u, hu, hcurr⟩ := Option.bind_eq_some_iff.mp hrest
  have hcurr' : s.currThreadId = 1 ∧ u.currThreadId = 1 := by
    by_contra hne
    rw [if_neg hne] at hcurr
    cases hcurr
  have hresp := sleep_response (reachable_of_run (by decide) hs) hcurr'.1 (by decide) (by decide)
    hu (by decide)
  exact ⟨s, u, hs, hu, hcurr'.2, hresp.1 _ [] u (List.append_nil _).symm hu hcurr'.2⟩

end UThreads
