/-
  UThreads.Properties.Ending
  ──────────────────────────
  **HOW A PROCESS ENDS: BY AN EXIT, ON A FREED STACK, OR WITH A STRANDED ID.**

  Two calls exit.  If a thread other than main makes them, or terminates itself,
  the stack that it runs on is freed under it.  The one other way to end is a null
  dereference in `wake_sleeping_threads`, on an id that is in the sleeping set
  without a thread.  Such an id is left by the termination of a thread in the set
  that was not SLEEPING; it stays until the next context switch, which crashes, or
  until a spawn gives the id to a new thread.
-/
import UThreads.Effects.Faults
import UThreads.Properties.Memory
import UThreads.Properties.Resume

namespace UThreads

open Interruptible Runs

/-! ## §1. Stranded ids. -/

/-- The id is in the sleeping set, and no thread has it. -/
def State.Stranded (s : State) (tid : Int) : Prop :=
  tid ∈ s.sleepingThreads ∧ s.threads.get tid = none

/-- The termination of a thread whose id stays in the set. -/
def Event.Strands (tid : Int) (s : State) (e : Event) : Prop :=
  e = .call (.terminate tid) ∧ s.threads.get tid ≠ none ∧ s.LeavesInSet tid

/-- The spawn that gives out the id. -/
def Event.GivesOut (tid : Int) (s : State) : Event → Prop
  | .call (.spawn _ entryPoint) => entryPoint ≠ none ∧ s.minHeapId.head? = some tid
  | _                           => False

/-- Neither a context switch, nor the spawn that gives out the id. -/
def Event.Keeps (tid : Int) (s : State) (e : Event) : Prop :=
  ¬ e.Switches s ∧ ¬ e.GivesOut tid s

section Stranded

variable {order : IterOrder} {s s' p : State} {e : Event} {t : Thread} {tid : Int}

/-- Only a termination strands an id. -/
theorem not_strands {c : Call} (hc : c ≠ .terminate tid) : ¬ (Event.call c).Strands tid s :=
  fun hstrands => hc (Event.call.inj hstrands.1)

/-- A termination that switches is one of the thread that runs. -/
theorem Event.Strands.of_switches (h : e.Strands tid s) (hs : e.Switches s) :
    e = .call (.terminate s.currThreadId) := by
  obtain ⟨rfl, _⟩ := h
  rw [hs.1]

/-- Stranded ids depend on the set and on who is live. -/
theorem stranded_congr (hset : s'.sleepingThreads = s.sleepingThreads)
    (hlive : s'.threads.get tid = none ↔ s.threads.get tid = none) :
    s'.Stranded tid ↔ s.Stranded tid := by
  unfold State.Stranded
  rw [hset, hlive]

/-- A record is written over. -/
theorem stranded_setThread {i : Int} {u : Thread} (ht : s.threads.get i = some t)
    (hset : s'.sleepingThreads = s.sleepingThreads)
    (hget : ∀ j, s'.threads.get j = if j = i then some u else s.threads.get j) :
    s'.Stranded tid ↔ s.Stranded tid := by
  refine stranded_congr hset ?_
  rw [hget]
  by_cases hi : tid = i
  · simp [hi, ht]
  · rw [if_neg hi]

/-- **When the running thread is suspended** the stranded ids are those there were,
and its own if it terminates itself while it is in the set. -/
theorem Suspends.stranded (hp : Suspends s t e p) (hcurr : s.threads.get s.currThreadId = some t)
    (hrun : t.state = .running) : p.Stranded tid ↔ e.Strands tid s ∨ s.Stranded tid := by
  have hself : ¬ s.Stranded s.currThreadId := by
    rintro ⟨_, hnone⟩
    rw [hcurr] at hnone
    cases hnone
  -- a save keeps the running thread alive
  have hsaved : p.threads.get s.currThreadId ≠ none → (∀ i, e ≠ .call (.terminate i)) →
      (p.Stranded tid ↔ e.Strands tid s ∨ s.Stranded tid) := by
    intro hlive hother
    have hno : ¬ e.Strands tid s := fun hstrands => hother tid hstrands.1
    by_cases hi : tid = s.currThreadId
    · subst hi
      exact ⟨fun hdead => absurd hdead.2 hlive, fun hc => absurd (hc.resolve_left hno) hself⟩
    · obtain ⟨hget, hmem, _⟩ := hp.frame hcurr hi
      unfold State.Stranded
      rw [hget, hmem]
      simp [hno]
  cases hp with
  | tick mask =>
      refine hsaved (fun hnone => ?_) nofun
      rw [(saveCurrent_get_none hcurr _ .timerHandler _).mp hnone] at hcurr
      cases hcurr
  | block h0 =>
      refine hsaved (fun hnone => ?_) nofun
      rw [(saveCurrent_get_none hcurr _ .uthreadBlock _).mp hnone] at hcurr
      cases hcurr
  | sleep h0 n =>
      refine hsaved (fun hnone => ?_) nofun
      rw [(saveCurrent_get_none hcurr _ .uthreadSleep _).mp hnone] at hcurr
      cases hcurr
  | terminate h0 =>
      have hget : ∀ i, (s.suspendTerminate t).threads.get i
          = if i = s.currThreadId then none else s.threads.get i :=
        Table.get_set s.threads (Table.inRange_of_get hcurr) none
      have hstate : s.stateOf s.currThreadId ≠ some .sleeping := by
        rw [State.stateOf, hcurr, Option.map_some, hrun]
        simp
      show tid ∈ s.sleepingThreads ∧ (s.suspendTerminate t).threads.get tid = none ↔ _
      rw [hget]
      by_cases hi : tid = s.currThreadId
      · subst hi
        simp [Event.Strands, State.LeavesInSet, State.Stranded, hcurr, hstate]
      · simp [Event.Strands, State.Stranded, hi, Ne.symm hi]

/-- A switching event that takes effect is a context switch, on a live set. -/
theorem Effect.of_switches (he : Effect order s e s') (hw : WellFormed s) (hs : e.Switches s) :
    ∃ t p next rest u, s.threads.get s.currThreadId = some t ∧ t.state = .running
      ∧ Suspends s t e p ∧ p.threads.get next = some u
      ∧ (∀ i ∈ p.sleepingThreads, p.threads.get i ≠ none)
      ∧ s' = p.dispatched order next rest u := by
  cases he with
  | reject c line hr => exact absurd hs (hr.not_switches hw)
  | idle c hi => exact absurd hs (hi.not_switches hw)
  | spawn newStack entryPoint newId ids hids => exact absurd hs id
  | retireIdle i t h0 ht hst =>
      have hne : t.state ≠ .running := by
        rcases hst with hst | hst <;> simp [hst]
      exact absurd hs (terminate_not_switches hw ht hne)
  | retireSleeping i t h0 ht hst =>
      exact absurd hs (terminate_not_switches hw ht (by simp [hst]))
  | blockSleeping i t h0 ht hst => exact absurd hs (block_not_switches hw ht (by simp [hst]))
  | blockReady i t h0 ht hst => exact absurd hs (block_not_switches hw ht (by simp [hst]))
  | resumeBlocked i t h0 ht hst hsl => exact absurd hs id
  | resumeCounting i t h0 ht hst hsl => exact absurd hs id
  | switch e t p next rest u hcurr hrun hp hq hu hready hlive =>
      exact ⟨t, p, next, rest, u, hcurr, hrun, hp, hu, hlive, rfl⟩

/-- **A context switch that does not crash** had no stranded id, and leaves none. -/
theorem Effect.switch_stranded (he : Effect order s e s') (hw : WellFormed s)
    (hs : e.Switches s) (tid : Int) :
    ¬ s'.Stranded tid ∧ ¬ e.Strands tid s ∧ ¬ s.Stranded tid := by
  obtain ⟨t, p, next, rest, u, hcurr, hrun, hp, hu, hlive, rfl⟩ := he.of_switches hw hs
  have hclean : ¬ p.Stranded tid := fun hdead => hlive tid hdead.1 hdead.2
  refine ⟨?_, fun hstrands => hclean ((hp.stranded hcurr hrun).mpr (Or.inl hstrands)),
    fun hdead => hclean ((hp.stranded hcurr hrun).mpr (Or.inr hdead))⟩
  rintro ⟨hmem, hnone⟩
  exact hclean ⟨sleeping_of_dispatched hu hmem, (dispatched_get_none hu).mp hnone⟩

/-- **One step**: the stranded ids are those that the event strands, and those there
were if it neither switches nor gives them out. -/
theorem Effect.stranded (he : Effect order s e s') (hw : WellFormed s) :
    s'.Stranded tid ↔ e.Strands tid s ∨ (s.Stranded tid ∧ e.Keeps tid s) := by
  by_cases hs : e.Switches s
  · obtain ⟨hafter, hno, hbefore⟩ := he.switch_stranded hw hs tid
    simp [hafter, hno, hbefore]
  -- a step that neither terminates, nor spawns, nor switches
  have hquiet : (s'.Stranded tid ↔ s.Stranded tid) → ¬ e.Strands tid s → ¬ e.GivesOut tid s →
      (s'.Stranded tid ↔ e.Strands tid s ∨ (s.Stranded tid ∧ e.Keeps tid s)) := by
    intro hsame hno hgive
    rw [hsame]
    simp [hno, Event.Keeps, hs, hgive]
  cases he with
  | reject c line hr =>
      refine hquiet (stranded_congr rfl Iff.rfl) ?_ ?_
      · rintro ⟨hc, hlive, _⟩
        injection hc with hc
        subst hc
        exact hlive hr
      · cases c with
        | spawn mem entryPoint =>
            rintro ⟨hentry, hhead⟩
            cases entryPoint with
            | none => exact hentry rfl
            | some address =>
                rw [show s.minHeapId = [] from hr] at hhead
                cases hhead
        | _ => exact id
  | idle c hi =>
      refine hquiet Iff.rfl ?_ ?_
      · rintro ⟨hc, _⟩
        injection hc with hc
        subst hc
        exact hi
      · cases c with
        | spawn mem entryPoint => exact absurd hi id
        | _ => exact id
  | spawn newStack entryPoint newId ids hids =>
      obtain ⟨hr, hnull⟩ := hw.heap_top_free hids
      have hno : ¬ (Event.call (.spawn ⟨some newStack, true⟩ (some entryPoint))).Strands tid s :=
        not_strands (by simp)
      have hgive : (Event.call (.spawn ⟨some newStack, true⟩ (some entryPoint))).GivesOut tid s
          ↔ tid = newId := by
        simp [Event.GivesOut, hids, eq_comm]
      show tid ∈ s.sleepingThreads
        ∧ (s.spawn newId ids newStack entryPoint).threads.get tid = none ↔ _
      rw [show (s.spawn newId ids newStack entryPoint).threads.get tid = _ from
        Table.get_set s.threads hr _ tid]
      by_cases hi : tid = newId
      · have hgives := hgive.mpr hi
        rw [if_pos hi]
        simp [Event.Keeps, hgives, hno]
      · simp [Event.Keeps, hgive, hno, hi, hs, State.Stranded]
  | retireIdle i t h0 ht hst =>
      have hstate : s.stateOf i ≠ some .sleeping := by
        rw [State.stateOf, ht, Option.map_some]
        rcases hst with hst | hst <;> simp [hst]
      show tid ∈ s.sleepingThreads ∧ (s.retire i t).threads.get tid = none ↔ _
      rw [retire_get ht]
      by_cases hi : tid = i
      · subst hi
        simp [Event.Strands, State.LeavesInSet, State.Stranded, ht, hstate]
      · simp [Event.Strands, State.Stranded, Event.Keeps, Event.GivesOut, hs, hi, Ne.symm hi]
  | retireSleeping i t h0 ht hst =>
      show tid ∈ s.sleepingThreads.erase i ∧ (s.retire i t).threads.get tid = none ↔ _
      rw [retire_get ht, hw.sleepNodup.mem_erase_iff]
      by_cases hi : tid = i
      · subst hi
        have hstate : s.stateOf tid = some .sleeping := by
          rw [State.stateOf, ht, Option.map_some, hst]
        simp [Event.Strands, State.LeavesInSet, State.Stranded, ht, hstate]
      · simp [Event.Strands, State.Stranded, Event.Keeps, Event.GivesOut, hs, hi, Ne.symm hi]
  | blockSleeping i t h0 ht hst =>
      exact hquiet (stranded_setThread ht rfl (setThread_get ht _)) (not_strands (by simp)) id
  | blockReady i t h0 ht hst =>
      exact hquiet (stranded_setThread ht rfl (setThread_get ht _)) (not_strands (by simp)) id
  | resumeBlocked i t h0 ht hst hsl =>
      exact hquiet (stranded_setThread ht rfl (setThread_get ht _)) (not_strands (by simp)) id
  | resumeCounting i t h0 ht hst hsl =>
      exact hquiet (stranded_setThread ht rfl (setThread_get ht _)) (not_strands (by simp)) id
  | switch e t p next rest u hcurr hrun hp hq hu hready hlive => exact absurd hp.switches hs

end Stranded

/-! ## §2. Crashes and exits. -/

section Ends

variable {order : IterOrder} {s : State} {e : Event}

/-- An event that does not stop the process has a next state. -/
theorem step_of_not_stop (h : e.stop order s = none) : ∃ s', step order s e = some s' := by
  have hsettle : ∀ {α : Type} {o : Outcome State SigSet Stop α}, o.stopped = none →
      ∃ s', settle o = some s' := by
    intro α o ho
    cases o with
    | ret a s' m => exact ⟨s', rfl⟩
    | jump t s' m => exact ⟨s', rfl⟩
    | stop r => cases ho
  cases e with
  | call c => exact hsettle h
  | tick mask => exact hsettle h

/-- A context switch is no exit. -/
theorem Event.Switches.not_ends (hs : e.Switches s) : ¬ e.EndsProcess s := by
  cases e with
  | tick mask => exact id
  | call c =>
      cases c with
      | terminate tid => exact fun h0 => hs.2 h0
      | spawn mem entryPoint => exact absurd hs id
      | _ => exact id

/-- **An event crashes** if it switches and there is a stranded id by then. -/
theorem fault_iff (hw : WellFormed s) (f : Fault) :
    e.stop order s = some (.fault f)
      ↔ f = .nullThread ∧ e.Switches s ∧ ∃ tid, e.Strands tid s ∨ s.Stranded tid := by
  constructor
  · intro hfault
    refine ⟨null_fault hw hfault, ?_⟩
    by_contra hno
    refine no_fault hw ?_ f hfault
    intro t p hcurr hrun hp i hi hnone
    exact hno ⟨hp.switches, i, (hp.stranded hcurr hrun).mp ⟨hi, hnone⟩⟩
  · rintro ⟨rfl, hs, tid, hdead⟩
    cases hstop : e.stop order s with
    | none =>
        obtain ⟨s', hstep⟩ := step_of_not_stop hstop
        obtain ⟨_, hno, hclean⟩ := (step_effect hw hstep).switch_stranded hw hs tid
        exact absurd hdead (not_or_intro hno hclean)
    | some r =>
        cases r with
        | exit code => exact absurd ((exit_iff hw code).mp hstop).1 hs.not_ends
        | fault f => rw [null_fault hw hstop]

end Ends

/-- **Which ids are stranded** after a run: those whose thread was terminated while it
was in the set, with no switch since, and that no spawn has given out again. -/
theorem stranded_iff {order : IterOrder} {s₀ s : State} {es : List Event} (h₀ : Initial s₀)
    (hrun : run (step order) s₀ es = some s) (tid : Int) :
    s.Stranded tid ↔ Since (step order) (fun u d => d.Strands tid u) (fun u d => d.Keeps tid u)
      s₀ es := by
  -- nobody sleeps at the start
  refine run_since WellFormed (fun u => u.Stranded tid) (fun u d v hu hs => hu.step hs)
    (fun u d v hu hs => (step_effect hu hs).stranded hu) (initial_wellFormed h₀) ?_ es s hrun
  rintro ⟨hmem, hnone⟩
  obtain ⟨t, ht, _⟩ := initial_sleepers h₀ tid hmem
  rw [hnone] at ht
  cases ht

/-! ## §3. On the stack of the thread that runs. -/

namespace Memory

variable {order : IterOrder} {x x₀ x' : State × Memory} {e : Event × Nat} {trap : Trap}

/-- Where the stack is there at every statement, nothing is different. -/
theorem safe_of_live (h : ∀ v ∈ visits order x e, StackLive (runningStack x.1) v.2) :
    safeStep order x e = Memory.step order x e ∧ safeStop order x e = Memory.stop order x e := by
  obtain ⟨e, record⟩ := e
  cases e with
  | call c =>
      have hexec : (onStack (runningStack x.1) (prog order record c)).exec x ∅
          = (prog order record c).exec x ∅ := exec_guard_pass h
      exact ⟨congrArg settle hexec, congrArg Outcome.stopped hexec⟩
  | tick mask =>
      have hexec : (onStack (runningStack x.1) (plain (timerHandler order))).exec x
          (insert sigvtalrm mask) = (plain (timerHandler order)).exec x (insert sigvtalrm mask) :=
        exec_guard_pass h
      exact ⟨congrArg settle hexec, congrArg Outcome.stopped hexec⟩

/-- Where it is not, the event ends there. -/
theorem safe_of_freed (h : ∃ v ∈ visits order x e, ¬ StackLive (runningStack x.1) v.2) :
    safeStep order x e = none ∧ safeStop order x e = some .freedStack := by
  obtain ⟨e, record⟩ := e
  cases e with
  | call c =>
      have hexec : (onStack (runningStack x.1) (prog order record c)).exec x ∅
          = .stop .freedStack := exec_guard_fail h
      exact ⟨congrArg settle hexec, congrArg Outcome.stopped hexec⟩
  | tick mask =>
      have hexec : (onStack (runningStack x.1) (plain (timerHandler order))).exec x
          (insert sigvtalrm mask) = .stop .freedStack := exec_guard_fail h
      exact ⟨congrArg settle hexec, congrArg Outcome.stopped hexec⟩

/-- A step that is made on a stack is a step. -/
theorem step_of_safeStep (h : safeStep order x e = some x') : Memory.step order x e = some x' := by
  by_cases hfreed : ∃ v ∈ visits order x e, ¬ StackLive (runningStack x.1) v.2
  · rw [(safe_of_freed hfreed).1] at h
    cases h
  · simp only [not_exists, not_and, not_not] at hfreed
    rw [← (safe_of_live hfreed).1]
    exact h

/-- **Who runs on freed memory**, the main thread never. -/
theorem freed_stack_iff (h : Memory.Reachable order x)
    (hanswer : ∀ address, Memory.stop order x e ≠ some (.badAnswer address)) :
    (∃ v ∈ visits order x e, ¬ StackLive (runningStack x.1) v.2)
      ↔ x.1.currThreadId ≠ 0
        ∧ (e.1 = .call (.terminate x.1.currThreadId) ∨ e.1.EndsProcess x.1) := by
  by_cases h0 : x.1.currThreadId = 0
  · have hmain : runningStack x.1 = none := (runningStack_none h.sound.1).mpr h0
    have hlive : ∀ v : Access × (State × Memory), StackLive (runningStack x.1) v.2 := by
      intro v base hbase
      rw [hmain] at hbase
      cases hbase
    exact ⟨fun ⟨v, _, hfreed⟩ => absurd (hlive v) hfreed, fun hc => absurd h0 hc.1⟩
  · obtain ⟨stack, hstack⟩ := Option.ne_none_iff_exists'.mp
      (fun hn => h0 ((runningStack_none h.sound.1).mp hn))
    obtain ⟨t, ht, hown⟩ := Option.bind_eq_some_iff.mp hstack
    rw [← visits_freed_iff h h0 hanswer ht hown, hstack]
    simp [StackLive, h0]

/-- **How an event stops**, when the allocator is not to blame: as without a heap, and
an exit leaves nothing allocated. -/
theorem stop_iff (h : Memory.Reachable order x)
    (hanswer : ∀ address, Memory.stop order x e ≠ some (.badAnswer address)) :
    Memory.stop order x e = some trap
      ↔ (∃ code, trap = .exit code [] ∧ e.1.stop order x.1 = some (.exit code))
        ∨ ∃ f, trap = .fault f ∧ e.1.stop order x.1 = some (.fault f) := by
  obtain ⟨hreach, hsound⟩ := h.sound
  have hcases : ∀ trap, Memory.stop order x e = some trap →
      (∃ code, trap = .exit code [] ∧ e.1.stop order x.1 = some (.exit code))
        ∨ ∃ f, trap = .fault f ∧ e.1.stop order x.1 = some (.fault f) := by
    intro trap hstop
    rcases hsound.stop hreach.wellFormed hstop with ⟨address, rfl⟩ | hcase
    · exact absurd hstop (hanswer address)
    · exact hcase
  -- a stop without the heap is one with it
  have hsome : ∀ r, e.1.stop order x.1 = some r → ∃ trap, Memory.stop order x e = some trap := by
    intro r hr
    have hsame := h.erased hanswer
    rw [hr] at hsame
    exact (Option.bind_eq_some_iff.mp hsame.2).imp (fun _ h => h.1)
  constructor
  · exact hcases trap
  · rintro (⟨code, rfl, hbase⟩ | ⟨f, rfl, hbase⟩)
    · obtain ⟨trap, hstop⟩ := hsome _ hbase
      rcases hcases trap hstop with ⟨code', rfl, hbase'⟩ | ⟨f, rfl, hbase'⟩
      · cases hbase.symm.trans hbase'
        exact hstop
      · cases hbase.symm.trans hbase'
    · obtain ⟨trap, hstop⟩ := hsome _ hbase
      rcases hcases trap hstop with ⟨code, rfl, hbase'⟩ | ⟨f', rfl, hbase'⟩
      · cases hbase.symm.trans hbase'
      · cases hbase.symm.trans hbase'
        exact hstop

/-- An event that frees the stack that it runs on ends there. -/
theorem safeStop_freed (h : Memory.Reachable order x)
    (hanswer : ∀ address, Memory.stop order x e ≠ some (.badAnswer address))
    (hfreed : x.1.currThreadId ≠ 0
      ∧ (e.1 = .call (.terminate x.1.currThreadId) ∨ e.1.EndsProcess x.1)) :
    safeStop order x e = some .freedStack :=
  (safe_of_freed ((freed_stack_iff h hanswer).mpr hfreed)).2

/-- Any other event ends as it does when stacks are not looked at. -/
theorem safeStop_live (h : Memory.Reachable order x)
    (hanswer : ∀ address, Memory.stop order x e ≠ some (.badAnswer address))
    (hlive : ¬ (x.1.currThreadId ≠ 0
      ∧ (e.1 = .call (.terminate x.1.currThreadId) ∨ e.1.EndsProcess x.1))) :
    safeStop order x e = Memory.stop order x e := by
  refine (safe_of_live (fun v hv => ?_)).2
  by_contra hdead
  exact hlive ((freed_stack_iff h hanswer).mp ⟨v, hv, hdead⟩)

/-- **A run on stacks** is a run with the heap, and a run without. -/
theorem run_of_safeRun {es : List (Event × Nat)} (h₀ : Memory.Initial x₀)
    (h : run (safeStep order) x₀ es = some x) :
    Memory.Reachable order x ∧ run (UThreads.step order) x₀.1 (es.map Prod.fst) = some x.1 := by
  have hrun : run (Memory.step order) x₀ es = some x := by
    have hmap : run (Memory.step order) x₀ (es.map id) = some x :=
      run_refines (fun _ => True) id id (fun _ _ _ _ _ => trivial)
        (fun _ _ _ _ hs => step_of_safeStep hs) es x₀ x trivial h
    rw [List.map_id] at hmap
    exact hmap
  refine ⟨⟨x₀, es, h₀, hrun⟩, ?_⟩
  exact run_refines (Memory.Reachable order) Prod.fst Prod.fst (fun _ _ _ hv hs => hv.step hs)
    (fun v d w hv hs => (hv.sound.2.step hv.sound.1.wellFormed hs).1) es x₀ x ⟨x₀, [], h₀, rfl⟩ hrun

end Memory

/-- **How a process ends**, when each event is executed in one piece, on the stack of
the thread that runs.  After any run, an event ends the process in one of three
ways.  Called by the main thread, `uthread_terminate(0)` exits with 0 and a spawn
that gets an id and no memory with 1, with nothing left allocated.  Called by another
thread they free the stack that they run on and go on on it, and so does a thread
that terminates itself.  Or a context switch crashes on a null entry of the table: a
thread that was in the sleeping set without being SLEEPING has been terminated, with
no switch since, and its id has not been given out again. -/
theorem process_ends_iff {order : IterOrder} {x₀ x : State × Memory} {es : List (Event × Nat)}
    {e : Event × Nat} {trap : Trap} (h₀ : Memory.Initial x₀)
    (hrun : run (Memory.safeStep order) x₀ es = some x)
    (hanswer : ∀ address, Memory.stop order x e ≠ some (.badAnswer address)) :
    Memory.safeStop order x e = some trap
      ↔ (x.1.currThreadId = 0 ∧ e.1.EndsProcess x.1
          ∧ trap = .exit (if e.1 = .call (.terminate 0) then 0 else 1) [])
        ∨ (x.1.currThreadId ≠ 0
          ∧ (e.1 = .call (.terminate x.1.currThreadId) ∨ e.1.EndsProcess x.1)
          ∧ trap = .freedStack)
        ∨ (e.1.Switches x.1 ∧ e.1 ≠ .call (.terminate x.1.currThreadId)
          ∧ trap = .fault .nullThread
          ∧ ∃ tid, Since (step order) (fun u d => d.Strands tid u) (fun u d => d.Keeps tid u)
              x₀.1 (es.map Prod.fst)) := by
  obtain ⟨hreach, hbase⟩ := Memory.run_of_safeRun h₀ hrun
  have hw := hreach.sound.1.wellFormed
  simp only [← stranded_iff h₀.sound.1 hbase]
  by_cases hfreed : x.1.currThreadId ≠ 0
      ∧ (e.1 = .call (.terminate x.1.currThreadId) ∨ e.1.EndsProcess x.1)
  · rw [Memory.safeStop_freed hreach hanswer hfreed]
    constructor
    · intro htrap
      injection htrap with htrap
      exact Or.inr (Or.inl ⟨hfreed.1, hfreed.2, htrap.symm⟩)
    · rintro (⟨h0, _⟩ | ⟨_, _, rfl⟩ | ⟨hs, hne, _⟩)
      · exact absurd h0 hfreed.1
      · rfl
      · exact absurd (hfreed.2.resolve_left hne) hs.not_ends
  · rw [Memory.safeStop_live hreach hanswer hfreed, Memory.stop_iff hreach hanswer]
    simp only [exit_iff hw, fault_iff hw]
    constructor
    · rintro (⟨code, rfl, hends, rfl⟩ | ⟨f, rfl, rfl, hs, tid, hdead⟩)
      · have h0 : x.1.currThreadId = 0 := by
          by_contra h0
          exact hfreed ⟨h0, Or.inr hends⟩
        exact Or.inl ⟨h0, hends, rfl⟩
      · have hne : e.1 ≠ .call (.terminate x.1.currThreadId) := by
          intro he
          rw [he] at hs
          exact hfreed ⟨hs.2, Or.inl he⟩
        exact Or.inr (Or.inr ⟨hs, hne, rfl, tid,
          hdead.resolve_left (fun hstrands => hne (hstrands.of_switches hs))⟩)
    · rintro (⟨_, hends, rfl⟩ | ⟨h0, hself, _⟩ | ⟨hs, _, rfl, tid, hdead⟩)
      · exact Or.inl ⟨_, rfl, hends, rfl⟩
      · exact absurd ⟨h0, hself⟩ hfreed
      · exact Or.inr ⟨_, rfl, rfl, hs, tid, Or.inr hdead⟩

/-- A thread is put to sleep, blocked and terminated. -/
def strandedRun : List (Event × Nat) :=
  [(.call (.spawn ⟨some 8192, true⟩ (some 1)), 16384), (.tick ∅, 0), (.call (.sleep 5), 0),
   (.call (.block 1), 0), (.call (.terminate 1), 0)]

/-- The crash that follows, traced back to the termination. -/
theorem process_ends_iff_strandedRun :
    ∃ x, run (Memory.safeStep .listing) (initialState 1000, Memory.initial first_fits) strandedRun
        = some x
      ∧ Memory.safeStop .listing x (.tick ∅, 0) = some (.fault .nullThread)
      ∧ ∃ tid, Since (step .listing) (fun u d => d.Strands tid u) (fun u d => d.Keeps tid u)
          (initialState 1000) (strandedRun.map Prod.fst) := by
  have hend : (run (Memory.safeStep .listing) (initialState 1000, Memory.initial first_fits)
      strandedRun).map (fun x => (Memory.safeStop .listing x (.tick ∅, 0),
        Memory.stop .listing x (.tick ∅, 0)))
      = some (some (.fault .nullThread), some (.fault .nullThread)) := by
    decide +kernel
  obtain ⟨x, hx, hobs⟩ := Option.map_eq_some_iff.mp hend
  injection hobs with hsafe hstop
  refine ⟨x, hx, hsafe, ?_⟩
  have hanswer : ∀ address, Memory.stop .listing x (.tick ∅, 0) ≠ some (.badAnswer address) := by
    intro address hbad
    cases hstop.symm.trans hbad
  rcases (process_ends_iff initial_first_fits hx hanswer).mp hsafe with
    ⟨_, hends, _⟩ | ⟨_, _, hc⟩ | ⟨_, _, _, htid⟩
  · exact absurd hends id
  · cases hc
  · exact htid

end UThreads
