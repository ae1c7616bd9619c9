/-
  UThreads.Properties.Refinement
  ──────────────────────────────
  **THE LIBRARY IMPLEMENTS A ROUND-ROBIN SCHEDULER WITH DEADLINES.**

  `State.view` is what `uthreads.h` says of a state: who runs, the READY list,
  who is blocked, and at which total a sleep ends.  The code keeps countdowns
  in the records and ids in a set instead.  As long as every sleep is positive
  and no blocked sleeper is terminated, each event is the operation `Event.op`
  of the abstract scheduler, so a run of the library is one of that scheduler.
-/
import UThreads.Abstract.Scheduler
import UThreads.Lib.Simulation
import UThreads.Properties.SleepingSet
import UThreads.Properties.ThreadIds

namespace UThreads

open Interruptible RoundRobin Runs

/-! ## §1. The view of a state. -/

/-- The total at which the countdown of a record ends. -/
def Thread.wakeAt (t : Thread) (total : Int) : Option Int :=
  if t.sleepingTime = notSleeping then none else some (total + t.sleepingTime)

/-- **The abstract scheduler behind a state.** -/
def State.view (s : State) : Sched Int where
  running := s.currThreadId
  ready := s.readyThreads
  held := {i | s.stateOf i = some .blocked}
  wake := fun i => (s.threads.get i).bind (fun t => t.wakeAt s.totalQuantom)
  clock := s.totalQuantom
  quanta := fun i => ((s.threads.get i).map Thread.quantum).getD 0

/-- The operation that an event stands for; a call that fails or has nothing to
do stands for none. -/
def Event.op (s : State) : Event → Option (Op Int)
  | .tick _                   => some (.switch .preempted)
  | .call (.spawn _ none)     => none
  | .call (.spawn _ (some _)) => s.minHeapId.head?.map .enroll
  | .call (.terminate tid)    =>
      if s.live tid = false then none
      else if tid = s.currThreadId then some (.switch .gone) else some (.retire tid)
  | .call (.block tid)        =>
      if tid = 0 ∨ s.live tid = false then none
      else if tid = s.currThreadId then some (.switch .held) else some (.hold tid)
  | .call (.resume tid)       =>
      if tid ≠ 0 ∧ s.stateOf tid = some .blocked then some (.release tid) else none
  | .call (.sleep n)          =>
      if s.currThreadId = 0 then none else some (.switch (.asleep n))
  | .call .getTid | .call .getTotalQuantums | .call (.getQuantums _) => none

/-- The id handed out is the least one of the table that nobody has. -/
def LeastFree (a : Sched Int) (x : Int) : Prop :=
  Table.InRange maxThreadNum x ∧ ∀ y, Table.InRange maxThreadNum y → ¬ a.Knows y → x ≤ y

/-- What the library asks for besides: the main thread is not blocked, put to
sleep or terminated, sleeps are positive, and nobody blocked in the middle of a
sleep is terminated. -/
def Permits (a : Sched Int) : Op Int → Prop
  | .enroll x            => LeastFree a x
  | .retire x           => x ≠ 0 ∧ ¬ (x ∈ a.held ∧ a.wake x ≠ none)
  | .hold x             => x ≠ 0
  | .release _          => True
  | .switch .preempted  => True
  | .switch .held       => a.running ≠ 0
  | .switch .gone       => a.running ≠ 0
  | .switch (.asleep n) => a.running ≠ 0 ∧ 1 ≤ n

/-- A step of the scheduler that the library is to implement. -/
def SpecStep (a : Sched Int) (o : Op Int) (b : Sched Int) : Prop := Permits a o ∧ a.Step o b

/-- What `uthread_init` starts: the main thread, in its first quantum. -/
def bootView : Sched Int where
  running := 0
  ready := []
  held := ∅
  wake := fun _ => none
  clock := 1
  quanta := fun i => if i = 0 then 1 else 0

section View

variable {s s' : State} {tid : Int} {t : Thread} {v : Option Thread}

/-- The held threads are the BLOCKED ones. -/
theorem mem_held {i : Int} :
    i ∈ s.view.held ↔ ∃ t, s.threads.get i = some t ∧ t.state = .blocked := stateOf_eq_some

/-- The deadline of a live thread is read off its count. -/
theorem view_wake {i : Int} (ht : s.threads.get i = some t) :
    s.view.wake i = t.wakeAt s.totalQuantom := by
  show (s.threads.get i).bind _ = _
  rw [ht]
  rfl

/-- A thread without a count has no deadline. -/
theorem wakeAt_eq_none {total : Int} : t.wakeAt total = none ↔ t.sleepingTime = notSleeping := by
  unfold Thread.wakeAt
  split <;> simp_all

/-- Outside the sleeping set nothing is counted down, in a good state. -/
theorem Sleepers.wake_none (h : Sleepers s) (hc : Core s) {i : Int} :
    s.view.wake i = none ↔ i ∉ s.sleepingThreads := by
  constructor
  · intro hnone hi
    obtain ⟨t, ht, hpos, _⟩ := h i hi
    rw [view_wake ht, wakeAt_eq_none] at hnone
    rw [hnone] at hpos
    exact absurd hpos (by decide)
  · intro hi
    cases ht : s.threads.get i with
    | none =>
        show (s.threads.get i).bind _ = none
        rw [ht]
        rfl
    | some t => exact (view_wake ht).trans (wakeAt_eq_none.mpr (hc.awake ht hi).2)

/-- A thread with a record is live. -/
theorem live_of_get (ht : s.threads.get tid = some t) : s.live tid = true := by
  unfold State.live
  rw [ht]
  rfl

/-- The abstract scheduler knows the live threads. -/
theorem Sleepers.view_knows (h : Sleepers s) (hw : WellFormed s) {i : Int} :
    s.view.Knows i ↔ s.live i = true := by
  constructor
  · intro hknows
    rcases hknows with hi | hi | hi | hi
    · obtain ⟨t, ht, _⟩ := hw.curr
      have hi' : i = s.currThreadId := hi
      exact hi' ▸ live_of_get ht
    · obtain ⟨t, ht, _⟩ := (hw.readyIff i).mp hi
      exact live_of_get ht
    · obtain ⟨t, ht, _⟩ := mem_held.mp hi
      exact live_of_get ht
    · have hmem : i ∈ s.sleepingThreads :=
        not_not.mp (fun hm => hi ((h.wake_none hw.toCore).mpr hm))
      obtain ⟨t, ht, _⟩ := h i hmem
      exact live_of_get ht
  · intro hlive
    obtain ⟨t, ht⟩ := Option.isSome_iff_exists.mp hlive
    cases hst : t.state with
    | running => exact Or.inl (hw.onlyCurr i t ht hst)
    | ready => exact Or.inr (Or.inl ((hw.readyIff i).mpr ⟨t, ht, hst⟩))
    | blocked => exact Or.inr (Or.inr (Or.inl (mem_held.mpr ⟨t, ht, hst⟩)))
    | sleeping =>
        have hmem : i ∈ s.sleepingThreads := hw.sleepMem i t ht (Or.inl hst)
        exact Or.inr (Or.inr (Or.inr (fun hnone => (h.wake_none hw.toCore).mp hnone hmem)))

/-! ## §2. One entry of the table. -/

section OneEntry

variable (hget : ∀ i, s'.threads.get i = if i = tid then v else s.threads.get i)
include hget

/-- Who is held, after one record has been written. -/
theorem held_of_get (i : Int) :
    i ∈ s'.view.held ↔ if i = tid then v.map Thread.state = some .blocked else i ∈ s.view.held := by
  show (s'.threads.get i).map Thread.state = some .blocked ↔ _
  rw [hget]
  by_cases hi : i = tid
  · rw [if_pos hi, if_pos hi]
  · rw [if_neg hi, if_neg hi]
    rfl

/-- The deadlines, after one record has been written. -/
theorem wake_of_get (htotal : s'.totalQuantom = s.totalQuantom) :
    s'.view.wake
      = Function.update s.view.wake tid (v.bind (fun t => t.wakeAt s.totalQuantom)) := by
  funext i
  show (s'.threads.get i).bind (fun t => t.wakeAt s'.totalQuantom) = _
  rw [hget, htotal, Function.update_apply]
  by_cases hi : i = tid
  · rw [if_pos hi, if_pos hi]
  · rw [if_neg hi, if_neg hi]
    rfl

/-- The counts, after one record has been written. -/
theorem quanta_of_get :
    s'.view.quanta = Function.update s.view.quanta tid ((v.map Thread.quantum).getD 0) := by
  funext i
  show ((s'.threads.get i).map Thread.quantum).getD 0 = _
  rw [hget, Function.update_apply]
  by_cases hi : i = tid
  · rw [if_pos hi, if_pos hi]
  · rw [if_neg hi, if_neg hi]
    rfl

end OneEntry

/-- A record is written that counts down to the same deadline. -/
theorem wake_keep (ht : s.threads.get tid = some t) {t' : Thread}
    (hget : ∀ i, s'.threads.get i = if i = tid then some t' else s.threads.get i)
    (htotal : s'.totalQuantom = s.totalQuantom) (hsl : t'.sleepingTime = t.sleepingTime) :
    s'.view.wake = s.view.wake := by
  have hsame : (some t').bind (fun t => t.wakeAt s.totalQuantom) = s.view.wake tid := by
    rw [view_wake ht, Option.bind_some, Thread.wakeAt, Thread.wakeAt, hsl]
  rw [wake_of_get hget htotal, hsame, Function.update_eq_self]

/-- They stay when the record's count does. -/
theorem quanta_keep (ht : s.threads.get tid = some t) {t' : Thread}
    (hget : ∀ i, s'.threads.get i = if i = tid then some t' else s.threads.get i)
    (hq : t'.quantum = t.quantum) : s'.view.quanta = s.view.quanta := by
  have hsame : ((some t').map Thread.quantum).getD 0 = s.view.quanta tid := by
    show t'.quantum = ((s.threads.get tid).map Thread.quantum).getD 0
    rw [ht, hq]
    rfl
  rw [quanta_of_get hget, hsame, Function.update_eq_self]

/-- A record is written, blocked now. -/
theorem held_insert {t' : Thread}
    (hget : ∀ i, s'.threads.get i = if i = tid then some t' else s.threads.get i)
    (hst : t'.state = .blocked) : s'.view.held = insert tid s.view.held := by
  ext i
  rw [held_of_get hget, Set.mem_insert_iff]
  by_cases hi : i = tid
  · simp [hi, hst]
  · simp [hi]

/-- A record is written, not blocked now, or removed. -/
theorem held_remove
    (hget : ∀ i, s'.threads.get i = if i = tid then v else s.threads.get i)
    (hst : ∀ t, v = some t → t.state ≠ .blocked) : s'.view.held = s.view.held \ {tid} := by
  have hv : v.map Thread.state ≠ some .blocked := by
    intro hblocked
    obtain ⟨t, ht, hst'⟩ := Option.map_eq_some_iff.mp hblocked
    exact hst t ht hst'
  ext i
  rw [held_of_get hget, Set.mem_sdiff, Set.mem_singleton_iff]
  by_cases hi : i = tid
  · simp [hi, hv]
  · simp [hi]

/-- A record is written or removed, that was and is not blocked. -/
theorem held_keep (hc : s.stateOf tid ≠ some .blocked)
    (hget : ∀ i, s'.threads.get i = if i = tid then v else s.threads.get i)
    (hst : ∀ t, v = some t → t.state ≠ .blocked) : s'.view.held = s.view.held := by
  rw [held_remove hget hst]
  exact Set.sdiff_singleton_eq_self hc

/-! ## §3. Calls that do not switch. -/

section Calls

variable {order : IterOrder} (hw : WellFormed s)
include hw

/-- `uthread_spawn` takes the least id that nobody has. -/
theorem view_spawn {newId : Int} {ids : List Int} (hids : s.minHeapId = newId :: ids)
    (newStack entryPoint : Nat) :
    (s.spawn newId ids newStack entryPoint).view = s.view.enroll newId := by
  obtain ⟨hr, hnull⟩ := hw.heap_top_free hids
  have hget : ∀ i, (s.spawn newId ids newStack entryPoint).threads.get i
      = if i = newId then some (setNewThread entryPoint newId newStack s.nextToken)
        else s.threads.get i := Table.get_set s.threads hr _
  have hawake : s.view.wake newId = none := by
    show (s.threads.get newId).bind _ = none
    rw [hnull]
    rfl
  have hblocked : s.stateOf newId ≠ some .blocked := by
    rw [State.stateOf, hnull]
    exact nofun
  refine Sched.ext rfl rfl (held_keep hblocked hget ?_) ?_ rfl (quanta_of_get hget)
  · intro t hu
    cases hu
    exact nofun
  · -- a new thread counts nothing down
    rw [wake_of_get hget rfl]
    show Function.update s.view.wake newId none = s.view.wake
    rw [← hawake, Function.update_eq_self]

/-- A thread that is not queued need not be taken out. -/
theorem filter_ready_ne (ht : s.threads.get tid = some t) (hst : t.state ≠ .ready) :
    s.readyThreads.filter (fun i => decide (i ≠ tid)) = s.readyThreads := by
  apply List.filter_eq_self.mpr
  intro i hi
  exact decide_eq_true (ne_of_mem_of_not_mem hi (hw.notMem_ready ht hst))

/-- `uthread_terminate` of another thread, whatever its state. -/
theorem view_retire {w : State} (ht : s.threads.get tid = some t)
    (hget : ∀ i, w.threads.get i = if i = tid then none else s.threads.get i)
    (hcurr : w.currThreadId = s.currThreadId) (htotal : w.totalQuantom = s.totalQuantom)
    (hready : w.readyThreads = s.readyThreads ∧ t.state ≠ .ready
      ∨ w.readyThreads = s.readyThreads.filter (fun i => decide (i ≠ tid))) :
    w.view = s.view.retire tid := by
  refine Sched.ext hcurr ?_ (held_remove hget (fun _ hu => nomatch hu)) (wake_of_get hget htotal)
    htotal (quanta_of_get hget)
  rcases hready with ⟨hready, hst⟩ | hready
  · exact hready.trans (filter_ready_ne hw ht hst).symm
  · exact hready

/-- `uthread_block` of another thread. -/
theorem view_hold {w : State} (ht : s.threads.get tid = some t)
    (hget : ∀ i, w.threads.get i = if i = tid then some { t with state := .blocked }
      else s.threads.get i)
    (hcurr : w.currThreadId = s.currThreadId) (htotal : w.totalQuantom = s.totalQuantom)
    (hready : w.readyThreads = s.readyThreads ∧ t.state ≠ .ready
      ∨ w.readyThreads = s.readyThreads.filter (fun i => decide (i ≠ tid))) :
    w.view = s.view.hold tid := by
  refine Sched.ext hcurr ?_ (held_insert hget rfl) (wake_keep ht hget htotal rfl) htotal
    (quanta_keep ht hget rfl)
  rcases hready with ⟨hready, hst⟩ | hready
  · exact hready.trans (filter_ready_ne hw ht hst).symm
  · exact hready

/-- `uthread_block` of a thread that is blocked changes nothing, as the
specification has it. -/
theorem view_hold_blocked (ht : s.threads.get tid = some t) (hst : t.state = .blocked) :
    s.view = s.view.hold tid := by
  refine Sched.ext rfl (filter_ready_ne hw ht (by simp [hst])).symm ?_ rfl rfl rfl
  exact (Set.insert_eq_of_mem (mem_held.mpr ⟨t, ht, hst⟩)).symm

omit hw in
/-- `uthread_resume` of a blocked thread. -/
theorem view_release {w : State} {t' : Thread} (ht : s.threads.get tid = some t)
    (hget : ∀ i, w.threads.get i = if i = tid then some t' else s.threads.get i)
    (hst : t'.state ≠ .blocked) (hsl : t'.sleepingTime = t.sleepingTime)
    (hquantum : t'.quantum = t.quantum) (hcurr : w.currThreadId = s.currThreadId)
    (htotal : w.totalQuantom = s.totalQuantom)
    (hready : w.readyThreads
      = if t.sleepingTime = notSleeping then s.readyThreads ++ [tid] else s.readyThreads) :
    w.view = s.view.release tid := by
  refine Sched.ext hcurr ?_ ?_ (wake_keep ht hget htotal hsl) htotal (quanta_keep ht hget hquantum)
  · show w.readyThreads = if s.view.wake tid = none then s.readyThreads ++ [tid]
      else s.readyThreads
    simp only [hready, view_wake ht, wakeAt_eq_none]
  · refine held_remove hget ?_
    intro u hu
    cases hu
    exact hst

end Calls

/-! ## §4. The context switch. -/

section Switch

variable {order : IterOrder} {p : State} {e : Event} {u : Thread} {next : Int} {rest : List Int}

/-- **Where the running thread goes**: the operation of a suspension, and what
it does before a quantum starts. -/
theorem Suspends.view (hp : Suspends s t e p) (h : Sleepers s) (hw : WellFormed s)
    (hcurr : s.threads.get s.currThreadId = some t) (hrun : t.state = .running)
    (hpos : e.SleepsPositive) :
    ∃ why, e.op s = some (.switch why) ∧ Permits s.view (.switch why)
      ∧ p.view = { s.view.leave why with running := p.currThreadId } := by
  have hlive : s.live s.currThreadId ≠ false := by
    rw [live_of_get hcurr]
    exact nofun
  have hfree : s.stateOf s.currThreadId ≠ some .blocked := by
    rw [State.stateOf, hcurr, Option.map_some, hrun]
    exact nofun
  have hawake : s.view.wake s.currThreadId = none :=
    (h.wake_none hw.toCore).mpr (h.notMem hcurr (Or.inr hrun))
  cases hp with
  | tick mask =>
      have hget := saveCurrent_get hcurr
        { t.save s.nextToken .timerHandler (insert sigvtalrm mask) with state := .ready }
        .timerHandler
      refine ⟨.preempted, rfl, trivial, Sched.ext rfl rfl (held_keep hfree hget ?_)
        (wake_keep hcurr hget rfl rfl) rfl (quanta_keep hcurr hget rfl)⟩
      intro u hu
      cases hu
      exact nofun
  | block h0 =>
      have hget := saveCurrent_get hcurr
        { t.save s.nextToken .uthreadBlock signalSet with state := .blocked } .uthreadBlock
      refine ⟨.held, ?_, h0, Sched.ext rfl rfl (held_insert hget rfl)
        (wake_keep hcurr hget rfl rfl) rfl (quanta_keep hcurr hget rfl)⟩
      rw [Event.op, if_neg (not_or.mpr ⟨h0, hlive⟩), if_pos rfl]
  | sleep h0 n =>
      have hget := saveCurrent_get hcurr
        { t.save s.nextToken .uthreadSleep signalSet with sleepingTime := n, state := .sleeping }
        .uthreadSleep
      have hn : 1 ≤ n := hpos
      refine ⟨.asleep n, by rw [Event.op, if_neg h0], ⟨h0, hpos⟩,
        Sched.ext rfl rfl (held_keep hfree hget ?_) ?_ rfl (quanta_keep hcurr hget rfl)⟩
      · intro u hu
        cases hu
        exact nofun
      · -- the countdown ends `n` quanta from now
        refine (wake_of_get hget rfl).trans ?_
        have hne : n ≠ notSleeping := by
          unfold notSleeping
          omega
        simp only [Option.bind_some, Thread.wakeAt, if_neg hne]
        rfl
  | terminate h0 =>
      have hget : ∀ i, (s.suspendTerminate t).threads.get i
          = if i = s.currThreadId then none else s.threads.get i := retire_get hcurr
      refine ⟨.gone, ?_, h0, Sched.ext rfl rfl (held_keep hfree hget (fun _ hu => nomatch hu))
        ?_ rfl (quanta_of_get hget)⟩
      · rw [Event.op, if_neg hlive, if_pos rfl]
      · refine (wake_of_get hget rfl).trans ?_
        show Function.update s.view.wake s.currThreadId none = s.view.wake
        rw [← hawake, Function.update_eq_self]

/-- A thread that the pass wakes is due and not held. -/
theorem Sleepers.waking_iff (h : Sleepers p) (hc : Core p) {i : Int} :
    (i ∈ p.sleepingThreads ∧ p.waking i = true) ↔ p.view.Due i ∧ i ∉ p.view.held := by
  unfold Sched.Due
  rw [UThreads.waking_iff, mem_held]
  constructor
  · intro hall
    obtain ⟨hm, v, hv, hz, hst⟩ := hall
    rw [view_wake hv]
    refine ⟨?_, ?_⟩
    · have hone : v.sleepingTime = 1 := by omega
      rw [Thread.wakeAt, hone]
      rfl
    · intro hheld
      obtain ⟨v', hv', hst'⟩ := hheld
      obtain rfl := same_record hv hv'
      cases hst.symm.trans hst'
  · intro hall
    obtain ⟨hdue, hfree⟩ := hall
    have hm : i ∈ p.sleepingThreads := by
      by_contra hm
      rw [(h.wake_none hc).mpr hm] at hdue
      cases hdue
    obtain ⟨v, hv, hpos, hst⟩ := h i hm
    rw [view_wake hv, Thread.wakeAt] at hdue
    split at hdue
    · cases hdue
    · injection hdue with hdue
      have hone : p.view.clock = p.totalQuantom := rfl
      exact ⟨hm, v, hv, by omega, hst.resolve_right (fun hb => hfree ⟨v, hv, hb⟩)⟩

/-- **A quantum starts**: `set_ready_to_run` is the start of a quantum for the
front of the queue. -/
theorem Sleepers.view_dispatched (h : Sleepers p) (hc : Core p) (hu : p.threads.get next = some u)
    (hready : u.state = .ready) :
    (p.dispatched order next rest u).view
      = p.view.start next rest
          ((order.enum (p.totalQuantom + 1) p.sleepingThreads).filter p.waking) := by
  have hout : next ∉ p.sleepingThreads := h.notMem hu (Or.inl hready)
  refine Sched.ext rfl (dispatched_ready hu (by simp [hready])) ?_ ?_ rfl ?_
  · -- the wake-up holds nobody and releases nobody
    ext i
    show i ∈ (p.dispatched order next rest u).view.held ↔ i ∈ p.view.held
    rw [mem_held, mem_held, dispatched_get hu]
    by_cases hi : i = next
    · subst hi
      rw [if_neg hout, if_pos rfl, hu]
      simp [Thread.started, hready]
    · rw [if_neg hi]
      split
      · cases p.threads.get i <;> simp [wakeRecord_blocked]
      · exact Iff.rfl
  · -- a member of the set counts one down, towards the same total
    funext i
    show ((p.dispatched order next rest u).threads.get i).bind
      (fun t => t.wakeAt (p.totalQuantom + 1)) = if p.view.Due i then none else p.view.wake i
    by_cases hm : i ∈ p.sleepingThreads
    · obtain ⟨v, hv, hpos, _⟩ := h i hm
      have hne : i ≠ next := ne_of_mem_of_not_mem hm hout
      have hcount : v.sleepingTime ≠ notSleeping := by
        unfold notSleeping
        omega
      have hwake : p.view.wake i = some (p.totalQuantom + v.sleepingTime) := by
        rw [view_wake hv, Thread.wakeAt, if_neg hcount]
      have hdue : p.view.Due i ↔ v.sleepingTime - 1 = 0 := by
        show p.view.wake i = some (p.totalQuantom + 1) ↔ _
        rw [hwake, Option.some.injEq]
        omega
      rw [dispatched_get_ne hu hne, if_pos hm, hv, Option.map_some, Option.bind_some, Thread.wakeAt,
        wakeRecord_sleepingTime, hwake]
      by_cases hz : v.sleepingTime - 1 = 0
      · rw [if_pos hz, if_pos rfl, if_pos (hdue.mpr hz)]
      · have hmore : v.sleepingTime - 1 ≠ notSleeping := by
          unfold notSleeping
          omega
        rw [if_neg hz, if_neg hmore, if_neg (fun hd => hz (hdue.mp hd))]
        exact congrArg some (by omega)
    · have hnone : p.view.wake i = none := (h.wake_none hc).mpr hm
      rw [dispatched_get hu, if_neg hm, hnone, ite_self]
      by_cases hi : i = next
      · rw [if_pos hi, Option.bind_some, wakeAt_eq_none]
        exact (hc.awake hu hout).2
      · rw [if_neg hi]
        show (p.threads.get i).bind _ = none
        cases hv : p.threads.get i with
        | none => rfl
        | some v => exact wakeAt_eq_none.mpr (hc.awake hv hm).2
  · -- one quantum more for the thread that starts
    funext i
    show (((p.dispatched order next rest u).threads.get i).map Thread.quantum).getD 0
      = Function.update p.view.quanta next (p.view.quanta next + 1) i
    rw [Function.update_apply, dispatched_get hu]
    by_cases hi : i = next
    · subst hi
      rw [if_neg hout, if_pos rfl, if_pos rfl]
      show u.started.quantum = ((p.threads.get i).map Thread.quantum).getD 0 + 1
      rw [hu]
      rfl
    · rw [if_neg hi, if_neg hi]
      show _ = ((p.threads.get i).map Thread.quantum).getD 0
      split
      · cases p.threads.get i <;> simp [wakeRecord_quantum]
      · rfl

end Switch

end View

/-! ## §5. Every run is a run of the abstract scheduler. -/

section Refines

variable {order : IterOrder} {s s' : State} {e : Event}

/-- The calls that the specification excludes are not made. -/
def Event.Regular (s : State) (e : Event) : Prop := e.SleepsPositive ∧ ¬ e.EndsBlockedSleeper s

instance (s : State) (e : Event) : Decidable (e.Regular s) := inferInstanceAs (Decidable (_ ∧ _))

/-- A call that is rejected is no operation. -/
theorem Rejected.op {c : Call} (hr : Rejected s c) : (Event.call c).op s = none := by
  have hdead : ∀ {i}, s.threads.get i = none → s.live i = false := not_live.mpr
  cases c with
  | spawn mem entryPoint =>
      cases entryPoint with
      | none => rfl
      | some entryPoint =>
          show s.minHeapId.head?.map Op.enroll = none
          rw [show s.minHeapId = [] from hr]
          rfl
  | terminate tid => exact if_pos (hdead hr)
  | block tid => exact if_pos (hr.imp_right hdead)
  | resume tid =>
      refine if_neg ?_
      intro hall
      rcases hr with h0 | hnull
      · exact hall.1 h0
      · rw [State.stateOf, hnull] at hall
        cases hall.2
  | sleep n => exact if_pos hr
  | getTid => rfl
  | getTotalQuantums => rfl
  | getQuantums tid => rfl

/-- **One event is one operation**, or none. -/
theorem Sleepers.view_step (h : Sleepers s) (hw : WellFormed s) (he : e.Regular s)
    (hs : UThreads.step order s e = some s') :
    (∃ o, e.op s = some o ∧ SpecStep s.view o s'.view) ∨ (e.op s = none ∧ s'.view = s.view) := by
  have hlive : ∀ {i t}, s.threads.get i = some t → s.live i ≠ false := by
    intro i t ht
    rw [live_of_get ht]
    exact nofun
  have hknows : ∀ {i t}, s.threads.get i = some t → s.view.Knows i :=
    fun ht => (h.view_knows hw).mpr (live_of_get ht)
  have heff := step_effect hw hs
  cases heff with
  | reject c line hr => exact Or.inr ⟨hr.op, rfl⟩
  | idle c hi =>
      cases c with
      | block tid =>
          obtain ⟨h0, t, ht, hst⟩ := hi
          have hne : tid ≠ s.currThreadId := hw.ne_curr ht (by simp [hst])
          refine Or.inl ⟨.hold tid, ?_, h0, ?_⟩
          · rw [Event.op, if_neg (not_or.mpr ⟨h0, hlive ht⟩), if_neg hne]
          · have hstep := Sched.Step.hold (a := s.view) tid (hknows ht) hne
            rwa [← view_hold_blocked hw ht hst] at hstep
      | resume tid =>
          obtain ⟨h0, t, ht, hst⟩ := hi
          refine Or.inr ⟨if_neg ?_, rfl⟩
          intro hall
          obtain ⟨u, hu, hust⟩ := stateOf_eq_some.mp hall.2
          obtain rfl := same_record ht hu
          exact hst hust
      | getTid => exact Or.inr ⟨rfl, rfl⟩
      | getTotalQuantums => exact Or.inr ⟨rfl, rfl⟩
      | getQuantums tid => exact Or.inr ⟨rfl, rfl⟩
      | spawn mem entryPoint => exact absurd hi id
      | terminate tid => exact absurd hi id
      | sleep n => exact absurd hi id
  | spawn newStack entryPoint newId ids hids =>
      obtain ⟨hr, hfree, hleast⟩ := hw.heap_top hids
      have hunknown : ∀ {i}, ¬ s.view.Knows i ↔ s.live i = false := by
        intro i
        rw [h.view_knows hw, Bool.not_eq_true]
      refine Or.inl ⟨.enroll newId, ?_, ⟨hr, fun y hy hn => hleast y hy (hunknown.mp hn)⟩, ?_⟩
      · show s.minHeapId.head?.map Op.enroll = _
        rw [hids]
        rfl
      · rw [view_spawn hw hids]
        exact .enroll newId (hunknown.mpr hfree)
  | retireIdle tid t h0 ht hst =>
      have hne : tid ≠ s.currThreadId := by
        refine hw.ne_curr ht ?_
        rcases hst with hst | hst <;> simp [hst]
      refine Or.inl ⟨.retire tid, ?_, ⟨h0, ?_⟩, ?_⟩
      · rw [Event.op, if_neg (hlive ht), if_neg hne]
      · -- that would be the excluded call
        intro hbad
        obtain ⟨u, hu, hust⟩ := mem_held.mp hbad.1
        rw [view_wake hu, Ne, wakeAt_eq_none] at hbad
        exact he.2 ⟨u, hu, hust, hbad.2⟩
      · rw [view_retire (w := (s.retire tid t).setReady
          (s.readyThreads.filter (fun i => decide (i ≠ tid)))) hw ht (retire_get ht) rfl rfl
          (Or.inr rfl)]
        exact .retire tid (hknows ht) hne
  | retireSleeping tid t h0 ht hst =>
      have hne : tid ≠ s.currThreadId := hw.ne_curr ht (by simp [hst])
      refine Or.inl ⟨.retire tid, ?_, ⟨h0, ?_⟩, ?_⟩
      · rw [Event.op, if_neg (hlive ht), if_neg hne]
      · intro hbad
        obtain ⟨u, hu, hust⟩ := mem_held.mp hbad.1
        obtain rfl := same_record ht hu
        cases hst.symm.trans hust
      · rw [view_retire (w := (s.setSleeping (s.sleepingThreads.erase tid)).retire tid t) hw ht
          (retire_get ht) rfl rfl (Or.inl ⟨rfl, by simp [hst]⟩)]
        exact .retire tid (hknows ht) hne
  | blockSleeping tid t h0 ht hst =>
      have hne : tid ≠ s.currThreadId := hw.ne_curr ht (by simp [hst])
      refine Or.inl ⟨.hold tid, ?_, h0, ?_⟩
      · rw [Event.op, if_neg (not_or.mpr ⟨h0, hlive ht⟩), if_neg hne]
      · rw [view_hold (w := s.setThread tid (some { t with state := .blocked })) hw ht
          (setThread_get ht _) rfl rfl (Or.inl ⟨rfl, by simp [hst]⟩)]
        exact .hold tid (hknows ht) hne
  | blockReady tid t h0 ht hst =>
      have hne : tid ≠ s.currThreadId := hw.ne_curr ht (by simp [hst])
      refine Or.inl ⟨.hold tid, ?_, h0, ?_⟩
      · rw [Event.op, if_neg (not_or.mpr ⟨h0, hlive ht⟩), if_neg hne]
      · rw [view_hold (w := (s.setReady (s.readyThreads.filter
          (fun i => decide (i ≠ tid)))).setThread tid (some { t with state := .blocked })) hw ht (setThread_get ht _) rfl rfl (Or.inr rfl)]
        exact .hold tid (hknows ht) hne
  | resumeBlocked tid t h0 ht hst hsl =>
      have hheld : s.stateOf tid = some .blocked := stateOf_eq_some.mpr ⟨t, ht, hst⟩
      refine Or.inl ⟨.release tid, if_pos ⟨h0, hheld⟩, trivial, ?_⟩
      rw [view_release (w := (s.setThread tid (some { t with state := .ready })).setReady
        (s.readyThreads ++ [tid])) ht (setThread_get ht _) nofun rfl rfl rfl rfl (if_pos hsl).symm]
      exact .release tid hheld
  | resumeCounting tid t h0 ht hst hsl =>
      have hheld : s.stateOf tid = some .blocked := stateOf_eq_some.mpr ⟨t, ht, hst⟩
      refine Or.inl ⟨.release tid, if_pos ⟨h0, hheld⟩, trivial, ?_⟩
      rw [view_release (w := s.setThread tid (some { t with state := .sleeping })) ht
        (setThread_get ht _) nofun rfl rfl rfl rfl (if_neg hsl).symm]
      exact .release tid hheld
  | switch e t p next rest u hcurr hrun hp hq hu hready hlive =>
      obtain ⟨why, hop, hpermit, hview⟩ := hp.view h hw hcurr hrun he.1
      have hpaused : Paused p := hw.suspends hcurr hrun hp
      have hsleepers : Sleepers p := h.suspends hcurr hrun hp he.1
      have hperm := order.perm (p.totalQuantom + 1) p.sleepingThreads
      refine Or.inl ⟨.switch why, hop, hpermit, ?_⟩
      rw [hsleepers.view_dispatched hpaused.toCore hu hready, hview]
      refine .switch why next rest _ ?_ ((hperm.nodup_iff.mpr hpaused.sleepNodup).filter _) ?_
      · have hqueue : p.view.ready = next :: rest := hq
        rw [hview] at hqueue
        exact hqueue
      · intro y
        have hdue := hsleepers.waking_iff hpaused.toCore (i := y)
        rw [hview] at hdue
        rw [List.mem_filter, hperm.mem_iff]
        exact hdue

/-- **The simulation**, along `State.view`. -/
theorem simulates (order : IterOrder) :
    Simulates (step order) SpecStep State.view Event.op (fun s => WellFormed s ∧ Sleepers s)
      (fun s e => e.Regular s) := by
  intro s e s' hI he hs
  rcases hI.2.view_step hI.1 he hs with ⟨o, hop, hstep⟩ | ⟨hop, hview⟩
  · rw [hop]
    exact hstep
  · rw [hop]
    exact hview

/-- What the abstract scheduler starts from. -/
theorem initialState_view (q : Int) : (initialState q).view = bootView := by
  refine Sched.ext rfl rfl ?_ ?_ rfl ?_
  · refine Set.eq_empty_iff_forall_notMem.mpr ?_
    intro i hi
    obtain ⟨t, ht, hst⟩ := mem_held.mp hi
    rw [initialState_get] at ht
    split at ht
    · injection ht with ht
      rw [← ht] at hst
      cases hst
    · cases ht
  · funext i
    show ((initialState q).threads.get i).bind _ = none
    rw [initialState_get]
    split <;> rfl
  · funext i
    show (((initialState q).threads.get i).map Thread.quantum).getD 0 = if i = 0 then 1 else 0
    rw [initialState_get]
    split <;> rfl

/-- It is valid. -/
theorem bootView_valid : bootView.Valid where
  nodup := List.nodup_nil
  heldOut := fun _ _ => List.not_mem_nil
  asleepOut := fun _ _ => List.not_mem_nil
  deadline := fun _ _ h => nomatch h
  runs := ⟨List.not_mem_nil, fun h => h, rfl⟩

/-- **The step lemma** of the abstract scheduler. -/
theorem SpecStep.valid {a b : Sched Int} {o : Op Int} (h : SpecStep a o b) (ha : a.Valid) :
    b.Valid := by
  refine ha.step h.2 ?_
  have hpermit := h.1
  cases o with
  | switch why =>
      cases why with
      | asleep n => exact hpermit.2
      | _ => trivial
  | _ => trivial

/-- Regular events keep the sleepers in order. -/
theorem Sleepers.regular (h : Sleepers s) (hw : WellFormed s) (he : e.Regular s)
    (hs : UThreads.step order s e = some s') : WellFormed s' ∧ Sleepers s' :=
  ⟨hw.step hs, h.step hw hs he.1 he.2⟩

/-- **The run lemma.** -/
theorem view_run {s₀ : State} {es : List Event} (h₀ : Initial s₀)
    (hregular : AllSteps (step order) (fun v e => e.Regular v) s₀ es)
    (hrun : run (step order) s₀ es = some s) :
    Steps SpecStep bootView (labels (step order) Event.op s₀ es) s.view
      ∧ WellFormed s ∧ Sleepers s := by
  have hkeep : ∀ v e w, (WellFormed v ∧ Sleepers v) → e.Regular v → step order v e = some w →
      WellFormed w ∧ Sleepers w := fun v e w hI he hs => hI.2.regular hI.1 he hs
  have hI₀ : WellFormed s₀ ∧ Sleepers s₀ := ⟨initial_wellFormed h₀, initial_sleepers h₀⟩
  have hsteps := (simulates order).run hkeep es s₀ s hI₀ hregular hrun
  obtain ⟨q, _, rfl⟩ := initial_iff.mp h₀
  rw [initialState_view] at hsteps
  exact ⟨hsteps, run_guarded _ _ hkeep es _ s hI₀ hregular hrun⟩

end Refines

/-- **Refinement.**  The operations of a run are a run of the abstract scheduler,
which never has a thread in two places or a deadline in the past; it knows the
live threads and no others. -/
theorem refines_scheduler {order : IterOrder} {s₀ s : State} {es : List Event} (h₀ : Initial s₀)
    (hregular : AllSteps (step order) (fun v e => e.Regular v) s₀ es)
    (hrun : run (step order) s₀ es = some s) :
    Steps SpecStep bootView (labels (step order) Event.op s₀ es) s.view
      ∧ s.view.Valid ∧ ∀ i, s.view.Knows i ↔ s.live i = true := by
  obtain ⟨hsteps, hw, h⟩ := view_run h₀ hregular hrun
  exact ⟨hsteps, hsteps.invariant (fun _ _ _ ha hs => hs.valid ha) bootView_valid,
    fun _ => h.view_knows hw⟩

/-- A run with every kind of call in it. -/
theorem refines_scheduler_mixedRun :
    ∃ s, run (step .listing) (initialState 1000) mixedRun = some s
      ∧ Steps SpecStep bootView (labels (step .listing) Event.op (initialState 1000) mixedRun)
          s.view
      ∧ s.view.Valid := by
  obtain ⟨s, hs⟩ := Option.isSome_iff_exists.mp mixedRun_ends
  have hregular : AllSteps (step .listing) (fun v e => e.Regular v) (initialState 1000)
      mixedRun := by
    decide +kernel
  obtain ⟨hsteps, hvalid, _⟩ :=
    refines_scheduler (initial_iff.mpr ⟨1000, by decide, rfl⟩) hregular hs
  exact ⟨s, hs, hsteps, hvalid⟩

end UThreads
