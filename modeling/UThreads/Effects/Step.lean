/-
  UThreads.Effects.Step
  ─────────────────────
  **EVERYTHING A STEP CAN DO.**

  `Effect order s e s'` lists the state changes an event can cause, one
  constructor for each kind, with the conditions under which it happens.
  `step_effect` says that a step from a well-formed state is one of them; every
  invariant of the development is proved by cases on it.
-/
import UThreads.Invariant.WellFormed

namespace UThreads

open Interruptible

/-! ## §1. The transition relation. -/

/-- The library rejects the call: it returns -1. -/
def Rejected (s : State) : Call → Prop
  | .spawn _ none      => True
  | .spawn _ (some _)  => s.minHeapId = []
  | .terminate tid     => s.threads.get tid = none
  | .block tid         => tid = 0 ∨ s.threads.get tid = none
  | .resume tid        => tid = 0 ∨ s.threads.get tid = none
  | .sleep _           => s.currThreadId = 0
  | _                  => False

/-- The call succeeds and changes nothing. -/
def Idle (s : State) : Call → Prop
  | .block tid  => tid ≠ 0 ∧ ∃ t, s.threads.get tid = some t ∧ t.state = .blocked
  | .resume tid => tid ≠ 0 ∧ ∃ t, s.threads.get tid = some t ∧ t.state ≠ .blocked
  | .getTid | .getTotalQuantums | .getQuantums _ => True
  | _           => False

/-- The state changes of one event. -/
inductive Effect (order : IterOrder) (s : State) : Event → State → Prop where
  /-- a rejected call prints one line -/
  | reject (c : Call) (line : String) (h : Rejected s c) : Effect order s (.call c) (s.print line)
  /-- a call with nothing to do -/
  | idle (c : Call) (h : Idle s c) : Effect order s (.call c) s
  | spawn (newStack entryPoint : Nat) (newId : Int) (ids : List Int)
      (h : s.minHeapId = newId :: ids) :
      Effect order s (.call (.spawn ⟨some newStack, true⟩ (some entryPoint)))
        (s.spawn newId ids newStack entryPoint)
  /-- `uthread_terminate` of a READY or BLOCKED thread -/
  | retireIdle (tid : Int) (t : Thread) (h0 : tid ≠ 0) (h : s.threads.get tid = some t)
      (hst : t.state = .ready ∨ t.state = .blocked) :
      Effect order s (.call (.terminate tid))
        ((s.retire tid t).setReady (s.readyThreads.filter (fun i => decide (i ≠ tid))))
  /-- `uthread_terminate` of a SLEEPING thread -/
  | retireSleeping (tid : Int) (t : Thread) (h0 : tid ≠ 0) (h : s.threads.get tid = some t)
      (hst : t.state = .sleeping) :
      Effect order s (.call (.terminate tid))
        ((s.setSleeping (s.sleepingThreads.erase tid)).retire tid t)
  /-- `uthread_block` of a SLEEPING thread -/
  | blockSleeping (tid : Int) (t : Thread) (h0 : tid ≠ 0) (h : s.threads.get tid = some t)
      (hst : t.state = .sleeping) :
      Effect order s (.call (.block tid)) (s.setThread tid (some { t with state := .blocked }))
  /-- `uthread_block` of a READY thread -/
  | blockReady (tid : Int) (t : Thread) (h0 : tid ≠ 0) (h : s.threads.get tid = some t)
      (hst : t.state = .ready) :
      Effect order s (.call (.block tid))
        ((s.setReady (s.readyThreads.filter (fun i => decide (i ≠ tid)))).setThread tid
          (some { t with state := .blocked }))
  /-- `uthread_resume` of a BLOCKED thread that does not count down -/
  | resumeBlocked (tid : Int) (t : Thread) (h0 : tid ≠ 0) (h : s.threads.get tid = some t)
      (hst : t.state = .blocked) (hsl : t.sleepingTime = notSleeping) :
      Effect order s (.call (.resume tid))
        ((s.setThread tid (some { t with state := .ready })).setReady (s.readyThreads ++ [tid]))
  /-- `uthread_resume` of a BLOCKED thread that still counts down -/
  | resumeCounting (tid : Int) (t : Thread) (h0 : tid ≠ 0) (h : s.threads.get tid = some t)
      (hst : t.state = .blocked) (hsl : t.sleepingTime ≠ notSleeping) :
      Effect order s (.call (.resume tid)) (s.setThread tid (some { t with state := .sleeping }))
  /-- the running thread gives up the CPU: a context switch -/
  | switch (e : Event) (t : Thread) (p : State) (next : Int) (rest : List Int) (u : Thread)
      (hcurr : s.threads.get s.currThreadId = some t) (hrun : t.state = .running)
      (hp : Suspends s t e p) (hq : p.readyThreads = next :: rest)
      (hu : p.threads.get next = some u) (hready : u.state = .ready)
      (hlive : ∀ i ∈ p.sleepingThreads, p.threads.get i ≠ none) :
      Effect order s e (p.dispatched order next rest u)

/-- The event makes the running thread give up the CPU: a preemption, a
self-block, a sleep or a self-termination. -/
def Event.Switches (s : State) : Event → Prop
  | .tick _                => True
  | .call (.block tid)     => tid = s.currThreadId ∧ tid ≠ 0
  | .call (.terminate tid) => tid = s.currThreadId ∧ tid ≠ 0
  | .call (.sleep _)       => s.currThreadId ≠ 0
  | .call _                => False

instance (s : State) : ∀ e : Event, Decidable (e.Switches s)
  | .tick _                => inferInstanceAs (Decidable True)
  | .call (.block _)       => inferInstanceAs (Decidable (_ ∧ _))
  | .call (.terminate _)   => inferInstanceAs (Decidable (_ ∧ _))
  | .call (.sleep _)       => inferInstanceAs (Decidable (_ ≠ _))
  | .call (.spawn _ _)     => inferInstanceAs (Decidable False)
  | .call (.resume _)      => inferInstanceAs (Decidable False)
  | .call .getTid          => inferInstanceAs (Decidable False)
  | .call .getTotalQuantums => inferInstanceAs (Decidable False)
  | .call (.getQuantums _) => inferInstanceAs (Decidable False)

/-- The switching events are those that suspend the running thread. -/
theorem Suspends.switches {s p : State} {t : Thread} {e : Event} (h : Suspends s t e p) :
    e.Switches s := by
  cases h with
  | tick mask => trivial
  | block h0 => exact ⟨rfl, h0⟩
  | sleep h0 n => exact h0
  | terminate h0 => exact ⟨rfl, h0⟩

/-- A switching event suspends the thread that runs. -/
theorem Event.Switches.suspends {s : State} {e : Event} (h : e.Switches s) (t : Thread) :
    ∃ p, Suspends s t e p := by
  cases e with
  | tick mask => exact ⟨_, .tick mask⟩
  | call c =>
      cases c with
      | block tid =>
          obtain ⟨rfl, h0⟩ := h
          exact ⟨_, .block h0⟩
      | terminate tid =>
          obtain ⟨rfl, h0⟩ := h
          exact ⟨_, .terminate h0⟩
      | sleep n => exact ⟨_, .sleep h n⟩
      | spawn mem entryPoint => exact absurd h id
      | resume tid => exact absurd h id
      | getTid => exact absurd h id
      | getTotalQuantums => exact absurd h id
      | getQuantums tid => exact absurd h id

/-! ## §2. Suspending keeps the invariant. -/

section Suspend

variable {s p : State} {t : Thread} {e : Event}

/-- `sigsetjmp` and a new state for the running thread: what the three
suspensions that keep the record share. -/
theorem saveCurrent_get (hcurr : s.threads.get s.currThreadId = some t) (t' : Thread)
    (site : JmpSite) (i : Int) :
    (s.saveCurrent t' site).threads.get i
      = if i = s.currThreadId then some t' else s.threads.get i :=
  Table.get_set s.threads (Table.inRange_of_get hcurr) _ i

/-- A suspended record that keeps its id, in a table otherwise unchanged,
leaves the same entries null. -/
theorem saveCurrent_get_none (hcurr : s.threads.get s.currThreadId = some t) (t' : Thread)
    (site : JmpSite) (i : Int) :
    (s.saveCurrent t' site).threads.get i = none ↔ s.threads.get i = none := by
  rw [saveCurrent_get hcurr]
  by_cases hi : i = s.currThreadId
  · simp [hi, hcurr]
  · simp [hi]

/-- A tick: the thread is READY, saved, and at the end of the queue. -/
theorem WellFormed.suspendTick (h : WellFormed s)
    (hcurr : s.threads.get s.currThreadId = some t) (hrun : t.state = .running) (m : SigSet) :
    Paused (s.suspendTick t m) := by
  have hget : ∀ i, (s.suspendTick t m).threads.get i
      = if i = s.currThreadId
        then some { t.save s.nextToken .timerHandler m with state := .ready }
        else s.threads.get i := saveCurrent_get hcurr _ .timerHandler
  -- a RUNNING thread is not in the queue, so it may be pushed
  have hout : s.currThreadId ∉ s.readyThreads := h.notMem_ready hcurr (by simp [hrun])
  have hcore : Core (s.suspendTick t m) := by
    refine h.toCore.replace hcurr hget rfl rfl rfl ?_ ?_ h.sleepNodup h.sleepMain
      (fun _ hi => hi) ?_
    · show (s.readyThreads ++ [s.currThreadId]).Nodup
      rw [List.nodup_append_comm]
      exact List.nodup_cons.mpr ⟨hout, h.readyNodup⟩
    · intro i
      show i ∈ s.readyThreads ++ [s.currThreadId] ↔ _
      rw [List.mem_append, List.mem_singleton]
      by_cases hi : i = s.currThreadId <;> simp [hi]
    · intro hcase
      rcases hcase with hs | hs
      · simp at hs
      · exact h.sleepMem _ t hcurr (Or.inr hs)
  refine ⟨hcore, ?_, ?_⟩
  · -- nobody runs: the one thread that did is READY now
    intro i u hu hr
    rw [hget] at hu
    by_cases hi : i = s.currThreadId
    · rw [if_pos hi] at hu
      injection hu with hu
      simp [← hu] at hr
    · rw [if_neg hi] at hu
      exact hi (h.onlyCurr i u hu hr)
  · obtain ⟨u, hu, hst⟩ := h.main
    rw [hget]
    by_cases hi : (0 : Int) = s.currThreadId
    · rw [if_pos hi]
      exact ⟨_, rfl, rfl⟩
    · rw [if_neg hi]
      exact ⟨u, hu, hst.resolve_left (fun hr => hi (h.onlyCurr 0 u hu hr))⟩

/-- What a suspension that takes the running thread out of the queue leaves:
nobody runs, and the main thread is READY. -/
theorem WellFormed.paused_of_core (h : WellFormed s) (h0 : s.currThreadId ≠ 0)
    (hcore : Core p) {v : Option Thread}
    (hget : ∀ i, p.threads.get i = if i = s.currThreadId then v else s.threads.get i)
    (hstop : ∀ u, v = some u → u.state ≠ .running) : Paused p := by
  refine ⟨hcore, ?_, ?_⟩
  · intro i u hu
    rw [hget] at hu
    by_cases hi : i = s.currThreadId
    · rw [if_pos hi] at hu
      exact hstop u hu
    · rw [if_neg hi] at hu
      exact fun hr => hi (h.onlyCurr i u hu hr)
  · obtain ⟨u, hu, hst⟩ := h.main
    rw [hget, if_neg (Ne.symm h0)]
    exact ⟨u, hu, hst.resolve_left (fun hr => h0 (h.onlyCurr 0 u hu hr).symm)⟩

/-- A thread that blocks itself is in neither queue nor set. -/
theorem WellFormed.suspendBlock (h : WellFormed s) (h0 : s.currThreadId ≠ 0)
    (hcurr : s.threads.get s.currThreadId = some t) (hrun : t.state = .running) :
    Paused (s.suspendBlock t) := by
  have hget : ∀ i, (s.suspendBlock t).threads.get i
      = if i = s.currThreadId
        then some { t.save s.nextToken .uthreadBlock signalSet with state := .blocked }
        else s.threads.get i := saveCurrent_get hcurr _ .uthreadBlock
  have hout : s.currThreadId ∉ s.readyThreads := h.notMem_ready hcurr (by simp [hrun])
  have hcore : Core (s.suspendBlock t) := by
    refine h.toCore.replace hcurr hget rfl rfl rfl h.readyNodup ?_ h.sleepNodup h.sleepMain
      (fun _ hi => hi) ?_
    · intro i
      show i ∈ s.readyThreads ↔ _
      by_cases hi : i = s.currThreadId
      · simpa [hi] using hout
      · simp [hi]
    · intro hcase
      rcases hcase with hs | hs
      · simp at hs
      · exact h.sleepMem _ t hcurr (Or.inr hs)
  refine h.paused_of_core h0 hcore hget ?_
  intro u hu
  cases hu
  simp

/-- A thread that goes to sleep is in the set. -/
theorem WellFormed.suspendSleep (h : WellFormed s) (h0 : s.currThreadId ≠ 0)
    (hcurr : s.threads.get s.currThreadId = some t) (hrun : t.state = .running) (n : Int) :
    Paused (s.suspendSleep t n) := by
  have hget : ∀ i, (s.suspendSleep t n).threads.get i
      = if i = s.currThreadId
        then some { t.save s.nextToken .uthreadSleep signalSet with
          sleepingTime := n, state := .sleeping }
        else s.threads.get i := saveCurrent_get hcurr _ .uthreadSleep
  have hout : s.currThreadId ∉ s.readyThreads := h.notMem_ready hcurr (by simp [hrun])
  have hcore : Core (s.suspendSleep t n) := by
    refine h.toCore.replace hcurr hget rfl rfl rfl h.readyNodup ?_ ?_ ?_ ?_ ?_
    · intro i
      show i ∈ s.readyThreads ↔ _
      by_cases hi : i = s.currThreadId
      · simpa [hi] using hout
      · simp [hi]
    · exact h.sleepNodup.insert
    · -- the main thread cannot call `uthread_sleep`
      show 0 ∉ s.sleepingThreads.insert s.currThreadId
      rw [List.mem_insert_iff]
      exact fun hm => hm.elim (fun he => h0 he.symm) h.sleepMain
    · exact fun i hi => List.mem_insert_of_mem hi
    · exact fun _ => List.mem_insert_self
  refine h.paused_of_core h0 hcore hget ?_
  intro u hu
  cases hu
  simp

/-- A thread that terminates itself is gone, and its id in the heap. -/
theorem WellFormed.suspendTerminate (h : WellFormed s) (h0 : s.currThreadId ≠ 0)
    (hcurr : s.threads.get s.currThreadId = some t) (hrun : t.state = .running) :
    Paused (s.suspendTerminate t) := by
  have hget : ∀ i, (s.suspendTerminate t).threads.get i
      = if i = s.currThreadId then none else s.threads.get i :=
    Table.get_set s.threads (Table.inRange_of_get hcurr) none
  have hout : s.currThreadId ∉ s.readyThreads := h.notMem_ready hcurr (by simp [hrun])
  have hcore : Core (s.suspendTerminate t) := by
    refine h.toCore.remove hcurr hget rfl rfl h.readyNodup ?_ h.sleepNodup h.sleepMain
      (fun _ hi _ => hi)
    intro i
    exact ⟨fun hi => ⟨ne_of_mem_of_not_mem hi hout, hi⟩, fun hi => hi.2⟩
  exact h.paused_of_core h0 hcore hget (fun _ hu => nomatch hu)

/-- **A suspension is about the running thread only**: every other thread keeps
its record and its place in the sleeping set, and the queue can only grow. -/
theorem Suspends.frame (hp : Suspends s t e p) (hcurr : s.threads.get s.currThreadId = some t)
    {i : Int} (hi : i ≠ s.currThreadId) :
    p.threads.get i = s.threads.get i ∧ (i ∈ p.sleepingThreads ↔ i ∈ s.sleepingThreads)
      ∧ ∃ late, p.readyThreads = s.readyThreads ++ late := by
  cases hp with
  | tick mask =>
      exact ⟨(saveCurrent_get hcurr _ .timerHandler i).trans (if_neg hi), Iff.rfl,
        [s.currThreadId], rfl⟩
  | block h0 =>
      exact ⟨(saveCurrent_get hcurr _ .uthreadBlock i).trans (if_neg hi), Iff.rfl, [],
        (List.append_nil _).symm⟩
  | sleep h0 n =>
      refine ⟨(saveCurrent_get hcurr _ .uthreadSleep i).trans (if_neg hi), ?_, [],
        (List.append_nil _).symm⟩
      show i ∈ s.sleepingThreads.insert s.currThreadId ↔ _
      rw [List.mem_insert_iff]
      exact ⟨fun hm => hm.resolve_left hi, Or.inr⟩
  | terminate h0 => exact ⟨Table.get_set_ne s.threads hi none, Iff.rfl, [], (List.append_nil _).symm⟩

/-- A suspension counts no quantum: the dispatch behind it does. -/
theorem Suspends.total (hp : Suspends s t e p) : p.totalQuantom = s.totalQuantom := by
  cases hp <;> rfl

/-- **Every suspension leaves somebody to dispatch.** -/
theorem WellFormed.suspends (h : WellFormed s) (hcurr : s.threads.get s.currThreadId = some t)
    (hrun : t.state = .running) (hp : Suspends s t e p) : Paused p := by
  cases hp with
  | tick mask => exact h.suspendTick hcurr hrun _
  | block h0 => exact h.suspendBlock h0 hcurr hrun
  | sleep h0 n => exact h.suspendSleep h0 hcurr hrun n
  | terminate h0 => exact h.suspendTerminate h0 hcurr hrun

end Suspend

/-! ## §3. How the code of an event ends. -/

/-- **The dispatch** jumps to the READY thread at the queue's front, or faults on
a member of the sleeping set whose table entry is null. -/
theorem Paused.exec_dispatch {p : State} (h : Paused p) (order : IterOrder) (m : SigSet) :
    (∃ next rest u, p.readyThreads = next :: rest ∧ p.threads.get next = some u
        ∧ u.state = .ready ∧ (∀ i ∈ p.sleepingThreads, p.threads.get i ≠ none)
        ∧ (dispatchFront order).exec p m
            = .jump u.env.target (p.dispatched order next rest u) u.env.savedMask)
      ∨ ((∃ i ∈ p.sleepingThreads, p.threads.get i = none)
          ∧ (dispatchFront order).exec p m = .stop (.fault .nullThread)) := by
  obtain ⟨next, rest, u, hq, hu, hready⟩ := h.front
  by_cases hlive : ∀ i ∈ p.sleepingThreads, p.threads.get i ≠ none
  · exact Or.inl ⟨next, rest, u, hq, hu, hready, hlive,
      exec_dispatchFront order m h.freed hq hu h.ids h.sleepNodup hlive⟩
  · have hnull : ∃ i ∈ p.sleepingThreads, p.threads.get i = none := by simpa using hlive
    exact Or.inr ⟨hnull, exec_dispatchFront_null order m h.freed hq hu h.ids h.sleepNodup hnull⟩

/-- So what stands behind it is not executed. -/
theorem Paused.dispatch_not_ret {p : State} (h : Paused p) (order : IterOrder) (m : SigSet)
    {α : Type} (f : Unit → State → SigSet → Outcome State SigSet Stop α) (r : α) (s' : State)
    (m' : SigSet) : ((dispatchFront order).exec p m).andThen f ≠ .ret r s' m' := by
  rcases h.exec_dispatch order m with ⟨next, rest, u, _, _, _, _, hexec⟩ | ⟨_, hexec⟩
  · rw [hexec]
    exact nofun
  · rw [hexec]
    exact nofun

/-- The code of event `e` returns after one of the effects, exits, or suspends
the running thread and goes on with the dispatch. -/
inductive Ending {α : Type} (order : IterOrder) (s : State) (e : Event) :
    Outcome State SigSet Stop α → Prop where
  | returns (r : α) (s' : State) (m : SigSet) (h : Effect order s e s') :
      Ending order s e (.ret r s' m)
  | exits (code : Int) : Ending order s e (.stop (.exit code))
  | switches (t : Thread) (p : State) (m : SigSet)
      (f : Unit → State → SigSet → Outcome State SigSet Stop α)
      (hcurr : s.threads.get s.currThreadId = some t) (hrun : t.state = .running)
      (hp : Suspends s t e p) : Ending order s e (((dispatchFront order).exec p m).andThen f)

section Calls

variable {order : IterOrder} {s s' : State}

/-- How `uthread_spawn` ends: a refusal, a new thread, or an exit without memory. -/
theorem spawn_ending (h : WellFormed s) (mem : Malloc) (entryPoint : Option Nat) :
    Ending order s (.call (.spawn mem entryPoint)) ((uthreadSpawn mem entryPoint).exec s ∅) := by
  cases entryPoint with
  | none =>
      rw [exec_uthreadSpawn_null]
      exact .returns _ _ _ (.reject _ _ trivial)
  | some entryPoint =>
      cases hheap : s.minHeapId with
      | nil =>
          rw [exec_uthreadSpawn_full mem entryPoint ∅ hheap]
          exact .returns _ _ _ (.reject _ _ hheap)
      | cons newId ids =>
          have hid : 0 ≤ newId := (h.heap_top_free hheap).1.1
          by_cases hmem : mem.Succeeds
          · obtain ⟨newStack, rfl⟩ := hmem.eq
            rw [exec_uthreadSpawn newStack entryPoint ∅ hheap hid]
            exact .returns _ _ _ (.spawn newStack entryPoint newId ids hheap)
          · rw [exec_uthreadSpawn_nomem hmem entryPoint ∅ hheap hid]
            exact .exits 1

/-- How `uthread_terminate` ends, by the state of the thread it is about. -/
theorem terminate_ending (h : WellFormed s) (tid : Int) :
    Ending order s (.call (.terminate tid)) ((uthreadTerminate order tid).exec s ∅) := by
  cases ht : s.threads.get tid with
  | none =>
      rw [exec_uthreadTerminate_unknown order ∅ ht]
      exact .returns _ _ _ (.reject _ _ ht)
  | some t =>
      by_cases h0 : tid = 0
      · subst h0
        rw [exec_uthreadTerminate_main order ∅ h.main_live]
        exact .exits 0
      · cases hst : t.state with
        | ready =>
            rw [exec_uthreadTerminate_idle order ∅ h.freed h0 ht (Or.inl hst)]
            exact .returns _ _ _ (.retireIdle tid t h0 ht (Or.inl hst))
        | blocked =>
            rw [exec_uthreadTerminate_idle order ∅ h.freed h0 ht (Or.inr hst)]
            exact .returns _ _ _ (.retireIdle tid t h0 ht (Or.inr hst))
        | sleeping =>
            rw [exec_uthreadTerminate_sleeping order ∅ h.freed h0 ht hst
              (h.sleepMem tid t ht (Or.inl hst))]
            exact .returns _ _ _ (.retireSleeping tid t h0 ht hst)
        | running =>
            -- the only RUNNING thread is the caller
            have htid := h.onlyCurr tid t ht hst
            subst htid
            rw [exec_uthreadTerminate_self ∅ order h.freed h0 ht hst]
            exact .switches t _ _ _ ht hst (.terminate h0)

/-- How `uthread_block` ends. -/
theorem block_ending (h : WellFormed s) (tid : Int) :
    Ending order s (.call (.block tid)) ((uthreadBlock order tid).exec s ∅) := by
  by_cases hillegal : tid = 0 ∨ s.threads.get tid = none
  · rw [exec_uthreadBlock_illegal order ∅ hillegal]
    exact .returns _ _ _ (.reject _ _ hillegal)
  · obtain ⟨h0, hlive⟩ := not_or.mp hillegal
    obtain ⟨t, ht⟩ := Option.ne_none_iff_exists'.mp hlive
    cases hst : t.state with
    | blocked =>
        rw [exec_uthreadBlock_blocked ∅ order h.freed h0 ht hst]
        exact .returns _ _ _ (.idle _ ⟨h0, t, ht, hst⟩)
    | sleeping =>
        rw [exec_uthreadBlock_sleeping ∅ order h.freed h0 ht hst]
        exact .returns _ _ _ (.blockSleeping tid t h0 ht hst)
    | ready =>
        rw [exec_uthreadBlock_ready ∅ order h.freed h0 ht hst]
        exact .returns _ _ _ (.blockReady tid t h0 ht hst)
    | running =>
        -- the only RUNNING thread is the caller
        have htid := h.onlyCurr tid t ht hst
        subst htid
        rw [exec_uthreadBlock_self ∅ order h.freed h0 ht hst]
        exact .switches t _ _ _ ht hst (.block h0)

/-- How `uthread_resume` ends; it never switches. -/
theorem resume_ending (h : WellFormed s) (tid : Int) :
    Ending order s (.call (.resume tid)) ((uthreadResume tid).exec s ∅) := by
  by_cases hillegal : tid = 0 ∨ s.threads.get tid = none
  · rw [exec_uthreadResume_illegal ∅ hillegal]
    exact .returns _ _ _ (.reject _ _ hillegal)
  · obtain ⟨h0, hlive⟩ := not_or.mp hillegal
    obtain ⟨t, ht⟩ := Option.ne_none_iff_exists'.mp hlive
    by_cases hst : t.state = .blocked
    · by_cases hsl : t.sleepingTime = notSleeping
      · rw [exec_uthreadResume_blocked ∅ h.freed h0 ht hst hsl]
        exact .returns _ _ _ (.resumeBlocked tid t h0 ht hst hsl)
      · rw [exec_uthreadResume_counting ∅ h.freed h0 ht hst hsl]
        exact .returns _ _ _ (.resumeCounting tid t h0 ht hst hsl)
    · rw [exec_uthreadResume_other ∅ h.freed h0 ht hst]
      exact .returns _ _ _ (.idle _ ⟨h0, t, ht, hst⟩)

/-- How `uthread_sleep` ends: a refusal for the main thread, else a dispatch. -/
theorem sleep_ending (h : WellFormed s) (n : Int) :
    Ending order s (.call (.sleep n)) ((uthreadSleep order n).exec s ∅) := by
  obtain ⟨t, ht, hst⟩ := h.curr
  by_cases h0 : s.currThreadId = 0
  · rw [exec_uthreadSleep_main ∅ order n h0]
    exact .returns _ _ _ (.reject _ _ h0)
  · rw [exec_uthreadSleep ∅ order n h.freed h0 ht]
    exact .switches t _ _ _ ht hst (.sleep h0 n)

/-- **Every call of a well-formed state ends in one of the three ways.** -/
theorem call_ending (h : WellFormed s) (c : Call) :
    Ending order s (.call c) ((c.prog order).exec s ∅) := by
  cases c with
  | spawn mem entryPoint => exact spawn_ending h mem entryPoint
  | terminate tid => exact terminate_ending h tid
  | block tid => exact block_ending h tid
  | resume tid => exact resume_ending h tid
  | sleep n => exact sleep_ending h n
  | getTid => exact .returns _ _ _ (.idle _ trivial)
  | getTotalQuantums => exact .returns _ _ _ (.idle _ trivial)
  | getQuantums tid =>
      show Ending order s _ ((uthreadGetQuantums tid).exec s ∅)
      rw [exec_uthreadGetQuantums tid ∅ h.freed]
      exact .returns _ _ _ (.idle _ trivial)

/-- Returning what has been returned is nothing to do. -/
theorem andThen_ret_right {α : Type} (o : Outcome State SigSet Stop α) :
    o.andThen (fun a s m => .ret a s m) = o := by
  cases o <;> rfl

/-- The handler always suspends. -/
theorem tick_ending (h : WellFormed s) (mask : SigSet) :
    Ending order s (.tick mask) ((timerHandler order).exec s (insert sigvtalrm mask)) := by
  obtain ⟨t, ht, hst⟩ := h.curr
  rw [exec_timerHandler _ order h.freed ht hst, ← andThen_ret_right ((dispatchFront order).exec _ _)]
  exact .switches t _ _ _ ht hst (.tick mask)

/-! ## §4. A step is an effect. -/

/-- **The inversion lemma of a call**: where the process goes on, the ending is one of
the effects. -/
theorem Ending.effect {α : Type} {e : Event} {o : Outcome State SigSet Stop α}
    (he : Ending order s e o) (h : WellFormed s) (hs : settle o = some s') :
    Effect order s e s' := by
  cases he with
  | returns r s₁ m heff =>
      injection hs with hs
      exact hs ▸ heff
  | exits code => cases hs
  | switches t p m f hcurr hrun hp =>
      rcases (h.suspends hcurr hrun hp).exec_dispatch order m with
        ⟨next, rest, u, hq, hu, hready, hlive, hexec⟩ | ⟨_, hexec⟩
      · rw [hexec] at hs
        injection hs with hs
        exact hs ▸ .switch e t p next rest u hcurr hrun hp hq hu hready hlive
      · rw [hexec] at hs
        cases hs

/-- **Inversion**: a step from a well-formed state is one of the effects. -/
theorem step_effect (h : WellFormed s) {e : Event} (hs : step order s e = some s') :
    Effect order s e s' := by
  cases e with
  | call c => exact (call_ending h c).effect h hs
  | tick mask => exact (tick_ending h mask).effect h hs

end Calls

end UThreads
