/-
  UThreads.Invariant.Preservation
  ───────────────────────────────
  **EVERY REACHABLE STATE IS WELL FORMED.**

  `uthread_init` establishes `WellFormed`; a dispatch turns `Paused` into
  `WellFormed`; every other effect changes one thread that is not running.
-/
import UThreads.Effects.Step

namespace UThreads

open Interruptible

variable {s s' : State}

/-! ## §1. Effects on a thread that does not run. -/

/-- A change of one entry other than the main and the running thread's, after
which that entry is not RUNNING, keeps `WellFormed` if it keeps `Core`. -/
theorem WellFormed.of_core (h : WellFormed s) (hcore : Core s') {tid : Int}
    {v : Option Thread} (hcurr : s'.currThreadId = s.currThreadId)
    (hget : ∀ i, s'.threads.get i = if i = tid then v else s.threads.get i) (h0 : tid ≠ 0)
    (hne : tid ≠ s.currThreadId) (hstop : ∀ u, v = some u → u.state ≠ .running) :
    WellFormed s' := by
  refine ⟨hcore, ?_, ?_, ?_⟩
  · rw [hcurr, hget, if_neg (Ne.symm hne)]
    exact h.curr
  · intro i u hu hrun
    rw [hcurr]
    rw [hget] at hu
    by_cases hi : i = tid
    · rw [if_pos hi] at hu
      exact absurd hrun (hstop u hu)
    · rw [if_neg hi] at hu
      exact h.onlyCurr i u hu hrun
  · rw [hget, if_neg (Ne.symm h0)]
    exact h.main

/-- A free index is not the current thread's. -/
theorem WellFormed.ne_curr_of_null (h : WellFormed s) {tid : Int}
    (hnone : s.threads.get tid = none) : tid ≠ s.currThreadId := by
  intro he
  obtain ⟨t, ht, _⟩ := h.curr
  rw [← he, hnone] at ht
  cases ht

/-- A thread that is not RUNNING is not the current one. -/
theorem WellFormed.ne_curr (h : WellFormed s) {tid : Int} {t : Thread}
    (ht : s.threads.get tid = some t) (hst : t.state ≠ .running) : tid ≠ s.currThreadId := by
  intro he
  obtain ⟨u, hu, hrun⟩ := h.curr
  rw [← he, ht] at hu
  injection hu with hu
  exact hst (hu ▸ hrun)

/-- A message on `std::cerr` is no part of the invariant. -/
theorem WellFormed.print (h : WellFormed s) (line : String) : WellFormed (s.print line) :=
  { h with
    freed := h.freed, ids := h.ids, readyNodup := h.readyNodup, readyIff := h.readyIff
    sleepNodup := h.sleepNodup, sleepMem := h.sleepMem, sleepMain := h.sleepMain
    heapSorted := h.heapSorted, heapNodup := h.heapNodup, heapIff := h.heapIff
    curr := h.curr, onlyCurr := h.onlyCurr, main := h.main }

/-- The new thread is READY and queued, and its id has left the heap. -/
theorem WellFormed.spawn (h : WellFormed s) {newId : Int} {ids : List Int}
    (hids : s.minHeapId = newId :: ids) (newStack entryPoint : Nat) :
    WellFormed (s.spawn newId ids newStack entryPoint) := by
  obtain ⟨hr, hnull⟩ := h.heap_top_free hids
  have hget : ∀ i, (s.spawn newId ids newStack entryPoint).threads.get i
      = if i = newId then some (setNewThread entryPoint newId newStack s.nextToken)
        else s.threads.get i := Table.get_set s.threads hr _
  have hid : ((setNewThread entryPoint newId newStack s.nextToken).id : Int) = newId :=
    Int.toNat_of_nonneg hr.1
  have hcore : Core (s.spawn newId ids newStack entryPoint) :=
    h.toCore.add hids hget hid rfl rfl rfl rfl rfl rfl
  refine h.of_core hcore rfl hget (h.ne_main_of_null hnull) (h.ne_curr_of_null hnull) ?_
  intro u hu
  cases hu
  simp [setNewThread]

section OneThread

variable {tid : Int} {t : Thread}

/-- A retired thread is gone; the others are as they were. -/
theorem retire_get (ht : s.threads.get tid = some t) (i : Int) :
    (s.retire tid t).threads.get i = if i = tid then none else s.threads.get i :=
  Table.get_set s.threads (Table.inRange_of_get ht) none i

/-- One record is written over; the others are as they were. -/
theorem setThread_get (ht : s.threads.get tid = some t) (u : Thread) (i : Int) :
    (s.setThread tid (some u)).threads.get i = if i = tid then some u else s.threads.get i :=
  Table.get_set s.threads (Table.inRange_of_get ht) _ i

/-- A READY or BLOCKED thread is terminated: id to the heap, queue filtered. -/
theorem WellFormed.retireIdle (h : WellFormed s) (h0 : tid ≠ 0) (ht : s.threads.get tid = some t)
    (hst : t.state ≠ .running) :
    WellFormed ((s.retire tid t).setReady
      (s.readyThreads.filter (fun i => decide (i ≠ tid)))) := by
  have hget : ∀ i, ((s.retire tid t).setReady
      (s.readyThreads.filter (fun i => decide (i ≠ tid)))).threads.get i
      = if i = tid then none else s.threads.get i := retire_get ht
  have hcore : Core ((s.retire tid t).setReady
      (s.readyThreads.filter (fun i => decide (i ≠ tid)))) := by
    refine h.toCore.remove ht hget rfl rfl (h.readyNodup.filter _) ?_ h.sleepNodup
      h.sleepMain (fun _ hi _ => hi)
    intro i
    show i ∈ s.readyThreads.filter _ ↔ _
    simp [List.mem_filter, and_comm]
  exact h.of_core hcore rfl hget h0 (h.ne_curr ht hst) (fun _ hu => nomatch hu)

/-- A SLEEPING one leaves the set as well. -/
theorem WellFormed.retireSleeping (h : WellFormed s) (h0 : tid ≠ 0)
    (ht : s.threads.get tid = some t) (hst : t.state = .sleeping) :
    WellFormed ((s.setSleeping (s.sleepingThreads.erase tid)).retire tid t) := by
  have hget : ∀ i, ((s.setSleeping (s.sleepingThreads.erase tid)).retire tid t).threads.get i
      = if i = tid then none else s.threads.get i := retire_get ht
  have hout : tid ∉ s.readyThreads := h.notMem_ready ht (by simp [hst])
  have hcore : Core ((s.setSleeping (s.sleepingThreads.erase tid)).retire tid t) := by
    refine h.toCore.remove ht hget rfl rfl h.readyNodup ?_ (h.sleepNodup.erase tid) ?_ ?_
    · intro i
      exact ⟨fun hi => ⟨ne_of_mem_of_not_mem hi hout, hi⟩, fun hi => hi.2⟩
    · exact fun hm => h.sleepMain (List.mem_of_mem_erase hm)
    · exact fun i hi hne => (List.mem_erase_of_ne hne).mpr hi
  exact h.of_core hcore rfl hget h0 (h.ne_curr ht (by simp [hst])) (fun _ hu => nomatch hu)

/-- A new state for a thread outside the queue that stays outside. -/
theorem WellFormed.setThread (h : WellFormed s) (h0 : tid ≠ 0) (ht : s.threads.get tid = some t)
    {t' : Thread} (hid : t'.id = t.id) (hsl : t'.sleepingTime = t.sleepingTime)
    (hst : t.state ≠ .running) (hready : t.state ≠ .ready) (hst' : t'.state ≠ .running)
    (hready' : t'.state ≠ .ready) (hmem : t'.state = .sleeping → tid ∈ s.sleepingThreads) :
    WellFormed (s.setThread tid (some t')) := by
  have hout : tid ∉ s.readyThreads := h.notMem_ready ht hready
  have hcore : Core (s.setThread tid (some t')) := by
    refine h.toCore.replace ht (setThread_get ht t') hid rfl rfl h.readyNodup ?_ h.sleepNodup
      h.sleepMain (fun _ hi => hi) ?_
    · intro i
      show i ∈ s.readyThreads ↔ _
      by_cases hi : i = tid
      · simp [hi, hout, hready']
      · simp [hi]
    · intro hcase
      rcases hcase with hs | hs
      · exact hmem hs
      · exact h.sleepMem tid t ht (Or.inr (hsl ▸ hs))
  refine h.of_core hcore rfl (setThread_get ht t') h0 (h.ne_curr ht hst) ?_
  intro u hu
  cases hu
  exact hst'

/-- A READY thread is blocked: out of the queue. -/
theorem WellFormed.blockReady (h : WellFormed s) (h0 : tid ≠ 0) (ht : s.threads.get tid = some t)
    (hst : t.state = .ready) :
    WellFormed ((s.setReady (s.readyThreads.filter (fun i => decide (i ≠ tid)))).setThread tid
      (some { t with state := .blocked })) := by
  have hget : ∀ i, ((s.setReady (s.readyThreads.filter (fun i => decide (i ≠ tid)))).setThread tid
      (some { t with state := .blocked })).threads.get i
      = if i = tid then some { t with state := .blocked } else s.threads.get i :=
    setThread_get ht _
  have hcore : Core ((s.setReady (s.readyThreads.filter (fun i => decide (i ≠ tid)))).setThread tid
      (some { t with state := .blocked })) := by
    refine h.toCore.replace ht hget rfl rfl rfl (h.readyNodup.filter _) ?_ h.sleepNodup h.sleepMain
      (fun _ hi => hi) ?_
    · intro i
      show i ∈ s.readyThreads.filter _ ↔ _
      by_cases hi : i = tid <;> simp [List.mem_filter, hi]
    · intro hcase
      rcases hcase with hs | hs
      · simp at hs
      · exact h.sleepMem tid t ht (Or.inr hs)
  refine h.of_core hcore rfl hget h0 (h.ne_curr ht (by simp [hst])) ?_
  intro u hu
  cases hu
  simp

/-- A BLOCKED thread that does not sleep is queued again. -/
theorem WellFormed.resumeBlocked (h : WellFormed s) (h0 : tid ≠ 0)
    (ht : s.threads.get tid = some t) (hst : t.state = .blocked) :
    WellFormed ((s.setThread tid (some { t with state := .ready })).setReady
      (s.readyThreads ++ [tid])) := by
  have hget : ∀ i, ((s.setThread tid (some { t with state := .ready })).setReady
      (s.readyThreads ++ [tid])).threads.get i
      = if i = tid then some { t with state := .ready } else s.threads.get i :=
    setThread_get ht _
  have hout : tid ∉ s.readyThreads := h.notMem_ready ht (by simp [hst])
  have hcore : Core ((s.setThread tid (some { t with state := .ready })).setReady
      (s.readyThreads ++ [tid])) := by
    refine h.toCore.replace ht hget rfl rfl rfl ?_ ?_ h.sleepNodup h.sleepMain
      (fun _ hi => hi) ?_
    · show (s.readyThreads ++ [tid]).Nodup
      rw [List.nodup_append_comm]
      exact List.nodup_cons.mpr ⟨hout, h.readyNodup⟩
    · intro i
      show i ∈ s.readyThreads ++ [tid] ↔ _
      by_cases hi : i = tid <;> simp [hi]
    · intro hcase
      rcases hcase with hs | hs
      · simp at hs
      · exact h.sleepMem tid t ht (Or.inr hs)
  refine h.of_core hcore rfl hget h0 (h.ne_curr ht (by simp [hst])) ?_
  intro u hu
  cases hu
  simp

end OneThread

/-! ## §2. The dispatch. -/

section Dispatch

variable {order : IterOrder} {next : Int} {rest : List Int} {u : Thread}

/-- A member of the set that the pass wakes was SLEEPING, so it is neither in
the queue nor the thread that runs. -/
theorem Paused.waking_notMem (h : Paused s) {i : Int} (hi : s.waking i = true) :
    i ∉ s.readyThreads := by
  obtain ⟨t, ht, _, hst⟩ := waking_iff.mp hi
  exact h.notMem_ready ht (by simp [hst])

/-- The queue after the dispatch holds the READY threads, each once. -/
theorem Paused.dispatched_readyNodup (h : Paused s) (hq : s.readyThreads = next :: rest)
    (hu : s.threads.get next = some u) (hready : u.state = .ready) :
    (s.dispatched order next rest u).readyThreads.Nodup := by
  have hnd := h.readyNodup
  rw [hq] at hnd
  have hperm := order.perm (s.totalQuantom + 1) s.sleepingThreads
  -- what is left of the queue, then the woken members: both without repetition
  rw [dispatched_ready hu (by simp [hready])]
  refine List.Nodup.append (List.nodup_cons.mp hnd).2
    ((hperm.nodup_iff.mpr h.sleepNodup).filter _) ?_
  intro i hi hw
  refine h.waking_notMem (List.of_mem_filter hw) ?_
  rw [hq]
  exact List.mem_cons_of_mem _ hi

/-- **The queue is right after a dispatch**: the front has left it, and those who woke
up have entered it. -/
theorem Paused.dispatched_readyIff (h : Paused s) (hq : s.readyThreads = next :: rest)
    (hu : s.threads.get next = some u) (hready : u.state = .ready) (i : Int) :
    i ∈ (s.dispatched order next rest u).readyThreads
      ↔ ∃ t, (s.dispatched order next rest u).threads.get i = some t ∧ t.state = .ready := by
  have hperm := order.perm (s.totalQuantom + 1) s.sleepingThreads
  have hnd := h.readyNodup
  rw [hq] at hnd
  rw [dispatched_ready hu (by simp [hready]), List.mem_append, List.mem_filter, hperm.mem_iff]
  by_cases hi : i = next
  · -- the dispatched thread runs, whatever the wake-up does to its countdown
    subst hi
    have hrun : (if i ∈ s.sleepingThreads then wakeRecord u.started else u.started).state
        = .running := by
      split
      · exact (wakeRecord_running _).mpr rfl
      · rfl
    have hw : s.waking i ≠ true := by
      intro hw
      refine h.waking_notMem hw ?_
      rw [hq]
      exact List.mem_cons_self
    rw [dispatched_get_next hu]
    constructor
    · intro hcase
      rcases hcase with hm | ⟨_, hm⟩
      · exact absurd hm (List.nodup_cons.mp hnd).1
      · exact absurd hm hw
    · intro hall
      obtain ⟨t, ht, hst⟩ := hall
      injection ht with ht
      rw [← ht, hrun] at hst
      cases hst
  · -- READY afterwards: READY before, or woken now
    have hrest : i ∈ rest ↔ ∃ t, s.threads.get i = some t ∧ t.state = .ready := by
      rw [← h.readyIff i, hq, List.mem_cons]
      simp [hi]
    rw [dispatched_get_ne hu hi, hrest, waking_iff]
    by_cases hm : i ∈ s.sleepingThreads
    · rw [if_pos hm]
      constructor
      · intro hcase
        rcases hcase with ⟨t, ht, hst⟩ | ⟨_, t, ht, hz, hst⟩
        · exact ⟨wakeRecord t, by rw [ht]; rfl, (wakeRecord_ready t).mpr (Or.inl hst)⟩
        · exact ⟨wakeRecord t, by rw [ht]; rfl, (wakeRecord_ready t).mpr (Or.inr ⟨hz, hst⟩)⟩
      · intro hall
        obtain ⟨t', ht', hst'⟩ := hall
        obtain ⟨t, ht, rfl⟩ := Option.map_eq_some_iff.mp ht'
        rcases (wakeRecord_ready t).mp hst' with hst | ⟨hz, hst⟩
        · exact Or.inl ⟨t, ht, hst⟩
        · exact Or.inr ⟨hm, t, ht, hz, hst⟩
    · rw [if_neg hm]
      simp [hm]

/-- Who sleeps or counts down after the dispatch was in the set, and has not
expired. -/
theorem Paused.dispatched_sleepMem (h : Paused s) (hu : s.threads.get next = some u) {i : Int}
    {t' : Thread} (ht' : (s.dispatched order next rest u).threads.get i = some t')
    (hs : t'.state = .sleeping ∨ t'.sleepingTime ≠ notSleeping) :
    i ∈ (s.dispatched order next rest u).sleepingThreads := by
  obtain ⟨t, ht, hcase⟩ := dispatched_get_cases hu ht'
  -- the record before the dispatch, with the same countdown
  obtain ⟨v, hv, hvt, hvs⟩ : ∃ v, s.threads.get i = some v ∧ v.sleepingTime = t.sleepingTime
      ∧ (t.state = .sleeping → v.state = .sleeping) := by
    by_cases hi : i = next
    · rw [if_pos hi] at ht
      injection ht with ht
      refine ⟨u, hi ▸ hu, by rw [← ht]; rfl, ?_⟩
      intro hst
      rw [← ht] at hst
      cases hst
    · rw [if_neg hi] at ht
      exact ⟨t, ht, rfl, id⟩
  apply (mem_dispatched_sleeping hu hv).mpr
  rcases hcase with ⟨hm, rfl⟩ | ⟨hm, rfl⟩
  · refine ⟨hm, ?_⟩
    rw [hvt]
    intro hz
    -- an expired sleeper neither sleeps nor counts down
    rcases hs with hs | hs
    · exact ((wakeRecord_sleeping t).mp hs).1 hz
    · rw [wakeRecord_sleepingTime, if_pos hz] at hs
      exact hs rfl
  · refine absurd (h.sleepMem i v hv ?_) hm
    rcases hs with hs | hs
    · exact Or.inl (hvs hs)
    · exact Or.inr (hvt ▸ hs)

/-- **A dispatch ends in a well-formed state.** -/
theorem Paused.dispatched (h : Paused s) (hq : s.readyThreads = next :: rest)
    (hu : s.threads.get next = some u) (hready : u.state = .ready) :
    WellFormed (s.dispatched order next rest u) where
  freed := h.freed
  ids := by
    intro i t' ht'
    obtain ⟨t, ht, hcase⟩ := dispatched_get_cases hu ht'
    have hid : (t.id : Int) = i := by
      by_cases hi : i = next
      · rw [if_pos hi] at ht
        injection ht with ht
        rw [hi, ← ht]
        exact h.ids next u hu
      · rw [if_neg hi] at ht
        exact h.ids i t ht
    rcases hcase with ⟨_, rfl⟩ | ⟨_, rfl⟩
    · rw [wakeRecord_id]
      exact hid
    · exact hid
  readyNodup := h.dispatched_readyNodup hq hu hready
  readyIff := h.dispatched_readyIff hq hu hready
  sleepNodup := by
    rw [dispatched_sleeping hu]
    exact h.sleepNodup.filter _
  sleepMem := fun _ _ ht' hs => h.dispatched_sleepMem hu ht' hs
  sleepMain := by
    rw [dispatched_sleeping hu]
    exact fun hm => h.sleepMain (List.mem_of_mem_filter hm)
  heapSorted := h.heapSorted
  heapNodup := h.heapNodup
  heapIff := by
    intro i
    rw [dispatched_heap, h.heapIff i, dispatched_get_none hu]
  curr := by
    rw [dispatched_curr, dispatched_get_next hu]
    refine ⟨_, rfl, ?_⟩
    split
    · exact (wakeRecord_running _).mpr rfl
    · rfl
  onlyCurr := by
    intro i t' ht' hrun
    rw [dispatched_curr]
    by_contra hi
    obtain ⟨t, ht, hcase⟩ := dispatched_get_cases hu ht'
    rw [if_neg hi] at ht
    rcases hcase with ⟨_, rfl⟩ | ⟨_, rfl⟩
    · exact h.noneRunning i t ht ((wakeRecord_running t).mp hrun)
    · exact h.noneRunning i _ ht hrun
  main := by
    obtain ⟨t, ht, hst⟩ := h.main
    rw [dispatched_get hu, if_neg h.sleepMain]
    by_cases hi : (0 : Int) = next
    · rw [if_pos hi]
      exact ⟨u.started, rfl, Or.inl rfl⟩
    · rw [if_neg hi]
      exact ⟨t, ht, Or.inr hst⟩

end Dispatch

/-! ## §3. Which effects switch. -/

section Switches

variable {order : IterOrder} {tid : Int} {t : Thread} {c : Call} {e : Event}

/-- A refused call does not switch. -/
theorem Rejected.not_switches (hr : Rejected s c) (h : WellFormed s) :
    ¬ (Event.call c).Switches s := by
  cases c with
  | terminate tid => exact fun hs => h.ne_curr_of_null hr hs.1
  | block tid => exact fun hs => hr.elim hs.2 (fun hnone => h.ne_curr_of_null hnone hs.1)
  | sleep n => exact fun hs => hs hr
  | _ => exact id

/-- A call that finds nothing to do does not switch. -/
theorem Idle.not_switches (hi : Idle s c) (h : WellFormed s) : ¬ (Event.call c).Switches s := by
  cases c with
  | block tid =>
      obtain ⟨_, t, ht, hst⟩ := hi
      exact fun hs => h.ne_curr ht (by simp [hst]) hs.1
  | terminate tid => exact absurd hi id
  | sleep n => exact absurd hi id
  | _ => exact id

/-- Blocking a thread that does not run does not switch. -/
theorem block_not_switches (h : WellFormed s) (ht : s.threads.get tid = some t)
    (hst : t.state ≠ .running) : ¬ (Event.call (.block tid)).Switches s :=
  fun hs => h.ne_curr ht hst hs.1

/-- Terminating a thread that does not run does not switch. -/
theorem terminate_not_switches (h : WellFormed s) (ht : s.threads.get tid = some t)
    (hst : t.state ≠ .running) : ¬ (Event.call (.terminate tid)).Switches s :=
  fun hs => h.ne_curr ht hst hs.1

/-- **A step either leaves the CPU and the quantum count alone**, or is a context
switch. -/
theorem Effect.switches_or (he : Effect order s e s') (h : WellFormed s) :
    (¬ e.Switches s ∧ s'.currThreadId = s.currThreadId ∧ s'.totalQuantom = s.totalQuantom)
      ∨ (e.Switches s ∧ ∃ t p next rest u, s.threads.get s.currThreadId = some t
          ∧ t.state = .running ∧ Suspends s t e p ∧ p.readyThreads = next :: rest
          ∧ p.threads.get next = some u ∧ u.state = .ready
          ∧ s' = p.dispatched order next rest u) := by
  cases he with
  | reject c line hr => exact Or.inl ⟨hr.not_switches h, rfl, rfl⟩
  | idle c hi => exact Or.inl ⟨hi.not_switches h, rfl, rfl⟩
  | spawn newStack entryPoint newId ids hids => exact Or.inl ⟨id, rfl, rfl⟩
  | retireIdle tid t h0 ht hst =>
      have hne : t.state ≠ .running := by
        rcases hst with hst | hst <;> simp [hst]
      exact Or.inl ⟨terminate_not_switches h ht hne, rfl, rfl⟩
  | retireSleeping tid t h0 ht hst =>
      exact Or.inl ⟨terminate_not_switches h ht (by simp [hst]), rfl, rfl⟩
  | blockSleeping tid t h0 ht hst =>
      exact Or.inl ⟨block_not_switches h ht (by simp [hst]), rfl, rfl⟩
  | blockReady tid t h0 ht hst =>
      exact Or.inl ⟨block_not_switches h ht (by simp [hst]), rfl, rfl⟩
  | resumeBlocked tid t h0 ht hst hsl => exact Or.inl ⟨id, rfl, rfl⟩
  | resumeCounting tid t h0 ht hst hsl => exact Or.inl ⟨id, rfl, rfl⟩
  | switch e t p next rest u hcurr hrun hp hq hu hready hlive =>
      exact Or.inr ⟨hp.switches, t, p, next, rest, u, hcurr, hrun, hp, hq, hu, hready, rfl⟩

end Switches

/-! ## §4. Every step and every run. -/

/-- **The step lemma**: every effect keeps the invariant. -/
theorem WellFormed.effect {order : IterOrder} {e : Event} (h : WellFormed s)
    (he : Effect order s e s') : WellFormed s' := by
  cases he with
  | reject c line hr => exact h.print line
  | idle c hi => exact h
  | spawn newStack entryPoint newId ids hids => exact h.spawn hids newStack entryPoint
  | retireIdle tid t h0 ht hst =>
      refine h.retireIdle h0 ht ?_
      rcases hst with hst | hst <;> simp [hst]
  | retireSleeping tid t h0 ht hst => exact h.retireSleeping h0 ht hst
  | blockSleeping tid t h0 ht hst =>
      exact h.setThread h0 ht rfl rfl (by simp [hst]) (by simp [hst]) (by simp) (by simp)
        (by simp)
  | blockReady tid t h0 ht hst => exact h.blockReady h0 ht hst
  | resumeBlocked tid t h0 ht hst hsl => exact h.resumeBlocked h0 ht hst
  | resumeCounting tid t h0 ht hst hsl =>
      exact h.setThread h0 ht rfl rfl (by simp [hst]) (by simp [hst]) (by simp) (by simp)
        (fun _ => h.sleepMem tid t ht (Or.inr hsl))
  | switch e t p next rest u hcurr hrun hp hq hu hready hlive =>
      exact (h.suspends hcurr hrun hp).dispatched hq hu hready

/-- **The step lemma.** -/
theorem WellFormed.step {order : IterOrder} {e : Event} (h : WellFormed s)
    (hs : step order s e = some s') : WellFormed s' :=
  h.effect (step_effect h hs)

/-- **Every run keeps the invariant.** -/
theorem WellFormed.run {order : IterOrder} {es : List Event} (h : WellFormed s)
    (hrun : Runs.run (UThreads.step order) s es = some s') : WellFormed s' :=
  Runs.run_invariant WellFormed (fun _ _ _ hw hs => hw.step hs) es s s' h hrun

/-- At the start there is the main thread and nobody else. -/
theorem initialState_get (q i : Int) :
    (initialState q).threads.get i = if i = 0 then some mainThread else none := by
  show ((Table.empty maxThreadNum Thread).set 0 (some mainThread)).get i = _
  rw [Table.get_set _ (by decide), Table.get_empty]

/-- **`uthread_init` establishes the invariant.** -/
theorem initial_wellFormed (h : Initial s) : WellFormed s := by
  obtain ⟨q, _, rfl⟩ := initial_iff.mp h
  have hget := initialState_get q
  have hmain : ∀ i t, (initialState q).threads.get i = some t → i = 0 ∧ t = mainThread := by
    intro i t ht
    rw [hget] at ht
    by_cases hi : i = 0
    · rw [if_pos hi] at ht
      exact ⟨hi, (Option.some.inj ht).symm⟩
    · rw [if_neg hi] at ht
      cases ht
  exact
    { freed := rfl
      ids := by
        intro i t ht
        obtain ⟨rfl, rfl⟩ := hmain i t ht
        rfl
      readyNodup := List.nodup_nil
      readyIff := by
        intro i
        constructor
        · intro hi
          cases hi
        · -- the main thread runs
          intro hall
          obtain ⟨t, ht, hst⟩ := hall
          obtain ⟨_, rfl⟩ := hmain i t ht
          cases hst
      sleepNodup := List.nodup_nil
      sleepMem := by
        intro i t ht hs
        obtain ⟨_, rfl⟩ := hmain i t ht
        rcases hs with hs | hs
        · cases hs
        · exact absurd rfl hs
      sleepMain := List.not_mem_nil
      heapSorted := by
        show ((List.range' 1 99).map (fun k : Nat => (k : Int))).Pairwise (· ≤ ·)
        decide +kernel
      heapNodup := by
        show ((List.range' 1 99).map (fun k : Nat => (k : Int))).Nodup
        decide +kernel
      heapIff := by
        -- 1 to 99: every index but the main thread's
        intro i
        rw [hget]
        show i ∈ (List.range' 1 99).map (fun k : Nat => (k : Int)) ↔ _
        simp only [List.mem_map, List.mem_range'_1, Table.InRange, maxThreadNum]
        constructor
        · intro hall
          obtain ⟨k, hk, rfl⟩ := hall
          refine ⟨by omega, ?_⟩
          rw [if_neg (by omega)]
        · intro hall
          obtain ⟨hr, hi⟩ := hall
          have h0 : i ≠ 0 := by
            intro he
            simp [he] at hi
          exact ⟨i.toNat, by omega, by omega⟩
      curr := ⟨mainThread, (hget 0).trans (if_pos rfl), rfl⟩
      onlyCurr := fun i t ht _ => (hmain i t ht).1
      main := ⟨mainThread, (hget 0).trans (if_pos rfl), Or.inl rfl⟩ }

/-- **Every reachable state is well formed.** -/
theorem Reachable.wellFormed {order : IterOrder} (h : Reachable order s) : WellFormed s :=
  h.invariant WellFormed (fun _ => initial_wellFormed) (fun _ _ _ hw hs => hw.step hs)

/-- **An invariant that every effect keeps** holds in every reachable state. -/
theorem Reachable.effect_invariant {order : IterOrder} {s : State} (h : Reachable order s)
    (I : State → Prop) (hinit : ∀ v, Initial v → I v)
    (heffect : ∀ v e w, WellFormed v → I v → Effect order v e w → I w) : I s := by
  have hboth : WellFormed s ∧ I s :=
    h.invariant (fun v => WellFormed v ∧ I v)
      (fun v hv => ⟨initial_wellFormed hv, hinit v hv⟩)
      (fun v e w hI hs => ⟨hI.1.step hs, heffect v e w hI.1 hI.2 (step_effect hI.1 hs)⟩)
  exact hboth.2

end UThreads
