/-
  UThreads.Invariant.WellFormed
  ─────────────────────────────
  **THE REPRESENTATION INVARIANT OF THE SCHEDULER.**

  `Core` ties the table to the heap, the queue and the sleeping set; it holds
  also in the middle of a context switch.  `WellFormed` adds what holds when
  user code runs, `Paused` what holds when `set_ready_to_run` reads the front
  of the queue: nobody is RUNNING and the main thread is READY.
-/
import UThreads.Effects.Switch

namespace UThreads

/-! ## §1. The invariant. -/

/-- What ties the structures of the scheduler together at all times. -/
structure Core (s : State) : Prop where
  /-- `free_threads` has not run -/
  freed : s.freed = false
  /-- every record knows its own index -/
  ids : ∀ i t, s.threads.get i = some t → (t.id : Int) = i
  /-- the queue holds the READY threads, each once -/
  readyNodup : s.readyThreads.Nodup
  readyIff : ∀ i, i ∈ s.readyThreads ↔ ∃ t, s.threads.get i = some t ∧ t.state = .ready
  /-- whoever sleeps or counts down is in the sleeping set -/
  sleepNodup : s.sleepingThreads.Nodup
  sleepMem : ∀ i t, s.threads.get i = some t →
    t.state = .sleeping ∨ t.sleepingTime ≠ notSleeping → i ∈ s.sleepingThreads
  sleepMain : 0 ∉ s.sleepingThreads
  /-- the heap lists the free indices of the table in order -/
  heapSorted : s.minHeapId.Pairwise (· ≤ ·)
  heapNodup : s.minHeapId.Nodup
  heapIff : ∀ i, i ∈ s.minHeapId ↔ Table.InRange maxThreadNum i ∧ s.threads.get i = none

/-- The invariant when user code runs. -/
structure WellFormed (s : State) : Prop extends Core s where
  /-- the current thread is live and RUNNING -/
  curr : ∃ t, s.threads.get s.currThreadId = some t ∧ t.state = .running
  /-- no other thread is RUNNING -/
  onlyCurr : ∀ i t, s.threads.get i = some t → t.state = .running → i = s.currThreadId
  /-- the main thread is RUNNING or READY -/
  main : ∃ t, s.threads.get 0 = some t ∧ (t.state = .running ∨ t.state = .ready)

/-- The invariant when `set_ready_to_run` reads the front of the queue. -/
structure Paused (s : State) : Prop extends Core s where
  noneRunning : ∀ i t, s.threads.get i = some t → t.state ≠ .running
  main : ∃ t, s.threads.get 0 = some t ∧ t.state = .ready

/-! ## §2. The front of the queue. -/

/-- **There is always somebody to dispatch**: the front of the queue exists
and is a READY thread. -/
theorem Paused.front {s : State} (h : Paused s) :
    ∃ next rest u, s.readyThreads = next :: rest ∧ s.threads.get next = some u
      ∧ u.state = .ready := by
  obtain ⟨t, ht, hst⟩ := h.main
  -- the main thread is in the queue, so the queue has a front
  have hmem : (0 : Int) ∈ s.readyThreads := (h.readyIff 0).mpr ⟨t, ht, hst⟩
  cases hq : s.readyThreads with
  | nil =>
      rw [hq] at hmem
      simp at hmem
  | cons next rest =>
      have hnext : next ∈ s.readyThreads := by
        rw [hq]
        exact List.mem_cons_self
      obtain ⟨u, hu, hust⟩ := (h.readyIff next).mp hnext
      exact ⟨next, rest, u, rfl, hu, hust⟩

/-- The main thread is not the target of a call that blocks or retires. -/
theorem WellFormed.main_live {s : State} (h : WellFormed s) : s.threads.get 0 ≠ none := by
  obtain ⟨t, ht, _⟩ := h.main
  rw [ht]
  simp

/-- The top of the heap is a free index. -/
theorem Core.heap_top_free {s : State} (h : Core s) {i : Int} {ids : List Int}
    (hids : s.minHeapId = i :: ids) :
    Table.InRange maxThreadNum i ∧ s.threads.get i = none := by
  apply (h.heapIff i).mp
  rw [hids]
  exact List.mem_cons_self

/-- The id that is handed out next is not a live thread's. -/
theorem Core.ne_heap_top {s : State} (h : Core s) {i tid : Int} {ids : List Int} {t : Thread}
    (ht : s.threads.get tid = some t) (hids : s.minHeapId = i :: ids) : tid ≠ i := by
  intro he
  have hnull := (h.heap_top_free hids).2
  rw [← he, ht] at hnull
  cases hnull

/-- A free index is not the main thread's. -/
theorem WellFormed.ne_main_of_null {s : State} (h : WellFormed s) {i : Int}
    (hnull : s.threads.get i = none) : i ≠ 0 := by
  intro he
  rw [he] at hnull
  exact h.main_live hnull

/-- The id of a live thread is not in the heap. -/
theorem Core.notMem_heap {s : State} (h : Core s) {i : Int} {t : Thread}
    (ht : s.threads.get i = some t) : i ∉ s.minHeapId := by
  intro hi
  have := ((h.heapIff i).mp hi).2
  rw [ht] at this
  simp at this

/-- A thread that is not READY is not in the queue. -/
theorem Core.notMem_ready {s : State} (h : Core s) {i : Int} {t : Thread}
    (ht : s.threads.get i = some t) (hst : t.state ≠ .ready) : i ∉ s.readyThreads := by
  intro hi
  obtain ⟨u, hu, hust⟩ := (h.readyIff i).mp hi
  rw [ht] at hu
  injection hu with hu
  exact hst (hu ▸ hust)

/-- No dead thread is in the queue. -/
theorem Core.notMem_ready_of_null {s : State} (h : Core s) {i : Int}
    (ht : s.threads.get i = none) : i ∉ s.readyThreads := by
  intro hi
  obtain ⟨u, hu, _⟩ := (h.readyIff i).mp hi
  rw [ht] at hu
  simp at hu

/-- The running thread is not in the queue. -/
theorem WellFormed.curr_notMem_ready {s : State} (h : WellFormed s) :
    s.currThreadId ∉ s.readyThreads := by
  obtain ⟨t, ht, hst⟩ := h.curr
  exact h.notMem_ready ht (by simp [hst])

/-- A thread outside the sleeping set counts nothing down and does not sleep. -/
theorem Core.awake {s : State} (h : Core s) {i : Int} {t : Thread}
    (ht : s.threads.get i = some t) (hi : i ∉ s.sleepingThreads) :
    t.state ≠ .sleeping ∧ t.sleepingTime = notSleeping := by
  constructor
  · intro hst
    exact hi (h.sleepMem i t ht (Or.inl hst))
  · by_contra hne
    exact hi (h.sleepMem i t ht (Or.inr hne))

/-! ## §3. Changing one entry of the table. -/

section OneEntry

variable {s s' : State} {tid : Int} {t t' : Thread}

/-- **Replacing a record** keeps `Core` when the queue and the sleeping set
follow the new record and keep the others. -/
theorem Core.replace (h : Core s) (ht : s.threads.get tid = some t)
    (hget : ∀ i, s'.threads.get i = if i = tid then some t' else s.threads.get i)
    (hid : t'.id = t.id) (hfreed : s'.freed = s.freed) (hheap : s'.minHeapId = s.minHeapId)
    (hnodup : s'.readyThreads.Nodup)
    (hready : ∀ i, i ∈ s'.readyThreads ↔ if i = tid then t'.state = .ready else i ∈ s.readyThreads)
    (hsnodup : s'.sleepingThreads.Nodup) (hmain : 0 ∉ s'.sleepingThreads)
    (hsleep : ∀ i ∈ s.sleepingThreads, i ∈ s'.sleepingThreads)
    (hsleep' : t'.state = .sleeping ∨ t'.sleepingTime ≠ notSleeping → tid ∈ s'.sleepingThreads) :
    Core s' where
  freed := hfreed.trans h.freed
  ids := by
    intro i u hu
    rw [hget] at hu
    by_cases hi : i = tid
    · rw [if_pos hi] at hu
      injection hu with hu
      rw [hi, ← hu, hid]
      exact h.ids tid t ht
    · rw [if_neg hi] at hu
      exact h.ids i u hu
  readyNodup := hnodup
  readyIff := by
    intro i
    rw [hready, hget]
    by_cases hi : i = tid
    · simp [hi]
    · simp [hi, h.readyIff i]
  sleepNodup := hsnodup
  sleepMem := by
    intro i u hu hs
    rw [hget] at hu
    by_cases hi : i = tid
    · rw [if_pos hi] at hu
      injection hu with hu
      subst hu
      exact hi ▸ hsleep' hs
    · rw [if_neg hi] at hu
      exact hsleep i (h.sleepMem i u hu hs)
  sleepMain := hmain
  heapSorted := hheap ▸ h.heapSorted
  heapNodup := hheap ▸ h.heapNodup
  heapIff := by
    intro i
    rw [hheap, h.heapIff i, hget]
    by_cases hi : i = tid
    · simp [hi, ht]
    · simp [hi]

/-- **Removing a record** keeps `Core` when its id goes to the heap and leaves
the queue. -/
theorem Core.remove (h : Core s) (ht : s.threads.get tid = some t)
    (hget : ∀ i, s'.threads.get i = if i = tid then none else s.threads.get i)
    (hfreed : s'.freed = s.freed)
    (hheap : s'.minHeapId = s.minHeapId.orderedInsert (· ≤ ·) tid)
    (hnodup : s'.readyThreads.Nodup)
    (hready : ∀ i, i ∈ s'.readyThreads ↔ i ≠ tid ∧ i ∈ s.readyThreads)
    (hsnodup : s'.sleepingThreads.Nodup) (hmain : 0 ∉ s'.sleepingThreads)
    (hsleep : ∀ i ∈ s.sleepingThreads, i ≠ tid → i ∈ s'.sleepingThreads) :
    Core s' where
  freed := hfreed.trans h.freed
  ids := by
    intro i u hu
    rw [hget] at hu
    by_cases hi : i = tid
    · simp [hi] at hu
    · rw [if_neg hi] at hu
      exact h.ids i u hu
  readyNodup := hnodup
  readyIff := by
    intro i
    rw [hready, hget]
    by_cases hi : i = tid
    · simp [hi]
    · simp [hi, h.readyIff i]
  sleepNodup := hsnodup
  sleepMem := by
    intro i u hu hs
    rw [hget] at hu
    by_cases hi : i = tid
    · simp [hi] at hu
    · rw [if_neg hi] at hu
      exact hsleep i (h.sleepMem i u hu hs) hi
  sleepMain := hmain
  heapSorted := by
    rw [hheap]
    exact h.heapSorted.orderedInsert tid _
  heapNodup := by
    -- a live index is not in the heap yet
    rw [hheap, (List.perm_orderedInsert _ tid s.minHeapId).nodup_iff]
    exact List.nodup_cons.mpr ⟨h.notMem_heap ht, h.heapNodup⟩
  heapIff := by
    intro i
    rw [hheap, List.mem_orderedInsert, h.heapIff i, hget]
    by_cases hi : i = tid
    · simp [hi, Table.inRange_of_get ht]
    · simp [hi]

/-- **Adding a READY record** at the top of the heap keeps `Core`. -/
theorem Core.add (h : Core s) {ids : List Int} (hids : s.minHeapId = tid :: ids)
    (hget : ∀ i, s'.threads.get i = if i = tid then some t' else s.threads.get i)
    (hid : (t'.id : Int) = tid) (hst : t'.state = .ready) (hsl : t'.sleepingTime = notSleeping)
    (hfreed : s'.freed = s.freed) (hheap : s'.minHeapId = ids)
    (hready : s'.readyThreads = s.readyThreads ++ [tid])
    (hsleep : s'.sleepingThreads = s.sleepingThreads) :
    Core s' := by
  have hnull := (h.heap_top_free hids).2
  have hsorted := h.heapSorted
  have hnd := h.heapNodup
  rw [hids] at hsorted hnd
  exact
    { freed := hfreed.trans h.freed
      ids := by
        intro i u hu
        rw [hget] at hu
        by_cases hi : i = tid
        · rw [if_pos hi] at hu
          injection hu with hu
          rw [hi, ← hu, hid]
        · rw [if_neg hi] at hu
          exact h.ids i u hu
      readyNodup := by
        -- a free index is not in the queue
        rw [hready, List.nodup_append_comm]
        exact List.nodup_cons.mpr ⟨h.notMem_ready_of_null hnull, h.readyNodup⟩
      readyIff := by
        intro i
        rw [hready, hget, List.mem_append, List.mem_singleton]
        by_cases hi : i = tid
        · simp [hi, hst]
        · simp [hi, h.readyIff i]
      sleepNodup := hsleep ▸ h.sleepNodup
      sleepMem := by
        intro i u hu hs
        rw [hget] at hu
        by_cases hi : i = tid
        · rw [if_pos hi] at hu
          injection hu with hu
          subst hu
          simp [hst, hsl] at hs
        · rw [if_neg hi] at hu
          rw [hsleep]
          exact h.sleepMem i u hu hs
      sleepMain := hsleep ▸ h.sleepMain
      heapSorted := hheap ▸ (List.pairwise_cons.mp hsorted).2
      heapNodup := hheap ▸ (List.nodup_cons.mp hnd).2
      heapIff := by
        intro i
        have hi' := h.heapIff i
        rw [hids, List.mem_cons] at hi'
        rw [hheap, hget]
        by_cases hi : i = tid
        · subst hi
          simp [(List.nodup_cons.mp hnd).1]
        · simpa [hi] using hi' }

end OneEntry

end UThreads
