/-
  UThreads.Properties.ThreadIds
  ─────────────────────────────
  **THE HEAP AND THE TABLE PARTITION THE IDENTIFIERS.**

  An id is in `min_heap_id` exactly when its table entry is null.  So
  `uthread_spawn` hands out the least free id, and fails exactly when the
  table is full.
-/
import UThreads.Properties.Scheduler

namespace UThreads

open Interruptible Runs

/-! ## §1. Live threads. -/

/-- `threads[i]` is not null. -/
def State.live (s : State) (i : Int) : Bool := (s.threads.get i).isSome

/-- The number of live threads, the main thread included. -/
def State.liveCount (s : State) : Nat :=
  (List.range maxThreadNum).countP (fun i => s.live (i : Nat))

theorem not_live {s : State} {i : Int} : s.live i = false ↔ s.threads.get i = none := by
  unfold State.live
  cases s.threads.get i <;> simp

theorem live_inRange {s : State} {i : Int} (h : s.live i = true) :
    Table.InRange maxThreadNum i := by
  obtain ⟨t, ht⟩ := Option.isSome_iff_exists.mp h
  exact Table.inRange_of_get ht

/-- The table is full when the count is 100. -/
theorem liveCount_full {s : State} :
    s.liveCount = maxThreadNum ↔ ∀ i, Table.InRange maxThreadNum i → s.live i = true := by
  -- counting all of a list means that every member is counted
  have hcount := List.countP_eq_length (p := fun i : Nat => s.live i) (l := List.range maxThreadNum)
  rw [List.length_range] at hcount
  refine hcount.trans ?_
  constructor
  · intro h i hi
    have hmem : i.toNat ∈ List.range maxThreadNum := List.mem_range.mpr hi.toNat_lt
    have := h i.toNat hmem
    rwa [Int.toNat_of_nonneg hi.1] at this
  · intro h k hk
    have hlt : k < maxThreadNum := List.mem_range.mp hk
    exact h k ⟨by omega, by omega⟩

/-- **The heap is empty exactly when the table is full.** -/
theorem WellFormed.heap_nil_iff {s : State} (h : WellFormed s) :
    s.minHeapId = [] ↔ s.liveCount = maxThreadNum := by
  rw [liveCount_full]
  constructor
  · intro hnil i hi
    by_contra hc
    have hnull : s.threads.get i = none := not_live.mp (by simpa using hc)
    have hmem : i ∈ s.minHeapId := (h.heapIff i).mpr ⟨hi, hnull⟩
    rw [hnil] at hmem
    cases hmem
  · intro hfull
    cases hheap : s.minHeapId with
    | nil => rfl
    | cons i ids =>
        obtain ⟨hr, hnull⟩ := h.heap_top_free hheap
        have hlive := hfull i hr
        rw [not_live.mpr hnull] at hlive
        cases hlive

/-- **The top of the heap is the least free id.** -/
theorem WellFormed.heap_top {s : State} (h : WellFormed s) {newId : Int} {ids : List Int}
    (hids : s.minHeapId = newId :: ids) :
    Table.InRange maxThreadNum newId ∧ s.live newId = false
      ∧ ∀ i, Table.InRange maxThreadNum i → s.live i = false → newId ≤ i := by
  have hsorted := h.heapSorted
  rw [hids] at hsorted
  obtain ⟨hr, hnull⟩ := h.heap_top_free hids
  refine ⟨hr, not_live.mpr hnull, ?_⟩
  intro i hi hfree
  have him : i ∈ s.minHeapId := (h.heapIff i).mpr ⟨hi, not_live.mp hfree⟩
  rw [hids] at him
  rcases List.mem_cons.mp him with heq | him
  · omega
  · exact (List.pairwise_cons.mp hsorted).1 i him

/-! ## §2. Spawning and terminating. -/

/-- **`uthread_spawn`** with an entry point and memory to be had: -1 exactly
when the table is full, and else the least free id. -/
theorem spawn_returns {s : State} (hw : WellFormed s) (mem : Malloc) (entryPoint : Nat)
    (mask : SigSet) (hmem : mem.Succeeds) :
    ∃ r s' mask', (uthreadSpawn mem (some entryPoint)).exec s mask = .ret r s' mask'
      ∧ (r = failureReturnValue ↔ s.liveCount = maxThreadNum)
      ∧ (r ≠ failureReturnValue → (Table.InRange maxThreadNum r ∧ s.live r = false
          ∧ ∀ i, Table.InRange maxThreadNum i → s.live i = false → r ≤ i)
          ∧ s'.live r = true ∧ r ∉ s'.minHeapId) := by
  cases hheap : s.minHeapId with
  | nil =>
      have hfull := hw.heap_nil_iff.mp hheap
      exact ⟨_, _, _, exec_uthreadSpawn_full mem entryPoint mask hheap,
        ⟨fun _ => hfull, fun _ => rfl⟩, fun hne => absurd rfl hne⟩
  | cons newId ids =>
      -- there is a free id, so the sentinel is not what is returned
      obtain ⟨hr, hfree, hleast⟩ := hw.heap_top hheap
      have hne : newId ≠ failureReturnValue := by
        have := hr.1
        unfold failureReturnValue
        omega
      have hnotfull : s.liveCount ≠ maxThreadNum := by
        intro hfull
        rw [hw.heap_nil_iff.mpr hfull] at hheap
        cases hheap
      obtain ⟨newStack, rfl⟩ := hmem.eq
      have hborn : (s.spawn newId ids newStack entryPoint).live newId = true := by
        have hget : (s.spawn newId ids newStack entryPoint).threads.get newId
            = some (setNewThread entryPoint newId newStack s.nextToken) :=
          Table.get_set_self s.threads hr _
        unfold State.live
        rw [hget]
        rfl
      have hout : newId ∉ ids := by
        have hnd := hw.heapNodup
        rw [hheap] at hnd
        exact (List.nodup_cons.mp hnd).1
      exact ⟨_, _, _, exec_uthreadSpawn newStack entryPoint mask hheap hr.1,
        ⟨fun he => absurd he hne, fun hf => absurd hf hnotfull⟩,
        fun _ => ⟨⟨hr, hfree, hleast⟩, hborn, hout⟩⟩

/-- **`uthread_terminate`** of a live thread gives its id back. -/
theorem terminate_returns {order : IterOrder} {s s' : State} (hw : WellFormed s) {tid : Int}
    (hlive : s.live tid = true) (hs : step order s (.call (.terminate tid)) = some s') :
    s'.live tid = false ∧ tid ∈ s'.minHeapId := by
  have hne : s.threads.get tid ≠ none := by
    intro hnone
    rw [not_live.mpr hnone] at hlive
    cases hlive
  have hdead : s'.threads.get tid = none := by
    have he := step_effect hw hs
    cases he with
    | reject c line hr => exact absurd hr hne
    | idle c hi => exact absurd hi id
    | retireIdle tid t h0 ht hst => exact (retire_get ht tid).trans (if_pos rfl)
    | retireSleeping tid t h0 ht hst => exact (retire_get ht tid).trans (if_pos rfl)
    | switch e t p next rest u hcurr hrun hp hq hu hready hlive =>
        cases hp with
        | terminate h0 =>
            exact (dispatched_get_none hu).mpr
              (Table.get_set_self s.threads (Table.inRange_of_get hcurr) none)
  exact ⟨not_live.mpr hdead, ((hw.step hs).heapIff tid).mpr ⟨live_inRange hlive, hdead⟩⟩

/-- **The partition, and what follows for `uthread_spawn`**: with an entry
point and memory to be had it returns the least free id, or -1 exactly when
100 threads are live.  The id that it returns is live from then on, and that of a
live thread which is terminated is free again. -/
theorem id_accounting {order : IterOrder} {s : State} (h : Reachable order s) :
    s.minHeapId.Nodup
      ∧ (∀ i, Table.InRange maxThreadNum i ↔ i ∈ s.minHeapId ∨ s.live i = true)
      ∧ (∀ i, ¬ (i ∈ s.minHeapId ∧ s.live i = true))
      ∧ (∀ i t, s.threads.get i = some t → (t.id : Int) = i)
      ∧ (∀ tid s', s.live tid = true → step order s (.call (.terminate tid)) = some s' →
          s'.live tid = false ∧ tid ∈ s'.minHeapId)
      ∧ ∀ (mem : Malloc) (entryPoint : Nat) (mask : SigSet), mem.Succeeds →
          ∃ r s' mask', (uthreadSpawn mem (some entryPoint)).exec s mask = .ret r s' mask'
            ∧ (r = failureReturnValue ↔ s.liveCount = maxThreadNum)
            ∧ (r ≠ failureReturnValue → (Table.InRange maxThreadNum r ∧ s.live r = false
                ∧ ∀ i, Table.InRange maxThreadNum i → s.live i = false → r ≤ i)
                ∧ s'.live r = true ∧ r ∉ s'.minHeapId) := by
  have hw := h.wellFormed
  refine ⟨hw.heapNodup, ?_, ?_, hw.ids, fun tid s' hl hs => terminate_returns hw hl hs,
    spawn_returns hw⟩
  · intro i
    rw [hw.heapIff i]
    constructor
    · intro hr
      cases hl : s.live i with
      | false => exact Or.inl ⟨hr, not_live.mp hl⟩
      | true => exact Or.inr rfl
    · intro hcase
      rcases hcase with hi | hi
      · exact hi.1
      · exact live_inRange hi
  · intro i hall
    obtain ⟨hi, hl⟩ := hall
    rw [not_live.mpr ((hw.heapIff i).mp hi).2] at hl
    cases hl

theorem id_accounting_mixedRun :
    ∃ s, run (step .listing) (initialState 1000) mixedRun = some s
      ∧ s.minHeapId.Nodup
      ∧ ∃ r s' mask', (uthreadSpawn ⟨some 12288, true⟩ (some 4)).exec s ∅ = .ret r s' mask'
          ∧ (r = failureReturnValue ↔ s.liveCount = maxThreadNum) := by
  obtain ⟨s, hs⟩ := Option.isSome_iff_exists.mp mixedRun_ends
  obtain ⟨hnd, -, -, -, -, hspawn⟩ := id_accounting (reachable_of_run (by decide) hs)
  obtain ⟨r, s', mask', hexec, hfail, -⟩ := hspawn ⟨some 12288, true⟩ 4 ∅ ⟨rfl, rfl⟩
  exact ⟨s, hs, hnd, r, s', mask', hexec, hfail⟩

end UThreads
