/-
  UThreads.Properties.WakeUp
  ──────────────────────────
  **THE WAKE-UP PASS: ANY ORDER OF ITERATION, AND NO BAD ERASE.**

  `wake_sleeping_threads` iterates over an unordered set.  Whatever order it
  meets the members in, it leaves the same records and the same set; only the
  woken threads may stand in another order at the tail of the queue.  And every
  `sleeping_threads.erase(sleeping_threads.find(tid))` finds its element.
-/
import UThreads.Effects.Faults
import UThreads.Properties.Scheduler

namespace UThreads

open Interruptible Runs

/-! ## §1. What the pass does to the members. -/

/-- The state that the pass starts from: the members of the set are live, every
record has its index as id, and no countdown of a member is at `INT_MIN`. -/
structure Wakeable (s : State) : Prop where
  freed : s.freed = false
  nodup : s.sleepingThreads.Nodup
  live : ∀ i ∈ s.sleepingThreads, s.threads.get i ≠ none
  ids : ∀ i t, s.threads.get i = some t → (t.id : Int) = i
  counts : ∀ i ∈ s.sleepingThreads, ∀ t, s.threads.get i = some t →
    intMin ≤ t.sleepingTime ∧ t.sleepingTime ≠ intMin

/-- What the pass owes each thread: an expired member leaves the set, READY if
it was SLEEPING; another member's countdown goes down by one, without overflow;
the rest is left alone. -/
structure WakesUp (s s' : State) : Prop where
  expired : ∀ i ∈ s.sleepingThreads, ∀ t, s.threads.get i = some t → t.sleepingTime = 1 →
    i ∉ s'.sleepingThreads ∧ s'.threads.get i = some { t with
      sleepingTime := notSleeping
      state := if t.state = .sleeping then .ready else t.state }
  counted : ∀ i ∈ s.sleepingThreads, ∀ t, s.threads.get i = some t → t.sleepingTime ≠ 1 →
    i ∈ s'.sleepingThreads ∧ s'.threads.get i = some { t with sleepingTime := t.sleepingTime - 1 }
      ∧ intMin ≤ t.sleepingTime - 1
  others : ∀ i, i ∉ s.sleepingThreads →
    i ∉ s'.sleepingThreads ∧ s'.threads.get i = s.threads.get i

section Pass

variable {s : State}

theorem Wakeable.allLive (h : Wakeable s) : s.AllLive s.sleepingThreads := by
  intro i hi
  obtain ⟨t, ht⟩ := Option.ne_none_iff_exists'.mp (h.live i hi)
  exact ⟨t, ht, h.ids i t ht⟩

/-- The table after the pass, whatever the order. -/
theorem woken_get (members : List Int) (i : Int) :
    (s.woken members).threads.get i
      = if i ∈ s.sleepingThreads then (s.threads.get i).map wakeRecord else s.threads.get i := by
  show (s.threads.mapOn (fun i => decide (i ∈ s.sleepingThreads)) wakeRecord).get i = _
  rw [Table.get_mapOn]
  simp only [decide_eq_true_eq]

/-- A member stays in the set unless its countdown ends. -/
theorem mem_woken_sleeping (members : List Int) {i : Int} {t : Thread}
    (ht : s.threads.get i = some t) :
    i ∈ (s.woken members).sleepingThreads ↔ i ∈ s.sleepingThreads ∧ t.sleepingTime - 1 ≠ 0 := by
  have hexp : s.expiring i = true ↔ t.sleepingTime - 1 = 0 := by
    rw [expiring_iff, ht]
    simp
  show i ∈ s.sleepingThreads.filter (fun i => !s.expiring i) ↔ _
  rw [List.mem_filter, Bool.not_eq_true', ← Bool.not_eq_true, hexp]

theorem Wakeable.wakesUp (h : Wakeable s) (members : List Int) : WakesUp s (s.woken members) where
  expired := by
    intro i hi t ht hone
    have hz : t.sleepingTime - 1 = 0 := by omega
    refine ⟨fun hmem => ((mem_woken_sleeping members ht).mp hmem).2 hz, ?_⟩
    rw [woken_get, if_pos hi, ht, Option.map_some, wakeRecord, if_pos hz]
  counted := by
    intro i hi t ht hone
    have hz : t.sleepingTime - 1 ≠ 0 := by omega
    refine ⟨(mem_woken_sleeping members ht).mpr ⟨hi, hz⟩, ?_, ?_⟩
    · rw [woken_get, if_pos hi, ht, Option.map_some, wakeRecord, if_neg hz]
    · have hint := h.counts i hi t ht
      omega
  others := by
    intro i hi
    refine ⟨fun hmem => hi (List.mem_of_mem_filter hmem), ?_⟩
    rw [woken_get, if_neg hi]

/-- The threads that wake: the members that sleep and have one quantum left. -/
theorem mem_woken_suffix {members : List Int} (hperm : members.Perm s.sleepingThreads) (i : Int) :
    i ∈ members.filter s.waking
      ↔ i ∈ s.sleepingThreads
          ∧ ∃ t, s.threads.get i = some t ∧ t.sleepingTime = 1 ∧ t.state = .sleeping := by
  have hone : ∀ t : Thread, t.sleepingTime - 1 = 0 ↔ t.sleepingTime = 1 := fun t => by omega
  rw [List.mem_filter, hperm.mem_iff, waking_iff]
  simp only [hone]

end Pass

/-! ## §2. Any order of iteration. -/

/-- **The wake-up pass along two enumerations of the set**: the same records,
the same set, and at the tail of the queue the same threads, each once, in some
order: those that were SLEEPING with one quantum left. -/
theorem wake_up_any_order {s : State} (h : Wakeable s) (order₁ order₂ : IterOrder) (m : SigSet) :
    ∃ s₁ s₂ woken₁ woken₂,
      (wakeSleepingThreads order₁).exec s m = .ret () s₁ m
        ∧ (wakeSleepingThreads order₂).exec s m = .ret () s₂ m
        ∧ s₁.threads = s₂.threads ∧ s₁.sleepingThreads = s₂.sleepingThreads
        ∧ s₁.readyThreads = s.readyThreads ++ woken₁ ∧ s₂.readyThreads = s.readyThreads ++ woken₂
        ∧ woken₁.Perm woken₂ ∧ woken₁.Nodup
        ∧ (∀ i, i ∈ woken₁ ↔ i ∈ s.sleepingThreads
            ∧ ∃ t, s.threads.get i = some t ∧ t.sleepingTime = 1 ∧ t.state = .sleeping)
        ∧ WakesUp s s₁ := by
  have hperm₁ := order₁.perm s.totalQuantom s.sleepingThreads
  have hperm₂ := order₂.perm s.totalQuantom s.sleepingThreads
  refine ⟨_, _, _, _, exec_wakeSleepingThreads order₁ m h.freed h.nodup h.allLive,
    exec_wakeSleepingThreads order₂ m h.freed h.nodup h.allLive, rfl, rfl, rfl, rfl, ?_, ?_, ?_, ?_⟩
  · -- both enumerations list the same members
    exact (hperm₁.trans hperm₂.symm).filter _
  · exact (hperm₁.nodup_iff.mpr h.nodup).filter _
  · exact mem_woken_suffix hperm₁
  · exact h.wakesUp _

/-- Iterate over the listing backwards. -/
def IterOrder.reversed : IterOrder where
  enum := fun _ l => l.reverse
  perm := fun _ l => List.reverse_perm l

/-- Two sleepers, one quantum before both wake. -/
def twoSleepersRun : List Event :=
  [.call (.spawn ⟨some 4096, true⟩ (some 1)), .call (.spawn ⟨some 8192, true⟩ (some 2)),
   .tick ∅, .call (.sleep 3), .call (.sleep 2)]

theorem wake_up_any_order_twoSleepers :
    ∃ s, run (step .listing) (initialState 1000) twoSleepersRun = some s
      ∧ ∃ s₁ s₂ woken₁ woken₂,
          (wakeSleepingThreads .listing).exec s ∅ = .ret () s₁ ∅
            ∧ (wakeSleepingThreads .reversed).exec s ∅ = .ret () s₂ ∅
            ∧ s₁.readyThreads = s.readyThreads ++ woken₁
            ∧ s₂.readyThreads = s.readyThreads ++ woken₂ ∧ woken₁.Perm woken₂ := by
  have hend : (run (step .listing) (initialState 1000) twoSleepersRun).map (fun s =>
      (s.sleepingThreads, (s.threads.get 1).map Thread.sleepingTime,
        (s.threads.get 2).map Thread.sleepingTime)) = some ([2, 1], some 1, some 1) := by
    decide +kernel
  obtain ⟨s, hs, hobs⟩ := Option.map_eq_some_iff.mp hend
  injection hobs with hset hobs
  injection hobs with hfirst hsecond
  have hw := (reachable_of_run (by decide) hs).wellFormed
  obtain ⟨t₁, ht₁, hcount₁⟩ := Option.map_eq_some_iff.mp hfirst
  obtain ⟨t₂, ht₂, hcount₂⟩ := Option.map_eq_some_iff.mp hsecond
  have hmembers : ∀ i ∈ s.sleepingThreads, ∃ t, s.threads.get i = some t ∧ t.sleepingTime = 1 := by
    intro i hi
    rw [hset] at hi
    rcases List.mem_cons.mp hi with rfl | hi
    · exact ⟨t₂, ht₂, hcount₂⟩
    · rw [List.mem_singleton.mp hi]
      exact ⟨t₁, ht₁, hcount₁⟩
  have hwake : Wakeable s := by
    refine ⟨hw.freed, hw.sleepNodup, ?_, hw.ids, ?_⟩
    · intro i hi
      obtain ⟨t, ht, _⟩ := hmembers i hi
      simp [ht]
    · intro i hi u hu
      obtain ⟨t, ht, hone⟩ := hmembers i hi
      obtain rfl := same_record ht hu
      unfold intMin
      omega
  obtain ⟨s₁, s₂, woken₁, woken₂, h₁, h₂, _, _, hq₁, hq₂, hperm, _⟩ :=
    wake_up_any_order hwake .listing .reversed ∅
  exact ⟨s, hs, s₁, s₂, woken₁, woken₂, h₁, h₂, hq₁, hq₂, hperm⟩

/-! ## §3. Every erase finds its element. -/

/-- **Whoever sleeps or counts down is in the set**, in every reachable state
and for all arguments of `uthread_sleep`; so no event erases `end()`. -/
theorem erase_valid {order : IterOrder} {s : State} (h : Reachable order s) :
    (∀ i t, s.threads.get i = some t → t.state = .sleeping → i ∈ s.sleepingThreads)
      ∧ (∀ i t, s.threads.get i = some t → t.sleepingTime ≠ notSleeping → i ∈ s.sleepingThreads)
      ∧ ∀ e : Event, e.stop order s ≠ some (.fault .eraseEnd) := by
  have hw := h.wellFormed
  refine ⟨fun i t ht hst => hw.sleepMem i t ht (Or.inl hst),
    fun i t ht hsl => hw.sleepMem i t ht (Or.inr hsl), ?_⟩
  intro e hfault
  -- the only fault is another one
  cases null_fault hw hfault

theorem erase_valid_twoSleepers :
    ∃ s, run (step .listing) (initialState 1000) twoSleepersRun = some s
      ∧ (Event.call (.terminate 2)).stop .listing s ≠ some (.fault .eraseEnd) := by
  have hend : (run (step .listing) (initialState 1000) twoSleepersRun).isSome = true := by
    decide +kernel
  obtain ⟨s, hs⟩ := Option.isSome_iff_exists.mp hend
  exact ⟨s, hs, (erase_valid (reachable_of_run (by decide) hs)).2.2 _⟩

end UThreads
