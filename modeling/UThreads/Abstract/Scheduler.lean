/-
  UThreads.Abstract.Scheduler
  ───────────────────────────
  **ROUND ROBIN WITH DEADLINES, OVER ANY TYPE OF THREADS.**

  What a preemptive scheduler with blocking and sleeping is for.  One thread
  runs, the others stand in a queue, are held, or sleep until the clock shows a
  deadline.  The clock counts the quanta; when one starts, the front of the
  queue runs, and the sleepers that are due and not held join the tail, in any
  order.

  `Sched.Valid` says that no thread is in two places at once and that no
  deadline has passed.  Every operation keeps it.
-/
import Mathlib.Data.Set.Insert
import Mathlib.Data.List.Nodup
import Mathlib.Logic.Function.Basic

namespace RoundRobin

/-! ## §1. States. -/

/-- A scheduler: who runs, who waits, who is held, when sleepers are due, how
many quanta have started, and how many of them each thread got. -/
@[ext] structure Sched (τ : Type) where
  running : τ
  ready : List τ
  held : Set τ
  wake : τ → Option Int
  clock : Int
  quanta : τ → Int

/-- Why the running thread stops. -/
inductive Leave where
  | preempted
  | held
  | asleep (n : Int)
  | gone
  deriving DecidableEq

/-- The operations of the interface. -/
inductive Op (τ : Type) where
  | enroll (x : τ)
  | retire (x : τ)
  | hold (x : τ)
  | release (x : τ)
  | switch (why : Leave)

variable {τ : Type} [DecidableEq τ]

namespace Sched

/-- The thread is somewhere in the scheduler. -/
def Knows (a : Sched τ) (x : τ) : Prop :=
  x = a.running ∨ x ∈ a.ready ∨ x ∈ a.held ∨ a.wake x ≠ none

/-- The sleep of the thread ends when the next quantum starts. -/
def Due (a : Sched τ) (x : τ) : Prop := a.wake x = some (a.clock + 1)

instance (a : Sched τ) : DecidablePred a.Due := fun x =>
  inferInstanceAs (Decidable (a.wake x = some (a.clock + 1)))

/-! ## §2. Operations. -/

/-- A new thread joins the tail of the queue. -/
def enroll (a : Sched τ) (x : τ) : Sched τ :=
  { a with ready := a.ready ++ [x], quanta := Function.update a.quanta x 0 }

/-- A thread is deleted from every structure. -/
def retire (a : Sched τ) (x : τ) : Sched τ :=
  { a with
    ready := a.ready.filter (fun y => decide (y ≠ x))
    held := a.held \ {x}
    wake := Function.update a.wake x none
    quanta := Function.update a.quanta x 0 }

/-- A thread leaves the queue and is held; a sleeper sleeps on. -/
def hold (a : Sched τ) (x : τ) : Sched τ :=
  { a with ready := a.ready.filter (fun y => decide (y ≠ x)), held := insert x a.held }

/-- A thread is not held any more; unless it sleeps it joins the queue. -/
def release (a : Sched τ) (x : τ) : Sched τ :=
  { a with
    held := a.held \ {x}
    ready := if a.wake x = none then a.ready ++ [x] else a.ready }

/-- Where the running thread goes. -/
def leave (a : Sched τ) : Leave → Sched τ
  | .preempted => { a with ready := a.ready ++ [a.running] }
  | .held      => { a with held := insert a.running a.held }
  | .asleep n  => { a with wake := Function.update a.wake a.running (some (a.clock + n)) }
  | .gone      => { a with quanta := Function.update a.quanta a.running 0 }

/-- A quantum of `x` starts; `rest` is the queue behind it, `woken` who joins. -/
def start (a : Sched τ) (x : τ) (rest woken : List τ) : Sched τ where
  running := x
  ready := rest ++ woken
  held := a.held
  wake := fun y => if a.Due y then none else a.wake y
  clock := a.clock + 1
  quanta := Function.update a.quanta x (a.quanta x + 1)

/-- **The transition relation.** -/
inductive Step (a : Sched τ) : Op τ → Sched τ → Prop where
  | enroll (x : τ) (hnew : ¬ a.Knows x) : Step a (.enroll x) (a.enroll x)
  | retire (x : τ) (h : a.Knows x) (hx : x ≠ a.running) : Step a (.retire x) (a.retire x)
  | hold (x : τ) (h : a.Knows x) (hx : x ≠ a.running) : Step a (.hold x) (a.hold x)
  | release (x : τ) (h : x ∈ a.held) : Step a (.release x) (a.release x)
  | switch (why : Leave) (x : τ) (rest woken : List τ) (hq : (a.leave why).ready = x :: rest)
      (hnodup : woken.Nodup)
      (hwoken : ∀ y, y ∈ woken ↔ (a.leave why).Due y ∧ y ∉ (a.leave why).held) :
      Step a (.switch why) ((a.leave why).start x rest woken)

/-! ## §3. The invariant. -/

/-- Where threads are when nobody runs: in the queue once, or held, or asleep
until a deadline that has not passed. -/
structure Parked (a : Sched τ) : Prop where
  nodup : a.ready.Nodup
  heldOut : ∀ x ∈ a.held, x ∉ a.ready
  asleepOut : ∀ x, a.wake x ≠ none → x ∉ a.ready
  deadline : ∀ x d, a.wake x = some d → a.clock < d

/-- **The invariant**: the running thread is in none of the other places. -/
structure Valid (a : Sched τ) : Prop extends Parked a where
  runs : a.running ∉ a.ready ∧ a.running ∉ a.held ∧ a.wake a.running = none

variable {a : Sched τ}

omit [DecidableEq τ] in
theorem Valid.not_running (h : Valid a) {x : τ} (hx : x ∈ a.ready ∨ x ∈ a.held ∨ a.wake x ≠ none) :
    x ≠ a.running := by
  intro he
  subst he
  rcases hx with hx | hx | hx
  · exact h.runs.1 hx
  · exact h.runs.2.1 hx
  · exact hx h.runs.2.2

omit [DecidableEq τ] in
theorem not_knows {x : τ} (h : ¬ a.Knows x) :
    x ≠ a.running ∧ x ∉ a.ready ∧ x ∉ a.held ∧ a.wake x = none := by
  refine ⟨fun he => h (Or.inl he), fun hr => h (Or.inr (Or.inl hr)),
    fun hh => h (Or.inr (Or.inr (Or.inl hh))), ?_⟩
  by_contra hw
  exact h (Or.inr (Or.inr (Or.inr hw)))

/-! ## §4. Every operation keeps it. -/

theorem Valid.enroll (h : Valid a) {x : τ} (hnew : ¬ a.Knows x) : Valid (a.enroll x) := by
  obtain ⟨hrun, hready, hheld, hwake⟩ := not_knows hnew
  have hmem : ∀ y, y ∉ a.ready → y ≠ x → y ∉ (a.enroll x).ready := by
    intro y hy hyx hm
    rcases List.mem_append.mp hm with hm | hm
    · exact hy hm
    · exact hyx (List.mem_singleton.mp hm)
  refine ⟨⟨?_, ?_, ?_, h.deadline⟩, hmem _ h.runs.1 hrun.symm, h.runs.2⟩
  · show (a.ready ++ [x]).Nodup
    rw [List.nodup_append_comm]
    exact List.nodup_cons.mpr ⟨hready, h.nodup⟩
  · exact fun y hy => hmem y (h.heldOut y hy) (ne_of_mem_of_not_mem hy hheld)
  · intro y hy
    refine hmem y (h.asleepOut y hy) ?_
    intro he
    exact hy (he ▸ hwake)

/-- Leaving the queue. -/
theorem mem_filter_ne {q : List τ} {x y : τ} :
    y ∈ q.filter (fun z => decide (z ≠ x)) ↔ y ∈ q ∧ y ≠ x := by
  rw [List.mem_filter, decide_eq_true_iff]

theorem Valid.retire (h : Valid a) {x : τ} (hx : x ≠ a.running) : Valid (a.retire x) := by
  have hwake : ∀ y, (a.retire x).wake y = if y = x then none else a.wake y := by
    intro y
    show Function.update a.wake x none y = _
    rw [Function.update_apply]
  refine ⟨⟨h.nodup.filter _, ?_, ?_, ?_⟩, ?_, ?_, ?_⟩
  · exact fun y hy hr => h.heldOut y hy.1 (mem_filter_ne.mp hr).1
  · intro y hy hr
    rw [hwake] at hy
    split at hy
    · exact hy rfl
    · exact h.asleepOut y hy (mem_filter_ne.mp hr).1
  · intro y d hd
    rw [hwake] at hd
    split at hd
    · cases hd
    · exact h.deadline y d hd
  · exact fun hr => h.runs.1 (mem_filter_ne.mp hr).1
  · exact fun hm => h.runs.2.1 hm.1
  · exact (hwake a.running).trans ((if_neg hx.symm).trans h.runs.2.2)

theorem Valid.hold (h : Valid a) {x : τ} (hx : x ≠ a.running) : Valid (a.hold x) := by
  refine ⟨⟨h.nodup.filter _, ?_, ?_, h.deadline⟩, ?_, ?_, h.runs.2.2⟩
  · intro y hy hr
    obtain ⟨hr, hyx⟩ := mem_filter_ne.mp hr
    exact h.heldOut y ((Set.mem_insert_iff.mp hy).resolve_left hyx) hr
  · exact fun y hy hr => h.asleepOut y hy (mem_filter_ne.mp hr).1
  · exact fun hr => h.runs.1 (mem_filter_ne.mp hr).1
  · intro hm
    rcases Set.mem_insert_iff.mp hm with he | hm
    · exact hx he.symm
    · exact h.runs.2.1 hm

omit [DecidableEq τ] in
theorem Valid.release (h : Valid a) {x : τ} (hx : x ∈ a.held) : Valid (a.release x) := by
  have hrun : x ≠ a.running := h.not_running (Or.inr (Or.inl hx))
  have hready : ∀ y, y ∈ (a.release x).ready → y ∈ a.ready ∨ (y = x ∧ a.wake x = none) := by
    intro y hy
    have hy' : y ∈ if a.wake x = none then a.ready ++ [x] else a.ready := hy
    split at hy'
    · next hw =>
        rcases List.mem_append.mp hy' with hr | hr
        · exact Or.inl hr
        · exact Or.inr ⟨List.mem_singleton.mp hr, hw⟩
    · exact Or.inl hy'
  refine ⟨⟨?_, ?_, ?_, h.deadline⟩, ?_, ?_, h.runs.2.2⟩
  · show (if a.wake x = none then a.ready ++ [x] else a.ready).Nodup
    split
    · rw [List.nodup_append_comm]
      exact List.nodup_cons.mpr ⟨h.heldOut x hx, h.nodup⟩
    · exact h.nodup
  · intro y hy hr
    rcases hready y hr with hr | ⟨he, _⟩
    · exact h.heldOut y hy.1 hr
    · exact hy.2 he
  · intro y hy hr
    rcases hready y hr with hr | ⟨he, hw⟩
    · exact h.asleepOut y hy hr
    · exact hy (he ▸ hw)
  · intro hr
    rcases hready _ hr with hr | ⟨he, _⟩
    · exact h.runs.1 hr
    · exact hrun he.symm
  · exact fun hm => h.runs.2.1 hm.1

/-- **When the running thread has left, everybody is parked.** -/
theorem Valid.leave (h : Valid a) {why : Leave} (hn : ∀ n, why = .asleep n → 1 ≤ n) :
    Parked (a.leave why) := by
  obtain ⟨hready, hheld, hwake⟩ := h.runs
  cases why with
  | preempted =>
      have hmem : ∀ y, y ≠ a.running → y ∉ a.ready → y ∉ (a.leave .preempted).ready := by
        intro y hne hy hm
        rcases List.mem_append.mp hm with hm | hm
        · exact hy hm
        · exact hne (List.mem_singleton.mp hm)
      refine ⟨?_, ?_, ?_, h.deadline⟩
      · show (a.ready ++ [a.running]).Nodup
        rw [List.nodup_append_comm]
        exact List.nodup_cons.mpr ⟨hready, h.nodup⟩
      · exact fun y hy => hmem y (h.not_running (Or.inr (Or.inl hy))) (h.heldOut y hy)
      · exact fun y hy => hmem y (h.not_running (Or.inr (Or.inr hy))) (h.asleepOut y hy)
  | held =>
      refine ⟨h.nodup, ?_, h.asleepOut, h.deadline⟩
      intro y hy
      rcases Set.mem_insert_iff.mp hy with he | hy
      · exact he ▸ hready
      · exact h.heldOut y hy
  | asleep n =>
      have hpos := hn n rfl
      have hwake : ∀ y, (a.leave (.asleep n)).wake y
          = if y = a.running then some (a.clock + n) else a.wake y := by
        intro y
        show Function.update a.wake a.running _ y = _
        rw [Function.update_apply]
      refine ⟨h.nodup, h.heldOut, ?_, ?_⟩
      · intro y hy
        rw [hwake] at hy
        split at hy
        · next he => exact he ▸ hready
        · exact h.asleepOut y hy
      · intro y d hd
        show a.clock < d
        rw [hwake] at hd
        split at hd
        · injection hd with hd
          omega
        · exact h.deadline y d hd
  | gone => exact ⟨h.nodup, h.heldOut, h.asleepOut, h.deadline⟩

/-- **A quantum starts**: the front of the queue runs, and whoever joins was
neither held nor in the queue. -/
theorem Parked.start (h : Parked a) {x : τ} {rest woken : List τ} (hq : a.ready = x :: rest)
    (hnodup : woken.Nodup) (hwoken : ∀ y, y ∈ woken ↔ a.Due y ∧ y ∉ a.held) :
    Valid (a.start x rest woken) := by
  have hnd := h.nodup
  rw [hq] at hnd
  obtain ⟨hx, hrest⟩ := List.nodup_cons.mp hnd
  have hmem : ∀ y ∈ rest, y ∈ a.ready := by
    intro y hy
    rw [hq]
    exact List.mem_cons_of_mem x hy
  have hfront : x ∈ a.ready := by
    rw [hq]
    exact List.mem_cons_self
  -- who sleeps is not in the queue, so none of it is due
  have hdue : ∀ y, a.Due y → y ∉ a.ready := by
    intro y hy
    refine h.asleepOut y ?_
    rw [hy]
    simp
  have hwake : ∀ y, (a.start x rest woken).wake y ≠ none → a.wake y ≠ none ∧ ¬ a.Due y := by
    intro y hy
    have hy' : (if a.Due y then none else a.wake y) ≠ none := hy
    split at hy'
    · exact absurd rfl hy'
    · next hd => exact ⟨hy', hd⟩
  refine ⟨⟨?_, ?_, ?_, ?_⟩, ?_, ?_, ?_⟩
  · show (rest ++ woken).Nodup
    refine List.nodup_append.mpr ⟨hrest, hnodup, ?_⟩
    intro y hy z hz he
    subst he
    exact hdue y ((hwoken y).mp hz).1 (hmem y hy)
  · intro y hy hr
    rcases List.mem_append.mp hr with hr | hr
    · exact h.heldOut y hy (hmem y hr)
    · exact ((hwoken y).mp hr).2 hy
  · intro y hy hr
    obtain ⟨hw, hd⟩ := hwake y hy
    rcases List.mem_append.mp hr with hr | hr
    · exact h.asleepOut y hw (hmem y hr)
    · exact hd ((hwoken y).mp hr).1
  · intro y d hd
    have hd' : (if a.Due y then none else a.wake y) = some d := hd
    show a.clock + 1 < d
    split at hd'
    · cases hd'
    · next hnot =>
        -- not due yet, so the deadline is later than the next quantum
        have hlt := h.deadline y d hd'
        have hne : d ≠ a.clock + 1 := fun he => hnot (hd'.trans (congrArg some he))
        omega
  · intro hr
    rcases List.mem_append.mp hr with hr | hr
    · exact hx hr
    · exact hdue x ((hwoken x).mp hr).1 hfront
  · exact fun hm => h.heldOut x hm hfront
  · show (if a.Due x then none else a.wake x) = none
    have hnone : a.wake x = none := by
      by_contra hw
      exact h.asleepOut x hw hfront
    split
    · rfl
    · exact hnone

end Sched

/-- The operation puts nobody to sleep for less than a quantum. -/
def Op.SleepsPositive : Op τ → Prop
  | .switch (.asleep n) => 1 ≤ n
  | _                   => True

/-- **The step lemma.** -/
theorem Sched.Valid.step {a b : Sched τ} {o : Op τ} (h : a.Valid) (hs : a.Step o b)
    (ho : o.SleepsPositive) : b.Valid := by
  cases hs with
  | enroll x hnew => exact h.enroll hnew
  | retire x hknows hx => exact h.retire hx
  | hold x hknows hx => exact h.hold hx
  | release x hx => exact h.release hx
  | switch why x rest woken hq hnodup hwoken =>
      refine (h.leave ?_).start hq hnodup hwoken
      intro n hwhy
      subst hwhy
      exact ho

end RoundRobin
