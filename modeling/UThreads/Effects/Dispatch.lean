/-
  UThreads.Effects.Dispatch
  ─────────────────────────
  **WHAT A CONTEXT SWITCH DOES**, in closed form.

  The loops of `wake_sleeping_threads` are collapsed into one pass over the
  table (`State.woken`), and `set_ready_to_run` from the read of the queue's
  front on into one state change (`State.dispatched`).  The only fault on the
  way is a member of the sleeping set whose table entry is null.
-/
import UThreads.Model.System

namespace UThreads

open Interruptible

/-! ## §1. One sleeper. -/

/-- What a quantum start does to the record of a member of the sleeping set. -/
def wakeRecord (t : Thread) : Thread :=
  if t.sleepingTime - 1 = 0 then
    { t with
      sleepingTime := notSleeping
      state := if t.state = .sleeping then .ready else t.state }
  else { t with sleepingTime := t.sleepingTime - 1 }

/-- Entry `i` is a record whose countdown ends at this quantum start. -/
def State.expiring (s : State) (i : Int) : Bool :=
  (s.threads.get i).any (fun t => t.sleepingTime - 1 = 0)

/-- Entry `i` is a record that becomes READY at this quantum start. -/
def State.waking (s : State) (i : Int) : Bool :=
  (s.threads.get i).any (fun t => t.sleepingTime - 1 = 0 ∧ t.state = .sleeping)

/-- The state after one iteration of the first loop. -/
def State.wakeStep (s : State) (i : Int) (t : Thread) : State :=
  (s.setThread i (some (wakeRecord t))).setReady (s.readyThreads ++ [i].filter s.waking)

/-- One round of the loop: the record is counted down, woken if it is due, and the
id noted if its count has run out. -/
theorem exec_wakeOne {s : State} {i : Int} {t : Thread} (toDelete : List Int) (m : SigSet)
    (hf : s.freed = false) (h : s.threads.get i = some t) (hid : (t.id : Int) = i) :
    (wakeOne i toDelete).exec s m
      = .ret (toDelete ++ [i].filter s.expiring) (s.wakeStep i t) m := by
  -- an iteration reads back what it writes at its own index
  have hload : ∀ u, (s.setThread i (some u)).load i = .ok u := fun u => load_setThread hf h
  have hset : ∀ u v, (s.setThread i (some u)).setThread i v = s.setThread i v :=
    fun u v => by simp [State.setThread, Table.set_set]
  rw [wakeOne, exec_bind, exec_update m _ (load_of_get hf h), Outcome.andThen_ret, exec_bind,
      exec_deref m (hload _), Outcome.andThen_ret]
  by_cases hz : t.sleepingTime - 1 = 0
  · rw [if_pos hz, exec_bind, exec_update m _ (hload _), Outcome.andThen_ret, exec_bind, hset,
        exec_deref m (hload _), Outcome.andThen_ret]
    by_cases hst : t.state = .sleeping
    · simp only [hst, if_true, exec_bind, exec_setState m _ (hload _), hset, Outcome.andThen_ret,
        exec_deref m (hload _), exec_pushReady, exec_pure]
      simp [State.wakeStep, State.expiring, State.waking, wakeRecord, h, hz, hst, hid]
    · simp only [hst, if_false, exec_pure]
      simp [State.wakeStep, State.expiring, State.waking, wakeRecord, h, hz, hst]
      rfl
  · rw [if_neg hz, exec_pure]
    simp [State.wakeStep, State.expiring, State.waking, wakeRecord, h, hz]
    rfl

/-- A null entry in the set is dereferenced. -/
theorem exec_wakeOne_null {s : State} {i : Int} (toDelete : List Int) (m : SigSet)
    (hf : s.freed = false) (h : s.threads.get i = none) :
    (wakeOne i toDelete).exec s m = .stop (.fault .nullThread) := by
  rw [wakeOne, exec_bind, exec_update_error m _ (load_of_null hf h), Outcome.andThen_stop]

/-! ## §2. The pass over the sleeping set. -/

/-- The state after the first loop has gone over `members`. -/
def State.wakePass (s : State) (members : List Int) : State :=
  { s with
    threads := s.threads.mapOn (fun i => decide (i ∈ members)) wakeRecord
    readyThreads := s.readyThreads ++ members.filter s.waking }

/-- Every index in the list holds a record that knows its own index. -/
def State.AllLive (s : State) (members : List Int) : Prop :=
  ∀ i ∈ members, ∃ t, s.threads.get i = some t ∧ (t.id : Int) = i

/-- Nobody sleeps. -/
theorem wakePass_nil (s : State) : s.wakePass [] = s := by
  simp [State.wakePass, Table.mapOn_none]

/-- A round touches one record. -/
theorem wakeStep_get_ne {s : State} {i j : Int} {t : Thread} (h : j ≠ i) :
    (s.wakeStep i t).threads.get j = s.threads.get j :=
  Table.get_set_ne s.threads h _

/-- An iteration leaves the other indices as they were, so the pass over the
rest may be read off the state before it. -/
theorem wakePass_cons {s : State} {i : Int} {t : Thread} {rest : List Int}
    (h : s.threads.get i = some t) (hi : i ∉ rest) :
    (s.wakeStep i t).wakePass rest = s.wakePass (i :: rest) := by
  have hr := Table.inRange_of_get h
  -- whether a later member wakes is read off its own record
  have hw : rest.filter (s.wakeStep i t).waking = rest.filter s.waking := by
    apply List.filter_congr
    intro j hj
    unfold State.waking
    rw [wakeStep_get_ne (ne_of_mem_of_not_mem hj hi)]
  apply State.ext <;> try rfl
  · -- the table
    apply Table.ext_get
    intro j
    show ((s.threads.set i (some (wakeRecord t))).mapOn (fun j => decide (j ∈ rest)) wakeRecord).get j
      = (s.threads.mapOn (fun j => decide (j ∈ i :: rest)) wakeRecord).get j
    rw [Table.get_mapOn, Table.get_mapOn]
    by_cases hj : j = i
    · subst hj
      simp [hi, Table.get_set_self s.threads hr, h]
    · simp [hj, Table.get_set_ne s.threads hj]
  · -- the queue
    show (s.readyThreads ++ [i].filter s.waking) ++ rest.filter (s.wakeStep i t).waking
      = s.readyThreads ++ (i :: rest).filter s.waking
    rw [hw, List.append_assoc, ← List.filter_append]
    rfl

/-- The ids still to visit expire, or not, as they did before the round. -/
theorem expiring_wakeStep {s : State} {i : Int} {t : Thread} {rest : List Int} (hi : i ∉ rest) :
    rest.filter (s.wakeStep i t).expiring = rest.filter s.expiring := by
  apply List.filter_congr
  intro j hj
  unfold State.expiring
  rw [wakeStep_get_ne (ne_of_mem_of_not_mem hj hi)]

/-- The threads still to visit are as live as they were before the round. -/
theorem AllLive.tail {s : State} {i : Int} {t : Thread} {rest : List Int}
    (h : s.AllLive (i :: rest)) (hi : i ∉ rest) : (s.wakeStep i t).AllLive rest := by
  intro j hj
  rw [wakeStep_get_ne (ne_of_mem_of_not_mem hj hi)]
  exact h j (List.mem_cons_of_mem _ hj)

/-- **The first loop**, along any enumeration without repetition. -/
theorem exec_wakeLoop (m : SigSet) :
    ∀ (members toDelete : List Int) (s : State),
      s.freed = false → members.Nodup → s.AllLive members →
      (wakeLoop members toDelete).exec s m
        = .ret (toDelete ++ members.filter s.expiring) (s.wakePass members) m := by
  intro members
  induction members with
  | nil =>
      intro toDelete s _ _ _
      rw [wakePass_nil, wakeLoop, exec_pure, List.filter_nil, List.append_nil]
  | cons i rest ih =>
      intro toDelete s hf hnd hlive
      obtain ⟨hi, hnd'⟩ := List.nodup_cons.mp hnd
      obtain ⟨t, ht, hid⟩ := hlive i List.mem_cons_self
      -- the rest of the loop starts from the state the first iteration leaves
      have hrest := ih (toDelete ++ [i].filter s.expiring) (s.wakeStep i t) hf hnd'
        (AllLive.tail hlive hi)
      rw [wakeLoop, exec_bind, exec_wakeOne toDelete m hf ht hid, Outcome.andThen_ret, hrest,
          wakePass_cons ht hi, expiring_wakeStep hi, List.append_assoc, ← List.filter_append]
      rfl

/-- The first loop faults when it meets a null entry. -/
theorem exec_wakeLoop_null (m : SigSet) :
    ∀ (members toDelete : List Int) (s : State),
      s.freed = false → members.Nodup →
      (∀ i ∈ members, ∀ t, s.threads.get i = some t → (t.id : Int) = i) →
      (∃ i ∈ members, s.threads.get i = none) →
      (wakeLoop members toDelete).exec s m = .stop (.fault .nullThread) := by
  intro members
  induction members with
  | nil =>
      intro _ _ _ _ _ hall
      obtain ⟨i, hi, _⟩ := hall
      simp at hi
  | cons i rest ih =>
      intro toDelete s hf hnd hid hall
      obtain ⟨j, hj, hnone⟩ := hall
      obtain ⟨hi, hnd'⟩ := List.nodup_cons.mp hnd
      cases ht : s.threads.get i with
      | none => rw [wakeLoop, exec_bind, exec_wakeOne_null toDelete m hf ht, Outcome.andThen_stop]
      | some t =>
          -- this entry is a record, so the null one comes later
          have hji : j ≠ i := by
            intro he
            rw [he, ht] at hnone
            simp at hnone
          rw [wakeLoop, exec_bind, exec_wakeOne toDelete m hf ht (hid i List.mem_cons_self t ht),
              Outcome.andThen_ret]
          apply ih _ (s.wakeStep i t) hf hnd'
          · intro k hk u hu
            rw [wakeStep_get_ne (ne_of_mem_of_not_mem hk hi)] at hu
            exact hid k (List.mem_cons_of_mem _ hk) u hu
          · refine ⟨j, List.mem_of_ne_of_mem hji hj, ?_⟩
            rw [wakeStep_get_ne hji]
            exact hnone

/-- **The second loop**: every expired member leaves the set. -/
theorem exec_eraseLoop (m : SigSet) :
    ∀ (xs : List Int) (s : State),
      xs.Nodup → s.sleepingThreads.Nodup → (∀ i ∈ xs, i ∈ s.sleepingThreads) →
      (eraseLoop xs).exec s m
        = .ret () (s.setSleeping (s.sleepingThreads.filter (fun i => decide (i ∉ xs)))) m := by
  intro xs
  induction xs with
  | nil =>
      intro s _ _ _
      simp [eraseLoop, State.setSleeping]
  | cons i xs ih =>
      intro s hnd hs hsub
      obtain ⟨hi, hnd'⟩ := List.nodup_cons.mp hnd
      have hmem : i ∈ s.sleepingThreads := hsub i List.mem_cons_self
      -- the other expired members survive this `erase`
      have hsub' : ∀ j ∈ xs, j ∈ s.sleepingThreads.erase i := by
        intro j hj
        exact (List.mem_erase_of_ne (ne_of_mem_of_not_mem hj hi)).mpr
          (hsub j (List.mem_cons_of_mem _ hj))
      have hfilter : (s.sleepingThreads.erase i).filter (fun j => decide (j ∉ xs))
          = s.sleepingThreads.filter (fun j => decide (j ∉ i :: xs)) := by
        rw [hs.erase_eq_filter, List.filter_filter]
        apply List.filter_congr
        intro j _
        by_cases hji : j = i <;> simp [hji, bne]
      rw [eraseLoop, exec_bind, exec_eraseSleeping m hmem, Outcome.andThen_ret,
          ih (s.setSleeping (s.sleepingThreads.erase i)) hnd' (hs.erase i) hsub',
          State.setSleeping_sleepingThreads, hfilter]
      rfl

/-- The state after `wake_sleeping_threads`, for the order it iterates in. -/
def State.woken (s : State) (members : List Int) : State :=
  { s with
    threads := s.threads.mapOn (fun i => decide (i ∈ s.sleepingThreads)) wakeRecord
    readyThreads := s.readyThreads ++ members.filter s.waking
    sleepingThreads := s.sleepingThreads.filter (fun i => !s.expiring i) }

/-- **`wake_sleeping_threads` in closed form.** -/
theorem exec_wakeSleepingThreads (order : IterOrder) {s : State} (m : SigSet)
    (hf : s.freed = false) (hs : s.sleepingThreads.Nodup) (hlive : s.AllLive s.sleepingThreads) :
    (wakeSleepingThreads order).exec s m
      = .ret () (s.woken (order.enum s.totalQuantom s.sleepingThreads)) m := by
  have hperm := order.perm s.totalQuantom s.sleepingThreads
  set members := order.enum s.totalQuantom s.sleepingThreads with hmembers
  -- whatever the order, the loop meets every member once
  have hnd : members.Nodup := hperm.nodup_iff.mpr hs
  have hlive' : s.AllLive members := fun i hi => hlive i (hperm.mem_iff.mp hi)
  have hsub : ∀ i ∈ members.filter s.expiring, i ∈ s.sleepingThreads :=
    fun i hi => hperm.mem_iff.mp (List.mem_of_mem_filter hi)
  rw [wakeSleepingThreads, exec_bind, exec_read, Outcome.andThen_ret, ← hmembers, exec_bind,
      exec_wakeLoop m members [] s hf hnd hlive', Outcome.andThen_ret, List.nil_append,
      exec_eraseLoop m _ (s.wakePass members) (hnd.filter _) hs hsub]
  congr 1
  apply State.ext <;> try rfl
  · -- the table: the enumeration has the members of the set
    show s.threads.mapOn (fun i => decide (i ∈ members)) wakeRecord
      = s.threads.mapOn (fun i => decide (i ∈ s.sleepingThreads)) wakeRecord
    congr 1
    funext i
    simp only [hperm.mem_iff]
  · -- the set: the expired members are gone
    show s.sleepingThreads.filter (fun i => decide (i ∉ members.filter s.expiring))
      = s.sleepingThreads.filter (fun i => !s.expiring i)
    apply List.filter_congr
    intro i hi
    have him : i ∈ members := hperm.mem_iff.mpr hi
    simp [List.mem_filter, him]

/-- A null entry in the sleeping set makes `wake_sleeping_threads` fault. -/
theorem exec_wakeSleepingThreads_null (order : IterOrder) {s : State} (m : SigSet)
    (hf : s.freed = false) (hs : s.sleepingThreads.Nodup)
    (hid : ∀ i t, s.threads.get i = some t → (t.id : Int) = i)
    (hnull : ∃ i ∈ s.sleepingThreads, s.threads.get i = none) :
    (wakeSleepingThreads order).exec s m = .stop (.fault .nullThread) := by
  have hperm := order.perm s.totalQuantom s.sleepingThreads
  obtain ⟨i, hi, hnone⟩ := hnull
  rw [wakeSleepingThreads, exec_bind, exec_read, Outcome.andThen_ret, exec_bind,
      exec_wakeLoop_null m _ [] s hf (hperm.nodup_iff.mpr hs) (fun j _ t => hid j t)
        ⟨i, hperm.mem_iff.mpr hi, hnone⟩, Outcome.andThen_stop]

/-! ## §3. The dispatch. -/

/-- The record of the thread that gets the CPU. -/
def Thread.started (t : Thread) : Thread :=
  { t with state := .running, quantum := t.quantum + 1 }

/-- The state in which `wake_sleeping_threads` is called: `next` has left the
queue and runs. -/
def State.started (s : State) (next : Int) (rest : List Int) (t : Thread) : State :=
  (((s.setCurr next).setReady rest).setThread next (some t.started)).setTotal (s.totalQuantom + 1)

/-- The timer as `init_timer` sets it. -/
def State.rearmed (s : State) : State :=
  s.setTimer ⟨s.quantomLen.tdiv second, s.quantomLen.tmod second,
              s.quantomLen.tdiv second, s.quantomLen.tmod second⟩

/-- The state in which the thread at the queue's front resumes. -/
def State.dispatched (order : IterOrder) (s : State) (next : Int) (rest : List Int)
    (t : Thread) : State :=
  (((s.started next rest t).woken
    (order.enum (s.totalQuantom + 1) s.sleepingThreads)).rearmed).record
      (.resumed next t.env.token t.env.pc)

/-- A wake-up does not touch the environment. -/
theorem wakeRecord_env (t : Thread) : (wakeRecord t).env = t.env := by
  unfold wakeRecord
  split <;> rfl

/-- The code of `set_ready_to_run` between the front's read and the wake-up. -/
theorem exec_dispatchFront_started (order : IterOrder) {s : State} (m : SigSet)
    {next : Int} {rest : List Int} {t : Thread} (hf : s.freed = false)
    (hq : s.readyThreads = next :: rest) (ht : s.threads.get next = some t) :
    (dispatchFront order).exec s m
      = ((wakeSleepingThreads order).exec (s.started next rest t) m).andThen
          (fun _ s' m' => (do initTimer; siglongjmp next : Lib Unit).exec s' m') := by
  -- the three statements that touch the dispatched record all find it
  have hrun : (s.setCurr next).load next = .ok t := load_of_get hf ht
  have hread : ∀ u, (((s.setCurr next).setThread next (some u)).setReady rest).load next = .ok u :=
    fun u => load_setThread (s := s.setCurr next) hf ht
  have hpop : ∀ u, ((s.setCurr next).setThread next u).readyThreads = next :: rest := fun _ => hq
  rw [dispatchFront, exec_bind, exec_frontReady m _ hq, Outcome.andThen_ret, exec_bind,
      exec_modify, Outcome.andThen_ret, exec_bind, exec_setState m _ hrun, Outcome.andThen_ret,
      exec_bind, exec_popReady m (hpop _), Outcome.andThen_ret, exec_bind,
      exec_update m _ (hread _), Outcome.andThen_ret, exec_bind, exec_modify,
      Outcome.andThen_ret, exec_bind]
  congr 2
  apply State.ext <;> try rfl
  exact Table.set_set s.threads next _ _

/-- **The dispatch in closed form**: `set_ready_to_run` leaves for the
environment of the thread at the front of the queue. -/
theorem exec_dispatchFront (order : IterOrder) {s : State} (m : SigSet)
    {next : Int} {rest : List Int} {t : Thread} (hf : s.freed = false)
    (hq : s.readyThreads = next :: rest) (ht : s.threads.get next = some t)
    (hid : ∀ i t, s.threads.get i = some t → (t.id : Int) = i)
    (hs : s.sleepingThreads.Nodup) (hlive : ∀ i ∈ s.sleepingThreads, s.threads.get i ≠ none) :
    (dispatchFront order).exec s m
      = .jump t.env.target (s.dispatched order next rest t) t.env.savedMask := by
  have hr := Table.inRange_of_get ht
  -- making the front thread run keeps every record at its index
  have hlive' : (s.started next rest t).AllLive s.sleepingThreads := by
    intro i hi
    obtain ⟨u, hu⟩ := Option.ne_none_iff_exists'.mp (hlive i hi)
    show ∃ v, (s.threads.set next (some t.started)).get i = some v ∧ (v.id : Int) = i
    rw [Table.get_set s.threads hr]
    by_cases hin : i = next
    · refine ⟨t.started, by rw [if_pos hin], ?_⟩
      rw [hin]
      exact hid next t ht
    · exact ⟨u, by rw [if_neg hin]; exact hu, hid i u hu⟩
  have hwake := exec_wakeSleepingThreads order (s := s.started next rest t) m hf hs hlive'
  rw [exec_dispatchFront_started order m hf hq ht, hwake, Outcome.andThen_ret, exec_bind]
  -- the wake-up leaves the dispatched thread's environment alone
  obtain ⟨u, hu, henv⟩ : ∃ u, ((s.started next rest t).woken
      (order.enum (s.totalQuantom + 1) s.sleepingThreads)).rearmed.load next = .ok u
        ∧ u.env = t.env := by
    have hget : ((s.started next rest t).woken
        (order.enum (s.totalQuantom + 1) s.sleepingThreads)).rearmed.threads.get next
          = if next ∈ s.sleepingThreads then some (wakeRecord t.started) else some t.started := by
      show ((s.threads.set next (some t.started)).mapOn
        (fun i => decide (i ∈ s.sleepingThreads)) wakeRecord).get next = _
      rw [Table.get_mapOn, Table.get_set_self s.threads hr]
      simp only [decide_eq_true_eq, Option.map_some]
    by_cases hmem : next ∈ s.sleepingThreads
    · exact ⟨wakeRecord t.started, load_of_get hf (by rw [hget, if_pos hmem]), wakeRecord_env _⟩
    · exact ⟨t.started, load_of_get hf (by rw [hget, if_neg hmem]), rfl⟩
  rw [initTimer, exec_modify, Outcome.andThen_ret]
  have hjump := exec_siglongjmp m hu
  rw [henv] at hjump
  exact hjump

/-- The dispatch faults on a null entry in the sleeping set. -/
theorem exec_dispatchFront_null (order : IterOrder) {s : State} (m : SigSet)
    {next : Int} {rest : List Int} {t : Thread} (hf : s.freed = false)
    (hq : s.readyThreads = next :: rest) (ht : s.threads.get next = some t)
    (hid : ∀ i t, s.threads.get i = some t → (t.id : Int) = i)
    (hs : s.sleepingThreads.Nodup) (hnull : ∃ i ∈ s.sleepingThreads, s.threads.get i = none) :
    (dispatchFront order).exec s m = .stop (.fault .nullThread) := by
  have hr := Table.inRange_of_get ht
  obtain ⟨i, hi, hnone⟩ := hnull
  -- the null entry is not the dispatched thread's, so it is null at the wake-up
  have hin : i ≠ next := by
    intro he
    rw [he, ht] at hnone
    simp at hnone
  have hnull' : (s.started next rest t).threads.get i = none := by
    show (s.threads.set next (some t.started)).get i = none
    rw [Table.get_set_ne s.threads hin]
    exact hnone
  have hid' : ∀ j u, (s.started next rest t).threads.get j = some u → (u.id : Int) = j := by
    intro j u hu
    have hu' : (s.threads.set next (some t.started)).get j = some u := hu
    rw [Table.get_set s.threads hr] at hu'
    split at hu'
    · next hj =>
        injection hu' with hu'
        rw [hj, ← hu']
        exact hid next t ht
    · exact hid j u hu'
  rw [exec_dispatchFront_started order m hf hq ht,
      exec_wakeSleepingThreads_null order (s := s.started next rest t) m hf hs hid'
        ⟨i, hi, hnull'⟩, Outcome.andThen_stop]

/-! ## §4. Reading the state after a dispatch. -/

/-- A record is READY after the round if it was, or if it is SLEEPING and due. -/
theorem wakeRecord_ready (t : Thread) :
    (wakeRecord t).state = .ready
      ↔ t.state = .ready ∨ (t.sleepingTime - 1 = 0 ∧ t.state = .sleeping) := by
  unfold wakeRecord
  by_cases hz : t.sleepingTime - 1 = 0 <;> by_cases hs : t.state = .sleeping <;> simp [hz, hs]

/-- The round neither starts nor stops a thread. -/
theorem wakeRecord_running (t : Thread) :
    (wakeRecord t).state = .running ↔ t.state = .running := by
  unfold wakeRecord
  by_cases hz : t.sleepingTime - 1 = 0 <;> by_cases hs : t.state = .sleeping <;> simp [hz, hs]

/-- A BLOCKED thread stays BLOCKED, also when its count runs out. -/
theorem wakeRecord_blocked (t : Thread) :
    (wakeRecord t).state = .blocked ↔ t.state = .blocked := by
  unfold wakeRecord
  by_cases hz : t.sleepingTime - 1 = 0 <;> by_cases hs : t.state = .sleeping <;> simp [hz, hs]

/-- A SLEEPING thread goes on sleeping until its count runs out. -/
theorem wakeRecord_sleeping (t : Thread) :
    (wakeRecord t).state = .sleeping ↔ t.sleepingTime - 1 ≠ 0 ∧ t.state = .sleeping := by
  unfold wakeRecord
  by_cases hz : t.sleepingTime - 1 = 0 <;> by_cases hs : t.state = .sleeping <;> simp [hz, hs]

/-- The count goes down by one, and is marked when it runs out. -/
theorem wakeRecord_sleepingTime (t : Thread) :
    (wakeRecord t).sleepingTime
      = if t.sleepingTime - 1 = 0 then notSleeping else t.sleepingTime - 1 := by
  unfold wakeRecord
  split <;> rfl

/-- It does not touch the id. -/
theorem wakeRecord_id (t : Thread) : (wakeRecord t).id = t.id := by
  unfold wakeRecord
  split <;> rfl

/-- It counts no quantum. -/
theorem wakeRecord_quantum (t : Thread) : (wakeRecord t).quantum = t.quantum := by
  unfold wakeRecord
  split <;> rfl

/-- An id leaves the set when its count runs out, whatever the thread's state. -/
theorem expiring_iff {s : State} {i : Int} :
    s.expiring i = true ↔ ∃ t, s.threads.get i = some t ∧ t.sleepingTime - 1 = 0 := by
  unfold State.expiring
  cases s.threads.get i <;> simp

/-- An id enters the queue when its count runs out and the thread is SLEEPING. -/
theorem waking_iff {s : State} {i : Int} :
    s.waking i = true
      ↔ ∃ t, s.threads.get i = some t ∧ t.sleepingTime - 1 = 0 ∧ t.state = .sleeping := by
  unfold State.waking
  cases s.threads.get i <;> simp

section Dispatched

variable {order : IterOrder} {s : State} {next : Int} {rest : List Int} {u : Thread}

/-- **The table after a dispatch**: the front thread runs, and every member
of the sleeping set has been counted down. -/
theorem dispatched_get (hu : s.threads.get next = some u) (i : Int) :
    (s.dispatched order next rest u).threads.get i
      = if i ∈ s.sleepingThreads
        then (if i = next then some u.started else s.threads.get i).map wakeRecord
        else (if i = next then some u.started else s.threads.get i) := by
  show ((s.threads.set next (some u.started)).mapOn
    (fun i => decide (i ∈ s.sleepingThreads)) wakeRecord).get i = _
  rw [Table.get_mapOn, Table.get_set s.threads (Table.inRange_of_get hu)]
  simp only [decide_eq_true_eq]

/-- **What a dispatch does to the others**: those in the set are counted down. -/
theorem dispatched_get_ne (hu : s.threads.get next = some u) {i : Int} (hi : i ≠ next) :
    (s.dispatched order next rest u).threads.get i
      = if i ∈ s.sleepingThreads then (s.threads.get i).map wakeRecord
        else s.threads.get i := by
  rw [dispatched_get hu, if_neg hi]

/-- **What a dispatch does to the thread it starts**: RUNNING, one quantum more, and counted
down as well if it is in the set. -/
theorem dispatched_get_next (hu : s.threads.get next = some u) :
    (s.dispatched order next rest u).threads.get next
      = some (if next ∈ s.sleepingThreads then wakeRecord u.started else u.started) := by
  rw [dispatched_get hu, if_pos rfl]
  split <;> rfl

/-- The record behind an entry after a dispatch, and where it comes from. -/
theorem dispatched_get_cases (hu : s.threads.get next = some u) {i : Int} {t' : Thread}
    (h : (s.dispatched order next rest u).threads.get i = some t') :
    ∃ t, (if i = next then some u.started else s.threads.get i) = some t
      ∧ ((i ∈ s.sleepingThreads ∧ t' = wakeRecord t) ∨ (i ∉ s.sleepingThreads ∧ t' = t)) := by
  rw [dispatched_get hu] at h
  by_cases hi : i ∈ s.sleepingThreads
  · rw [if_pos hi, Option.map_eq_some_iff] at h
    obtain ⟨t, ht, he⟩ := h
    exact ⟨t, ht, Or.inl ⟨hi, he.symm⟩⟩
  · rw [if_neg hi] at h
    exact ⟨t', h, Or.inr ⟨hi, rfl⟩⟩

/-- Nobody is born or dies in a dispatch. -/
theorem dispatched_get_none (hu : s.threads.get next = some u) {i : Int} :
    (s.dispatched order next rest u).threads.get i = none ↔ s.threads.get i = none := by
  by_cases hi : i = next
  · subst hi
    rw [dispatched_get_next hu, hu]
    simp
  · rw [dispatched_get_ne hu hi]
    split <;> simp

/-- The dispatch does not change a countdown before the wake-up. -/
theorem expiring_started (rest : List Int) (hu : s.threads.get next = some u) (i : Int) :
    (s.started next rest u).expiring i = s.expiring i := by
  show ((s.threads.set next (some u.started)).get i).any _ = _
  rw [Table.get_set s.threads (Table.inRange_of_get hu)]
  unfold State.expiring
  by_cases hi : i = next
  · simp [hi, hu, Thread.started]
  · simp [hi]

/-- The thread that is started was not SLEEPING: who wakes up does not depend on it. -/
theorem waking_started (rest : List Int) (hu : s.threads.get next = some u)
    (hst : u.state ≠ .sleeping) (i : Int) :
    (s.started next rest u).waking i = s.waking i := by
  show ((s.threads.set next (some u.started)).get i).any _ = _
  rw [Table.get_set s.threads (Table.inRange_of_get hu)]
  unfold State.waking
  by_cases hi : i = next
  · simp [hi, hu, Thread.started, hst]
  · simp [hi]

/-- **The queue after a dispatch**: what stood behind the front, then the
woken sleepers. -/
theorem dispatched_ready (hu : s.threads.get next = some u) (hst : u.state ≠ .sleeping) :
    (s.dispatched order next rest u).readyThreads
      = rest ++ (order.enum (s.totalQuantom + 1) s.sleepingThreads).filter s.waking := by
  show rest ++ (order.enum (s.totalQuantom + 1) s.sleepingThreads).filter
    (s.started next rest u).waking = _
  rw [List.filter_congr (fun i _ => waking_started rest hu hst i)]

/-- **The sleeping set after a dispatch**: the expired members are gone. -/
theorem dispatched_sleeping (hu : s.threads.get next = some u) :
    (s.dispatched order next rest u).sleepingThreads
      = s.sleepingThreads.filter (fun i => !s.expiring i) := by
  show s.sleepingThreads.filter (fun i => !(s.started next rest u).expiring i) = _
  rw [List.filter_congr (fun i _ => by rw [expiring_started rest hu i])]

/-- A member stays in the set unless its countdown ends. -/
theorem mem_dispatched_sleeping (hu : s.threads.get next = some u) {i : Int} {t : Thread}
    (ht : s.threads.get i = some t) :
    i ∈ (s.dispatched order next rest u).sleepingThreads
      ↔ i ∈ s.sleepingThreads ∧ t.sleepingTime - 1 ≠ 0 := by
  have hexp : s.expiring i = true ↔ t.sleepingTime - 1 = 0 := by
    rw [expiring_iff, ht]
    simp
  rw [dispatched_sleeping hu, List.mem_filter, Bool.not_eq_true', ← Bool.not_eq_true, hexp]

/-- The set only shrinks. -/
theorem sleeping_of_dispatched (hu : s.threads.get next = some u) {i : Int}
    (hi : i ∈ (s.dispatched order next rest u).sleepingThreads) : i ∈ s.sleepingThreads := by
  rw [dispatched_sleeping hu] at hi
  exact List.mem_of_mem_filter hi

@[simp] theorem dispatched_curr :
    (s.dispatched order next rest u).currThreadId = next := rfl

@[simp] theorem dispatched_heap :
    (s.dispatched order next rest u).minHeapId = s.minHeapId := rfl

@[simp] theorem dispatched_total :
    (s.dispatched order next rest u).totalQuantom = s.totalQuantom + 1 := rfl

@[simp] theorem dispatched_history :
    (s.dispatched order next rest u).history
      = s.history ++ [.resumed next u.env.token u.env.pc] := rfl

end Dispatched

end UThreads
