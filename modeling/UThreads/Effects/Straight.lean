/-
  UThreads.Effects.Straight
  ─────────────────────────
  **THE PARTS OF THE LIBRARY WITHOUT JUMPS AND MASK CHANGES.**

  Straight code neither reads the queue's front in `set_ready_to_run` nor saves
  a context, and what it does to the table and to the history is `Calm`.  The
  functions the calls are made of are straight.
-/
import UThreads.Model.System

namespace UThreads

open Interruptible

/-! ## §1. Statements. -/

/-- The token of a context that `sigsetjmp` saved. -/
def JmpEvent.savedToken : JmpEvent → Option Nat
  | .saved _ token _ => some token
  | _                => none

/-- The tokens of the contexts saved so far. -/
def State.savedTokens (s : State) : List Nat := s.history.filterMap JmpEvent.savedToken

/-- What a statement without a jump or a mask change may do to the process: it
saves no context and frees nothing, the history grows, and an environment in
the table was there before or is that of a new thread. -/
structure Calm (s s' : State) : Prop where
  tokens : s'.savedTokens = s.savedTokens
  grows : s.history <+: s'.history
  freed : s'.freed = s.freed
  drawn : s.nextToken ≤ s'.nextToken
  envs : ∀ i t', s'.threads.get i = some t' →
    (∃ j t, s.threads.get j = some t ∧ t'.env = t.env) ∨ t'.env.target = .entry

/-- No statement is the front read of `set_ready_to_run`, and all are calm. -/
abbrev Straight {α : Type} (p : Lib α) : Prop := p.Plain (· ≠ .front) Calm

/-- An event that saves no context. -/
theorem savedTokens_record {s : State} {ev : JmpEvent} (h : ev.savedToken = none) :
    (s.record ev).savedTokens = s.savedTokens := by
  show (s.history ++ [ev]).filterMap JmpEvent.savedToken = _
  rw [List.filterMap_append, List.filterMap_cons_none h, List.filterMap_nil, List.append_nil]
  rfl

section Calm

variable {s s' : State} {tid : Int} {t : Thread} {v : Option Thread}

/-- Neither the table nor the history is touched. -/
theorem Calm.frame (hthreads : s'.threads = s.threads) (hhistory : s'.history = s.history)
    (hfreed : s'.freed = s.freed) (hdrawn : s.nextToken ≤ s'.nextToken) : Calm s s' where
  tokens := by
    unfold State.savedTokens
    rw [hhistory]
  grows := by rw [hhistory]
  freed := hfreed
  drawn := hdrawn
  envs := by
    intro i t' ht'
    rw [hthreads] at ht'
    exact Or.inl ⟨i, t', ht', rfl⟩

/-- One entry of the table is written: null, with an old environment, or with
that of a new thread. -/
theorem calm_setThread (s : State) (tid : Int)
    (hv : ∀ t', v = some t' →
      (∃ j t, s.threads.get j = some t ∧ t'.env = t.env) ∨ t'.env.target = .entry) :
    Calm s (s.setThread tid v) where
  tokens := rfl
  grows := List.prefix_rfl
  freed := rfl
  drawn := Nat.le_refl _
  envs := by
    intro i t' ht'
    have hget : (s.threads.set tid v).get i = some t' := ht'
    by_cases hi : i = tid
    · subst hi
      rw [Table.get_set_self _ (Table.inRange_of_get hget)] at hget
      exact hv t' hget
    · rw [Table.get_set_ne _ hi] at hget
      exact Or.inl ⟨i, t', hget, rfl⟩

/-- The history records something else than a save. -/
theorem Calm.record (h : Calm s s') {ev : JmpEvent} (hev : ev.savedToken = none) :
    Calm s (s'.record ev) where
  tokens := (savedTokens_record hev).trans h.tokens
  grows := h.grows.trans (List.prefix_append _ _)
  freed := h.freed
  drawn := h.drawn
  envs := h.envs

end Calm

section Statements

variable {α : Type}

/-- A read of the library's variables leaves the process as it is. -/
theorem plain_read {P : Access → Prop} {R : State → State → Prop} {l : Access} (hl : P l)
    (hR : ∀ s, R s s) (f : State → α) : (read l f).Plain P R := by
  refine ⟨hl, ?_, fun _ => trivial⟩
  intro s b s' h
  injection h with h
  injection h with _ hs
  exact hs ▸ hR s

/-- An assignment does what is done in every state. -/
theorem plain_modify {P : Access → Prop} {R : State → State → Prop} {l : Access} (hl : P l)
    {f : State → State} (hf : ∀ s, R s (f s)) : (modify l f).Plain P R := by
  refine ⟨hl, ?_, fun _ => trivial⟩
  intro s b s' h
  injection h with h
  injection h with _ hs
  exact hs ▸ hf s

/-- A read is calm. -/
theorem straight_read {l : Access} (hl : l ≠ .front) (f : State → α) : Straight (read l f) :=
  plain_read hl (fun _ => .frame rfl rfl rfl (Nat.le_refl _)) f

/-- An assignment that is calm in every state is straight. -/
theorem straight_modify {l : Access} (hl : l ≠ .front) {f : State → State}
    (hf : ∀ s, Calm s (f s)) : Straight (modify l f) :=
  plain_modify hl hf

/-- An assignment to another variable than the table. -/
theorem straight_assign {l : Access} (hl : l ≠ .front) {f : State → State}
    (hf : ∀ s, (f s).threads = s.threads ∧ (f s).history = s.history ∧ (f s).freed = s.freed
      ∧ (f s).nextToken = s.nextToken) : Straight (modify l f) :=
  straight_modify hl (fun s => .frame (hf s).1 (hf s).2.1 (hf s).2.2.1 (hf s).2.2.2.ge)

/-- A statement on the record `threads[tid]`. -/
theorem straight_load (tid : Int) {f : State → Thread → α × State}
    (hf : ∀ s t, s.threads.get tid = some t → Calm s (f s t).2) :
    Straight (.stmt .shared (fun s => (s.load tid).map (f s)) .ret : Lib α) := by
  refine ⟨by decide, ?_, fun _ => trivial⟩
  intro s b s' h
  obtain ⟨t, hload, hmap⟩ := load_map_ok h
  have hcalm := hf s t (get_of_load hload)
  rw [hmap] at hcalm
  exact hcalm

/-- A statement on the front of a queue or the top of a heap. -/
theorem plain_front {P : Access → Prop} {R : State → State → Prop} {l : Access} (hl : P l)
    {q : State → List Int} {e : Stop} {f : State → Int → List Int → α × State}
    (hf : ∀ s x xs, R s (f s x xs).2) :
    (Prog.stmt l (fun s => match q s with
      | x :: xs => .ok (f s x xs)
      | []      => .error e) .ret : Lib α).Plain P R := by
  refine ⟨hl, ?_, fun _ => trivial⟩
  intro s b s' h
  cases hq : q s with
  | nil => simp [hq] at h
  | cons x xs =>
      simp only [hq] at h
      injection h with h
      have hdone := hf s x xs
      rw [h] at hdone
      exact hdone

/-- `exit` has no state after it. -/
theorem straight_exit (code : Int) : Straight (exit code : Lib α) := by
  refine ⟨by decide, ?_, fun _ => trivial⟩
  intro s b s' h
  cases h

/-- A message on `std::cerr` touches neither the table nor the history. -/
theorem straight_report (pre msg : String) : Straight (report pre msg) :=
  straight_assign (by decide) (fun _ => ⟨rfl, rfl, rfl, rfl⟩)

/-- `threads[tid]->…` only reads the record, where there is one. -/
theorem straight_deref (tid : Int) : Straight (deref tid) :=
  straight_load tid (fun _ _ _ => .frame rfl rfl rfl (Nat.le_refl _))

/-- Neither half of `threads[tid]->quantum` writes anything. -/
theorem straight_loadPtr (tid : Int) : Straight (loadPtr tid) := straight_read (by decide) _

/-- The field read is the second half: it meets no record, or changes none. -/
theorem straight_derefPtr (thread : Option RecordPtr) : Straight (derefPtr thread) := by
  refine ⟨by decide, ?_, fun _ => trivial⟩
  intro s b s' h
  obtain ⟨t, _, hmap⟩ := load_map_ok h
  injection hmap with _ hs
  exact hs ▸ Calm.frame rfl rfl rfl (Nat.le_refl _)

/-- Fields of a record are written, but not its environment. -/
theorem straight_update (tid : Int) {f : Thread → Thread} (hf : ∀ t, (f t).env = t.env) :
    Straight (update tid f) := by
  refine straight_load tid (fun s t ht => calm_setThread s tid ?_)
  intro t' ht'
  cases ht'
  exact Or.inl ⟨tid, t, ht, hf t⟩

/-- `threads[tid]->set_state(st)`: the environment in the record is not touched. -/
theorem straight_setState (tid : Int) (st : ThreadState) : Straight (setState tid st) :=
  straight_update tid (fun _ => rfl)

/-- `delete threads[tid]`: the entry becomes null, and the history records a removal. -/
theorem straight_removeThread (tid : Int) : Straight (removeThread tid) :=
  straight_load tid (fun s _ _ => (calm_setThread s tid (fun _ hv => by cases hv)).record rfl)

/-- `threads[new_id] = new_thread`: the only statement that brings an environment
into the table, and it is that of a thread that has not run. -/
theorem straight_putThread (newId : Int) {newThread : Thread} (address : Nat)
    (h : newThread.env.target = .entry) : Straight (putThread newId newThread address) := by
  refine straight_modify (by decide) (fun s => (calm_setThread s newId ?_).record rfl)
  intro t' ht'
  cases ht'
  exact Or.inr h

/-- `ready_threads.push(tid)`. -/
theorem straight_pushReady (tid : Int) : Straight (pushReady tid) :=
  straight_assign (by decide) (fun _ => ⟨rfl, rfl, rfl, rfl⟩)

/-- `sleeping_threads.insert(tid)`. -/
theorem straight_insertSleeping (tid : Int) : Straight (insertSleeping tid) :=
  straight_assign (by decide) (fun _ => ⟨rfl, rfl, rfl, rfl⟩)

/-- `min_heap_id.push(tid)`. -/
theorem straight_pushHeap (tid : Int) : Straight (pushHeap tid) :=
  straight_assign (by decide) (fun _ => ⟨rfl, rfl, rfl, rfl⟩)

/-- `ready_threads.front()` in `remove_tid_from_ready_queue`: not the read whose place
the front reads are counted at. -/
theorem straight_frontReady_shared : Straight (frontReady .shared) :=
  plain_front (by decide) (fun _ _ _ => .frame rfl rfl rfl (Nat.le_refl _))

/-- The front read of `set_ready_to_run` is calm too. -/
theorem plain_frontReady : (frontReady .front).Plain (fun _ => True) Calm :=
  plain_front trivial (fun _ _ _ => .frame rfl rfl rfl (Nat.le_refl _))

/-- `ready_threads.pop()`: a fault on an empty queue, else one id less in it. -/
theorem straight_popReady : Straight popReady :=
  plain_front (by decide) (fun _ _ _ => .frame rfl rfl rfl (Nat.le_refl _))

/-- `min_heap_id.top()`. -/
theorem straight_topHeap : Straight topHeap :=
  plain_front (by decide) (fun _ _ _ => .frame rfl rfl rfl (Nat.le_refl _))

/-- `min_heap_id.pop()`. -/
theorem straight_popHeap : Straight popHeap :=
  plain_front (by decide) (fun _ _ _ => .frame rfl rfl rfl (Nat.le_refl _))

/-- `sleeping_threads.erase(find(tid))`: a fault when `find` returns `end()`, else
one id less in the set. -/
theorem straight_eraseSleeping (tid : Int) : Straight (eraseSleeping tid) := by
  refine ⟨by decide, ?_, fun _ => trivial⟩
  intro s b s' h
  have herase : (if tid ∈ s.sleepingThreads
      then .ok ((), s.setSleeping (s.sleepingThreads.erase tid))
      else .error (.fault .eraseEnd) : Except Stop (Unit × State)) = .ok (b, s') := h
  split at herase
  · injection herase with herase
    injection herase with _ hs
    exact hs ▸ Calm.frame rfl rfl rfl (Nat.le_refl _)
  · cases herase

/-- A save draws a token: the counter moves on, nothing else does. -/
theorem straight_freshToken : Straight freshToken := by
  refine ⟨by decide, ?_, fun _ => trivial⟩
  intro s b s' h
  injection h with h
  injection h with _ hs
  exact hs ▸ Calm.frame rfl rfl rfl (Nat.le_succ _)

/-- `init_timer` re-arms the timer, of which the table and the history know nothing. -/
theorem straight_initTimer : Straight initTimer :=
  straight_assign (by decide) (fun _ => ⟨rfl, rfl, rfl, rfl⟩)

end Statements

/-! ## §2. Functions. -/

/-- The running thread goes to the end of the queue, if it is still RUNNING. -/
theorem straight_requeueCurrent : Straight requeueCurrent := by
  refine plain_bind (straight_read (by decide) _) (fun curr => plain_ite ?_ (plain_pure _))
  refine plain_bind (straight_deref curr) (fun t => plain_ite ?_ (plain_pure _))
  exact plain_bind (straight_pushReady curr) (fun _ => straight_setState curr .ready)

/-- One round of the loop of `wake_sleeping_threads`: the count of one record goes
down, and the record may become READY. -/
theorem straight_wakeOne (index : Int) (toDelete : List Int) :
    Straight (wakeOne index toDelete) := by
  refine plain_bind (straight_update index (fun _ => rfl)) (fun _ => ?_)
  refine plain_bind (straight_deref index) (fun t => plain_ite ?_ (plain_pure _))
  refine plain_bind (straight_update index (fun _ => rfl)) (fun _ => ?_)
  refine plain_bind (straight_deref index) (fun t => plain_ite ?_ (plain_pure _))
  refine plain_bind (straight_setState index .ready) (fun _ => ?_)
  refine plain_bind (straight_deref index) (fun t => ?_)
  exact plain_bind (straight_pushReady _) (fun _ => plain_pure _)

/-- The loop over the set, by induction on the ids still to visit. -/
theorem straight_wakeLoop (members : List Int) :
    ∀ toDelete : List Int, Straight (wakeLoop members toDelete) := by
  induction members with
  | nil => exact fun _ => plain_pure _
  | cons index rest ih =>
      intro toDelete
      exact plain_bind (straight_wakeOne index toDelete) (fun xs => ih xs)

/-- The second loop, over the ids that the first one collected. -/
theorem straight_eraseLoop (xs : List Int) : Straight (eraseLoop xs) := by
  induction xs with
  | nil => exact plain_pure _
  | cons index rest ih => exact plain_bind (straight_eraseSleeping index) (fun _ => ih)

/-- `wake_sleeping_threads`, in any order the set is walked in. -/
theorem straight_wakeSleepingThreads (order : IterOrder) :
    Straight (wakeSleepingThreads order) := by
  refine plain_bind (straight_read (by decide) _) (fun members => ?_)
  exact plain_bind (straight_wakeLoop members []) (fun toDelete => straight_eraseLoop toDelete)

/-- The rotation of `remove_tid_from_ready_queue`, by induction on the rounds left. -/
theorem straight_removeLoop (tid : Int) (n : Nat) :
    ∀ tempQueue : List Int, Straight (removeLoop tid n tempQueue) := by
  induction n with
  | zero => exact fun _ => plain_pure _
  | succ n ih =>
      intro tempQueue
      refine plain_bind straight_frontReady_shared (fun front => ?_)
      exact plain_bind straight_popReady (fun _ => ih _)

/-- `remove_tid_from_ready_queue`: the loop, then one assignment of the queue. -/
theorem straight_removeTidFromReadyQueue (tid : Int) : Straight (removeTidFromReadyQueue tid) := by
  refine plain_bind (straight_read (by decide) _) (fun size => ?_)
  exact plain_bind (straight_removeLoop tid size [])
    (fun _ => straight_assign (by decide) (fun _ => ⟨rfl, rfl, rfl, rfl⟩))

/-- The check `tid < 0 || tid >= MAX_THREAD_NUM || !threads[tid]` only reads. -/
theorem straight_unknownTid (tid : Int) : Straight (unknownTid tid) :=
  plain_ite (plain_pure _) (straight_read (by decide) _)

/-- The check `is_legal_id` only reads. -/
theorem straight_legalId (lower : Bool) (tid : Int) : Straight (legalId lower tid) :=
  plain_ite (straight_read (by decide) _) (plain_pure _)

/-- `get_min_available_id`: the heap is read, and its top popped if there is one. -/
theorem straight_getMinAvailableId : Straight getMinAvailableId := by
  refine plain_bind (straight_read (by decide) _) (fun _ => plain_ite (plain_pure _) ?_)
  refine plain_bind straight_topHeap (fun _ => ?_)
  exact plain_bind straight_popHeap (fun _ => plain_pure _)

end UThreads
