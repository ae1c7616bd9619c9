/-
  UThreads.Properties.Commute
  ───────────────────────────
  **OPERATIONS ON DIFFERENT THREADS COMMUTE.**

  `uthread_block`, `uthread_resume` and `uthread_terminate` of another thread
  each make a `Change` that is local to that thread: its table entry, its places
  in the queue and in the sleeping set, its id in the heap.  Changes of different
  threads commute, but for the order in which two threads join the queue.
-/
import UThreads.Properties.ThreadIds

namespace UThreads

open Interruptible Runs

/-! ## §1. Local changes. -/

/-- What an operation does to one thread: the new table entry; whether the id
leaves the queue, joins its tail, leaves the sleeping set, goes to the heap; and
what the history records. -/
structure Change where
  record : Option Thread
  leaves : Bool
  joins : Bool
  wakes : Bool
  frees : Bool
  events : List JmpEvent

/-- The queue without `tid`, if the thread leaves it. -/
def dropIf (leaves : Bool) (tid : Int) (q : List Int) : List Int :=
  if leaves then q.filter (fun i => decide (i ≠ tid)) else q

/-- What joins the queue. -/
def joinIf (joins : Bool) (tid : Int) : List Int := if joins then [tid] else []

/-- The state after a change of thread `tid`. -/
@[simps] def State.apply (s : State) (tid : Int) (ch : Change) : State :=
  { s with
    threads := s.threads.set tid ch.record
    readyThreads := dropIf ch.leaves tid s.readyThreads ++ joinIf ch.joins tid
    sleepingThreads := if ch.wakes then s.sleepingThreads.erase tid else s.sleepingThreads
    minHeapId := if ch.frees then s.minHeapId.orderedInsert (· ≤ ·) tid else s.minHeapId
    history := s.history ++ ch.events }

/-- A call on another thread. -/
inductive ThreadOp where
  | block
  | resume
  | terminate
  deriving DecidableEq, Repr

def ThreadOp.on (tid : Int) : ThreadOp → Call
  | .block     => .block tid
  | .resume    => .resume tid
  | .terminate => .terminate tid

/-- The change an operation makes to a thread with record `t`. -/
def ThreadOp.change (tid : Int) (t : Thread) (op : ThreadOp) : Change :=
  match op, t.state with
  | .block, .ready       => ⟨some { t with state := .blocked }, true, false, false, false, []⟩
  | .block, .sleeping    => ⟨some { t with state := .blocked }, false, false, false, false, []⟩
  | .resume, .blocked    =>
      if t.sleepingTime = notSleeping
      then ⟨some { t with state := .ready }, false, true, false, false, []⟩
      else ⟨some { t with state := .sleeping }, false, false, false, false, []⟩
  | .terminate, .sleeping => ⟨none, false, false, true, true, [.terminated tid t.quantum]⟩
  | .terminate, _         => ⟨none, true, false, false, true, [.terminated tid t.quantum]⟩
  | _, _                  => ⟨some t, false, false, false, false, []⟩

section Local

variable {order : IterOrder} {s : State} {tid : Int} {t : Thread}

/-- Writing back what is there changes nothing. -/
theorem apply_same (ht : s.threads.get tid = some t) :
    s.apply tid ⟨some t, false, false, false, false, []⟩ = s := by
  apply State.ext <;> simp [← ht, Table.set_get_self, dropIf, joinIf]

/-- **An operation on another thread is its change**, and returns 0. -/
theorem exec_threadOp (hw : WellFormed s) (h0 : tid ≠ 0) (hne : tid ≠ s.currThreadId)
    (ht : s.threads.get tid = some t) (op : ThreadOp) (m : SigSet) :
    ((op.on tid).prog order).exec s m
      = .ret successReturnValue (s.apply tid (op.change tid t)) (signalSet \ signalSet) := by
  have hf := hw.freed
  have hrun : t.state ≠ .running := fun hst => hne (hw.onlyCurr tid t ht hst)
  cases op with
  | block =>
      show (uthreadBlock order tid).exec s m = _
      cases hst : t.state with
      | running => exact absurd hst hrun
      | blocked =>
          rw [exec_uthreadBlock_blocked m order hf h0 ht hst]
          simp only [ThreadOp.change, hst, apply_same ht]
      | sleeping =>
          rw [exec_uthreadBlock_sleeping m order hf h0 ht hst]
          simp only [ThreadOp.change, hst]
          congr 1
          apply State.ext <;> simp [dropIf, joinIf]
      | ready =>
          rw [exec_uthreadBlock_ready m order hf h0 ht hst]
          simp only [ThreadOp.change, hst]
          congr 1
          apply State.ext <;> simp [dropIf, joinIf]
  | resume =>
      show (uthreadResume tid).exec s m = _
      by_cases hst : t.state = .blocked
      · by_cases hsl : t.sleepingTime = notSleeping
        · rw [exec_uthreadResume_blocked m hf h0 ht hst hsl]
          simp only [ThreadOp.change, hst, if_pos hsl]
          congr 1
          apply State.ext <;> simp [dropIf, joinIf]
        · rw [exec_uthreadResume_counting m hf h0 ht hst hsl]
          simp only [ThreadOp.change, hst, if_neg hsl]
          congr 1
          apply State.ext <;> simp [dropIf, joinIf]
      · rw [exec_uthreadResume_other m hf h0 ht hst]
        have hch : ThreadOp.change tid t .resume = ⟨some t, false, false, false, false, []⟩ := by
          cases hs : t.state with
          | blocked => exact absurd hs hst
          | _ => simp only [ThreadOp.change, hs]
        rw [hch, apply_same ht]
  | terminate =>
      show (uthreadTerminate order tid).exec s m = _
      cases hst : t.state with
      | running => exact absurd hst hrun
      | sleeping =>
          rw [exec_uthreadTerminate_sleeping order m hf h0 ht hst (hw.sleepMem tid t ht (Or.inl hst))]
          simp only [ThreadOp.change, hst]
          congr 1
          apply State.ext <;> simp [State.retire, dropIf, joinIf]
      | ready =>
          rw [exec_uthreadTerminate_idle order m hf h0 ht (Or.inl hst)]
          simp only [ThreadOp.change, hst]
          congr 1
          apply State.ext <;> simp [State.retire, dropIf, joinIf]
      | blocked =>
          rw [exec_uthreadTerminate_idle order m hf h0 ht (Or.inr hst)]
          simp only [ThreadOp.change, hst]
          congr 1
          apply State.ext <;> simp [State.retire, dropIf, joinIf]

/-- A change that a call makes keeps the invariant. -/
theorem apply_wellFormed (order : IterOrder) (hw : WellFormed s) (h0 : tid ≠ 0)
    (hne : tid ≠ s.currThreadId) (ht : s.threads.get tid = some t) (op : ThreadOp) :
    WellFormed (s.apply tid (op.change tid t)) := by
  have hs : step order s (.call (op.on tid)) = some (s.apply tid (op.change tid t)) := by
    show settle _ = _
    rw [exec_threadOp hw h0 hne ht op ∅]
    rfl
  exact hw.step hs

/-- Who joins the queue has been resumed, and stays where it stands otherwise. -/
theorem joins_change {op : ThreadOp} (h : (op.change tid t).joins = true) :
    op = .resume ∧ (op.change tid t).leaves = false := by
  cases op with
  | block => cases hst : t.state <;> simp [ThreadOp.change, hst] at h
  | terminate => cases hst : t.state <;> simp [ThreadOp.change, hst] at h
  | resume =>
      refine ⟨rfl, ?_⟩
      cases hst : t.state <;> simp only [ThreadOp.change, hst]
      split <;> rfl

end Local

/-! ## §2. Two changes. -/

/-- The same state, but for the order of the heap's listing and of the queue. -/
structure State.Agree (s₁ s₂ : State) : Prop where
  threads : s₁.threads = s₂.threads
  sleeping : s₁.sleepingThreads = s₂.sleepingThreads
  heap : s₁.minHeapId.Perm s₂.minHeapId
  curr : s₁.currThreadId = s₂.currThreadId
  total : s₁.totalQuantom = s₂.totalQuantom
  timer : s₁.timer = s₂.timer
  len : s₁.quantomLen = s₂.quantomLen
  cerr : s₁.cerr = s₂.cerr
  freed : s₁.freed = s₂.freed

/-- Every thread but `a` and `b` is as it was, and these threads stand in the
queue in the same order. -/
structure State.Beside (a b : Int) (s s' : State) : Prop where
  records : ∀ c, c ≠ a → c ≠ b → s'.threads.get c = s.threads.get c
  sleeping : ∀ c, c ≠ a → c ≠ b → (c ∈ s'.sleepingThreads ↔ c ∈ s.sleepingThreads)
  ready : s'.readyThreads.filter (fun c => decide (c ≠ a ∧ c ≠ b))
    = s.readyThreads.filter (fun c => decide (c ≠ a ∧ c ≠ b))

section Changes

variable {s : State} {a b : Int} {ca cb : Change}

/-- It leaves the other records alone. -/
theorem apply_get_ne (h : b ≠ a) : (s.apply a ca).threads.get b = s.threads.get b :=
  Table.get_set_ne s.threads h _

/-- Two erasures commute. -/
theorem erase_if_comm (p q : Bool) (l : List Int) :
    (if q then (if p then l.erase a else l).erase b else if p then l.erase a else l)
      = if p then (if q then l.erase b else l).erase a else if q then l.erase b else l := by
  cases p <;> cases q <;> first | rfl | exact List.erase_comm a b

/-- Two insertions commute up to the order in the list. -/
theorem insert_if_perm (p q : Bool) (l : List Int) :
    (if q then (if p then l.orderedInsert (· ≤ ·) a else l).orderedInsert (· ≤ ·) b
        else if p then l.orderedInsert (· ≤ ·) a else l).Perm
      (if p then (if q then l.orderedInsert (· ≤ ·) b else l).orderedInsert (· ≤ ·) a
        else if q then l.orderedInsert (· ≤ ·) b else l) := by
  cases p <;> cases q <;> try exact List.Perm.refl _
  -- both ids go to the heap
  have hab := (List.perm_orderedInsert (· ≤ ·) b (l.orderedInsert (· ≤ ·) a)).trans
    ((List.perm_orderedInsert (· ≤ ·) a l).cons b)
  have hba := (List.perm_orderedInsert (· ≤ ·) a (l.orderedInsert (· ≤ ·) b)).trans
    ((List.perm_orderedInsert (· ≤ ·) b l).cons a)
  exact hab.trans ((List.Perm.swap a b l).trans hba.symm)

/-- **Changes of different threads commute**, the queue aside. -/
theorem apply_agree (h : a ≠ b) :
    ((s.apply a ca).apply b cb).Agree ((s.apply b cb).apply a ca) where
  threads := Table.set_comm s.threads h _ _
  sleeping := erase_if_comm ca.wakes cb.wakes s.sleepingThreads
  heap := insert_if_perm ca.frees cb.frees s.minHeapId
  curr := rfl
  total := rfl
  timer := rfl
  len := rfl
  cerr := rfl
  freed := rfl

/-- What is dropped from a queue is dropped from its parts. -/
theorem dropIf_append (p : Bool) (tid : Int) (q q' : List Int) :
    dropIf p tid (q ++ q') = dropIf p tid q ++ dropIf p tid q' := by
  cases p
  · rfl
  · exact List.filter_append q q'

/-- The id that joins is not the one that is dropped. -/
theorem dropIf_joinIf (h : a ≠ b) (p q : Bool) : dropIf q b (joinIf p a) = joinIf p a := by
  cases p <;> cases q <;> simp [dropIf, joinIf, h]

/-- Two removals from the queue commute. -/
theorem dropIf_comm (p q : Bool) (l : List Int) :
    dropIf q b (dropIf p a l) = dropIf p a (dropIf q b l) := by
  cases p <;> cases q <;> first | rfl | exact List.filter_comm _ _ l

/-- The queue after two changes: who stays, then who joins. -/
theorem apply_ready (h : a ≠ b) :
    ((s.apply a ca).apply b cb).readyThreads
      = dropIf cb.leaves b (dropIf ca.leaves a s.readyThreads)
          ++ (joinIf ca.joins a ++ joinIf cb.joins b) := by
  rw [State.apply_readyThreads, State.apply_readyThreads, dropIf_append, dropIf_joinIf h,
      List.append_assoc]

/-- The queue commutes too, unless both threads join it. -/
theorem apply_ready_comm (h : a ≠ b) (hone : ca.joins = false ∨ cb.joins = false) :
    ((s.apply a ca).apply b cb).readyThreads = ((s.apply b cb).apply a ca).readyThreads := by
  rw [apply_ready h, apply_ready h.symm, dropIf_comm]
  rcases hone with hone | hone <;> simp [hone, joinIf]

/-- A change of one thread leaves the others beside it alone. -/
theorem apply_beside (s : State) (tid : Int) (ch : Change) {a b : Int} (h : tid = a ∨ tid = b) :
    s.Beside a b (s.apply tid ch) := by
  have hne : ∀ c, c ≠ a → c ≠ b → c ≠ tid := by
    intro c ha hb he
    rcases h with h | h
    · exact ha (he.trans h)
    · exact hb (he.trans h)
  refine ⟨fun c ha hb => apply_get_ne (hne c ha hb), ?_, ?_⟩
  · intro c ha hb
    rw [State.apply_sleepingThreads]
    split
    · exact List.mem_erase_of_ne (hne c ha hb)
    · exact Iff.rfl
  · have hout : ¬ (tid ≠ a ∧ tid ≠ b) := by tauto
    rw [State.apply_readyThreads, List.filter_append]
    have hjoin : (joinIf ch.joins tid).filter (fun c => decide (c ≠ a ∧ c ≠ b)) = [] := by
      unfold joinIf
      split
      · rw [List.filter_cons_of_neg (by simpa using hout), List.filter_nil]
      · rfl
    rw [hjoin, List.append_nil, dropIf]
    split
    · -- the filter drops `tid` anyway
      rw [List.filter_filter]
      apply List.filter_congr
      intro c _
      by_cases hc : c = tid
      · subst hc
        simp [hout]
      · simp [hc]
    · rfl

/-- One change after another, beside the two threads. -/
theorem State.Beside.trans {s₁ s₂ s₃ : State} (h₁ : s₁.Beside a b s₂) (h₂ : s₂.Beside a b s₃) :
    s₁.Beside a b s₃ where
  records := fun c ha hb => (h₂.records c ha hb).trans (h₁.records c ha hb)
  sleeping := fun c ha hb => (h₂.sleeping c ha hb).trans (h₁.sleeping c ha hb)
  ready := h₂.ready.trans h₁.ready

end Changes

/-! ## §3. Two operations. -/

/-- A live thread that an operation may be about: not the main thread, not the
caller. -/
structure State.Other (s : State) (tid : Int) : Prop where
  live : s.live tid = true
  notMain : tid ≠ 0
  notCurr : tid ≠ s.currThreadId

/-- **Operations on different threads, in either order**: they return the same
and leave the same state, but for the order of the two entries when both threads
join the queue; no third thread notices which order it was. -/
theorem operations_commute {order : IterOrder} {s : State} (h : Reachable order s) {a b : Int}
    (ha : s.Other a) (hb : s.Other b) (hab : a ≠ b) (opA opB : ThreadOp) (m : SigSet) :
    ∃ sA sB sAB sBA m' rA rB,
      ((opA.on a).prog order).exec s m = .ret rA sA m'
        ∧ ((opB.on b).prog order).exec sA m' = .ret rB sAB m'
        ∧ ((opB.on b).prog order).exec s m = .ret rB sB m'
        ∧ ((opA.on a).prog order).exec sB m' = .ret rA sBA m'
        ∧ sAB.Agree sBA
        ∧ (sAB.readyThreads = sBA.readyThreads
            ∨ (opA = .resume ∧ opB = .resume ∧ sAB.readyThreads = s.readyThreads ++ [a, b]
                ∧ sBA.readyThreads = s.readyThreads ++ [b, a]))
        ∧ s.Beside a b sAB ∧ s.Beside a b sBA := by
  have hw := h.wellFormed
  obtain ⟨ta, hta⟩ := Option.isSome_iff_exists.mp ha.live
  obtain ⟨tb, htb⟩ := Option.isSome_iff_exists.mp hb.live
  set ca := opA.change a ta with hca
  set cb := opB.change b tb with hcb
  -- each operation meets the record of its thread as it was
  have hwA : WellFormed (s.apply a ca) := apply_wellFormed order hw ha.notMain ha.notCurr hta opA
  have hwB : WellFormed (s.apply b cb) := apply_wellFormed order hw hb.notMain hb.notCurr htb opB
  have htb' : (s.apply a ca).threads.get b = some tb := (apply_get_ne hab.symm).trans htb
  have hta' : (s.apply b cb).threads.get a = some ta := (apply_get_ne hab).trans hta
  refine ⟨s.apply a ca, s.apply b cb, (s.apply a ca).apply b cb, (s.apply b cb).apply a ca,
    signalSet \ signalSet, successReturnValue, successReturnValue,
    exec_threadOp hw ha.notMain ha.notCurr hta opA m,
    exec_threadOp hwA hb.notMain hb.notCurr htb' opB _,
    exec_threadOp hw hb.notMain hb.notCurr htb opB m,
    exec_threadOp hwB ha.notMain ha.notCurr hta' opA _, apply_agree hab, ?_,
    (apply_beside s a ca (Or.inl rfl)).trans (apply_beside _ b cb (Or.inr rfl)),
    (apply_beside s b cb (Or.inr rfl)).trans (apply_beside _ a ca (Or.inl rfl))⟩
  by_cases hone : ca.joins = false ∨ cb.joins = false
  · exact Or.inl (apply_ready_comm hab hone)
  · -- both threads are resumed into the queue
    have hboth : ca.joins = true ∧ cb.joins = true := by simpa [not_or] using hone
    obtain ⟨hopA, hla⟩ := joins_change hboth.1
    obtain ⟨hopB, hlb⟩ := joins_change hboth.2
    refine Or.inr ⟨hopA, hopB, ?_, ?_⟩
    · rw [apply_ready hab, hla, hlb, hboth.1, hboth.2]
      rfl
    · rw [apply_ready hab.symm, hla, hlb, hboth.1, hboth.2]
      rfl

/-- Two blocked threads. -/
def twoBlockedRun : List Event :=
  [.call (.spawn ⟨some 4096, true⟩ (some 1)), .call (.spawn ⟨some 8192, true⟩ (some 2)),
   .call (.block 1), .call (.block 2)]

/-- Two blocked threads are resumed in either order. -/
theorem operations_commute_twoBlocked :
    ∃ s, run (step .listing) (initialState 1000) twoBlockedRun = some s
      ∧ ∃ sA sB sAB sBA m' rA rB,
        (uthreadResume 1).exec s ∅ = .ret rA sA m' ∧ (uthreadResume 2).exec sA m' = .ret rB sAB m'
          ∧ (uthreadResume 2).exec s ∅ = .ret rB sB m'
          ∧ (uthreadResume 1).exec sB m' = .ret rA sBA m' ∧ sAB.Agree sBA := by
  have hend : (run (step .listing) (initialState 1000) twoBlockedRun).map (fun s =>
      (s.live 1, s.live 2, s.currThreadId)) = some (true, true, 0) := by
    decide +kernel
  obtain ⟨s, hs, hobs⟩ := Option.map_eq_some_iff.mp hend
  injection hobs with hlive₁ hobs
  injection hobs with hlive₂ hcurr
  have hone : s.Other 1 := ⟨hlive₁, by decide, by rw [hcurr]; decide⟩
  have htwo : s.Other 2 := ⟨hlive₂, by decide, by rw [hcurr]; decide⟩
  obtain ⟨sA, sB, sAB, sBA, m', rA, rB, h₁, h₂, h₃, h₄, hagree, _⟩ :=
    operations_commute (reachable_of_run (by decide) hs) hone htwo (by decide) .resume .resume ∅
  exact ⟨s, hs, sA, sB, sAB, sBA, m', rA, rB, h₁, h₂, h₃, h₄, hagree⟩

end UThreads
