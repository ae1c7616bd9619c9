/-
  UThreads.Properties.GetQuantums
  ───────────────────────────────
  **`uthread_get_quantums` CHECKS, LOADS THE POINTER AND READS LATER.**

  The call does not mask the timer, so that other threads can run between its
  check of `threads[tid]`, its load of the pointer and its read of the record.
  What the load and the read find depends on the spawns and terminations of `tid`
  in between: `Living` ties the table to them, and `State.life` counts the records
  that are gone.
-/
import UThreads.Interrupt.Points
import UThreads.Properties.Control
import UThreads.Properties.ThreadIds
import UThreads.Properties.TimerMask

namespace UThreads

open Interruptible Relation Runs

/-! ## §1. Lifetimes. -/

/-- Whether `tid` is live after one more event. -/
def lifeAfter (tid : Int) (alive : Bool) : JmpEvent → Bool
  | .spawned i _ _  => if i = tid then true else alive
  | .saved _ _ _    => alive
  | .resumed _ _ _  => alive
  | .terminated i _ => if i = tid then false else alive

/-- Every termination of `tid` is followed by a spawn. -/
def Survives (tid : Int) (l : List JmpEvent) : Prop :=
  ∀ l₁ quantum l₂, l = l₁ ++ .terminated tid quantum :: l₂ →
    ∃ token address, .spawned tid token address ∈ l₂

/-- **A live thread is live after the events** that it survives. -/
theorem lifeAfter_survives (tid : Int) (l : List JmpEvent) :
    l.foldl (lifeAfter tid) true = true ↔ Survives tid l := by
  induction l using List.reverseRecOn with
  | nil => exact ⟨fun _ l₁ q l₂ hl => by simp at hl, fun _ => rfl⟩
  | append_singleton l ev ih =>
      rw [List.foldl_append, List.foldl_cons, List.foldl_nil]
      -- an event that is no spawn and no termination of `tid`
      have hother : (∀ q, ev ≠ .terminated tid q) → (∀ n a, ev ≠ .spawned tid n a) →
          (Survives tid l ↔ Survives tid (l ++ [ev])) := by
        intro hterm hspawn
        constructor
        · intro h l₁ q l₂ hl
          rcases snoc_split hl with ⟨_, hev⟩ | ⟨l₂', hl'⟩
          · exact absurd hev.symm (hterm q)
          · obtain ⟨n, a, hmem⟩ := h l₁ q l₂' hl'
            rw [hl', List.append_assoc, List.cons_append] at hl
            injection List.append_cancel_left hl with _ hl₂
            exact ⟨n, a, hl₂ ▸ List.mem_append_left _ hmem⟩
        · intro h l₁ q l₂ hl
          obtain ⟨n, a, hmem⟩ := h l₁ q (l₂ ++ [ev]) (by rw [hl, List.append_assoc]; rfl)
          rcases List.mem_append.mp hmem with hmem | hmem
          · exact ⟨n, a, hmem⟩
          · exact absurd (List.mem_singleton.mp hmem).symm (hspawn n a)
      cases ev with
      | spawned i token address =>
          by_cases hi : i = tid
          · subst hi
            simp only [lifeAfter, if_true, true_iff]
            intro l₁ q l₂ hl
            rcases snoc_split hl with ⟨_, hev⟩ | ⟨l₂', hl'⟩
            · cases hev
            · rw [hl', List.append_assoc, List.cons_append] at hl
              injection List.append_cancel_left hl with _ hl₂
              exact ⟨token, address, hl₂ ▸ List.mem_append_right _ (List.mem_singleton_self _)⟩
          · simp only [lifeAfter, if_neg hi]
            rw [ih]
            exact hother (fun q hev => by cases hev) (fun n a hev => hi (by cases hev; rfl))
      | saved i token site =>
          simp only [lifeAfter]
          rw [ih]
          exact hother (fun q hev => by cases hev) (fun n a hev => by cases hev)
      | resumed i token pc =>
          simp only [lifeAfter]
          rw [ih]
          exact hother (fun q hev => by cases hev) (fun n a hev => by cases hev)
      | terminated i quantum =>
          by_cases hi : i = tid
          · subst hi
            simp only [lifeAfter, if_true, Bool.false_eq_true, false_iff]
            intro h
            obtain ⟨n, a, hmem⟩ := h l quantum [] rfl
            cases hmem
          · simp only [lifeAfter, if_neg hi]
            rw [ih]
            exact hother (fun q hev => hi (by cases hev; rfl)) (fun n a hev => by cases hev)

/-- A thread is live if the events of its history say so; the main thread is
live at the start. -/
def Living (s : State) : Prop := ∀ i, s.live i = s.history.foldl (lifeAfter i) (decide (i = 0))

section Effects

variable {order : IterOrder} {s s' p : State} {tid : Int} {t u : Thread} {e : Event}

/-- One entry of the table is written. -/
theorem live_of_set (hr : Table.InRange maxThreadNum tid) {v : Option Thread}
    (hthreads : s'.threads = s.threads.set tid v) (i : Int) :
    s'.live i = if i = tid then v.isSome else s.live i := by
  unfold State.live
  rw [hthreads, Table.get_set _ hr]
  split <;> rfl

/-- The event says what happens to the lives. -/
theorem Living.record (h : Living s) (ev : JmpEvent)
    (hlive : ∀ i, s'.live i = lifeAfter i (s.live i) ev)
    (hhistory : s'.history = s.history ++ [ev]) : Living s' := by
  intro i
  rw [hlive, hhistory, List.foldl_append, ← h i]
  rfl

/-- A record is replaced: nobody is born or dies. -/
theorem live_replace (ht : s.threads.get tid = some t) {t' : Thread}
    (hthreads : s'.threads = s.threads.set tid (some t')) (i : Int) : s'.live i = s.live i := by
  rw [live_of_set (Table.inRange_of_get ht) hthreads]
  split
  · next hi =>
      unfold State.live
      rw [hi, ht]
      rfl
  · rfl

/-- A record is replaced, and the history says nothing. -/
theorem Living.replace (h : Living s) (ht : s.threads.get tid = some t) {t' : Thread}
    (hthreads : s'.threads = s.threads.set tid (some t')) (hhistory : s'.history = s.history) :
    Living s' := by
  intro i
  rw [live_replace ht hthreads, hhistory]
  exact h i

/-- A record is removed, and the history says so. -/
theorem Living.remove (h : Living s) (ht : s.threads.get tid = some t)
    (hthreads : s'.threads = s.threads.set tid none)
    (hhistory : s'.history = s.history ++ [.terminated tid t.quantum]) : Living s' := by
  refine h.record (.terminated tid t.quantum) (fun i => ?_) hhistory
  rw [live_of_set (Table.inRange_of_get ht) hthreads, lifeAfter]
  simp only [eq_comm, Option.isSome_none]

/-- A context is saved, and the history says so. -/
theorem Living.save (h : Living s) (ht : s.threads.get tid = some t) {t' : Thread} {token : Nat}
    {site : JmpSite} (hthreads : s'.threads = s.threads.set tid (some t'))
    (hhistory : s'.history = s.history ++ [.saved tid token site]) : Living s' :=
  h.record (.saved tid token site) (live_replace ht hthreads) hhistory

/-- A suspension ends a life only where the thread terminates itself. -/
theorem Living.suspends (h : Living s) (hcurr : s.threads.get s.currThreadId = some t)
    (hp : Suspends s t e p) : Living p := by
  cases hp with
  | tick mask => exact h.save hcurr rfl rfl
  | block h0 => exact h.save hcurr rfl rfl
  | sleep h0 n => exact h.save hcurr rfl rfl
  | terminate h0 => exact h.remove hcurr rfl rfl

/-- A dispatch resumes a thread, and nobody is born or dies. -/
theorem Living.dispatched (h : Living p) {next : Int} {rest : List Int}
    (hu : p.threads.get next = some u) : Living (p.dispatched order next rest u) := by
  refine h.record (.resumed next u.env.token u.env.pc) (fun i => ?_) (dispatched_history ..)
  show (p.dispatched order next rest u).live i = p.live i
  rw [Bool.eq_iff_iff, ← not_iff_not, Bool.not_eq_true, Bool.not_eq_true, not_live, not_live]
  exact dispatched_get_none hu

/-- **The step lemma**: the history tells of every birth and every death. -/
theorem Living.effect (hw : WellFormed s) (h : Living s) (he : Effect order s e s') :
    Living s' := by
  cases he with
  | reject c line hr => exact h
  | idle c hi => exact h
  | spawn newStack entryPoint newId ids hids =>
      refine h.record (.spawned newId s.nextToken entryPoint) (fun i => ?_) rfl
      rw [live_of_set (s := s) (hw.heap_top_free hids).1 rfl, lifeAfter]
      simp only [eq_comm, Option.isSome_some]
  | retireIdle tid t h0 ht hst => exact h.remove ht rfl rfl
  | retireSleeping tid t h0 ht hst => exact h.remove ht rfl rfl
  | blockSleeping tid t h0 ht hst => exact h.replace ht rfl rfl
  | blockReady tid t h0 ht hst => exact h.replace ht rfl rfl
  | resumeBlocked tid t h0 ht hst hsl => exact h.replace ht rfl rfl
  | resumeCounting tid t h0 ht hst hsl => exact h.replace ht rfl rfl
  | switch e t p next rest u hcurr hrun hp hq hu hready hlive =>
      exact (h.suspends hcurr hp).dispatched hu

end Effects

/-- At the start the main thread lives. -/
theorem initial_living {s : State} (h : Initial s) : Living s := by
  obtain ⟨q, _, rfl⟩ := initial_iff.mp h
  intro i
  unfold State.live
  rw [initialState_get]
  by_cases hi : i = 0
  · subst hi
    rfl
  · rw [if_neg hi]
    exact (decide_eq_false hi).symm

/-- **The run lemma** for the lives. -/
theorem Reachable.living {order : IterOrder} {s : State} (h : Reachable order s) : Living s :=
  h.effect_invariant Living (fun _ => initial_living) (fun _ _ _ hw hI he => hI.effect hw he)

/-- Between two states, the events say whether a live thread is still live. -/
theorem Living.between {s s' : State} (h : Living s) (h' : Living s') {w : List JmpEvent}
    (hw : s'.history = s.history ++ w) {tid : Int} (hborn : s.live tid = true) :
    s'.live tid = true ↔ Survives tid w := by
  rw [h' tid, hw, List.foldl_append, ← h tid, hborn]
  exact lifeAfter_survives tid w

/-! ## §2. The records of an id. -/

/-- `tid` is terminated among the events. -/
def Terminates (tid : Int) (l : List JmpEvent) : Prop := ∃ quantum, .terminated tid quantum ∈ l

/-- The events that are counted are the terminations. -/
theorem ends_iff {tid : Int} {ev : JmpEvent} :
    ev.ends tid = true ↔ ∃ quantum, ev = .terminated tid quantum := by
  cases ev with
  | spawned i token address => simp [JmpEvent.ends]
  | saved i token site => simp [JmpEvent.ends]
  | resumed i token pc => simp [JmpEvent.ends]
  | terminated i quantum =>
      constructor
      · intro hends
        have hi : i = tid := of_decide_eq_true hends
        exact ⟨quantum, hi ▸ rfl⟩
      · intro hev
        obtain ⟨q, hq⟩ := hev
        injection hq with hi
        exact decide_eq_true hi

/-- **The record is still the one of then** exactly if none has been freed since. -/
theorem life_eq_iff {s s' : State} {w : List JmpEvent} (hw : s'.history = s.history ++ w)
    (tid : Int) : s'.life tid = s.life tid ↔ ¬ Terminates tid w := by
  have hcount : s'.life tid = s.life tid + w.countP (JmpEvent.ends tid) := by
    rw [State.life, hw, List.countP_append]
    rfl
  have hzero : s'.life tid = s.life tid ↔ w.countP (JmpEvent.ends tid) = 0 := by omega
  rw [hzero, List.countP_eq_zero]
  constructor
  · intro hnone hends
    obtain ⟨q, hq⟩ := hends
    exact hnone _ hq (ends_iff.mpr ⟨q, rfl⟩)
  · intro hnone ev hev hends
    obtain ⟨q, rfl⟩ := ends_iff.mp hends
    exact hnone ⟨q, hev⟩

/-- Who is not terminated survives. -/
theorem survives_of_not_terminates {tid : Int} {w : List JmpEvent} (h : ¬ Terminates tid w) :
    Survives tid w := by
  intro l₁ q l₂ hl
  exact absurd ⟨q, hl ▸ List.mem_append_right _ (List.mem_cons_self ..)⟩ h

/-! ## §3. Where the call is interrupted. -/

/-- The field access: `return thread->quantum;`. -/
def following (thread : Option RecordPtr) : Lib Int := do
  return (← derefPtr thread).quantum

/-- What follows the check: `return threads[tid]->quantum;`. -/
def reading (tid : Int) : Lib Int := do
  let thread ← loadPtr tid
  following thread

/-- The call has loaded `threads[tid]`. -/
def loaded (tid : Int) (c : Cpu) : Cpu :=
  { c with ctrl := .call (.getQuantums tid) true (following (c.mem.pointer tid)) }

/-- The field access finds the record of `tid`, and returns its count. -/
def Finds (tid : Int) (thread : Option RecordPtr) (s : State) : Prop :=
  ∃ t, s.threads.get tid = some t ∧ ∀ m, (following thread).exec s m = .ret t.quantum s m

/-- The field access stops with the fault `f`. -/
def Faults (thread : Option RecordPtr) (s : State) (f : Fault) : Prop :=
  ∀ m, (following thread).exec s m = .stop (.fault f)

section Reading

variable {order : IterOrder} {c c' : Cpu} {tid : Int} {t : Thread} {s : State}

/-- Through a valid pointer the count is read. -/
theorem exec_following {thread : Option RecordPtr} (m : SigSet) (h : s.follow thread = .ok t) :
    (following thread).exec s m = .ret t.quantum s m := by
  rw [following, exec_bind, exec_derefPtr m h]
  rfl

/-- Through another one nothing is. -/
theorem exec_following_error {thread : Option RecordPtr} {e : Stop} (m : SigSet)
    (h : s.follow thread = .error e) : (following thread).exec s m = .stop e := by
  rw [following, exec_bind, exec_derefPtr_error m h]
  rfl

/-- With nothing in between, load and read find the record. -/
theorem exec_reading (m : SigSet) (hf : s.freed = false) (ht : s.threads.get tid = some t) :
    (reading tid).exec s m = .ret t.quantum s m := by
  rw [reading, exec_bind, loadPtr, exec_read, Outcome.andThen_ret,
    exec_following m (follow_pointer hf ht)]

/-- A null pointer is loaded for a dead thread. -/
theorem pointer_of_dead (h : s.live tid = false) : s.pointer tid = none := by
  rw [State.pointer, not_live.mp h]
  rfl

/-- The field access writes nothing. -/
theorem reads_following (thread : Option RecordPtr) : (following thread).Reads :=
  reads_bind (reads_derefPtr thread) (fun _ => trivial)

/-- Load and field access write nothing. -/
theorem reads_reading (tid : Int) : (reading tid).Reads :=
  reads_bind (reads_read _ _) reads_following

/-- The load is one step. -/
theorem step_loaded (hctrl : c.ctrl = .call (.getQuantums tid) true (reading tid)) :
    (machine order).Step c (loaded tid c) :=
  .call _ true _ _ hctrl (.stmt _ _ _ _ _ rfl)

/-- Code that only reads runs unmasked, so in a reachable state. -/
theorem CpuReachable.reachable_of_reads (h : CpuReachable order c) (hlive : c.mem.freed = false)
    {i : Call} {begun : Bool} {p : Lib Int} (hctrl : c.ctrl = .call i begun p) (hp : p.Reads)
    {s' : State} {r : Int} {m m' : SigSet} (halive : s.freed = false)
    (hexec : p.exec s m = .ret r s' m') : Reachable order c.mem := by
  cases (h.inv hlive).running with
  | unblocked hopen hmask hgood => exact hgood
  | call j b q hcall hq hmask hgood =>
      injection hctrl.symm.trans hcall with _ _ hprog
      exact absurd hq (hprog ▸ hp.not_until halive hexec)
  | handler q interrupted m' hhandler hq hmask hgood hopen hm =>
      cases hctrl.symm.trans hhandler

/-- The history only grows. -/
theorem InCode.history_run (h : InCode c) (hrun : ReflTransGen (machine order).Step c c') :
    c.mem.history <+: c'.mem.history := by
  have hrefl : ∀ s : State, s.history <+: s.history := fun _ => List.prefix_rfl
  have htrans : ∀ s t u : State, s.history <+: t.history → t.history <+: u.history →
      s.history <+: u.history := fun _ _ _ h₁ h₂ => h₁.trans h₂
  refine System.Within.mem_run (R := fun s s' : State => s.history <+: s'.history) hrefl htrans
    (machine_obeys order) ?_ ?_ h hrun
  · intro i
    refine ⟨?_, fun _ _ _ _ h => Saves.grows h, fun _ _ _ _ h => Jumps.grows h⟩
    intro s s' rest hF
    rcases hF with hcalm | ⟨hs, _⟩
    · exact hcalm.grows
    · rw [hs]
      exact List.prefix_rfl
  · exact ⟨fun _ _ _ h => Calm.grows h, fun _ _ _ _ h => Saves.grows h,
      fun _ _ _ _ h => Jumps.grows h⟩

/-- Inside the table the call begins with its check. -/
theorem uthreadGetQuantums_inside (hr : Table.InRange maxThreadNum tid) :
    uthreadGetQuantums tid
      = .stmt .shared (fun s => .ok (s.live tid, s))
          (fun legal => if legal = true then reading tid else .ret failureReturnValue) := by
  have hlower : decide (0 ≤ tid) = true ∧ tid < maxThreadNum := ⟨decide_eq_true hr.1, hr.2⟩
  rw [uthreadGetQuantums, legalId, if_pos hlower]
  rfl

/-- Outside, nothing is read. -/
theorem uthreadGetQuantums_outside (hr : ¬ Table.InRange maxThreadNum tid) :
    uthreadGetQuantums tid = .ret failureReturnValue := by
  have hlower : ¬ (decide (0 ≤ tid) = true ∧ tid < maxThreadNum) :=
    fun h => hr ⟨of_decide_eq_true h.1, h.2⟩
  rw [uthreadGetQuantums, legalId, if_neg hlower]
  rfl

/-- **The check** decides between the read and -1. -/
theorem check_step (hcall : c.ctrl = .call (.getQuantums tid) false (uthreadGetQuantums tid))
    (hstep : (machine order).Step c c') {p : Lib Int}
    (hctrl : c'.ctrl = .call (.getQuantums tid) true p) :
    c'.mem = c.mem
      ∧ p = if c.mem.live tid = true then reading tid else .ret failureReturnValue := by
  rcases hstep.inCall hcall with rfl | ⟨_, _, rfl⟩ | hnext | ⟨r, _, rfl⟩
  · cases hcall.symm.trans hctrl
  · cases hctrl
  · by_cases hr : Table.InRange maxThreadNum tid
    · rw [uthreadGetQuantums_inside hr] at hnext
      cases hnext with
      | stmt l f k legal s' hf =>
          injection hf with hf
          injection hf with hlegal hs
          subst hlegal hs
          injection hctrl with _ _ hprog
          exact ⟨rfl, hprog.symm⟩
    · rw [uthreadGetQuantums_outside hr] at hnext
      cases hnext
  · cases hctrl

end Reading

/-! ## §4. When the read finds a record. -/

/-- **What the load finds decides what the read finds**: between the two, `w₂` has
happened, and `w₁` before the load. -/
theorem reads_iff {s₀ s₂ s₃ : State} {tid : Int} {w₁ w₂ : List JmpEvent} (h₀ : Living s₀)
    (h₂ : Living s₂) (h₃ : s₂.live tid = true → Living s₃) (hf₃ : s₃.freed = false)
    (hborn : s₀.live tid = true) (hw₁ : s₂.history = s₀.history ++ w₁)
    (hw₂ : s₃.history = s₂.history ++ w₂) :
    (Finds tid (s₂.pointer tid) s₃ ↔ Survives tid w₁ ∧ ¬ Terminates tid w₂)
      ∧ (¬ Survives tid w₁ → Faults (s₂.pointer tid) s₃ .nullThread)
      ∧ (Survives tid w₁ → Terminates tid w₂ → Faults (s₂.pointer tid) s₃ .freedThread) := by
  have hlives : s₂.live tid = true ↔ Survives tid w₁ := h₀.between h₂ hw₁ hborn
  -- a null pointer was loaded
  have hnull : ¬ Survives tid w₁ → Faults (s₂.pointer tid) s₃ .nullThread := by
    intro hno m
    rw [← hlives, Bool.not_eq_true] at hno
    rw [pointer_of_dead hno]
    exact exec_following_error m rfl
  -- the record behind the pointer is gone
  have hfreed : Survives tid w₁ → Terminates tid w₂ →
      Faults (s₂.pointer tid) s₃ .freedThread := by
    intro hyes hends m
    obtain ⟨t₂, ht₂⟩ := Option.isSome_iff_exists.mp (hlives.mpr hyes)
    have hlife : s₃.life tid ≠ s₂.life tid := fun h => (life_eq_iff hw₂ tid).mp h hends
    rw [pointer_of_get ht₂]
    exact exec_following_error m (if_neg hlife)
  refine ⟨⟨fun hread => ?_, fun hboth => ?_⟩, hnull, hfreed⟩
  · obtain ⟨t, _, hexec⟩ := hread
    have hret : (following (s₂.pointer tid)).exec s₃ ∅ = .ret t.quantum s₃ ∅ := hexec ∅
    have hyes : Survives tid w₁ := by
      by_contra hno
      cases hret.symm.trans (hnull hno ∅)
    exact ⟨hyes, fun hends => by cases hret.symm.trans (hfreed hyes hends ∅)⟩
  · obtain ⟨hyes, hno⟩ := hboth
    have hlive₂ : s₂.live tid = true := hlives.mpr hyes
    have hlive₃ : s₃.live tid = true :=
      (h₂.between (h₃ hlive₂) hw₂ hlive₂).mpr (survives_of_not_terminates hno)
    obtain ⟨t₂, ht₂⟩ := Option.isSome_iff_exists.mp hlive₂
    obtain ⟨t, ht⟩ := Option.isSome_iff_exists.mp hlive₃
    have hlife : s₃.life tid = s₂.life tid := (life_eq_iff hw₂ tid).mpr hno
    refine ⟨t, ht, fun m => exec_following m ?_⟩
    rw [pointer_of_get ht₂]
    exact (if_pos hlife).trans (load_of_get hf₃ ht)

/-- **`uthread_get_quantums` against other threads.**  A `tid` outside the table
gives -1.  Otherwise, if `tid` is not live at the check, the call returns -1.  If
it is live, then whatever runs until the call loads the pointer, and whatever runs
from there until it reads the field, the read finds the record of `tid`, and
returns its count, exactly if `tid` survives what happens before the load and is
not terminated after it.  If it does not survive, a null pointer is dereferenced;
if it is terminated after the load, a record that has been freed. -/
theorem get_quantums_atomic_iff {order : IterOrder} {c₀ : Cpu} {tid : Int}
    (h : CpuReachable order c₀) (hlive : c₀.mem.freed = false)
    (hcall : c₀.ctrl = .call (.getQuantums tid) false (uthreadGetQuantums tid)) :
    (¬ Table.InRange maxThreadNum tid → uthreadGetQuantums tid = .ret failureReturnValue)
      ∧ ∀ c₁ p, (machine order).Step c₀ c₁ → c₁.ctrl = .call (.getQuantums tid) true p →
          (c₀.mem.live tid = false → p = .ret failureReturnValue)
            ∧ (c₀.mem.live tid = true → p = reading tid
                ∧ ∀ c₂, ReflTransGen ((machine order).LiveStep (contract order)) c₁ c₂ →
                    c₂.mem.freed = false →
                    c₂.ctrl = .call (.getQuantums tid) true (reading tid) →
                    (machine order).Step c₂ (loaded tid c₂)
                    ∧ ∀ c₃, ReflTransGen ((machine order).LiveStep (contract order))
                          (loaded tid c₂) c₃ →
                        c₃.mem.freed = false →
                        c₃.ctrl = .call (.getQuantums tid) true (following (c₂.mem.pointer tid)) →
                        ∃ w₁ w₂, c₂.mem.history = c₀.mem.history ++ w₁
                          ∧ c₃.mem.history = c₂.mem.history ++ w₂
                          ∧ (Finds tid (c₂.mem.pointer tid) c₃.mem
                              ↔ Survives tid w₁ ∧ ¬ Terminates tid w₂)
                          ∧ (¬ Survives tid w₁ → Faults (c₂.mem.pointer tid) c₃.mem .nullThread)
                          ∧ (Survives tid w₁ → Terminates tid w₂ →
                              Faults (c₂.mem.pointer tid) c₃.mem .freedThread)) := by
  refine ⟨uthreadGetQuantums_outside, fun c₁ p hstep hctrl => ?_⟩
  obtain ⟨hmem, hp⟩ := check_step hcall hstep hctrl
  constructor
  · intro hdead
    rw [hp, hdead]
    rfl
  intro hborn
  rw [if_pos hborn] at hp
  refine ⟨hp, fun c₂ hrun hlive₂ hctrl₂ => ⟨step_loaded hctrl₂, fun c₃ hrun' hlive₃ hctrl₃ => ?_⟩⟩
  -- all three moments are reachable states
  obtain ⟨t₀, ht₀⟩ := Option.isSome_iff_exists.mp hborn
  have hgood₀ : Reachable order c₀.mem :=
    h.reachable_of_reads hlive hcall (reads_uthreadGetQuantums tid) hlive
      (exec_uthreadGetQuantums tid c₀.mask hlive)
  have h₁ : CpuReachable order c₁ := h.run (.single ⟨hlive, hstep⟩)
  have h₂ : CpuReachable order c₂ := h₁.run hrun
  have hgood₂ : Reachable order c₂.mem :=
    h₂.reachable_of_reads hlive₂ hctrl₂ (reads_reading tid) hlive
      (exec_reading c₀.mask hlive ht₀)
  have hloaded : CpuReachable order (loaded tid c₂) :=
    h₂.run (.single ⟨hlive₂, step_loaded hctrl₂⟩)
  have h₃ : CpuReachable order c₃ := hloaded.run hrun'
  have hgood₃ : c₂.mem.live tid = true → Living c₃.mem := by
    intro hlive'
    obtain ⟨t₂, ht₂⟩ := Option.isSome_iff_exists.mp hlive'
    exact (h₃.reachable_of_reads hlive₃ hctrl₃ (reads_following _) hlive₂
      (exec_following c₀.mask (follow_pointer hlive₂ ht₂))).living
  -- the events between them
  have hsteps : ∀ a b, (machine order).LiveStep (contract order) a b → (machine order).Step a b :=
    fun _ _ hs => hs.2
  obtain ⟨w₁, hw₁⟩ := h₁.within.history_run (hrun.lift id hsteps)
  rw [hmem] at hw₁
  obtain ⟨w₂, hw₂⟩ := hloaded.within.history_run (hrun'.lift id hsteps)
  exact ⟨w₁, w₂, hw₁.symm, hw₂.symm,
    reads_iff hgood₀.living hgood₂.living hgood₃ hlive₃ hborn hw₁.symm hw₂.symm⟩

/-- The main thread spawns two threads and asks for the quanta of the first. -/
def askQuanta : List (Move SigSet Call) :=
  .invoke (.spawn ⟨some 4096, true⟩ (some 1)) :: List.replicate 9 .next
    ++ .invoke (.spawn ⟨some 8192, true⟩ (some 2)) :: List.replicate 9 .next
    ++ [.invoke (.getQuantums 1)]

/-- Two ticks give the CPU to the second, which terminates the first; a third
tick gives it back. -/
def terminateMeanwhile : List (Move SigSet Call) :=
  .arrive :: .deliver :: List.replicate 15 .next ++ .arrive :: .deliver :: List.replicate 15 .next
    ++ .invoke (.terminate 1) :: List.replicate 13 .next
    ++ .arrive :: .deliver :: List.replicate 16 .next

/-- The call is about to check. -/
theorem askQuanta_runs :
    ∃ c₀, goOn .listing askQuanta (startCpu 1000) = some c₀ ∧ CpuReachable .listing c₀
      ∧ c₀.mem.freed = false
      ∧ c₀.ctrl = .call (.getQuantums 1) false (uthreadGetQuantums 1) := by
  have hctrl : (goOn .listing askQuanta (startCpu 1000)).map (fun c => (c.mem.freed, c.ctrl))
      = some (false, .call (.getQuantums 1) false (uthreadGetQuantums 1)) := by
    with_unfolding_all rfl
  obtain ⟨c₀, hc₀, hobs⟩ := Option.map_eq_some_iff.mp hctrl
  injection hobs with hlive hctrl
  exact ⟨c₀, hc₀, (cpuReachable_start .listing (by decide)).goOn hc₀, hlive, hctrl⟩

/-- The main thread's question, whatever happens while it is asked. -/
theorem get_quantums_atomic_askQuanta :
    ∃ c₀ : Cpu, CpuReachable .listing c₀
      ∧ ∀ c₁ p, (machine .listing).Step c₀ c₁ → c₁.ctrl = .call (.getQuantums 1) true p →
          (c₀.mem.live 1 = false → p = .ret failureReturnValue)
            ∧ (c₀.mem.live 1 = true → p = reading 1
                ∧ ∀ c₂, ReflTransGen ((machine .listing).LiveStep (contract .listing)) c₁ c₂ →
                    c₂.mem.freed = false →
                    c₂.ctrl = .call (.getQuantums 1) true (reading 1) →
                    (machine .listing).Step c₂ (loaded 1 c₂)
                    ∧ ∀ c₃, ReflTransGen ((machine .listing).LiveStep (contract .listing))
                          (loaded 1 c₂) c₃ →
                        c₃.mem.freed = false →
                        c₃.ctrl = .call (.getQuantums 1) true (following (c₂.mem.pointer 1)) →
                        ∃ w₁ w₂, c₂.mem.history = c₀.mem.history ++ w₁
                          ∧ c₃.mem.history = c₂.mem.history ++ w₂
                          ∧ (Finds 1 (c₂.mem.pointer 1) c₃.mem
                              ↔ Survives 1 w₁ ∧ ¬ Terminates 1 w₂)
                          ∧ (¬ Survives 1 w₁ → Faults (c₂.mem.pointer 1) c₃.mem .nullThread)
                          ∧ (Survives 1 w₁ → Terminates 1 w₂ →
                              Faults (c₂.mem.pointer 1) c₃.mem .freedThread)) := by
  obtain ⟨c₀, _, hreach, hlive, hcall⟩ := askQuanta_runs
  exact ⟨c₀, hreach, (get_quantums_atomic_iff hreach hlive hcall).2⟩

/-- **A null pointer is read**: the thread is live at the check and has been
terminated when its pointer is loaded. -/
theorem get_quantums_reads_null :
    ∃ c₀ c₁ c₂ : Cpu, CpuReachable .listing c₀
      ∧ c₀.ctrl = .call (.getQuantums 1) false (uthreadGetQuantums 1)
      ∧ (machine .listing).Step c₀ c₁ ∧ c₁.ctrl = .call (.getQuantums 1) true (reading 1)
      ∧ ReflTransGen ((machine .listing).LiveStep (contract .listing)) c₁ c₂
      ∧ c₂.ctrl = .call (.getQuantums 1) true (reading 1)
      ∧ ∀ m, (reading 1).exec c₂.mem m = .stop (.fault .nullThread) := by
  have hrun : ((goOn .listing askQuanta (startCpu 1000)).bind
      (fun c₀ => ((machine .listing).move c₀ .next).bind
        (fun c₁ => (goOn .listing terminateMeanwhile c₁).map
          (fun c₂ => (c₁.ctrl, c₂.ctrl, (c₂.mem.threads.get 1).isNone)))))
      = some (.call (.getQuantums 1) true (reading 1), .call (.getQuantums 1) true (reading 1),
          true) := by
    with_unfolding_all rfl
  obtain ⟨c₀, hc₀, hreach, hlive, hcall⟩ := askQuanta_runs
  rw [hc₀, Option.bind_some] at hrun
  obtain ⟨c₁, hc₁, hrest⟩ := Option.bind_eq_some_iff.mp hrun
  obtain ⟨c₂, hc₂, hobs⟩ := Option.map_eq_some_iff.mp hrest
  injection hobs with hctrl₁ hobs
  injection hobs with hctrl₂ hnull
  have hdead : c₂.mem.live 1 = false := not_live.mpr (Option.isNone_iff_eq_none.mp hnull)
  refine ⟨c₀, c₁, c₂, hreach, hcall, System.move_sound hc₁, hctrl₁, goOn_run hc₂, hctrl₂,
    fun m => ?_⟩
  rw [reading, exec_bind, loadPtr, exec_read, Outcome.andThen_ret, pointer_of_dead hdead]
  exact exec_following_error m rfl

end UThreads
