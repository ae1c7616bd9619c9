/-
  UThreads.Interrupt.HeapPoints
  ─────────────────────────────
  **WHAT EACH STATEMENT OF THE ALLOCATING LIBRARY DOES.**

  Only the calls that end the process tear the threads down, on the way to
  `unmask_timer(); exit(code);`; up to there such a call leaves the thread table
  and `curr_thread_id` as it found them.  So whoever makes the call is known at
  its end, and so is the stack that it runs on (`caller_stack`).
-/
import UThreads.Interrupt.Memory
import UThreads.Interrupt.Points

namespace UThreads

open Interruptible Relation

/-! ## §1. The facts. -/

/-- The program is at an `exit(code)`; what follows is dead code. -/
def Exits (code : Int) (p : MemLib Int) : Prop :=
  ∃ (α : Type) (q : α → MemLib Int), p = (Memory.plain (exit code) : MemLib α) >>= q

/-- The program is at `unmask_timer(); exit(code);`. -/
def ShutsDown (code : Int) (p : MemLib Int) : Prop :=
  ∃ q : MemLib Int, p = (Memory.plain unmaskTimer >>= fun _ => q) ∧ Exits code q

/-- The threads, who of them runs, and whether they are torn down. -/
structure Still (s s' : State) : Prop where
  threads : s'.threads = s.threads
  curr : s'.currThreadId = s.currThreadId
  freed : s'.freed = s.freed

/-- What the statements of a call do to the threads. -/
def heapCallFacts (i : Call × Nat) : Facts (State × Memory) SigSet Trap Access Int where
  stmt := fun x x' rest =>
    (x'.1.freed = x.1.freed ∧ (i.1.MayEnd → Still x.1 x'.1))
      ∨ (x' = (x.1.setFreed, x.2) ∧ ∃ code, i.1.Ends code ∧ ShutsDown code rest)
  setmask := fun _ => True
  setjmp := fun _ x _ x' => ¬ i.1.MayEnd ∧ x'.1.freed = x.1.freed
  resumed := fun _ => ¬ i.1.MayEnd
  longjmp := fun x _ _ x' => ¬ i.1.MayEnd ∧ x'.1.freed = x.1.freed

/-- The handler never tears anything down. -/
def heapHandlerFacts : Facts (State × Memory) SigSet Trap Access Unit where
  stmt := fun x x' _ => x'.1.freed = x.1.freed
  setmask := fun _ => True
  setjmp := fun _ x _ x' => x'.1.freed = x.1.freed
  resumed := fun _ => True
  longjmp := fun x _ _ x' => x'.1.freed = x.1.freed

/-! ## §2. Code that does not touch the heap. -/

namespace Memory

variable {order : IterOrder} {c : Call} {record : Nat}

/-- The calls that cannot end the process. -/
theorem zooms_call (hc : ¬ c.MayEnd) :
    (callFacts c).Zooms Trap.of (heapCallFacts (c, record)) where
  stmt := fun _ _ _ _ h => Or.inl ⟨h.elim (fun hcalm => hcalm.freed)
    (fun hends => absurd hends.2 hc), fun hends => absurd hends hc⟩
  setmask := fun _ _ => trivial
  setjmp := fun _ _ _ _ _ h => ⟨hc, h.freed⟩
  resumed := fun _ _ => hc
  longjmp := fun _ _ _ _ _ h => ⟨hc, h.freed⟩

/-- The handler's code is the same with the heap, so what it may do is. -/
theorem zooms_handler : handlerFacts.Zooms Trap.of heapHandlerFacts where
  stmt := fun _ _ _ _ h => h.freed
  setmask := fun _ _ => trivial
  setjmp := fun _ _ _ _ _ h => h.freed
  resumed := fun _ _ => trivial
  longjmp := fun _ _ _ _ _ h => h.freed

/-- The context switch, in a call that goes on behind it. -/
theorem obeys_setReadyToRun (hc : ¬ c.MayEnd) (q : Unit → MemLib Int) :
    (plain (setReadyToRun order)).Obeys ((heapCallFacts (c, record)).before q) := by
  refine obeys_zoom Trap.of (F := handlerFacts) ?_
    (UThreads.obeys_setReadyToRun order lenient_handler)
  exact ⟨fun _ _ _ _ h => Or.inl ⟨h.freed, fun hends => absurd hends hc⟩, fun _ _ => trivial,
    fun _ _ _ _ _ h => ⟨hc, h.freed⟩, fun _ _ => hc, fun _ _ _ _ _ h => ⟨hc, h.freed⟩⟩

/-! ## §3. Code that does. -/

section Rules

variable {α : Type} {p : MemLib α} {q : α → MemLib Int} {i : Call × Nat}

/-- No statement changes the threads. -/
abbrev Quiet {α : Type} (p : MemLib α) : Prop :=
  p.Plain (· ≠ .front) (fun x x' => Still x.1 x'.1)

/-- Code that only works on the heap is quiet. -/
theorem HeapOnly.quiet (hp : HeapOnly p) : Quiet p := by
  refine hp.mono (fun x x' h => ?_)
  rw [h]
  exact ⟨rfl, rfl, rfl⟩

/-- Code over the scheduler that leaves the threads alone is quiet. -/
theorem quiet_plain {p : Lib α} (hp : p.Plain (· ≠ .front) Still) : Quiet (plain p) :=
  plain_zoom Trap.of (fun _ _ _ h => h) hp

/-- A message on `std::cerr` is quiet. -/
theorem quiet_report (pre msg : String) : Quiet (plain (report pre msg)) :=
  quiet_plain (plain_modify (by decide) (fun _ => ⟨rfl, rfl, rfl⟩))

/-- The check of `uthread_terminate` is quiet. -/
theorem quiet_unknownTid (tid : Int) : Quiet (plain (unknownTid tid)) :=
  quiet_plain (plain_ite (plain_pure _) (plain_read (by decide) (fun _ => ⟨rfl, rfl, rfl⟩) _))

/-- Taking an id changes the heap of ids only. -/
theorem quiet_getMinAvailableId : Quiet (plain getMinAvailableId) := by
  refine quiet_plain (plain_bind (plain_read (by decide) (fun _ => ⟨rfl, rfl, rfl⟩) _)
    (fun _ => plain_ite (plain_pure _) ?_))
  refine plain_bind (plain_front (by decide) (fun _ _ _ => ⟨rfl, rfl, rfl⟩)) (fun _ => ?_)
  exact plain_bind (plain_front (by decide) (fun _ _ _ => ⟨rfl, rfl, rfl⟩)) (fun _ => plain_pure _)

/-- Straight-line code in front, in a call that cannot end the process. -/
theorem obeys_straight (hi : ¬ i.1.MayEnd) (hp : Straight p)
    (hq : ∀ a, (q a).Obeys (heapCallFacts i)) : (p >>= q).Obeys (heapCallFacts i) :=
  obeys_bind (hp.obeys (fun _ _ _ h => Or.inl ⟨h.2, fun hends => absurd hends hi⟩)) hq

/-- Code in front that leaves the threads as they are. -/
theorem obeys_quiet (hp : Quiet p) (hq : ∀ a, (q a).Obeys (heapCallFacts i)) :
    (p >>= q).Obeys (heapCallFacts i) :=
  obeys_bind (hp.obeys (fun _ _ _ h => Or.inl ⟨h.freed, fun _ => h⟩)) hq

/-- The end of a call does what it may. -/
theorem obeys_finish (r : Int) :
    (do plain unmaskTimer; return r : MemLib Int).Obeys (heapCallFacts i) :=
  ⟨trivial, trivial⟩

/-- The end of a call that fails does what it may. -/
theorem obeys_reportFinish (pre msg : String) :
    (do plain (report pre msg); plain unmaskTimer; return failureReturnValue : MemLib Int).Obeys
      (heapCallFacts i) :=
  obeys_quiet (quiet_report pre msg) (fun _ => obeys_finish _)

/-- A call masks the timer first. -/
theorem obeys_mask {q : Unit → MemLib Int} (hq : (q ()).Obeys (heapCallFacts i)) :
    (plain maskTimer >>= q).Obeys (heapCallFacts i) := ⟨trivial, hq⟩

/-- An allocation that fails gives the null pointer. -/
theorem obeys_malloc_null {size : Nat} {q : Option Nat → MemLib Int}
    (hq : (q none).Obeys (heapCallFacts i)) : (malloc none size >>= q).Obeys (heapCallFacts i) := by
  intro x b x' h
  injection h with h
  injection h with hb hx
  subst hb hx
  exact ⟨Or.inl ⟨rfl, fun _ => ⟨rfl, rfl, rfl⟩⟩, hq⟩

/-- One that succeeds gives the address. -/
theorem obeys_malloc {address size : Nat} {q : Option Nat → MemLib Int}
    (hq : (q (some address)).Obeys (heapCallFacts i)) :
    (malloc (some address) size >>= q).Obeys (heapCallFacts i) := by
  intro x b x' h
  dsimp only at h
  split at h
  · injection h with h
    injection h with hb hx
    subst hb hx
    exact ⟨Or.inl ⟨rfl, fun _ => ⟨rfl, rfl, rfl⟩⟩, hq⟩
  · cases h

/-- **`free_threads(); unmask_timer(); exit(code);`**: the blocks are freed one by one,
and then the threads are gone. -/
theorem obeys_free {code : Int} (hi : i.1.Ends code) {q : α → MemLib Int} :
    (freeThreads >>= fun _ => plain unmaskTimer >>= fun _ =>
      (plain (exit code) : MemLib α) >>= q).Obeys (heapCallFacts i) := by
  show ((freeLoop (List.range maxThreadNum) >>= fun _ => plain markFreed) >>= _).Obeys _
  rw [prog_bind_assoc]
  refine obeys_quiet (heapOnly_freeLoop _).quiet (fun _ => ?_)
  rintro ⟨s, mem⟩ b x' h
  obtain ⟨s', hs, rfl⟩ := overFst_ok Trap.of h
  injection hs with hs
  injection hs with _ hs
  subst hs
  refine ⟨Or.inr ⟨rfl, code, hi, _, rfl, α, q, rfl⟩, trivial, ?_⟩
  -- nothing follows the exit
  intro x b x' h
  cases h

end Rules

/-- `uthread_spawn`: the mark of `free_threads` is followed by the way out on both of
its failing ways. -/
theorem obeys_uthreadSpawn (answers : Malloc) (entryPoint : Option Nat) :
    (uthreadSpawn answers record entryPoint).Obeys
      (heapCallFacts (.spawn answers entryPoint, record)) := by
  refine obeys_mask ?_
  cases entryPoint with
  | none => exact obeys_reportFinish _ _
  | some entryPoint =>
      refine obeys_quiet quiet_getMinAvailableId (fun newId => obeys_ite (obeys_reportFinish _ _) ?_)
      obtain ⟨stack, thread⟩ := answers
      cases stack with
      | none =>
          have hends : (Call.spawn ⟨none, thread⟩ (some entryPoint)).Ends 1 :=
            ⟨fun hmem => Bool.false_ne_true hmem.1, rfl⟩
          refine obeys_malloc_null ?_
          exact obeys_quiet (quiet_report _ _) (fun _ => obeys_free hends (q := pure))
      | some newStack =>
          cases thread with
          | false =>
              have hends : (Call.spawn ⟨some newStack, false⟩ (some entryPoint)).Ends 1 :=
                ⟨fun hmem => Bool.false_ne_true hmem.2, rfl⟩
              refine obeys_malloc (obeys_malloc_null ?_)
              refine obeys_quiet (heapOnly_free _).quiet (fun _ => ?_)
              exact obeys_quiet (quiet_report _ _) (fun _ => obeys_free hends (q := pure))
          | true =>
              have hno : ¬ (Call.spawn ⟨some newStack, true⟩ (some entryPoint)).MayEnd :=
                fun hends => hends.elim (fun _ h => h.1 ⟨rfl, rfl⟩)
              refine obeys_malloc (obeys_malloc ?_)
              refine obeys_straight hno (straight_plain straight_freshToken) (fun token => ?_)
              refine obeys_straight hno (straight_putThread _ _ _ rfl) (fun _ => ?_)
              exact obeys_straight hno (straight_plain (straight_pushReady newId))
                (fun _ => obeys_finish newId)

/-- `uthread_terminate`: the mark of `free_threads` is followed by the way out when the
main thread is to end, and is not made otherwise. -/
theorem obeys_uthreadTerminate (tid : Int) :
    (uthreadTerminate order tid).Obeys (heapCallFacts (.terminate tid, record)) := by
  refine obeys_mask ?_
  refine obeys_quiet (quiet_unknownTid tid) (fun _ => obeys_ite (obeys_reportFinish _ _) ?_)
  by_cases h0 : tid = 0
  · have hends : (Call.terminate tid).Ends 0 := ⟨h0, rfl⟩
    rw [if_pos h0]
    exact obeys_free hends
  rw [if_neg h0]
  have hno : ¬ (Call.terminate tid).MayEnd := fun hends => hends.elim (fun _ h => h0 h.1)
  refine obeys_quiet (heapOnly_deref tid).quiet (fun target => obeys_ite ?_ ?_)
  · refine obeys_straight hno (straight_removeThread tid) (fun _ => ?_)
    refine obeys_straight hno (straight_plain (straight_pushHeap tid)) (fun _ => ?_)
    exact obeys_straight hno (straight_plain (straight_removeTidFromReadyQueue tid))
      (fun _ => obeys_finish _)
  refine obeys_quiet (heapOnly_deref tid).quiet (fun target => obeys_ite ?_ ?_)
  · refine obeys_straight hno (straight_plain (straight_eraseSleeping tid)) (fun _ => ?_)
    refine obeys_straight hno (straight_removeThread tid) (fun _ => ?_)
    exact obeys_straight hno (straight_plain (straight_pushHeap tid)) (fun _ => obeys_finish _)
  refine obeys_quiet (heapOnly_deref tid).quiet (fun target => obeys_ite ?_ (obeys_finish _))
  refine obeys_straight hno (straight_removeThread tid) (fun _ => ?_)
  refine obeys_straight hno (straight_plain (straight_pushHeap tid)) (fun _ => ?_)
  refine obeys_straight hno (straight_plain (straight_assign (by decide)
    (fun _ => ⟨rfl, rfl, rfl, rfl⟩))) (fun _ => ?_)
  exact obeys_bind (obeys_setReadyToRun hno _) (fun _ => obeys_finish _)

end Memory

/-- **The allocating library obeys the facts.** -/
theorem heapMachine_obeys (order : IterOrder) :
    (heapMachine order).Obeys heapCallFacts heapHandlerFacts where
  call := by
    rintro ⟨c, record⟩
    cases c with
    | spawn answers entryPoint => exact Memory.obeys_uthreadSpawn answers entryPoint
    | terminate tid => exact Memory.obeys_uthreadTerminate tid
    | block tid =>
        exact obeys_zoom Trap.of (Memory.zooms_call (fun h => h.elim (fun _ => id)))
          (obeys_uthreadBlock order tid)
    | resume tid =>
        exact obeys_zoom Trap.of (Memory.zooms_call (fun h => h.elim (fun _ => id)))
          (obeys_uthreadResume tid)
    | sleep n =>
        exact obeys_zoom Trap.of (Memory.zooms_call (fun h => h.elim (fun _ => id)))
          (obeys_uthreadSleep order n)
    | getTid =>
        exact obeys_zoom Trap.of (Memory.zooms_call (fun h => h.elim (fun _ => id)))
          ((straight_read (by decide) _).obeys (lenient_call _).stmt)
    | getTotalQuantums =>
        exact obeys_zoom Trap.of (Memory.zooms_call (fun h => h.elim (fun _ => id)))
          ((straight_read (by decide) _).obeys (lenient_call _).stmt)
    | getQuantums tid =>
        exact obeys_zoom Trap.of (Memory.zooms_call (fun h => h.elim (fun _ => id)))
          (obeys_uthreadGetQuantums tid)
  handler := obeys_zoom Trap.of Memory.zooms_handler (obeys_timerHandler order)

/-! ## §4. Who makes a call that ends the process. -/

/-- **The caller**: up to the exit, the table and `curr_thread_id` are those of a state
in which user code runs. -/
theorem caller_found {order : IterOrder} {c₀ c : HeapCpu} (h₀ : HeapBooted c₀)
    (h : ReflTransGen ((heapMachine order).LiveStep (heapContract order)) c₀ c)
    (halive : c.mem.1.freed = false) {i : Call × Nat} (hi : i.1.MayEnd) {b : Bool} {p : MemLib Int}
    (hctrl : c.ctrl = .call i b p) :
    ∃ s, Reachable order s ∧ c.mem.1.threads = s.threads
      ∧ c.mem.1.currThreadId = s.currThreadId := by
  have hF : (heapCallFacts i).Imply (fun x x' : State × Memory =>
      x'.1.threads = x.1.threads ∧ x'.1.currThreadId = x.1.currThreadId) := by
    refine ⟨fun x x' rest hfact => ?_, fun _ _ _ _ hfact => absurd hi hfact.1,
      fun _ _ _ _ hfact => absurd hi hfact.1⟩
    rcases hfact with ⟨_, hstill⟩ | ⟨rfl, _⟩
    · exact ⟨(hstill hi).threads, (hstill hi).curr⟩
    · exact ⟨rfl, rfl⟩
  obtain ⟨x, hgood, hthreads, hcurr⟩ := System.Within.origin (fun _ => ⟨rfl, rfl⟩)
    (fun _ _ _ h₁ h₂ => ⟨h₂.1.trans h₁.1, h₂.2.trans h₁.2⟩) (heapMachine_disciplined order)
    (heapMachine_obeys order) hF (fun _ hno => hno hi) h₀.start h halive hctrl
  exact ⟨x.1, (Memory.Reachable.sound hgood).1, hthreads, hcurr⟩

/-- It is the main thread exactly if it runs on the stack of the process. -/
theorem caller_stack {order : IterOrder} {c₀ c : HeapCpu} (h₀ : HeapBooted c₀)
    (h : ReflTransGen ((heapMachine order).LiveStep (heapContract order)) c₀ c)
    (halive : c.mem.1.freed = false) {i : Call × Nat} (hi : i.1.MayEnd) {b : Bool} {p : MemLib Int}
    (hctrl : c.ctrl = .call i b p) :
    Memory.runningStack c.mem.1 = none ↔ c.mem.1.currThreadId = 0 := by
  obtain ⟨s, hs, hthreads, hcurr⟩ := caller_found h₀ h halive hi hctrl
  have hstack := Memory.runningStack_none hs
  unfold Memory.runningStack at hstack ⊢
  rw [hthreads, hcurr]
  exact hstack

end UThreads
