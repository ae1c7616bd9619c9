/-
  UThreads.Properties.Teardown
  ────────────────────────────
  **BETWEEN `free_threads` AND `exit`.**

  A call that frees the threads goes on to `unmask_timer(); exit(code);`.  A tick
  that is pending then is delivered before the exit, to a handler that reads a
  freed record.  And unless the call is made by the main thread, the stack that it
  runs on is among what it has freed.  Otherwise the process exits with the status
  it should.
-/
import UThreads.Interrupt.HeapPoints

namespace UThreads

open Interruptible Relation

/-! ## §1. The way out. -/

/-- The call `i` has nothing left to do but to exit with the status `code`, on a stack
that is still there, and with nothing allocated. -/
def AboutToExit (i : Call × Nat) (code : Int) (c : HeapCpu) : Prop :=
  ∃ b p, c.ctrl = .call i b p
    ∧ (Memory.onStack (Memory.runningStack c.mem.1) p).exec c.mem c.mask = .stop (.exit code [])

/-- What is left of it, statement by statement: `unmask_timer(); exit(code);`, or the
exit alone once the timer is unmasked. -/
def Leaving (i : Call × Nat) (code : Int) (c : HeapCpu) : Prop :=
  ∃ b p, c.ctrl = .call i b p ∧ (ShutsDown code p ∨ (Exits code p ∧ sigvtalrm ∉ c.mask))

/-- The handler at its first two statements. -/
def HandlerEntered (order : IterOrder) (c : HeapCpu) : Prop :=
  sigvtalrm ∈ c.mask ∧ ∃ p interrupted m, c.ctrl = .handler p interrupted m
    ∧ (p = Memory.plain (timerHandler order) ∨ ∃ curr, p = Memory.plain
        (sigsetjmp curr .timerHandler >>= fun retVal =>
          if retVal = 0 then setReadyToRun order else pure ()))

section WayOut

variable {order : IterOrder} {i : Call × Nat} {code : Int} {c c' d : HeapCpu} {p : MemLib Int}
  {stack : Option Nat} {x : State × Memory}

/-- An exit runs on a stack, too. -/
theorem Exits.exec (h : Exits code p) (stack : Option Nat) (x : State × Memory) (m : SigSet) :
    (Memory.onStack stack p).exec x m
      = .stop (if Memory.StackLive stack x then .exit code x.2.heap.live else .freedStack) := by
  obtain ⟨α, q, rfl⟩ := h
  by_cases hlive : Memory.StackLive stack x
  · rw [if_pos hlive]
    exact exec_guard_pass (p := (Memory.plain (exit code) : MemLib α) >>= q)
      (fun v hv => List.mem_singleton.mp hv ▸ hlive)
  · rw [if_neg hlive]
    exact exec_guard_fail (p := (Memory.plain (exit code) : MemLib α) >>= q)
      ⟨_, List.mem_singleton_self _, hlive⟩

/-- The way out is an exit, and leaks what is allocated by then. -/
theorem ShutsDown.exec (h : ShutsDown code p) (x : State × Memory) (m : SigSet) :
    p.exec x m = .stop (.exit code x.2.heap.live) := by
  obtain ⟨q, rfl, α, r, rfl⟩ := h
  rfl

/-- When nothing is allocated, there is only the stack of the process. -/
theorem stackLive_nil (hnil : x.2.heap.live = []) : Memory.StackLive stack x ↔ stack = none := by
  unfold Memory.StackLive
  rw [hnil]
  cases stack <;> simp

/-- **On the way out** the exit is reached on the stack of the process only. -/
theorem Leaving.aboutToExit_iff (h : Leaving i code c) (hnil : c.mem.2.heap.live = []) :
    AboutToExit i code c ↔ Memory.runningStack c.mem.1 = none := by
  obtain ⟨b, p, hctrl, hp⟩ := h
  have hexec : (Memory.onStack (Memory.runningStack c.mem.1) p).exec c.mem c.mask
      = .stop (if Memory.StackLive (Memory.runningStack c.mem.1) c.mem
          then .exit code c.mem.2.heap.live else .freedStack) := by
    rcases hp with ⟨q, rfl, hq⟩ | ⟨hp, _⟩
    · exact hq.exec _ c.mem (c.mask \ signalSet)
    · exact hp.exec _ c.mem c.mask
  rw [← stackLive_nil hnil]
  constructor
  · intro hexit
    obtain ⟨b', p', hctrl', hexec'⟩ := hexit
    injection hctrl.symm.trans hctrl' with _ _ hprog
    by_contra hdead
    rw [← hprog, hexec, if_neg hdead] at hexec'
    cases hexec'
  · intro hlive
    rw [if_pos hlive, hnil] at hexec
    exact ⟨b, p, hctrl, hexec⟩

/-- **The step that tears the threads down** is one of a call that ends the process.
It changes nothing else, and the exit follows. -/
theorem tearsDown {c₀ : HeapCpu} (h₀ : HeapBooted c₀)
    (h : ReflTransGen ((heapMachine order).LiveStep (heapContract order)) c₀ c)
    (hlive : c.mem.1.freed = false) (hstep : (heapMachine order).Step c c')
    (hfreed : c'.mem.1.freed = true) :
    ∃ i code, i.1.Ends code ∧ (∃ b p, c.ctrl = .call i b p) ∧ Leaving i code c'
      ∧ c'.mem = (c.mem.1.setFreed, c.mem.2) ∧ c.stops = some (.exit code c.mem.2.heap.live) := by
  have hin : System.Within heapCallFacts heapHandlerFacts c :=
    (System.Within.start h₀.ctrl h₀.conts).run (heapMachine_obeys order)
      (h.lift id (fun _ _ hs => hs.2))
  -- no other statement tears anything down
  have hother : c'.mem.1.freed ≠ c.mem.1.freed := by
    rw [hlive, hfreed]
    decide
  cases hstep with
  | call i b p c' hctrl hnext =>
      have hp := hin.inCall hctrl
      cases hnext with
      | stmt l f k a s hf =>
          rcases (hp c.mem a s hf).1 with ⟨hsame, _⟩ | ⟨hs, code, hends, hshut⟩
          · exact absurd hsame hother
          · refine ⟨i, code, hends, ⟨b, _, hctrl⟩, ⟨_, k a, rfl, Or.inl hshut⟩, hs, ?_⟩
            have hexec := hshut.exec s c.mask
            rw [hs] at hexec hf
            simp only [Config.stops, hctrl, Prog.exec, hf, hexec, Outcome.stopped]
      | setmask g k => exact absurd rfl hother
      | setjmp l save k n s hsave => exact absurd (hp.1 _ _ _ _ hsave).2 hother
      | entry l load m s hl => exact absurd (hp _ _ _ _ hl).2 hother
      | resume l load n m s ctrl hl hn => exact absurd (hp _ _ _ _ hl).2 hother
  | handler p interrupted m c' hctrl hnext =>
      have hF : heapHandlerFacts.Imply (fun x x' : State × Memory => x'.1.freed = x.1.freed) :=
        ⟨fun _ _ _ hfact => hfact, fun _ _ _ _ hfact => hfact, fun _ _ _ _ hfact => hfact⟩
      exact absurd ((hnext.did (hin.inHandler hctrl).1).mem
        (R := fun x x' : State × Memory => x'.1.freed = x.1.freed) rfl hF) hother
  | _ => exact absurd rfl hother

/-- The timer is masked then, so nothing is left allocated. -/
theorem tearsDown_nil {c₀ : HeapCpu} (h₀ : HeapBooted c₀)
    (h : ReflTransGen ((heapMachine order).LiveStep (heapContract order)) c₀ c)
    (hlive : c.mem.1.freed = false) (hstep : (heapMachine order).Step c c')
    (hfreed : c'.mem.1.freed = true) : c'.mem.2.heap.live = [] := by
  obtain ⟨i, code, _, ⟨b, p, hctrl⟩, _, hmem, hstops⟩ := tearsDown h₀ h hlive hstep hfreed
  have hd := heapMachine_disciplined order
  have hinv := hd.run h₀.start h hlive
  have hmask : sigvtalrm ∈ c.mask := by
    by_contra hopen
    cases hinv.running with
    | unblocked hctrl' hmask hgood =>
        -- where the timer is open, a step of a call changes nothing
        rcases hstep.inCall hctrl with rfl | ⟨_, _, rfl⟩ | hnext | ⟨_, _, rfl⟩
        · exact absurd (hlive.symm.trans hfreed) (by decide)
        · exact absurd (hlive.symm.trans hfreed) (by decide)
        · obtain ⟨_, hsame, _⟩ := System.Open.next hd (hctrl ▸ hctrl') hmask hgood hnext
          rw [hsame, hlive] at hfreed
          cases hfreed
        · exact absurd (hlive.symm.trans hfreed) (by decide)
    | call _ _ _ _ _ hmask _ => exact hopen hmask
    | handler _ _ _ _ _ hmask _ _ _ => exact hopen hmask
  rw [hmem]
  rcases section_stop h₀ h hlive hmask hstops with ⟨_, hc⟩ | ⟨_, hc⟩ | hc
  · cases hc
  · injection hc
  · cases hc

/-- **The step lemma** on the way out: on to the exit, or into the handler. -/
theorem Leaving.step (h : Leaving i code c) (hstep : (heapMachine order).Step c c') :
    (Leaving i code c' ∧ c'.mem = c.mem)
      ∨ (c.pending = true ∧ HandlerEntered order c' ∧ c'.mem = c.mem) := by
  obtain ⟨b, p, hctrl, hp⟩ := h
  rcases hstep.inCall hctrl with rfl | ⟨hpending, _, rfl⟩ | hnext | ⟨a, hret, _⟩
  · exact Or.inl ⟨⟨b, p, hctrl, hp⟩, rfl⟩
  · exact Or.inr ⟨hpending, ⟨Finset.mem_insert_self _ _, _, _, _, rfl, Or.inl rfl⟩, rfl⟩
  · rcases hp with ⟨q, rfl, hq⟩ | ⟨⟨α, q, rfl⟩, _⟩
    · -- `unmask_timer()`
      cases hnext with
      | setmask => exact Or.inl ⟨⟨_, q, rfl, Or.inr ⟨hq, unblocks_unmask c.mask⟩⟩, rfl⟩
    · -- no statement follows an exit
      cases hnext with
      | stmt l f k b s hf => cases hf
  · rcases hp with ⟨q, rfl, hq⟩ | ⟨⟨α, q, rfl⟩, _⟩
    · cases hret
    · cases hret

/-- The handler does not get over its `sigsetjmp` when the records are freed. -/
theorem HandlerEntered.step (h : HandlerEntered order c) (hfreed : c.mem.1.freed = true)
    (hstep : (heapMachine order).Step c c') : HandlerEntered order c' ∧ c'.mem = c.mem := by
  obtain ⟨hmask, p, interrupted, m, hctrl, hp⟩ := h
  rcases hstep.inHandler hctrl with rfl | ⟨_, hopen, _⟩ | hnext | ⟨hret, _⟩
  · exact ⟨⟨hmask, p, interrupted, m, hctrl, hp⟩, rfl⟩
  · exact absurd hmask hopen
  · rcases hp with rfl | ⟨curr, rfl⟩
    · cases hnext with
      | stmt l f k b x hf =>
          obtain ⟨s, hs, rfl⟩ := overFst_ok Trap.of (s := c.mem.1) (h := c.mem.2) hf
          injection hs with hs
          injection hs with _ hs
          subst hs
          exact ⟨⟨hmask, _, _, _, rfl, Or.inr ⟨_, rfl⟩⟩, rfl⟩
    · cases hnext with
      | setjmp l save k n x hsave =>
          obtain ⟨s, hs, rfl⟩ := overFst_ok Trap.of (s := c.mem.1) (h := c.mem.2) hsave
          obtain ⟨t, hload, _⟩ := load_map_ok hs
          simp [State.load, hfreed] at hload
  · rcases hp with rfl | ⟨curr, rfl⟩
    · cases hret
    · cases hret

/-- **The run lemma**: from the way out only the exit or the handler is reached. -/
theorem Leaving.run (h : Leaving i code c) (hfreed : c.mem.1.freed = true)
    (hrun : ReflTransGen (heapMachine order).Step c d) :
    d.mem = c.mem ∧ (Leaving i code d ∨ HandlerEntered order d) := by
  induction hrun with
  | refl => exact ⟨rfl, Or.inl h⟩
  | tail _ hstep ih =>
      obtain ⟨hmem, hleaving | hentered⟩ := ih
      · rcases hleaving.step hstep with ⟨hnext, hsame⟩ | ⟨_, hnext, hsame⟩
        · exact ⟨hsame.trans hmem, Or.inl hnext⟩
        · exact ⟨hsame.trans hmem, Or.inr hnext⟩
      · obtain ⟨hnext, hsame⟩ := hentered.step (hmem ▸ hfreed) hstep
        exact ⟨hsame.trans hmem, Or.inr hnext⟩

/-- Who is in the handler is not in the call. -/
theorem HandlerEntered.not_aboutToExit (h : HandlerEntered order c) : ¬ AboutToExit i code c := by
  obtain ⟨_, p, interrupted, m, hctrl, _⟩ := h
  intro hexit
  obtain ⟨b, q, hcall, _⟩ := hexit
  cases hctrl.symm.trans hcall

/-- Without a tick the way out leads to the exit. -/
theorem Leaving.quiet (h : Leaving i code c) (hpending : c.pending = false)
    (hrun : (heapMachine order).QuietRun c d) : Leaving i code d ∧ d.mem = c.mem := by
  induction hrun with
  | refl => exact ⟨h, rfl⟩
  | tail hbefore hstep ih =>
      rcases ih.1.step hstep.1 with ⟨hnext, hsame⟩ | ⟨hp, _, _⟩
      · exact ⟨hnext, hsame.trans ih.2⟩
      · rw [System.quiet_pending hbefore hp] at hpending
        cases hpending

/-- A pending tick gets in. -/
theorem Leaving.delivered (order : IterOrder) (h : Leaving i code c) (hpending : c.pending = true) :
    ∃ d, (heapMachine order).QuietRun c d ∧ HandlerEntered order d := by
  -- once the timer is unmasked
  have hopen : ∀ d : HeapCpu, d.pending = true → sigvtalrm ∉ d.mask →
      ∃ e, (heapMachine order).QuietStep d e ∧ HandlerEntered order e := by
    intro d hp hm
    exact ⟨_, ⟨.deliver hp hm, fun _ => hp⟩, Finset.mem_insert_self _ _, _, _, _, rfl, Or.inl rfl⟩
  obtain ⟨b, p, hctrl, ⟨q, rfl, hq⟩ | ⟨_, hm⟩⟩ := h
  · have hunmask : (heapMachine order).Step c
        { c with mask := c.mask \ signalSet, ctrl := .call i (b || false) q } :=
      .call i b _ _ hctrl (.setmask _ q)
    obtain ⟨e, he, hentered⟩ := hopen
      { c with mask := c.mask \ signalSet, ctrl := .call i (b || false) q } hpending
      (unblocks_unmask c.mask)
    exact ⟨e, .tail (.single ⟨hunmask, fun _ => hpending⟩) he, hentered⟩
  · obtain ⟨e, he, hentered⟩ := hopen c hpending hm
    exact ⟨e, .single he, hentered⟩

end WayOut

/-! ## §2. When nothing gets in. -/

/-- **After `free_threads`** nothing is allocated any more.  At every moment before the
exit, the process goes on to exit with the intended status, and no handler is
entered, exactly if no tick is pending and none arrives, and it is the main thread
that made the call: any other has freed the stack that it runs on. -/
theorem teardown_iff {order : IterOrder} {c₀ c c₁ : HeapCpu} (h₀ : HeapBooted c₀)
    (h : ReflTransGen ((heapMachine order).LiveStep (heapContract order)) c₀ c)
    (hlive : c.mem.1.freed = false) (hstep : (heapMachine order).Step c c₁)
    (hfreed : c₁.mem.1.freed = true) :
    ∃ i code, i.1.Ends code ∧ Leaving i code c₁ ∧ c₁.mem.2.heap.live = []
      ∧ ∀ d, ReflTransGen (heapMachine order).Step c₁ d → Leaving i code d →
          ((∀ e, (heapMachine order).QuietRun d e → AboutToExit i code e)
            ↔ d.pending = false ∧ c.mem.1.currThreadId = 0) := by
  obtain ⟨i, code, hends, ⟨b, p, hctrl⟩, hleaving, hmem, _⟩ := tearsDown h₀ h hlive hstep hfreed
  have hnil := tearsDown_nil h₀ h hlive hstep hfreed
  refine ⟨i, code, hends, hleaving, hnil, fun d hrun hd => ?_⟩
  have hsame : d.mem = c₁.mem := (hleaving.run hfreed hrun).1
  -- the caller's stack, at the end of the call
  have hcaller : Memory.runningStack d.mem.1 = none ↔ c.mem.1.currThreadId = 0 := by
    rw [hsame, hmem]
    exact caller_stack h₀ h hlive ⟨code, hends⟩ hctrl
  have hexit : ∀ e, Leaving i code e → e.mem = d.mem →
      (AboutToExit i code e ↔ c.mem.1.currThreadId = 0) := by
    intro e he hmem'
    rw [he.aboutToExit_iff (by rw [hmem', hsame, hnil]), hmem', hcaller]
  constructor
  · intro hall
    refine ⟨?_, (hexit d hd rfl).mp (hall d .refl)⟩
    by_contra hpending
    obtain ⟨e, he, hentered⟩ := hd.delivered order (Bool.not_eq_false _ ▸ hpending)
    exact hentered.not_aboutToExit (hall e he)
  · intro hboth e he
    obtain ⟨hquiet, hmem'⟩ := hd.quiet hboth.1 he
    exact (hexit e hquiet hmem').mpr hboth.2

/-- The main thread terminates itself: it masks the timer, looks at the table and goes
through the hundred entries. -/
def terminateMain (between : List (Move SigSet (Call × Nat))) : List (Move SigSet (Call × Nat)) :=
  .invoke (.terminate 0, 0) :: .next :: between ++ List.replicate 303 .next

/-- The last step of `free_threads`, and the one behind it. -/
def seenAround (c : HeapCpu) : Option (Bool × Bool × Int × Bool × Bool) :=
  ((heapMachine .listing).move c .next).bind (fun c₁ =>
    ((heapMachine .listing).move c₁ .next).map (fun d =>
      (c.mem.1.freed, c₁.mem.1.freed, c.mem.1.currThreadId, d.pending, decide (sigvtalrm ∉ d.mask))))

/-- The moments around the end of `free_threads`, computed. -/
theorem terminateMain_runs {between : List (Move SigSet (Call × Nat))} {pending : Bool}
    (hrun : ((heapMachine .listing).drive (fun x => !x.1.freed) (terminateMain between)
        startHeapCpu).bind seenAround = some (false, true, 0, pending, true)) :
    ∃ c c₁ d : HeapCpu,
      ReflTransGen ((heapMachine .listing).LiveStep (heapContract .listing)) startHeapCpu c
      ∧ c.mem.1.freed = false ∧ (heapMachine .listing).Step c c₁ ∧ c₁.mem.1.freed = true
      ∧ c.mem.1.currThreadId = 0 ∧ (heapMachine .listing).Step c₁ d ∧ d.pending = pending
      ∧ sigvtalrm ∉ d.mask := by
  obtain ⟨c, hc, hseen⟩ := Option.bind_eq_some_iff.mp hrun
  obtain ⟨c₁, hc₁, hrest⟩ := Option.bind_eq_some_iff.mp hseen
  obtain ⟨d, hd, hobs⟩ := Option.map_eq_some_iff.mp hrest
  injection hobs with hlive hobs
  injection hobs with hfreed hobs
  injection hobs with hcurr hobs
  injection hobs with hpending hmask
  exact ⟨c, c₁, d, heapDrive_run hc, hlive, System.move_sound hc₁, hfreed, hcurr,
    System.move_sound hd, hpending, of_decide_eq_true hmask⟩

/-- The main thread terminates itself, undisturbed. -/
theorem teardown_terminate :
    ∃ c c₁ : HeapCpu,
      ReflTransGen ((heapMachine .listing).LiveStep (heapContract .listing)) startHeapCpu c
      ∧ c.mem.1.currThreadId = 0 ∧ (heapMachine .listing).Step c c₁ ∧ c₁.mem.1.freed = true
      ∧ ∃ i code, i.1.Ends code ∧ Leaving i code c₁ ∧ c₁.mem.2.heap.live = []
        ∧ ∀ d, ReflTransGen (heapMachine .listing).Step c₁ d → Leaving i code d →
            ((∀ e, (heapMachine .listing).QuietRun d e → AboutToExit i code e)
              ↔ d.pending = false ∧ c.mem.1.currThreadId = 0) := by
  have hrun : ((heapMachine .listing).drive (fun x => !x.1.freed) (terminateMain [])
      startHeapCpu).bind seenAround = some (false, true, 0, false, true) := by
    decide +kernel
  obtain ⟨c, c₁, _, hbefore, hlive, hstep, hfreed, hcurr, _, _, _⟩ := terminateMain_runs hrun
  exact ⟨c, c₁, hbefore, hcurr, hstep, hfreed,
    teardown_iff startHeapCpu_booted hbefore hlive hstep hfreed⟩

/-- **A tick after `free_threads`**: it arrives while `uthread_terminate(0)` has
masked the timer, and the handler is entered before the exit. -/
theorem handler_after_free_threads :
    ∃ c c₁ d : HeapCpu,
      ReflTransGen ((heapMachine .listing).LiveStep (heapContract .listing)) startHeapCpu c
      ∧ c.mem.1.freed = false ∧ (heapMachine .listing).Step c c₁ ∧ c₁.mem.1.freed = true
      ∧ ReflTransGen (heapMachine .listing).Step c₁ d
      ∧ ∃ interrupted m,
          d.ctrl = .handler (Memory.plain (timerHandler .listing)) interrupted m := by
  have hrun : ((heapMachine .listing).drive (fun x => !x.1.freed) (terminateMain [.arrive])
      startHeapCpu).bind seenAround = some (false, true, 0, true, true) := by
    decide +kernel
  obtain ⟨c, c₁, d, hbefore, hlive, hstep, hfreed, _, hunmask, hpending, hmask⟩ :=
    terminateMain_runs hrun
  -- the timer is unmasked, and the tick is delivered
  have hdeliver : (heapMachine .listing).Step d ((heapMachine .listing).delivered d) :=
    .deliver hpending hmask
  exact ⟨c, c₁, _, hbefore, hlive, hstep, hfreed, (ReflTransGen.single hunmask).tail hdeliver,
    d.ctrl, d.mask, rfl⟩

end UThreads
