/-
  UThreads.Properties.FreshQuantum
  ────────────────────────────────
  **WHAT A RE-ARMED TIMER DOES NOT TAKE BACK.**

  `set_ready_to_run` re-arms the timer for the thread it dispatches, but
  `setitimer` does not discard a tick that is pending already.  The dispatch
  unblocks the signal, so such a tick preempts the thread before its first
  statement.
-/
import UThreads.Interrupt.Points
import UThreads.Properties.TimerMask

namespace UThreads

open Interruptible Relation

/-! ## §1. The re-arm and the jump. -/

/-- The end of `set_ready_to_run`: `init_timer(); siglongjmp(threads[next]->env, 1);`. -/
def rearm (next : Int) : Lib Unit := do
  initTimer
  siglongjmp next

/-- `set_ready_to_run` is about to re-arm the timer and to dispatch `next`, in a
call that gives up the CPU or in the handler. -/
inductive Rearming (next : Int) : Ctrl State SigSet Stop Access Call Int → Prop where
  | call (i : Call) (begun : Bool) (q : Unit → Lib Int) :
      Rearming next (.call i begun (rearm next >>= q))
  | handler (interrupted : Ctrl State SigSet Stop Access Call Int) (m : SigSet) :
      Rearming next (.handler (rearm next) interrupted m)

section Rearm

variable {order : IterOrder} {c : Cpu} {next : Int} {u : Thread}

/-- What `siglongjmp(threads[next]->env, 1)` reads, and that it is executed. -/
def jumpTo (next : Int) (s : State) : Except Stop (Target × SigSet × State) :=
  (s.load next).map (fun t =>
    (t.env.target, t.env.savedMask, s.record (.resumed next t.env.token t.env.pc)))

/-- The re-arm is one statement, and the jump is the next. -/
theorem Rearming.step (order : IterOrder) (h : Rearming next c.ctrl) :
    ∃ d, (machine order).QuietStep c d ∧ d.ctrl.jump = some (jumpTo next)
      ∧ d.mem = c.mem.rearmed ∧ d.pending = c.pending := by
  generalize hctrl : c.ctrl = ctrl at h
  cases h with
  | call i begun q =>
      exact ⟨_, ⟨.call i begun _ _ hctrl (.stmt _ _ _ () c.mem.rearmed rfl), id⟩, rfl, rfl, rfl⟩
  | handler interrupted m =>
      exact ⟨_, ⟨.handler _ interrupted m _ hctrl (.stmt _ _ _ () c.mem.rearmed rfl), id⟩,
        rfl, rfl, rfl⟩

/-- **The dispatch unblocks the signal at once**, whatever is pending: nothing is
executed in between. -/
theorem CpuReachable.dispatch_opens (h : CpuReachable order c) (hlive : c.mem.freed = false)
    (hrearm : Rearming next c.ctrl) (hu : c.mem.threads.get next = some u) :
    ∃ d, (machine order).QuietRun c d ∧ sigvtalrm ∉ d.mask
      ∧ d.mem = c.mem.rearmed.record (.resumed next u.env.token u.env.pc)
      ∧ d.pending = c.pending := by
  obtain ⟨c₁, hstep, hjump, hmem, hpending⟩ := hrearm.step order
  have hlive₁ : (contract order).alive c₁.mem := by
    rw [hmem]
    exact hlive
  have hinv : (machine order).Inv (contract order) c₁ :=
    (h.inv hlive).step (machine_disciplined order) hstep.1 hlive₁
  have hl : jumpTo next c₁.mem = .ok (u.env.target, u.env.savedMask,
      c.mem.rearmed.record (.resumed next u.env.token u.env.pc)) := by
    rw [hmem]
    show (c.mem.rearmed.load next).map _ = _
    rw [load_of_get (s := c.mem.rearmed) hlive hu]
    rfl
  obtain ⟨d, hrun, hmask, hmem', hpending'⟩ :=
    hinv.jump_opens (machine_disciplined order) hjump hl hlive
  exact ⟨d, .head hstep hrun, hmask, hmem', hpending'.trans hpending⟩

end Rearm

/-! ## §2. When the quantum is fresh. -/

/-- **The thread that is dispatched**, by a self-block, a sleep, a
self-termination or a preemption, is interrupted only by ticks that arrive after
the timer was re-armed, exactly if none is pending at the re-arm.  (What can be
delivered in a run in which nothing arrives was pending before.)  A pending tick
interrupts the thread when nothing has been executed since the dispatch. -/
theorem fresh_quantum_iff {order : IterOrder} {c : Cpu} {next : Int} {u : Thread}
    (h : CpuReachable order c) (hlive : c.mem.freed = false) (hrearm : Rearming next c.ctrl)
    (hu : c.mem.threads.get next = some u) :
    ((∀ d, (machine order).QuietRun c d → ¬ (machine order).Deliverable d) ↔ c.pending = false)
      ∧ (c.pending = true → ∃ d, (machine order).QuietRun c d ∧ (machine order).Deliverable d
          ∧ d.mem = c.mem.rearmed.record (.resumed next u.env.token u.env.pc)) := by
  obtain ⟨d, hrun, hmask, hmem, hpending⟩ := h.dispatch_opens hlive hrearm hu
  have hstale : c.pending = true → (machine order).Deliverable d :=
    fun hp => ⟨hpending.trans hp, hmask⟩
  refine ⟨⟨?_, ?_⟩, fun hp => ⟨d, hrun, hstale hp, hmem⟩⟩
  · intro hall
    by_contra hp
    exact hall d hrun (hstale (Bool.not_eq_false _ ▸ hp))
  · intro hp e he hdeliver
    rw [System.quiet_pending he hdeliver.1] at hp
    cases hp

/-- Thread 1 blocks itself, and a tick arrives when the call has masked the timer. -/
def blockWithTick : List (Move SigSet Call) :=
  .invoke (.spawn ⟨some 4096, true⟩ (some 1)) :: List.replicate 9 .next
    -- a first tick starts thread 1
    ++ .arrive :: .deliver :: List.replicate 15 .next
    ++ .invoke (.block 1) :: .next :: .arrive :: List.replicate 16 .next

theorem blockWithTick_rearms :
    ∃ c u, CpuReachable .listing c ∧ c.mem.freed = false ∧ c.pending = true
      ∧ c.ctrl = .call (.block 1) true (rearm 0 >>= fun _ => finishes successReturnValue)
      ∧ c.mem.threads.get 0 = some u := by
  have hrun : (goOn .listing blockWithTick (startCpu 1000)).map
      (fun c => (c.mem.freed, c.pending, c.ctrl, (c.mem.threads.get 0).isSome))
      = some (false, true,
          .call (.block 1) true (rearm 0 >>= fun _ => finishes successReturnValue), true) := by
    with_unfolding_all rfl
  obtain ⟨c, hc, hobs⟩ := Option.map_eq_some_iff.mp hrun
  injection hobs with hlive hobs
  injection hobs with hpending hobs
  injection hobs with hctrl hsome
  obtain ⟨u, hu⟩ := Option.isSome_iff_exists.mp hsome
  exact ⟨c, u, (cpuReachable_start .listing (by decide)).goOn hc, hlive, hpending, hctrl, hu⟩

theorem fresh_quantum_block :
    ∃ (c : Cpu) (u : Thread), CpuReachable .listing c ∧ c.pending = true
      ∧ ((∀ d, (machine .listing).QuietRun c d → ¬ (machine .listing).Deliverable d)
          ↔ c.pending = false)
      ∧ (c.pending = true → ∃ d, (machine .listing).QuietRun c d ∧ (machine .listing).Deliverable d
          ∧ d.mem = c.mem.rearmed.record (.resumed 0 u.env.token u.env.pc)) := by
  obtain ⟨c, u, hreach, hlive, hpending, hctrl, hu⟩ := blockWithTick_rearms
  exact ⟨c, u, hreach, hpending, fresh_quantum_iff hreach hlive (hctrl ▸ .call _ _ _) hu⟩

/-- **A stale tick**: thread 1 blocks itself, and the handler can interrupt the
main thread, which gets the CPU, on a tick from before its quantum. -/
theorem stale_tick :
    ∃ c d : Cpu, CpuReachable .listing c ∧ c.mem.freed = false
      ∧ c.ctrl = .call (.block 1) true (rearm 0 >>= fun _ => finishes successReturnValue)
      ∧ (machine .listing).QuietRun c d ∧ (machine .listing).Deliverable d
      ∧ ∃ token pc, d.mem.history = c.mem.history ++ [.resumed 0 token pc] := by
  obtain ⟨c, u, hreach, hlive, hpending, hctrl, hu⟩ := blockWithTick_rearms
  obtain ⟨d, hrun, hmask, hmem, hpending'⟩ :=
    hreach.dispatch_opens hlive (hctrl ▸ .call _ _ _) hu
  refine ⟨c, d, hreach, hlive, hctrl, hrun, ⟨hpending'.trans hpending, hmask⟩,
    u.env.token, u.env.pc, ?_⟩
  rw [hmem]
  rfl

end UThreads
