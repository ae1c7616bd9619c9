/-
  UThreads.Properties.TimerMask
  ─────────────────────────────
  **THE TIMER IS MASKED IN EVERY SECTION AND NOWHERE ELSE.**

  The invariant of disciplined programs, read off at the machine that executes
  the library statement by statement.  It also justifies the model of events in
  one piece: wherever a tick can be delivered, and whenever user code runs, the
  memory is a state that whole calls and ticks reach.
-/
import UThreads.Interrupt.Discipline

namespace UThreads

open Interruptible Relation

theorem CpuReachable.inv {order : IterOrder} {c : Cpu} (h : CpuReachable order c)
    (hlive : c.mem.freed = false) : (machine order).Inv (contract order) c := by
  obtain ⟨c₀, h₀, hrun⟩ := h
  exact (machine_disciplined order).run h₀.start hrun hlive

/-- **The timer-mask discipline**, until the thread table is freed: user code
runs with `SIGVTALRM` unblocked; it is blocked in the handler and in every call
between its first and its last access to the structures of the scheduler; and
where it is not, the state is one that whole calls and ticks reach. -/
theorem timer_mask_discipline {order : IterOrder} {c : Cpu} (h : CpuReachable order c)
    (hlive : c.mem.freed = false) :
    (c.ctrl = .user → sigvtalrm ∉ c.mask)
      ∧ (c.ctrl.InSection Access.touches Call.Mutates → sigvtalrm ∈ c.mask)
      ∧ (sigvtalrm ∉ c.mask → Reachable order c.mem) := by
  have hinv := h.inv hlive
  refine ⟨fun hctrl => (hinv.inUser hctrl).1, ?_, hinv.delivered⟩
  exact hinv.section (machine_disciplined order) (fun _ hc => not_reads_of_mutates order hc)

/-- A tick that arrives when `uthread_spawn` has just masked the timer waits
until the call is over. -/
theorem timer_mask_discipline_spawn :
    ∃ c : Cpu, CpuReachable .listing c ∧ c.pending = true
      ∧ c.ctrl.InSection Access.touches Call.Mutates ∧ sigvtalrm ∈ c.mask := by
  let spawn : Call := .spawn ⟨some 4096, true⟩ (some 1)
  let c₀ : Cpu := ⟨initialState 1000, ∅, false, .user, fun _ => none⟩
  have h₀ : Booted c₀ :=
    ⟨initial_iff.mpr ⟨1000, by decide, rfl⟩, Finset.notMem_empty _, rfl, fun _ => rfl⟩
  have hinvoke : (machine .listing).Step c₀
      { c₀ with ctrl := .call spawn false (spawn.prog .listing) } := .invoke spawn rfl
  obtain ⟨k, hk⟩ : ∃ k : Lib Int, spawn.prog .listing = .setmask (fun _ => signalSet) k := ⟨_, rfl⟩
  have hmask : (machine .listing).Step { c₀ with ctrl := .call spawn false (spawn.prog .listing) }
      { c₀ with mask := signalSet, ctrl := .call spawn false k } := by
    refine .call spawn false _ _ rfl ?_
    rw [hk]
    exact .setmask _ k
  have harrive : (machine .listing).Step { c₀ with mask := signalSet, ctrl := .call spawn false k }
      { c₀ with mask := signalSet, ctrl := .call spawn false k, pending := true } := .arrive
  have hlive : (contract .listing).alive (initialState 1000) := rfl
  have hreach : CpuReachable .listing
      { c₀ with mask := signalSet, ctrl := .call spawn false k, pending := true } :=
    ⟨c₀, h₀, ((ReflTransGen.single ⟨hlive, hinvoke⟩).tail ⟨hlive, hmask⟩).tail ⟨hlive, harrive⟩⟩
  have hsec : (Ctrl.call spawn false k : Ctrl State SigSet Stop Access Call Int).InSection
      Access.touches Call.Mutates := by
    refine ⟨trivial, Or.inl ?_⟩
    have hk' : spawn.prog .listing = .setmask (fun _ => signalSet) k := hk
    injection hk' with _ hk'
    rw [← hk']
    exact rfl
  exact ⟨_, hreach, rfl, hsec, (timer_mask_discipline hreach rfl).2.1 hsec⟩

/-- **No thread is lost in a switch**: the context that a `siglongjmp` leaves
for has been saved. -/
theorem switch_found {order : IterOrder} {c : Cpu} (h : CpuReachable order c)
    {load : State → Except Stop (Target × SigSet × State)} {n : Nat} {m : SigSet} {s : State}
    (hlive : c.mem.freed = false) (hjump : c.ctrl.jump = some load)
    (hl : load c.mem = .ok (.saved n, m, s)) (hs : s.freed = false) : c.conts n ≠ none :=
  (h.inv hlive).jump_found (machine_disciplined order) hjump hl hs

end UThreads
