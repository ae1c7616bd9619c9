/-
  UThreads.Interrupt.Machine
  ──────────────────────────
  **THE LIBRARY UNDER `SIGVTALRM`, STATEMENT BY STATEMENT.**

  `machine` runs the code of the calls and of the timer handler one statement
  at a time, with a tick between any two of them.  `contract` names what a
  section owes to the next: it leaves a state that the calls and ticks, each
  executed in one piece, can reach.
-/
import UThreads.Lib.Interrupt
import UThreads.Lib.Drive
import UThreads.Effects.Straight
import UThreads.Effects.Calls

namespace UThreads

open Interruptible Runs

/-! ## §1. The machine. -/

/-- The statement touches `threads`, `ready_threads`, `sleeping_threads`,
`min_heap_id` or `curr_thread_id`. -/
def Access.touches : Access → Bool
  | .shared => true
  | .front  => true
  | .other  => false

/-- `SIGVTALRM` is blocked. -/
def TimerBlocked (m : SigSet) : Prop := sigvtalrm ∈ m

/-- The library and its signal: the handler runs with the interrupted mask and
`SIGVTALRM`. -/
def machine (order : IterOrder) : System State SigSet Stop Access Call Int where
  call := Call.prog order
  handler := timerHandler order
  blocked := TimerBlocked
  enter := insert sigvtalrm
  access := Access.touches

/-- A configuration of the machine. -/
abbrev Cpu := Config State SigSet Stop Access Call Int

/-- The calls that change the scheduler. -/
def Call.Mutates : Call → Prop
  | .spawn _ _ | .terminate _ | .block _ | .resume _ | .sleep _ => True
  | .getTid | .getTotalQuantums | .getQuantums _                => False

/-- What the sections owe each other. -/
def contract (order : IterOrder) : Contract State where
  good := Reachable order
  alive := fun s => s.freed = false
  saved := fun s => {n | n ∈ s.savedTokens}

/-- `uthread_init` has just returned to the main program, `SIGVTALRM` is not
blocked, and a tick may be pending. -/
structure Booted (c : Cpu) : Prop where
  mem : Initial c.mem
  mask : sigvtalrm ∉ c.mask
  ctrl : c.ctrl = .user
  conts : ∀ n, c.conts n = none

/-- A configuration reached by any order of statements, ticks and calls, until a
call frees the thread table in order to exit. -/
def CpuReachable (order : IterOrder) (c : Cpu) : Prop :=
  ∃ c₀, Booted c₀ ∧ Relation.ReflTransGen ((machine order).LiveStep (contract order)) c₀ c

/-- A booted machine keeps the contract that its runs start from. -/
theorem Booted.start {order : IterOrder} {c : Cpu} (h : Booted c) :
    (machine order).Start (contract order) c where
  ctrl := h.ctrl
  mask := h.mask
  good := ⟨c.mem, [], h.mem, rfl⟩
  conts := h.conts
  saved := by
    obtain ⟨q, _, hq⟩ := initial_iff.mp h.mem
    have hnil : (initialState q).savedTokens = [] := rfl
    show {n | n ∈ c.mem.savedTokens} = ∅
    rw [hq, hnil]
    simp

/-! ## §2. Runs that are computed. -/

instance : DecidablePred TimerBlocked := fun m => inferInstanceAs (Decidable (sigvtalrm ∈ m))

instance (order : IterOrder) : DecidablePred (machine order).blocked :=
  inferInstanceAs (DecidablePred TimerBlocked)

/-- The main program after `uthread_init(quantum_usecs)`. -/
def startCpu (quantumUsecs : Int) : Cpu :=
  ⟨initialState quantumUsecs, ∅, false, .user, fun _ => none⟩

/-- The machine that `uthread_init` leaves is booted. -/
theorem booted_startCpu {quantumUsecs : Int} (h : 0 < quantumUsecs) :
    Booted (startCpu quantumUsecs) :=
  ⟨initial_iff.mpr ⟨quantumUsecs, h, rfl⟩, Finset.notMem_empty _, rfl, fun _ => rfl⟩

/-- Make a list of moves, as long as the thread table is not freed. -/
def goOn (order : IterOrder) (xs : List (Move SigSet Call)) (c : Cpu) : Option Cpu :=
  (machine order).drive (fun s => !s.freed) xs c

/-- A list of moves that can be made is a run. -/
theorem goOn_run {order : IterOrder} {xs : List (Move SigSet Call)} {c c' : Cpu}
    (h : goOn order xs c = some c') :
    Relation.ReflTransGen ((machine order).LiveStep (contract order)) c c' := by
  refine (System.drive_sound h).lift id (fun a b hstep => ⟨?_, hstep.2⟩)
  have htest : (!a.mem.freed) = true := hstep.1
  show a.mem.freed = false
  simpa using htest

/-- A run goes on from what a run has reached. -/
theorem CpuReachable.run {order : IterOrder} {c c' : Cpu} (h : CpuReachable order c)
    (hrun : Relation.ReflTransGen ((machine order).LiveStep (contract order)) c c') :
    CpuReachable order c' := by
  obtain ⟨c₀, h₀, hbefore⟩ := h
  exact ⟨c₀, h₀, hbefore.trans hrun⟩

/-- What it leads to is reachable. -/
theorem CpuReachable.goOn {order : IterOrder} {xs : List (Move SigSet Call)} {c c' : Cpu}
    (h : CpuReachable order c) (hgo : goOn order xs c = some c') : CpuReachable order c' :=
  h.run (goOn_run hgo)

/-- The start is reachable. -/
theorem cpuReachable_start (order : IterOrder) {quantumUsecs : Int} (h : 0 < quantumUsecs) :
    CpuReachable order (startCpu quantumUsecs) :=
  ⟨_, booted_startCpu h, .refl⟩

/-! ## §3. One piece. -/

/-- The mask a call is made with does not matter: it sets its own, or none. -/
theorem settle_call {order : IterOrder} {s : State} (hf : s.freed = false) (c : Call) (m : SigSet) :
    settle ((c.prog order).exec s m) = step order s (.call c) := by
  cases c with
  | spawn mem entryPoint => rfl
  | terminate tid => rfl
  | block tid => rfl
  | resume tid => rfl
  | sleep n => rfl
  | getTid => rfl
  | getTotalQuantums => rfl
  | getQuantums tid =>
      show settle ((uthreadGetQuantums tid).exec s m) = settle ((uthreadGetQuantums tid).exec s ∅)
      rw [exec_uthreadGetQuantums tid m hf, exec_uthreadGetQuantums tid ∅ hf]
      rfl

end UThreads
