/-
  UThreads.Interrupt.Memory
  ─────────────────────────
  **THE ALLOCATING LIBRARY UNDER `SIGVTALRM`, STATEMENT BY STATEMENT.**

  `heapMachine` executes the library with its allocations as `machine` executes
  it without: one statement at a time, with a tick between any two of them.
  Each `malloc` and `free` stands in a section that masks the timer, so the
  discipline carries over; the code that neither allocates nor frees is the
  code of `machine`, next to the heap.
-/
import UThreads.Interrupt.Discipline
import UThreads.Lib.Serial
import UThreads.Properties.Memory

namespace UThreads

open Interruptible Runs

/-! ## §1. The machine. -/

/-- The library with its allocations, and its signal.  A call comes with the
address of the record that it allocates, if it does. -/
def heapMachine (order : IterOrder) :
    System (State × Memory) SigSet Trap Access (Call × Nat) Int where
  call i := Memory.prog order i.2 i.1
  handler := Memory.plain (timerHandler order)
  blocked := TimerBlocked
  enter := insert sigvtalrm
  access := Access.touches

/-- A configuration of the machine. -/
abbrev HeapCpu := Config (State × Memory) SigSet Trap Access (Call × Nat) Int

/-- What the sections owe each other: states and memories that runs of whole
calls and ticks reach. -/
def heapContract (order : IterOrder) : Contract (State × Memory) where
  good := Memory.Reachable order
  alive := fun x => x.1.freed = false
  saved := fun x => {n | n ∈ x.1.savedTokens}

/-- `uthread_init` has just returned to the main program. -/
structure HeapBooted (c : HeapCpu) : Prop where
  mem : Memory.Initial c.mem
  mask : sigvtalrm ∉ c.mask
  ctrl : c.ctrl = .user
  conts : ∀ n, c.conts n = none

/-- The event that a section is. -/
def heapEvent : Entry (Call × Nat) SigSet → Event × Nat
  | .call i   => (.call i.1, i.2)
  | .signal m => (.tick m, 0)

/-- The steps of the machine from `c₀`, and the sections they begin. -/
abbrev HeapSections (order : IterOrder) :
    HeapCpu → List (Entry (Call × Nat) SigSet) → HeapCpu → Prop :=
  Trace (heapMachine order) (heapContract order)

/-- The contract with the heap asks for what the one without asks for, and more. -/
theorem heapContract_extends (order : IterOrder) :
    (heapContract order).Extends (contract order) where
  good := fun _ _ h => (Memory.Reachable.sound h).1
  alive := fun _ _ h => h
  saved := fun _ _ => rfl

/-! ## §2. Sections with allocations. -/

namespace Memory

/-- No context is saved, and the threads are not torn down. -/
def Mild (x x' : State × Memory) : Prop :=
  x'.1.savedTokens = x.1.savedTokens ∧ x'.1.freed = x.1.freed

/-- No statement jumps, changes the mask or saves a context. -/
abbrev Straight {α : Type} (p : MemLib α) : Prop := p.Plain (· ≠ .front) Mild

/-- Every statement leaves the scheduler alone. -/
abbrev HeapOnly {α : Type} (p : MemLib α) : Prop :=
  p.Plain (· ≠ .front) (fun x x' => x'.1 = x.1)

/-- Work of the library that ends in `E`. -/
abbrev Works (order : IterOrder) {α : Type} (E : MemLib α → Prop) (p : MemLib α) : Prop :=
  p.Until (heapContract order) TimerBlocked E

section Statements

variable {α : Type}

/-- Code that only works on the heap is straight. -/
theorem HeapOnly.straight {p : MemLib α} (hp : HeapOnly p) : Straight p := by
  refine hp.mono (fun x x' h => ?_)
  unfold Mild
  rw [h]
  exact ⟨rfl, rfl⟩

/-- Code that leaves the heap alone is as straight as it was without one. -/
theorem straight_plain {p : Lib α} (hp : UThreads.Straight p) : Straight (plain p) :=
  plain_zoom Trap.of (fun _ _ _ h => ⟨h.tokens, h.freed⟩) hp

/-- A single statement. -/
theorem heapOnly_stmt {l : Access} (hl : l ≠ .front)
    {f : State × Memory → Except Trap (α × (State × Memory))}
    (hf : ∀ x b x', f x = .ok (b, x') → x'.1 = x.1) : HeapOnly (.stmt l f .ret) :=
  ⟨hl, hf, fun _ => trivial⟩

/-- `malloc` works on the heap only. -/
theorem heapOnly_malloc (answer : Option Nat) (size : Nat) : HeapOnly (malloc answer size) := by
  refine heapOnly_stmt (by decide) (fun x b x' h => ?_)
  cases answer with
  | none =>
      injection h with h
      injection h with _ hx
      rw [← hx]
  | some address =>
      dsimp only at h
      split at h
      · injection h with h
        injection h with _ hx
        rw [← hx]
      · cases h

/-- So does `free`. -/
theorem heapOnly_free (pointer : Option Nat) : HeapOnly (free pointer) := by
  refine heapOnly_stmt (by decide) (fun x b x' h => ?_)
  cases pointer with
  | none =>
      injection h with h
      injection h with _ hx
      rw [← hx]
  | some address =>
      dsimp only at h
      split at h
      · injection h with h
        injection h with _ hx
        rw [← hx]
      · cases h

/-- Loading an entry of the table works on nothing. -/
theorem heapOnly_entry (tid : Int) : HeapOnly (entry tid) := by
  refine heapOnly_stmt (by decide) (fun x b x' h => ?_)
  injection h with h
  injection h with _ hx
  rw [← hx]

/-- Looking whether a record is still there works on nothing either. -/
theorem heapOnly_checkLive (tid : Int) : HeapOnly (checkLive tid) := by
  refine heapOnly_stmt (by decide) (fun x b x' h => ?_)
  split at h
  · injection h with h
    injection h with _ hx
    rw [← hx]
  · split at h
    · injection h with h
      injection h with _ hx
      rw [← hx]
    · cases h

/-- Reading a record works on nothing. -/
theorem heapOnly_deref (tid : Int) : HeapOnly (deref tid) := by
  refine plain_bind (heapOnly_checkLive tid) (fun _ => ?_)
  refine plain_zoom Trap.of (R := fun s s' => s' = s) (fun _ _ _ h => h)
    ⟨by decide, fun s b s' h => ?_, fun _ => trivial⟩
  obtain ⟨t, _, hmap⟩ := load_map_ok h
  injection hmap with _ hs
  exact hs.symm

/-- The loop of `free_threads` only frees: by induction on the ids. -/
theorem heapOnly_freeLoop : ∀ is : List Nat, HeapOnly (freeLoop is) := by
  intro is
  induction is with
  | nil => exact plain_pure ()
  | cons i is ih =>
      have hrest : HeapOnly (do free (← entry i); freeLoop is : MemLib Unit) :=
        plain_bind (heapOnly_entry i) (fun _ => plain_bind (heapOnly_free _) (fun _ => ih))
      refine plain_bind (heapOnly_entry i) (fun _ => plain_ite ?_ hrest)
      refine plain_bind (heapOnly_deref i) (fun _ => plain_ite ?_ hrest)
      exact plain_bind (heapOnly_free _) (fun _ => hrest)

/-- Writing an entry of the table saves no context. -/
theorem straight_putThread (tid : Int) (t : Thread) (pointer : Nat) {ev : JmpEvent}
    (hev : ev.savedToken = none) : Straight (putThread tid t pointer (fun s => s.record ev)) := by
  refine ⟨by decide, fun x b x' h => ?_, fun _ => trivial⟩
  injection h with h
  injection h with _ hx
  rw [← hx]
  exact ⟨savedTokens_record hev, rfl⟩

/-- The four statements that remove a thread save no context. -/
theorem straight_removeThread (tid : Int) : Straight (removeThread tid) := by
  refine plain_bind (heapOnly_deref tid).straight (fun target => ?_)
  refine plain_bind (heapOnly_free _).straight (fun _ => ?_)
  refine plain_bind (plain_bind (heapOnly_checkLive tid).straight (fun _ =>
    straight_plain (straight_update tid (fun _ => rfl)))) (fun _ => ?_)
  refine plain_bind (heapOnly_entry tid).straight (fun _ => ?_)
  refine plain_bind (heapOnly_free _).straight (fun _ => ?_)
  refine ⟨by decide, fun x b x' h => ?_, fun _ => trivial⟩
  injection h with h
  injection h with _ hx
  rw [← hx]
  exact ⟨savedTokens_record rfl, rfl⟩

end Statements

section Rules

variable {order : IterOrder} {α β : Type} {E : MemLib β → Prop}

/-- Straight code behind a mask is work like any other. -/
theorem works_straight {p : MemLib α} {q : α → MemLib β} (hp : Straight p)
    (hq : ∀ a, Works order E (q a)) : Works order E (p >>= q) := by
  refine until_bind hp ?_ hq
  intro x x' hmild _ n hn
  have hn' : n ∈ x'.1.savedTokens := hn
  rw [hmild.1] at hn'
  exact hn'

/-- So is straight code of the library without the heap. -/
theorem works_plain {p : Lib α} {q : α → MemLib β} (hp : UThreads.Straight p)
    (hq : ∀ a, Works order E (q a)) : Works order E (plain p >>= q) :=
  works_straight (straight_plain hp) hq

/-- Nothing is asked of the code after `free_threads`. -/
theorem works_free {q : Unit → MemLib β} : Works order E (freeThreads >>= q) := by
  have hlast : Works order E (plain markFreed >>= q) := by
    rintro ⟨s, mem⟩ b x' hf halive
    obtain ⟨s', hs, rfl⟩ := overFst_ok Trap.of hf
    injection hs with hs
    injection hs with _ hs
    have hfreed : s'.freed = false := halive
    rw [← hs] at hfreed
    cases hfreed
  show Works order E ((freeLoop (List.range maxThreadNum) >>= fun _ => plain markFreed)
    >>= q)
  rw [prog_bind_assoc]
  exact works_straight (heapOnly_freeLoop _).straight (fun _ => hlast)

/-- The end of every call: `unmask_timer(); return r;`. -/
theorem works_finish (r : Int) : Works order (Prog.Unblocks TimerBlocked)
    (do plain unmaskTimer; return r : MemLib Int) :=
  ⟨_, r, rfl, unblocks_unmask⟩

/-- The end of a call that fails. -/
theorem works_reportFinish (pre msg : String) : Works order (Prog.Unblocks TimerBlocked)
    (do plain (report pre msg); plain unmaskTimer; return failureReturnValue : MemLib Int) :=
  works_plain (straight_report pre msg) (fun _ => works_finish _)

end Rules

section Calls

variable (order : IterOrder)

/-- A call masks the timer, and then works to its end. -/
theorem blocks_call {q : Unit → MemLib Int} (hq : Works order (Prog.Unblocks TimerBlocked) (q ())) :
    (plain maskTimer >>= q).Blocks (heapContract order) TimerBlocked :=
  ⟨_, q (), rfl, fun _ => mem_signalSet, hq⟩

/-- `uthread_spawn` masks the timer before its first allocation. -/
theorem blocks_uthreadSpawn (answers : Malloc) (record : Nat) (entryPoint : Option Nat) :
    (uthreadSpawn answers record entryPoint).Blocks (heapContract order) TimerBlocked := by
  refine blocks_call order ?_
  cases entryPoint with
  | none => exact works_reportFinish _ _
  | some entryPoint =>
      refine works_plain straight_getMinAvailableId (fun newId =>
        until_ite (works_reportFinish _ _) ?_)
      refine works_straight (heapOnly_malloc _ _).straight (fun stack => ?_)
      cases stack with
      | none => exact works_plain (straight_report _ _) (fun _ => works_free)
      | some newStack =>
          refine works_straight (heapOnly_malloc _ _).straight (fun thread => ?_)
          cases thread with
          | none =>
              refine works_straight (heapOnly_free _).straight (fun _ => ?_)
              exact works_plain (straight_report _ _) (fun _ => works_free)
          | some newThread =>
              refine works_plain straight_freshToken (fun token => ?_)
              refine works_straight (straight_putThread _ _ _ rfl) (fun _ => ?_)
              exact works_plain (straight_pushReady newId) (fun _ => works_finish newId)

/-- `uthread_terminate` masks it before its first release. -/
theorem blocks_uthreadTerminate (tid : Int) :
    (uthreadTerminate order tid).Blocks (heapContract order) TimerBlocked := by
  refine blocks_call order ?_
  refine works_plain (straight_unknownTid tid) (fun _ =>
    until_ite (works_reportFinish _ _) (until_ite works_free ?_))
  refine works_straight (heapOnly_deref tid).straight (fun target => until_ite ?_ ?_)
  · refine works_straight (straight_removeThread tid) (fun _ => ?_)
    refine works_plain (straight_pushHeap tid) (fun _ => ?_)
    exact works_plain (straight_removeTidFromReadyQueue tid) (fun _ => works_finish _)
  refine works_straight (heapOnly_deref tid).straight (fun target => until_ite ?_ ?_)
  · refine works_plain (straight_eraseSleeping tid) (fun _ => ?_)
    refine works_straight (straight_removeThread tid) (fun _ => ?_)
    exact works_plain (straight_pushHeap tid) (fun _ => works_finish _)
  refine works_straight (heapOnly_deref tid).straight (fun target => until_ite ?_ (works_finish _))
  refine works_straight (straight_removeThread tid) (fun _ => ?_)
  refine works_plain (straight_pushHeap tid) (fun _ => ?_)
  refine works_plain (straight_assign (by decide) (fun _ => ⟨rfl, rfl, rfl, rfl⟩)) (fun _ => ?_)
  -- the dispatch jumps, with the heap as it is
  exact until_bind_jumps (until_zoom Trap.of (heapContract_extends order) (fun _ h => h)
    (works_setReadyToRun order _))

/-- In one piece, the mask that a call is made with does not matter. -/
theorem exec_prog_mask {x : State × Memory} (hf : x.1.freed = false) (record : Nat) (c : Call)
    (m : SigSet) :
    settle ((prog order record c).exec x m) = settle ((prog order record c).exec x ∅)
      ∧ ((prog order record c).exec x m).stopped = ((prog order record c).exec x ∅).stopped := by
  obtain ⟨s, mem⟩ := x
  cases c with
  | getQuantums tid =>
      show settle ((plain (uthreadGetQuantums tid)).exec (s, mem) m)
          = settle ((plain (uthreadGetQuantums tid)).exec (s, mem) ∅)
        ∧ ((plain (uthreadGetQuantums tid)).exec (s, mem) m).stopped
          = ((plain (uthreadGetQuantums tid)).exec (s, mem) ∅).stopped
      rw [exec_zoom, exec_zoom, exec_uthreadGetQuantums tid m hf, exec_uthreadGetQuantums tid ∅ hf]
      exact ⟨rfl, rfl⟩
  -- the calls that mask the timer, and single reads
  | spawn _ _ | terminate _ | block _ | resume _ | sleep _ | getTid | getTotalQuantums =>
      exact ⟨rfl, rfl⟩

/-- Under any mask a call leaves what it leaves under the empty one. -/
theorem settle_prog {x : State × Memory} (hf : x.1.freed = false) (record : Nat) (c : Call)
    (m : SigSet) : settle ((prog order record c).exec x m)
      = Memory.step order x (.call c, record) := (exec_prog_mask order hf record c m).1

/-- It stops as it does under the empty one. -/
theorem stopped_prog {x : State × Memory} (hf : x.1.freed = false) (record : Nat) (c : Call)
    (m : SigSet) : ((prog order record c).exec x m).stopped
      = Memory.stop order x (.call c, record) := (exec_prog_mask order hf record c m).2

end Calls

end Memory

/-! ## §3. All together. -/

section Machine

variable {order : IterOrder} {c₀ c : HeapCpu}

/-- **The allocating library is disciplined.** -/
theorem heapMachine_disciplined (order : IterOrder) :
    (heapMachine order).Disciplined (heapContract order) where
  call := by
    rintro ⟨c, record⟩
    have hK := heapContract_extends order
    cases c with
    | spawn answers entryPoint =>
        exact Or.inl (Memory.blocks_uthreadSpawn order answers record entryPoint)
    | terminate tid => exact Or.inl (Memory.blocks_uthreadTerminate order tid)
    | block tid => exact Or.inl (blocks_zoom Trap.of hK (blocks_uthreadBlock order tid))
    | resume tid => exact Or.inl (blocks_zoom Trap.of hK (blocks_uthreadResume order tid))
    | sleep n => exact Or.inl (blocks_zoom Trap.of hK (blocks_uthreadSleep order n))
    | getTid => exact Or.inr (reads_zoom Trap.of (reads_read _ _))
    | getTotalQuantums => exact Or.inr (reads_zoom Trap.of (reads_read _ _))
    | getQuantums tid => exact Or.inr (reads_zoom Trap.of (reads_uthreadGetQuantums tid))
  handler := by
    refine until_zoom Trap.of (heapContract_extends order) ?_ (works_timerHandler order)
    rintro p rfl
    rfl
  enter := Finset.mem_insert_self sigvtalrm
  callGood := by
    intro i x m x' hgood hs
    have hreach : Memory.Reachable order x := hgood
    refine hreach.step (e := (.call i.1, i.2)) ?_
    rw [← Memory.settle_prog order hreach.sound.1.wellFormed.freed i.2 i.1 m]
    exact hs
  handlerGood := by
    intro x m x' hgood hs
    have hreach : Memory.Reachable order x := hgood
    exact hreach.step (e := (.tick m, 0)) hs

/-- The sections of the machine are the events of the model with the heap. -/
theorem heapMachine_serves (order : IterOrder) :
    (heapMachine order).Serves (heapContract order)
      (fun x e => Memory.step order x (heapEvent e)) where
  call := by
    intro i x m x' hgood hs
    have hreach : Memory.Reachable order x := hgood
    exact (Memory.settle_prog order hreach.sound.1.wellFormed.freed i.2 i.1 m).symm.trans hs
  signal := fun _ _ _ _ hs => hs

/-- A booted machine keeps the contract that its runs start from. -/
theorem HeapBooted.start (h : HeapBooted c) : (heapMachine order).Start (heapContract order) c where
  ctrl := h.ctrl
  mask := h.mask
  good := ⟨c.mem, [], h.mem, rfl⟩
  conts := h.conts
  saved := by
    obtain ⟨q, pointer, hp, _, hx⟩ := Memory.initial_iff.mp h.mem
    have hnil : (initialState q).savedTokens = [] := rfl
    show {n | n ∈ c.mem.1.savedTokens} = ∅
    rw [hx, hnil]
    simp

/-- **How a section stops**, from any of its statements on: as the event that it is
stops in one piece. -/
theorem section_stop (h₀ : HeapBooted c₀)
    (h : Relation.ReflTransGen ((heapMachine order).LiveStep (heapContract order)) c₀ c)
    (halive : c.mem.1.freed = false) (hmask : sigvtalrm ∈ c.mask) {trap : Trap}
    (htrap : c.stops = some trap) :
    (∃ address, trap = .badAnswer address) ∨ (∃ code, trap = .exit code [])
      ∨ trap = .fault .nullThread := by
  have hd := heapMachine_disciplined order
  have hserves := heapMachine_serves order
  obtain ⟨es, htrace⟩ := exists_trace hd hserves h₀.start h
  obtain ⟨x, e, hgood, hstop⟩ : ∃ x e, Memory.Reachable order x
      ∧ Memory.stop order x e = some trap := by
    rcases htrace.stops hd hserves h₀.start halive hmask htrap with
      ⟨i, x, m, hgood, hstop⟩ | ⟨x, m, hgood, hstop⟩
    · have hreach : Memory.Reachable order x := hgood
      have hsame := Memory.stopped_prog order hreach.sound.1.wellFormed.freed i.2 i.1 m
      exact ⟨x, (.call i.1, i.2), hgood, hsame.symm.trans hstop⟩
    · exact ⟨x, (.tick m, 0), hgood, hstop⟩
  obtain ⟨hreach, hsound⟩ := hgood.sound
  have hw := hreach.wellFormed
  rcases hsound.stop hw hstop with hbad | ⟨code, hexit, _⟩ | ⟨f, hfault, hbase⟩
  · exact Or.inl hbad
  · exact Or.inr (Or.inl ⟨code, hexit⟩)
  · rw [null_fault hw hbase] at hfault
    exact Or.inr (Or.inr hfault)

/-- **Memory safety under interrupts.**  The library is executed statement by
statement, with a tick between any two of them, until a call has executed
`free_threads`.  Where the timer is unmasked, state and memory are those of whole
calls and ticks, in the order of the sections.  From every statement of a section
on, the section frees nothing that is not allocated and looks at no record that is
freed: the one fault it can end in is a null pointer.  And if it exits, it leaves
nothing allocated.  (The stack that the section itself runs on is not looked at.) -/
theorem memory_safe_interrupted (h₀ : HeapBooted c₀)
    (h : Relation.ReflTransGen ((heapMachine order).LiveStep (heapContract order)) c₀ c)
    (halive : c.mem.1.freed = false) :
    ∃ es, HeapSections order c₀ es c
      ∧ (sigvtalrm ∉ c.mask →
          run (Memory.step order) c₀.mem (es.map heapEvent) = some c.mem ∧ Memory.Sound c.mem)
      ∧ (sigvtalrm ∈ c.mask → ∀ trap, c.stops = some trap →
          (∃ address, trap = .badAnswer address) ∨ (∃ code, trap = .exit code [])
            ∨ trap = .fault .nullThread) := by
  have hd := heapMachine_disciplined order
  have hserves := heapMachine_serves order
  obtain ⟨es, htrace⟩ := exists_trace hd hserves h₀.start h
  refine ⟨es, htrace, fun hmask => ?_, fun hmask trap htrap => section_stop h₀ h halive hmask htrap⟩
  have hgood : Memory.Reachable order c.mem := (hd.run h₀.start h halive).delivered hmask
  rw [← run_map]
  exact ⟨htrace.serial_run hd hserves h₀.start hmask, hgood.sound.2⟩

end Machine

/-! ## §4. A run that is interrupted in an allocating call. -/

instance (order : IterOrder) : DecidablePred (heapMachine order).blocked :=
  inferInstanceAs (DecidablePred TimerBlocked)

/-- The main program after `uthread_init(1000)`. -/
def startHeapCpu : HeapCpu :=
  ⟨(initialState 1000, Memory.initial first_fits), ∅, false, .user, fun _ => none⟩

/-- The machine of the examples is booted. -/
theorem startHeapCpu_booted : HeapBooted startHeapCpu :=
  ⟨initial_first_fits, Finset.notMem_empty _, rfl, fun _ => rfl⟩

/-- A list of moves that is made as long as the threads are not torn down. -/
theorem heapDrive_run {order : IterOrder} {xs : List (Move SigSet (Call × Nat))} {c c' : HeapCpu}
    (h : (heapMachine order).drive (fun x => !x.1.freed) xs c = some c') :
    Relation.ReflTransGen ((heapMachine order).LiveStep (heapContract order)) c c' := by
  refine (System.drive_sound h).lift id (fun a b hstep => ⟨?_, hstep.2⟩)
  have htest : (!a.mem.1.freed) = true := hstep.1
  show a.mem.1.freed = false
  simpa using htest

/-- A tick arrives between the statements of `uthread_spawn` and is delivered
behind them. -/
def heapSpawnWithTick : List (Move SigSet (Call × Nat)) :=
  .invoke (.spawn ⟨some 8192, true⟩ (some 1), 16384) :: .next :: .next :: .arrive
    :: List.replicate 9 .next ++ .deliver :: List.replicate 15 .next

/-- A spawn with a tick in the middle of it. -/
theorem memory_safe_interrupted_spawn :
    ∃ c es, HeapSections .listing startHeapCpu es c ∧ c.mem.1.currThreadId = 1
      ∧ run (Memory.step .listing) startHeapCpu.mem (es.map heapEvent) = some c.mem
      ∧ Memory.Sound c.mem := by
  have hrun : ((heapMachine .listing).drive (fun x => !x.1.freed) heapSpawnWithTick
      startHeapCpu).map (fun c =>
          (decide (sigvtalrm ∈ c.mask), c.mem.1.currThreadId, c.mem.1.freed))
        = some (false, 1, false) := by
    with_unfolding_all rfl
  obtain ⟨c, hc, hobs⟩ := Option.map_eq_some_iff.mp hrun
  injection hobs with hmask hobs
  injection hobs with hcurr halive
  obtain ⟨es, hsections, hopen, _⟩ :=
    memory_safe_interrupted startHeapCpu_booted (heapDrive_run hc) halive
  obtain ⟨hserial, hsound⟩ := hopen (of_decide_eq_false hmask)
  exact ⟨c, es, hsections, hcurr, hserial, hsound⟩

end UThreads
