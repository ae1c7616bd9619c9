/-
  UThreads.Properties.Memory
  ──────────────────────────
  **NOTHING IS LOST, NOTHING IS FREED TWICE, AND WHO RUNS ON FREED MEMORY.**

  In every run the heap holds one record for each thread and one stack for each
  thread but the main one; no `free` goes wrong, no freed record is used, and
  whatever is allocated is freed before an exit.  The one thing that goes wrong
  is that a thread which terminates itself, or ends the process, frees the stack
  that it runs on.
-/
import UThreads.Effects.Memory
import UThreads.Effects.Faults

namespace UThreads

open Interruptible Runs Allocation

/-! ## §1. Sound memory in every run. -/

namespace Memory

variable {order : IterOrder} {x : State × Memory}

/-- One event more. -/
theorem Reachable.step {x' : State × Memory} {e : Event × Nat} (h : Memory.Reachable order x)
    (hs : Memory.step order x e = some x') : Memory.Reachable order x' := by
  obtain ⟨x₀, es, h₀, hrun⟩ := h
  exact ⟨x₀, es ++ [e], h₀, run_snoc.mpr ⟨x, hrun, hs⟩⟩

/-- **A run with the heap is a run without**, and its memory is sound. -/
theorem Reachable.sound (h : Reachable order x) : UThreads.Reachable order x.1 ∧ Sound x := by
  obtain ⟨x₀, es, h₀, hrun⟩ := h
  obtain ⟨hinit, hsound⟩ := h₀.sound
  refine run_invariant (fun v => UThreads.Reachable order v.1 ∧ Sound v) ?_ es x₀ x
    ⟨⟨x₀.1, [], hinit, rfl⟩, hsound⟩ hrun
  rintro v e w ⟨hreach, hv⟩ hs
  obtain ⟨hstep, hw⟩ := hv.step hreach.wellFormed hs
  exact ⟨hreach.step hstep, hw⟩

/-- **An event with the heap is the event without**, unless the allocator gives an
impossible answer. -/
theorem Reachable.erased {e : Event × Nat} (h : Memory.Reachable order x)
    (hanswer : ∀ address, Memory.stop order x e ≠ some (.badAnswer address)) :
    (Memory.step order x e).map Prod.fst = UThreads.step order x.1 e.1
      ∧ (Memory.stop order x e).bind Trap.erased = e.1.stop order x.1 := by
  obtain ⟨hreach, hsound⟩ := h.sound
  obtain ⟨e, record⟩ := e
  cases e with
  | call c => exact (agrees_call ∅ order hreach.wellFormed hsound record c).erased hanswer
  | tick mask =>
      exact (agrees_plain (insert sigvtalrm mask) (steady_timerHandler order) hsound).erased hanswer

end Memory

/-! ## §2. Every thread on its own stack. -/

/-- The main thread runs on the stack of the process, every other one on the stack
in its record; one that has never run starts at the top of it. -/
structure Thread.OnStack (i : Int) (t : Thread) : Prop where
  own : t.stack = none ↔ i = 0
  start : ∀ address, t.env.pc = .entry address →
    ∃ stack, t.stack = some stack ∧ t.env.sp = some (stack + stackSize - sizeofAddress)

/-- All threads are. -/
def OnStacks (s : State) : Prop := ∀ i t, s.threads.get i = some t → t.OnStack i

section OnStacks

variable {order : IterOrder} {s p : State} {tid : Int} {t t' u : Thread} {e : Event}

/-- The other fields of a record do not matter. -/
theorem Thread.OnStack.congr {i : Int} (h : t.OnStack i) (hstack : t'.stack = t.stack)
    (henv : t'.env = t.env) : t'.OnStack i :=
  ⟨by rw [hstack]; exact h.own, by rw [hstack, henv]; exact h.start⟩

/-- A saved context is not at an entry point. -/
theorem Thread.OnStack.saved {i : Int} {site : JmpSite} (h : t.OnStack i)
    (hstack : t'.stack = t.stack) (hpc : t'.env.pc = .site site) : t'.OnStack i := by
  refine ⟨by rw [hstack]; exact h.own, fun address he => ?_⟩
  rw [hpc] at he
  cases he

/-- One entry of the table is written. -/
theorem OnStacks.write {v : Option Thread} (h : OnStacks s)
    (hget : ∀ i, p.threads.get i = if i = tid then v else s.threads.get i)
    (hv : ∀ t', v = some t' → t'.OnStack tid) : OnStacks p := by
  intro i t' ht'
  rw [hget] at ht'
  by_cases hi : i = tid
  · rw [if_pos hi] at ht'
    exact hi ▸ hv t' ht'
  · rw [if_neg hi] at ht'
    exact h i t' ht'

/-- Fields of one record are written. -/
theorem OnStacks.setThread (h : OnStacks s) (ht : s.threads.get tid = some t)
    (hstack : t'.stack = t.stack) (henv : t'.env = t.env) :
    OnStacks (s.setThread tid (some t')) :=
  h.write (setThread_get ht t') (fun _ hu => Option.some.inj hu ▸ (h tid t ht).congr hstack henv)

/-- One record goes. -/
theorem OnStacks.clear (h : OnStacks s) (ht : s.threads.get tid = some t) :
    OnStacks (s.setThread tid none) :=
  h.write (Table.get_set s.threads (Table.inRange_of_get ht) none) (fun _ hu => nomatch hu)

/-- The running thread is saved. -/
theorem OnStacks.saveCurrent (h : OnStacks s) (hcurr : s.threads.get s.currThreadId = some t)
    (site : JmpSite) (hstack : t'.stack = t.stack) (hpc : t'.env.pc = .site site) :
    OnStacks (s.saveCurrent t' site) :=
  h.write (saveCurrent_get hcurr t' site)
    (fun _ hu => Option.some.inj hu ▸ (h s.currThreadId t hcurr).saved hstack hpc)

/-- A suspension gives nobody another stack. -/
theorem OnStacks.suspends (h : OnStacks s) (hcurr : s.threads.get s.currThreadId = some t)
    (hp : Suspends s t e p) : OnStacks p := by
  cases hp with
  | tick mask => exact h.saveCurrent hcurr .timerHandler rfl rfl
  | block h0 => exact h.saveCurrent hcurr .uthreadBlock rfl rfl
  | sleep h0 n => exact h.saveCurrent hcurr .uthreadSleep rfl rfl
  | terminate h0 => exact h.clear hcurr

/-- Neither does a dispatch. -/
theorem OnStacks.dispatched {next : Int} {rest : List Int} (h : OnStacks p)
    (hu : p.threads.get next = some u) : OnStacks (p.dispatched order next rest u) := by
  intro i t' ht'
  obtain ⟨v, hv, hcase⟩ := dispatched_get_cases hu ht'
  -- the record that was there, but for its state, its quantum and its countdown
  have hold : v.OnStack i := by
    by_cases hi : i = next
    · rw [if_pos hi] at hv
      exact hi ▸ Option.some.inj hv ▸ (h next u hu).congr rfl rfl
    · rw [if_neg hi] at hv
      exact h i v hv
  rcases hcase with ⟨_, rfl⟩ | ⟨_, rfl⟩
  · exact hold.congr (wakeRecord_stack v) (wakeRecord_env v)
  · exact hold

/-- **The step lemma**: only a spawn hands out a stack, and never to the main thread. -/
theorem OnStacks.effect {s' : State} (hw : WellFormed s) (h : OnStacks s)
    (he : Effect order s e s') : OnStacks s' := by
  cases he with
  | reject c line hr => exact h
  | idle c hi => exact h
  | spawn newStack entryPoint newId ids hids =>
      obtain ⟨hr, hnull⟩ := hw.heap_top_free hids
      refine h.write (Table.get_set s.threads hr _) (fun t' ht' => ?_)
      rw [← Option.some.inj ht']
      have hne := hw.ne_main_of_null hnull
      exact ⟨⟨nofun, fun h0 => absurd h0 hne⟩, fun address _ => ⟨newStack, rfl, rfl⟩⟩
  | retireIdle tid t h0 ht hst => exact h.clear ht
  | retireSleeping tid t h0 ht hst => exact h.clear ht
  | blockSleeping tid t h0 ht hst => exact h.setThread ht rfl rfl
  | blockReady tid t h0 ht hst => exact h.setThread ht rfl rfl
  | resumeBlocked tid t h0 ht hst hsl => exact h.setThread ht rfl rfl
  | resumeCounting tid t h0 ht hst hsl => exact h.setThread ht rfl rfl
  | switch e t p next rest u hcurr hrun hp hq hu hready hlive =>
      exact (h.suspends hcurr hp).dispatched hu

/-- **The run lemma**: every thread but the main one has a stack of its own. -/
theorem Reachable.onStacks (h : Reachable order s) : OnStacks s := by
  refine h.effect_invariant OnStacks ?_ (fun _ _ _ hw hI he => hI.effect hw he)
  intro v hv i t ht
  obtain ⟨q, _, rfl⟩ := initial_iff.mp hv
  rw [initialState_get] at ht
  by_cases hi : i = 0
  · rw [if_pos hi] at ht
    rw [← Option.some.inj ht]
    exact ⟨⟨fun _ => hi, fun _ => rfl⟩, fun address he => nomatch he⟩
  · rw [if_neg hi] at ht
    cases ht

end OnStacks

/-! ## §3. Whose the memory is. -/

/-- **Memory safety.**  With the heap in place a run is a run of the model without
it.  Every live thread, and no other entry of the table, has a pointer of its own;
every one but the main thread has a stack of its own; the heap holds these records
and stacks and nothing else.  No event frees what is not allocated or looks at a
record that is freed: the one fault there is, is a null pointer.  An exit leaves
nothing allocated.  (The stack that the code itself runs on may be freed under it:
§4.) -/
theorem memory_safe {order : IterOrder} {x : State × Memory} (h : Memory.Reachable order x) :
    Reachable order x.1
      ∧ (∀ i, x.2.pointers.get i = none ↔ x.1.threads.get i = none)
      ∧ (∀ i j pointer, x.2.pointers.get i = some pointer → x.2.pointers.get j = some pointer →
          i = j)
      ∧ (∀ i t, x.1.threads.get i = some t → (t.stack = none ↔ i = 0))
      ∧ (∀ i j t u stack, x.1.threads.get i = some t → t.stack = some stack →
          x.1.threads.get j = some u → u.stack = some stack → i = j)
      ∧ (∀ b, b ∈ x.2.heap.live ↔ ∃ i t pointer, x.1.threads.get i = some t
          ∧ x.2.pointers.get i = some pointer
          ∧ (b = ⟨pointer, sizeofThread⟩ ∨ ∃ stack, t.stack = some stack ∧ b = ⟨stack, stackSize⟩))
      ∧ (∀ e address, Memory.stop order x e ≠ some (.badFree address)
          ∧ Memory.stop order x e ≠ some (.dangling address))
      ∧ (∀ e f, Memory.stop order x e = some (.fault f) → f = .nullThread)
      ∧ (∀ e code leaked, Memory.stop order x e = some (.exit code leaked) → leaked = []) := by
  obtain ⟨hreach, hsound⟩ := h.sound
  have hw := hreach.wellFormed
  refine ⟨hreach, hsound.pointers, fun i j pointer hi hj => hsound.pointer_once hi hj,
    fun i t ht => (hreach.onStacks i t ht).own, fun i j t u stack ht hst hu hsu =>
      hsound.owns.once i j _ (hsound.stack_owned ht hst) (hsound.stack_owned hu hsu),
    hsound.mem_live_iff, fun e address => ?_, fun e f hfault => ?_, fun e code leaked hexit => ?_⟩
  · constructor
    · intro hbad
      rcases hsound.stop hw hbad with ⟨_, hc⟩ | ⟨_, hc, _⟩ | ⟨_, hc, _⟩ <;> cases hc
    · intro hbad
      rcases hsound.stop hw hbad with ⟨_, hc⟩ | ⟨_, hc, _⟩ | ⟨_, hc, _⟩ <;> cases hc
  · rcases hsound.stop hw hfault with ⟨_, hc⟩ | ⟨_, hc, _⟩ | ⟨g, hc, hbase⟩
    · cases hc
    · cases hc
    · injection hc with hc
      exact hc ▸ null_fault hw hbase
  · rcases hsound.stop hw hexit with ⟨_, hc⟩ | ⟨_, hc, _⟩ | ⟨_, hc, _⟩
    · cases hc
    · injection hc
    · cases hc

/-- A thread comes and goes, and another one gets its memory. -/
def memoryRun : List (Event × Nat) :=
  [(.call (.spawn ⟨some 8192, true⟩ (some 1)), 16384), (.tick ∅, 0), (.call (.terminate 1), 0),
   (.call (.spawn ⟨some 8192, true⟩ (some 2)), 16384)]

/-- An empty heap takes the main thread's record. -/
theorem first_fits : Memory.empty.heap.Fits ⟨4096, sizeofThread⟩ := by
  decide

/-- `uthread_init` succeeds with it. -/
theorem initial_first_fits : Memory.Initial (initialState 1000, Memory.initial first_fits) :=
  Memory.initial_iff.mpr ⟨1000, 4096, first_fits, by decide, rfl⟩

/-- The examples' runs start there. -/
theorem reachable_of_memoryRun {es : List (Event × Nat)} {x : State × Memory}
    (h : run (Memory.step .listing) (initialState 1000, Memory.initial first_fits) es = some x) :
    Memory.Reachable .listing x :=
  ⟨_, es, initial_first_fits, h⟩

/-- The second thread has got the id and the memory of the first. -/
theorem memory_safe_memoryRun :
    ∃ x, run (Memory.step .listing) (initialState 1000, Memory.initial first_fits) memoryRun
        = some x
      ∧ Reachable .listing x.1 ∧ ⟨8192, stackSize⟩ ∈ x.2.heap.live
      ∧ (∀ e f, Memory.stop .listing x e = some (.fault f) → f = .nullThread)
      ∧ ∀ e code leaked, Memory.stop .listing x e = some (.exit code leaked) → leaked = [] := by
  have hrun : (run (Memory.step .listing) (initialState 1000, Memory.initial first_fits)
      memoryRun).map (fun x => (x.1.threads.get 1).map Thread.stack) = some (some (some 8192)) := by
    decide +kernel
  obtain ⟨x, hx, hobs⟩ := Option.map_eq_some_iff.mp hrun
  obtain ⟨t, ht, hstack⟩ := Option.map_eq_some_iff.mp hobs
  obtain ⟨hreach, hpointers, _, _, _, hlive, _, hfault, hexit⟩ :=
    memory_safe (reachable_of_memoryRun hx)
  -- a live thread has a pointer, and the blocks behind it
  obtain ⟨pointer, hpointer⟩ := Option.ne_none_iff_exists'.mp
    (fun hnone => Option.some_ne_none t (ht.symm.trans ((hpointers 1).mp hnone)))
  exact ⟨x, hx, hreach, (hlive _).mpr ⟨1, t, pointer, ht, hpointer, Or.inr ⟨8192, hstack, rfl⟩⟩,
    hfault, hexit⟩

/-- **The heap can be erased.**  Unless the allocator gives an impossible answer,
an event with the heap leads to the same state, or stops the process in the same
way, as the event without. -/
theorem heap_erased {order : IterOrder} {x : State × Memory} {e : Event × Nat}
    (h : Memory.Reachable order x)
    (hanswer : ∀ address, Memory.stop order x e ≠ some (.badAnswer address)) :
    (Memory.step order x e).map Prod.fst = step order x.1 e.1
      ∧ (Memory.stop order x e).bind Trap.erased = e.1.stop order x.1 :=
  h.erased hanswer

/-- The exit after that run, with the heap and without. -/
theorem heap_erased_memoryRun :
    ∃ x, run (Memory.step .listing) (initialState 1000, Memory.initial first_fits) memoryRun
        = some x
      ∧ (Memory.stop .listing x (.call (.terminate 0), 0)).bind Trap.erased
          = Event.stop .listing x.1 (.call (.terminate 0)) := by
  have hall : ((run (Memory.step .listing) (initialState 1000, Memory.initial first_fits)
      memoryRun).bind (fun x => if Memory.stop .listing x (.call (.terminate 0), 0)
        = some (.exit 0 []) then some () else none)).isSome = true := by
    decide +kernel
  obtain ⟨_, hsome⟩ := Option.isSome_iff_exists.mp hall
  obtain ⟨x, hx, hif⟩ := Option.bind_eq_some_iff.mp hsome
  have hstop : Memory.stop .listing x (.call (.terminate 0), 0) = some (.exit 0 []) := by
    by_contra hno
    rw [if_neg hno] at hif
    cases hif
  refine ⟨x, hx, (heap_erased (reachable_of_memoryRun hx) ?_).2⟩
  intro address hbad
  rw [hstop] at hbad
  injection hbad with hbad
  cases hbad

/-- **Stacks are apart.**  A thread other than the main one has a stack that no
other thread's stack and no record overlaps; before its first run its stack
pointer stands in it. -/
theorem stacks_apart {order : IterOrder} {x : State × Memory} {i : Int} {t : Thread}
    (h : Memory.Reachable order x) (h0 : i ≠ 0) (ht : x.1.threads.get i = some t) :
    ∃ stack, t.stack = some stack ∧ ⟨stack, stackSize⟩ ∈ x.2.heap.live
      ∧ (∀ b ∈ x.2.heap.live, b ≠ ⟨stack, stackSize⟩ → b.Apart ⟨stack, stackSize⟩)
      ∧ (∀ address, t.env.pc = .entry address → ∃ sp, t.env.sp = some sp
          ∧ stack ≤ sp ∧ sp + sizeofAddress ≤ stack + stackSize)
      ∧ ∀ j u, j ≠ i → x.1.threads.get j = some u → u.stack ≠ some stack := by
  obtain ⟨hreach, hsound⟩ := h.sound
  have hon := hreach.onStacks i t ht
  obtain ⟨stack, hstack⟩ := Option.ne_none_iff_exists'.mp (fun hn => h0 (hon.own.mp hn))
  have hmem := hsound.stack_owned ht hstack
  refine ⟨stack, hstack, hsound.owns.mem_live hmem, ?_, ?_, ?_⟩
  · intro b hb hne
    exact x.2.heap.apart.forall hb (hsound.owns.mem_live hmem) hne
  · intro address hpc
    obtain ⟨st, hst, hsp⟩ := hon.start address hpc
    rw [hstack] at hst
    rw [← Option.some.inj hst] at hsp
    refine ⟨_, hsp, ?_, ?_⟩
    · unfold stackSize sizeofAddress
      omega
    · unfold stackSize sizeofAddress
      omega
  · intro j u hji hu hst
    exact hji (hsound.owns.once j i _ (hsound.stack_owned hu hst) hmem)

/-- The stack of thread 1 after that run. -/
theorem stacks_apart_memoryRun :
    ∃ x t stack, run (Memory.step .listing) (initialState 1000, Memory.initial first_fits) memoryRun
        = some x
      ∧ x.1.threads.get 1 = some t ∧ t.stack = some stack
      ∧ ∀ b ∈ x.2.heap.live, b ≠ ⟨stack, stackSize⟩ → b.Apart ⟨stack, stackSize⟩ := by
  have hall : ((run (Memory.step .listing) (initialState 1000, Memory.initial first_fits)
      memoryRun).bind (fun x => x.1.threads.get 1)).isSome = true := by
    decide +kernel
  obtain ⟨t, hsome⟩ := Option.isSome_iff_exists.mp hall
  obtain ⟨x, hx, ht⟩ := Option.bind_eq_some_iff.mp hsome
  obtain ⟨stack, hstack, _, happart, _⟩ :=
    stacks_apart (reachable_of_memoryRun hx) (by decide) ht
  exact ⟨x, t, stack, hx, ht, hstack, happart⟩

/-! ## §4. The stack that the code runs on. -/

/-- The allocator is not to blame. -/
def Trap.Answered (trap : Trap) : Prop := ∀ address, trap ≠ .badAnswer address

namespace Memory

/-- **The main thread has no stack of its own**, and every other one has. -/
theorem runningStack_none {order : IterOrder} {s : State} (h : UThreads.Reachable order s) :
    runningStack s = none ↔ s.currThreadId = 0 := by
  obtain ⟨t, ht, _⟩ := h.wellFormed.curr
  unfold runningStack
  rw [ht]
  exact (h.onStacks _ t ht).own

section Visits

variable {s : State} {mem : Memory} (m : SigSet) {J : Access × (State × Memory) → Prop}

/-- Code that does not touch the heap runs in one memory. -/
theorem visits_plain {α : Type} (p : Lib α) (hJ : ∀ l s', J (l, (s', mem))) :
    ∀ v ∈ (plain p).visits (s, mem) m, J v := by
  intro v hv
  rw [visits_zoom] at hv
  obtain ⟨⟨l, s'⟩, _, rfl⟩ := List.mem_map.mp hv
  exact hJ l s'

/-- From one memory to the next, blocks are only freed. -/
def Shrinks (x x' : State × Memory) : Prop := ∀ b ∈ x'.2.heap.live, b ∈ x.2.heap.live

/-- `free` only takes blocks out of the heap. -/
theorem shrinks_free (pointer : Option Nat) : (free pointer).Frames Shrinks Trap.Answered := by
  refine ⟨fun x => ?_, fun _ => trivial⟩
  cases pointer with
  | none => exact fun b hb => hb
  | some address =>
      dsimp only
      cases hfree : x.2.heap.free address with
      | none => exact nofun
      | some heap =>
          obtain ⟨b, _, rfl⟩ := Option.map_eq_some_iff.mp hfree
          exact fun _ hc => List.mem_of_mem_erase hc

/-- Code without allocations leaves the heap as it is. -/
theorem shrinks_plain {α : Type} (p : Lib α) : (plain p).Frames Shrinks Trap.Answered :=
  frames_zoom Trap.of (fun _ _ _ _ hb => hb) (fun _ e => by cases e <;> exact nofun) p

/-- Loading an entry of the table leaves it as it is. -/
theorem shrinks_entry (tid : Int) : (entry tid).Frames Shrinks Trap.Answered :=
  ⟨fun _ _ hb => hb, fun _ => trivial⟩

/-- So does looking whether a record is still there. -/
theorem shrinks_checkLive (tid : Int) : (checkLive tid).Frames Shrinks Trap.Answered := by
  refine ⟨fun x => ?_, fun _ => trivial⟩
  dsimp only
  split
  · exact fun _ hb => hb
  · split
    · exact fun _ hb => hb
    · exact nofun

/-- So does reading a record. -/
theorem shrinks_deref (tid : Int) : (deref tid).Frames Shrinks Trap.Answered :=
  frames_bind (shrinks_checkLive tid) (fun _ => shrinks_plain _)

/-- The loop of `free_threads` only takes blocks out, by induction on the ids. -/
theorem shrinks_freeLoop : ∀ is : List Nat, (freeLoop is).Frames Shrinks Trap.Answered := by
  intro is
  induction is with
  | nil => exact frames_pure ()
  | cons i is ih =>
      have hrest : (do free (← entry i); freeLoop is : MemLib Unit).Frames Shrinks
          Trap.Answered :=
        frames_bind (shrinks_entry i) (fun _ => frames_bind (shrinks_free _) (fun _ => ih))
      refine frames_bind (shrinks_entry i) (fun _ => frames_ite ?_ hrest)
      refine frames_bind (shrinks_deref i) (fun _ => ?_)
      exact frames_ite (frames_bind (shrinks_free _) (fun _ => hrest)) hrest

/-- Removing a thread only takes blocks out. -/
theorem shrinks_removeThread (tid : Int) : (removeThread tid).Frames Shrinks Trap.Answered := by
  refine frames_bind (shrinks_deref tid) (fun _ => frames_bind (shrinks_free _) (fun _ => ?_))
  refine frames_bind (frames_bind (shrinks_checkLive tid) (fun _ => shrinks_plain _)) (fun _ => ?_)
  refine frames_bind (shrinks_entry tid) (fun _ => frames_bind (shrinks_free _) (fun _ => ?_))
  exact ⟨fun _ _ hb => hb, fun _ => trivial⟩

/-- `uthread_terminate` allocates nothing. -/
theorem shrinks_uthreadTerminate (order : IterOrder) (tid : Int) :
    (uthreadTerminate order tid).Frames Shrinks Trap.Answered := by
  have hreturn : ∀ r : Int, (do plain unmaskTimer; return r : MemLib Int).Frames Shrinks
      Trap.Answered := fun r => frames_bind (shrinks_plain _) (fun _ => frames_pure r)
  refine frames_bind (shrinks_plain _) (fun _ => frames_bind (shrinks_plain _) (fun _ => ?_))
  refine frames_ite (frames_bind (shrinks_plain _) (fun _ => hreturn _)) ?_
  -- the code behind `exit(0)` is dead, but it is code
  have hexit : ∀ {c : Prop} [Decidable c] {p q : MemLib Int}, q.Frames Shrinks Trap.Answered →
      (q.Frames Shrinks Trap.Answered → p.Frames Shrinks Trap.Answered) →
      (if c then p else q).Frames Shrinks Trap.Answered := fun hq hp => frames_ite (hp hq) hq
  refine hexit ?_ (fun hrest => ?_)
  case refine_2 =>
    refine frames_bind (frames_bind (shrinks_freeLoop _) (fun _ => shrinks_plain _)) (fun _ => ?_)
    exact frames_bind (shrinks_plain _) (fun _ => frames_bind (shrinks_plain _) (fun _ => hrest))
  refine frames_bind (shrinks_deref tid) (fun _ => frames_ite ?_ ?_)
  · refine frames_bind (shrinks_removeThread tid) (fun _ => ?_)
    refine frames_bind (shrinks_plain _) (fun _ => ?_)
    exact frames_bind (shrinks_plain _) (fun _ => hreturn _)
  refine frames_bind (shrinks_deref tid) (fun _ => frames_ite ?_ ?_)
  · refine frames_bind (shrinks_plain _) (fun _ => ?_)
    refine frames_bind (shrinks_removeThread tid) (fun _ => ?_)
    exact frames_bind (shrinks_plain _) (fun _ => hreturn _)
  refine frames_bind (shrinks_deref tid) (fun _ => frames_ite ?_ (hreturn _))
  refine frames_bind (shrinks_removeThread tid) (fun _ => ?_)
  refine frames_bind (shrinks_plain _) (fun _ => ?_)
  exact frames_bind (shrinks_plain _) (fun _ => frames_bind (shrinks_plain _) (fun _ => hreturn _))

end Visits

section Caller

variable {order : IterOrder} {s : State} {mem : Memory} {t : Thread} {stack : Nat}

/-- Terminating another thread returns, and does not touch the caller. -/
theorem terminate_returns (order : IterOrder) (hw : WellFormed s) {tid : Int} (h0 : tid ≠ 0)
    (hne : s.currThreadId ≠ tid) (m : SigSet) :
    ∃ r s' m', (UThreads.uthreadTerminate order tid).exec s m = .ret r s' m'
      ∧ s'.threads.get s.currThreadId = s.threads.get s.currThreadId := by
  cases ht : s.threads.get tid with
  | none => exact ⟨_, _, _, exec_uthreadTerminate_unknown order m ht, rfl⟩
  | some u =>
      have hget := Table.get_set_ne s.threads hne none
      cases hst : u.state with
      | ready =>
          exact ⟨_, _, _, exec_uthreadTerminate_idle order m hw.freed h0 ht (Or.inl hst), hget⟩
      | blocked =>
          exact ⟨_, _, _, exec_uthreadTerminate_idle order m hw.freed h0 ht (Or.inr hst), hget⟩
      | sleeping =>
          exact ⟨_, _, _, exec_uthreadTerminate_sleeping order m hw.freed h0 ht hst
            (hw.sleepMem tid u ht (Or.inl hst)), hget⟩
      | running => exact absurd (hw.onlyCurr tid u ht hst).symm hne

/-- **Terminating another thread** runs on a live stack. -/
theorem visits_terminate_other (hw : WellFormed s) (h : Sound (s, mem))
    (ht : s.threads.get s.currThreadId = some t) (hstack : t.stack = some stack) {tid : Int}
    (h0 : tid ≠ 0) (hne : s.currThreadId ≠ tid) :
    ∀ v ∈ (uthreadTerminate order tid).visits (s, mem) ∅, ⟨stack, stackSize⟩ ∈ v.2.2.heap.live := by
  intro v hv
  obtain ⟨r, s', m', hexec, hget⟩ := terminate_returns order hw h0 hne ∅
  have hagrees := agrees_terminate ∅ order hw h tid
  have hshrinks := shrinks_uthreadTerminate order tid
  have hrefl : ∀ x, Shrinks x x := fun _ _ hb => hb
  have htrans : ∀ {x y z}, Shrinks x y → Shrinks y z → Shrinks x z := fun h₁ h₂ b hb =>
    h₁ b (h₂ b hb)
  have hanswered := hshrinks.exec hrefl htrans (s, mem) ∅
  rw [hexec] at hagrees
  cases hout : (uthreadTerminate order tid).exec (s, mem) ∅ with
  | ret r x m =>
      rw [hout] at hagrees
      cases hagrees with
      | ret _ _ mem' _ hsound =>
          -- the caller has its stack at the end, and blocks are only freed
          exact hshrinks.visits hrefl htrans hv (u := (s', mem')) (by rw [hout]; rfl) _
            (hsound.owns.mem_live (hsound.stack_owned (hget.trans ht) hstack))
  | jump _ _ _ =>
      rw [hout] at hagrees
      cases hagrees
  | stop trap =>
      rw [hout] at hagrees hanswered
      cases hagrees with
      | badAnswer _ address => exact absurd rfl (hanswered address)

/-- A single statement. -/
theorem visits_single {α : Type} (l : Access)
    (f : State × Memory → Except Trap (α × (State × Memory))) (x : State × Memory) (m : SigSet) :
    (.stmt l f .ret : MemLib α).visits x m = [(l, x)] := by
  rw [Prog.visits]
  cases f x <;> rfl

/-- **A spawn that does not end the process** frees nothing. -/
theorem visits_spawn (hw : WellFormed s) {answers : Malloc} {record : Nat}
    {entryPoint : Option Nat} {b : Block} (hb : b ∈ mem.heap.live)
    (hends : ¬ (Event.call (.spawn answers entryPoint)).EndsProcess s) :
    ∀ v ∈ (uthreadSpawn answers record entryPoint).visits (s, mem) ∅, b ∈ v.2.2.heap.live := by
  -- `unmask_timer(); return r;`
  have hreturn : ∀ (r : Int) (x : State × Memory) (m : SigSet),
      ∀ v ∈ (do plain unmaskTimer; return r : MemLib Int).visits x m, b ∈ v.2.2.heap.live :=
    fun _ _ _ _ hv => nomatch hv
  -- one statement of a memory that has the block
  have hsingle : ∀ {α : Type} (l : Access)
      (f : State × Memory → Except Trap (α × (State × Memory))) (x : State × Memory) (m : SigSet),
      b ∈ x.2.heap.live → ∀ v ∈ (.stmt l f .ret : MemLib α).visits x m, b ∈ v.2.2.heap.live := by
    intro α l f x m hx v hv
    rw [visits_single, List.mem_singleton] at hv
    exact hv ▸ hx
  refine forall_visits_bind (n := signalSet) rfl (fun _ hv => nomatch hv) ?_
  cases entryPoint with
  | none => exact forall_visits_bind rfl (visits_plain _ _ (fun _ _ => hb)) (hreturn _ _ _)
  | some address =>
      cases hids : s.minHeapId with
      | nil =>
          have hexec : (plain getMinAvailableId).exec (s, mem) signalSet
              = .ret fullThreads (s, mem) signalSet := by
            rw [exec_zoom, exec_getMinAvailableId_empty signalSet hids, zoom_ret]
          refine forall_visits_bind hexec (visits_plain _ _ (fun _ _ => hb)) ?_
          rw [if_pos rfl]
          exact forall_visits_bind rfl (visits_plain _ _ (fun _ _ => hb)) (hreturn _ _ _)
      | cons newId ids =>
          have hmem : answers.Succeeds := by
            by_contra hmem
            exact hends ⟨by simp, by simp [hids], hmem⟩
          obtain ⟨newStack, rfl⟩ := hmem.eq
          have hne : newId ≠ fullThreads := by
            have := (hw.heap_top_free hids).1.1
            unfold fullThreads
            omega
          have hexec : (plain getMinAvailableId).exec (s, mem) signalSet
              = .ret newId (s.setHeap ids, mem) signalSet := by
            rw [exec_zoom, exec_getMinAvailableId signalSet hids, zoom_ret]
          refine forall_visits_bind hexec (visits_plain _ _ (fun _ _ => hb)) ?_
          rw [if_neg hne]
          by_cases h₁ : mem.heap.Fits ⟨newStack, stackSize⟩
          · have hb₁ := (Heap.mem_add h₁).mpr (Or.inr hb)
            refine forall_visits_bind (exec_malloc h₁ signalSet) (hsingle _ _ _ _ hb) ?_
            by_cases h₂ : (mem.heap.add _ h₁).Fits ⟨record, sizeofThread⟩
            · have hb₂ := (Heap.mem_add h₂).mpr (Or.inr hb₁)
              refine forall_visits_bind (exec_malloc (h := mem.setHeap _) h₂ signalSet)
                (hsingle _ _ _ _ hb₁) ?_
              refine forall_visits_bind rfl (visits_plain _ _ (fun _ _ => hb₂)) ?_
              refine forall_visits_bind rfl (hsingle _ _ _ _ hb₂) ?_
              exact forall_visits_bind rfl (visits_plain _ _ (fun _ _ => hb₂)) (hreturn _ _ _)
            · exact forall_visits_stop (exec_malloc_bad (h := mem.setHeap _) h₂ signalSet)
                (hsingle _ _ _ _ hb₁)
          · exact forall_visits_stop (exec_malloc_bad h₁ signalSet) (hsingle _ _ _ _ hb)

/-- Once a thread is gone, its stack is not live. -/
theorem Sound.stack_freed (h : Sound (s, mem)) {i : Int} (ht : s.threads.get i = some t)
    (hstack : t.stack = some stack) {s' : State} {mem' : Memory} (h' : Sound (s', mem'))
    (hget : ∀ j, s'.threads.get j = if j = i then none else s.threads.get j) :
    ⟨stack, stackSize⟩ ∉ mem'.heap.live := by
  intro hlive
  obtain ⟨j, u, pointer, hu, _, hrecord | ⟨stack', hst, hsame⟩⟩ := (h'.mem_live_iff _).mp hlive
  · -- a record is not as long as a stack
    injection hrecord with _ hsize
    cases hsize
  · injection hsame with hsame _
    rw [hget] at hu
    by_cases hj : j = i
    · rw [if_pos hj] at hu
      cases hu
    · rw [if_neg hj] at hu
      exact hj (h.owns.once j i _ (h.stack_owned hu (hsame ▸ hst)) (h.stack_owned ht hstack))

/-- **Terminating oneself**: the id is given back with the stack gone. -/
theorem visits_terminate_self (hw : WellFormed s) (h : Sound (s, mem)) (h0 : s.currThreadId ≠ 0)
    (ht : s.threads.get s.currThreadId = some t) (hst : t.state = .running)
    (hstack : t.stack = some stack) :
    ∃ v ∈ (uthreadTerminate order s.currThreadId).visits (s, mem) ∅,
      ⟨stack, stackSize⟩ ∉ v.2.2.heap.live := by
  obtain ⟨pointer, hp⟩ := h.exists_pointer ht
  obtain ⟨mem', hremove, hsound⟩ := exec_removeThread hw.freed h ht signalSet
  have hderef := exec_deref (load_of_get hw.freed ht) hp (h.record_live ht hp) signalSet
  have hunknown : (plain (unknownTid s.currThreadId)).exec (s, mem) signalSet
      = .ret false (s, mem) signalSet := by
    rw [exec_zoom, exec_unknownTid_live _ ht, zoom_ret]
  have hfreed := h.stack_freed ht hstack hsound
    (Table.get_set s.threads (Table.inRange_of_get ht) none)
  refine ⟨(.shared, ((s.setThread s.currThreadId none).record
    (.terminated s.currThreadId t.quantum), mem')), ?_, hfreed⟩
  refine mem_visits_bind (n := signalSet) rfl (mem_visits_bind hunknown ?_)
  rw [if_neg Bool.false_ne_true, if_neg h0]
  refine mem_visits_bind hderef ?_
  rw [if_neg (by simp [hst])]
  refine mem_visits_bind hderef ?_
  rw [if_neg (by simp [hst])]
  refine mem_visits_bind hderef ?_
  rw [if_pos hst]
  refine mem_visits_bind hremove ?_
  rw [visits_bind, visits_zoom]
  exact List.mem_append_left _ (List.mem_singleton_self _)

/-- **`exit` behind `free_threads`** runs with nothing allocated. -/
theorem visits_giveUp {α : Type} {p : MemLib α} (hp : ∀ x m, (.other, x) ∈ p.visits x m)
    (hf : s.freed = false) (h : Sound (s, mem)) (m : SigSet) :
    ∃ v ∈ (do freeThreads; plain unmaskTimer; p : MemLib α).visits (s, mem) m,
      v.2.2.heap.live = [] := by
  obtain ⟨mem', hfree, hnil⟩ := exec_freeThreads hf h m
  exact ⟨_, mem_visits_bind hfree (mem_visits_bind (n := m \ signalSet) rfl (hp _ _)), hnil⟩

/-- `uthread_terminate(0)` has a statement with an empty heap: those behind its
`free_threads`. -/
theorem visits_terminate_main (hw : WellFormed s) (h : Sound (s, mem)) :
    ∃ v ∈ (uthreadTerminate order 0).visits (s, mem) ∅, v.2.2.heap.live = [] := by
  obtain ⟨t, ht, _⟩ := hw.main
  have hunknown : (plain (unknownTid 0)).exec (s, mem) signalSet
      = .ret false (s, mem) signalSet := by
    rw [exec_zoom, exec_unknownTid_live _ ht, zoom_ret]
  have hexit : ∀ {α : Type} (q : Unit → MemLib α) x m,
      (.other, x) ∈ (plain (exit 0) >>= q).visits x m := by
    intro α q x m
    rw [visits_bind, visits_zoom]
    exact List.mem_append_left _ (List.mem_singleton_self _)
  obtain ⟨v, hv, hnil⟩ := visits_giveUp (hexit _) hw.freed h signalSet
  refine ⟨v, mem_visits_bind (n := signalSet) rfl (mem_visits_bind hunknown ?_), hnil⟩
  rw [if_neg Bool.false_ne_true, if_pos rfl]
  exact hv

/-- A spawn without memory has one, too. -/
theorem visits_spawn_nomem (hw : WellFormed s) (h : Sound (s, mem)) {answers : Malloc}
    {record : Nat} {entryPoint : Option Nat}
    (hends : (Event.call (.spawn answers entryPoint)).EndsProcess s)
    (hanswer : ∀ address, ((uthreadSpawn answers record entryPoint).exec (s, mem) ∅).stopped
      ≠ some (.badAnswer address)) :
    ∃ v ∈ (uthreadSpawn answers record entryPoint).visits (s, mem) ∅, v.2.2.heap.live = [] := by
  obtain ⟨hentry, hheap, hmem⟩ := hends
  obtain ⟨address, rfl⟩ := Option.ne_none_iff_exists'.mp hentry
  obtain ⟨newId, ids, hids⟩ := List.exists_cons_of_ne_nil hheap
  have hne : newId ≠ fullThreads := by
    have := (hw.heap_top_free hids).1.1
    unfold fullThreads
    omega
  have hexec : (plain getMinAvailableId).exec (s, mem) signalSet
      = .ret newId (s.setHeap ids, mem) signalSet := by
    rw [exec_zoom, exec_getMinAvailableId signalSet hids, zoom_ret]
  have hexit : ∀ x m, (.other, x) ∈ (plain (exit 1) : MemLib Int).visits x m := by
    intro x m
    rw [visits_zoom]
    exact List.mem_singleton_self _
  -- on both ways out the heap is what it was when the call began
  obtain ⟨v, hv, hnil⟩ := visits_giveUp (s := (s.setHeap ids).print
    (systemErrorPrefix ++ memoryErrorMsg)) hexit hw.freed (h.congr (fun _ => rfl)) signalSet
  refine ⟨v, mem_visits_bind (n := signalSet) rfl (mem_visits_bind hexec ?_), hnil⟩
  rw [if_neg hne]
  obtain ⟨stack, thread⟩ := answers
  cases stack with
  | none => exact mem_visits_bind (exec_malloc_null _ signalSet) (mem_visits_bind rfl hv)
  | some newStack =>
      cases thread with
      | true => exact absurd ⟨rfl, rfl⟩ hmem
      | false =>
          by_cases h₁ : mem.heap.Fits ⟨newStack, stackSize⟩
          · have hback := exec_free (s := s.setHeap ids) (h := mem.setHeap (mem.heap.add _ h₁))
              ((Heap.mem_add h₁).mpr (Or.inl rfl)) signalSet
            rw [setHeap_heap, Heap.remove_add] at hback
            refine mem_visits_bind (exec_malloc h₁ signalSet) ?_
            refine mem_visits_bind (exec_malloc_null _ signalSet) ?_
            exact mem_visits_bind hback (mem_visits_bind rfl hv)
          · refine absurd ?_ (hanswer newStack)
            simp only [uthreadSpawn, exec_bind, exec_zoom, exec_maskTimer, zoom_ret,
              Outcome.andThen_ret, exec_getMinAvailableId signalSet hids, if_neg hne,
              exec_malloc_bad h₁, Outcome.andThen_stop, Outcome.stopped]

/-- **Whose stack is freed while an event runs**: that of a thread which terminates
itself, or ends the process. -/
theorem visits_freed_iff {order : IterOrder} {x : State × Memory} {e : Event × Nat}
    (h : Memory.Reachable order x) (h0 : x.1.currThreadId ≠ 0)
    (hanswer : ∀ address, Memory.stop order x e ≠ some (.badAnswer address)) {t : Thread}
    {stack : Nat} (ht : x.1.threads.get x.1.currThreadId = some t) (hstack : t.stack = some stack) :
    (∃ v ∈ Memory.visits order x e, ⟨stack, stackSize⟩ ∉ v.2.2.heap.live)
      ↔ e.1 = .call (.terminate x.1.currThreadId) ∨ e.1.EndsProcess x.1 := by
  obtain ⟨hreach, hsound⟩ := h.sound
  have hw := hreach.wellFormed
  obtain ⟨s, mem⟩ := x
  obtain ⟨e, record⟩ := e
  have hst : t.state = .running := by
    obtain ⟨u, hu, hst⟩ := hw.curr
    exact same_record ht hu ▸ hst
  have hlive := hsound.owns.mem_live (hsound.stack_owned ht hstack)
  -- where nothing is freed nothing is to be shown
  have hnever : (∀ v ∈ Memory.visits order (s, mem) (e, record),
        ⟨stack, stackSize⟩ ∈ v.2.2.heap.live) →
      ¬ (e = .call (.terminate s.currThreadId) ∨ e.EndsProcess s) →
      ((∃ v ∈ Memory.visits order (s, mem) (e, record), ⟨stack, stackSize⟩ ∉ v.2.2.heap.live)
        ↔ e = .call (.terminate s.currThreadId) ∨ e.EndsProcess s) :=
    fun hall hno => ⟨fun ⟨v, hv, hfreed⟩ => absurd (hall v hv) hfreed, fun hc => absurd hc hno⟩
  have hempty : (∃ v ∈ Memory.visits order (s, mem) (e, record), v.2.2.heap.live = []) →
      ∃ v ∈ Memory.visits order (s, mem) (e, record), ⟨stack, stackSize⟩ ∉ v.2.2.heap.live := by
    rintro ⟨v, hv, hnil⟩
    exact ⟨v, hv, by rw [hnil]; exact List.not_mem_nil⟩
  cases e with
  | tick mask =>
      exact hnever (Memory.visits_plain _ _ (fun _ _ => hlive)) (by simp [Event.EndsProcess])
  | call c =>
      cases c with
      | spawn answers entryPoint =>
          by_cases hends : (Event.call (.spawn answers entryPoint)).EndsProcess s
          · exact ⟨fun _ => Or.inr hends,
              fun _ => hempty (Memory.visits_spawn_nomem hw hsound hends hanswer)⟩
          · exact hnever (Memory.visits_spawn hw hlive hends) (by simp [hends])
      | terminate tid =>
          by_cases htid : tid = 0
          · subst htid
            exact ⟨fun _ => Or.inr rfl, fun _ => hempty (Memory.visits_terminate_main hw hsound)⟩
          · by_cases hself : s.currThreadId = tid
            · subst hself
              exact ⟨fun _ => Or.inl rfl,
                fun _ => Memory.visits_terminate_self hw hsound h0 ht hst hstack⟩
            · refine hnever (Memory.visits_terminate_other hw hsound ht hstack htid hself) ?_
              simp [Event.EndsProcess, htid, Ne.symm hself]
      | block _ | resume _ | sleep _ | getTid | getTotalQuantums | getQuantums _ =>
          exact hnever (Memory.visits_plain _ _ (fun _ _ => hlive)) (by simp [Event.EndsProcess])

end Caller

end Memory

/-- **Who runs on freed memory.**  While an event runs, the stack of the thread that
it runs on is freed exactly where the thread terminates itself or ends the
process, by `uthread_terminate(0)` or by a `uthread_spawn` that finds no memory;
its remaining statements then run on memory that is not allocated. -/
theorem runs_on_freed_stack_iff {order : IterOrder} {x : State × Memory} {e : Event × Nat}
    (h : Memory.Reachable order x) (h0 : x.1.currThreadId ≠ 0)
    (hanswer : ∀ address, Memory.stop order x e ≠ some (.badAnswer address)) :
    ∃ t stack, x.1.threads.get x.1.currThreadId = some t ∧ t.stack = some stack
      ∧ ((∃ v ∈ Memory.visits order x e, ⟨stack, stackSize⟩ ∉ v.2.2.heap.live)
        ↔ e.1 = .call (.terminate x.1.currThreadId) ∨ e.1.EndsProcess x.1) := by
  have hreach := h.sound.1
  obtain ⟨t, ht, _⟩ := hreach.wellFormed.curr
  obtain ⟨stack, hstack⟩ := Option.ne_none_iff_exists'.mp
    (fun hn => h0 ((hreach.onStacks _ t ht).own.mp hn))
  exact ⟨t, stack, ht, hstack, Memory.visits_freed_iff h h0 hanswer ht hstack⟩

/-- The new thread runs, and terminates itself. -/
theorem runs_on_freed_stack_iff_memoryRun :
    ∃ x t stack, run (Memory.step .listing) (initialState 1000, Memory.initial first_fits)
        (memoryRun.take 2) = some x
      ∧ x.1.threads.get 1 = some t ∧ t.stack = some stack
      ∧ ∃ v ∈ Memory.visits .listing x (.call (.terminate 1), 0),
          ⟨stack, stackSize⟩ ∉ v.2.2.heap.live := by
  have hall : ((run (Memory.step .listing) (initialState 1000, Memory.initial first_fits)
      (memoryRun.take 2)).bind (fun x => if x.1.currThreadId = 1
        ∧ Memory.stop .listing x (.call (.terminate 1), 0) = none then some () else none)).isSome
          = true := by
    decide +kernel
  obtain ⟨_, hsome⟩ := Option.isSome_iff_exists.mp hall
  obtain ⟨x, hx, hif⟩ := Option.bind_eq_some_iff.mp hsome
  obtain ⟨hcurr, hstop⟩ : x.1.currThreadId = 1
      ∧ Memory.stop .listing x (.call (.terminate 1), 0) = none := by
    by_contra hno
    rw [if_neg hno] at hif
    cases hif
  obtain ⟨t, stack, ht, hstack, hiff⟩ := runs_on_freed_stack_iff (reachable_of_memoryRun hx)
    (e := (.call (.terminate 1), 0)) (by rw [hcurr]; decide) (by rw [hstop]; exact nofun)
  rw [hcurr] at ht hiff
  exact ⟨x, t, stack, hx, ht, hstack, hiff.mpr (Or.inl rfl)⟩

end UThreads
