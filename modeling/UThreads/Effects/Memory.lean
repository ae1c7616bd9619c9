/-
  UThreads.Effects.Memory
  ───────────────────────
  **WHAT THE ALLOCATING CALLS DO TO THE HEAP**, in closed form.

  A thread owns the block of its record and that of its stack (the main thread
  runs on the stack of the process).  `Sound` says that the heap holds these
  blocks and nothing else; under it each of the four functions that allocate
  or free does what the model without a heap does, next to a known change of
  the heap.
-/
import UThreads.Model.Memory
import UThreads.Effects.Stacks
import UThreads.Invariant.Preservation

namespace UThreads

open Interruptible Allocation

namespace Memory

/-! ## §1. Owners. -/

/-- The blocks that `free` is called with for a thread: its stack, if it has
one of its own, and its record. -/
def blocksOf (t : Thread) (pointer : Nat) : List Block :=
  (t.stack.map (fun stack => (⟨stack, stackSize⟩ : Block))).toList ++ [⟨pointer, sizeofThread⟩]

/-- A thread has its record and, unless it is the main one, its stack. -/
theorem mem_blocksOf {t : Thread} {pointer : Nat} {b : Block} :
    b ∈ blocksOf t pointer
      ↔ b = ⟨pointer, sizeofThread⟩ ∨ ∃ stack, t.stack = some stack ∧ b = ⟨stack, stackSize⟩ := by
  unfold blocksOf
  rw [List.mem_append, List.mem_singleton, or_comm]
  cases t.stack <;> simp

/-- The blocks of thread `i`. -/
def ownedBy (x : State × Memory) (i : Int) : List Block :=
  match x.1.threads.get i, x.2.pointers.get i with
  | some t, some pointer => blocksOf t pointer
  | _, _                 => []

/-- The table points at records, and the heap holds them, the stacks of the
threads and nothing else. -/
structure Sound (x : State × Memory) : Prop where
  pointers : ∀ i, x.2.pointers.get i = none ↔ x.1.threads.get i = none
  owns : Owns (ownedBy x) x.2.heap

section Reading

variable {x : State × Memory} {i : Int} {t : Thread} {pointer : Nat}

/-- The blocks of a live thread are found through its pointer. -/
theorem ownedBy_some (ht : x.1.threads.get i = some t) (hp : x.2.pointers.get i = some pointer) :
    ownedBy x i = blocksOf t pointer := by
  unfold ownedBy
  rw [ht, hp]

/-- A dead thread owns nothing. -/
theorem ownedBy_none (ht : x.1.threads.get i = none) : ownedBy x i = [] := by
  unfold ownedBy
  rw [ht]

/-- The entry of a live thread is not null. -/
theorem Sound.exists_pointer (h : Sound x) (ht : x.1.threads.get i = some t) :
    ∃ pointer, x.2.pointers.get i = some pointer := by
  refine Option.ne_none_iff_exists'.mp (fun hn => ?_)
  rw [(h.pointers i).mp hn] at ht
  cases ht

/-- The record of a thread is its own. -/
theorem record_owned (ht : x.1.threads.get i = some t) (hp : x.2.pointers.get i = some pointer) :
    ⟨pointer, sizeofThread⟩ ∈ ownedBy x i := by
  rw [ownedBy_some ht hp]
  exact List.mem_append_right _ (List.mem_singleton_self _)

/-- It is live. -/
theorem Sound.record_live (h : Sound x) (ht : x.1.threads.get i = some t)
    (hp : x.2.pointers.get i = some pointer) : ⟨pointer, sizeofThread⟩ ∈ x.2.heap.live :=
  h.owns.mem_live (record_owned ht hp)

/-- No two entries of the table point to one record. -/
theorem Sound.pointer_once (h : Sound x) {j : Int} (hi : x.2.pointers.get i = some pointer)
    (hj : x.2.pointers.get j = some pointer) : i = j := by
  have hlive : ∀ k, x.2.pointers.get k = some pointer → ∃ t, x.1.threads.get k = some t := by
    intro k hk
    refine Option.ne_none_iff_exists'.mp (fun hn => ?_)
    rw [(h.pointers k).mpr hn] at hk
    cases hk
  obtain ⟨t, ht⟩ := hlive i hi
  obtain ⟨u, hu⟩ := hlive j hj
  exact h.owns.once i j _ (record_owned ht hi) (record_owned hu hj)

/-- **The heap holds the records and the stacks**, and nothing else. -/
theorem Sound.mem_live_iff (h : Sound x) (b : Block) :
    b ∈ x.2.heap.live ↔ ∃ i t pointer, x.1.threads.get i = some t
      ∧ x.2.pointers.get i = some pointer
      ∧ (b = ⟨pointer, sizeofThread⟩ ∨ ∃ stack, t.stack = some stack ∧ b = ⟨stack, stackSize⟩) := by
  rw [h.owns.live b]
  constructor
  · rintro ⟨i, hb⟩
    cases ht : x.1.threads.get i with
    | none =>
        rw [ownedBy_none ht] at hb
        cases hb
    | some t =>
        obtain ⟨pointer, hp⟩ := h.exists_pointer ht
        rw [ownedBy_some ht hp] at hb
        exact ⟨i, t, pointer, ht, hp, mem_blocksOf.mp hb⟩
  · rintro ⟨i, t, pointer, ht, hp, hb⟩
    refine ⟨i, ?_⟩
    rw [ownedBy_some ht hp]
    exact mem_blocksOf.mpr hb

/-- The stack of a thread is its own. -/
theorem Sound.stack_owned (h : Sound x) {stack : Nat} (ht : x.1.threads.get i = some t)
    (hstack : t.stack = some stack) : ⟨stack, stackSize⟩ ∈ ownedBy x i := by
  obtain ⟨pointer, hp⟩ := h.exists_pointer ht
  rw [ownedBy_some ht hp]
  exact mem_blocksOf.mpr (Or.inr ⟨stack, hstack, rfl⟩)

/-- A state with the same stacks in the same memory. -/
theorem Sound.congr (h : Sound x) {s : State}
    (hs : ∀ i, (s.threads.get i).map Thread.stack = (x.1.threads.get i).map Thread.stack) :
    Sound (s, x.2) := by
  have hnone : ∀ i, s.threads.get i = none ↔ x.1.threads.get i = none := by
    intro i
    rw [← Option.map_eq_none_iff (f := Thread.stack), hs i, Option.map_eq_none_iff]
  refine ⟨fun i => (h.pointers i).trans (hnone i).symm, h.owns.congr (fun i => ?_)⟩
  cases ht : x.1.threads.get i with
  | none => rw [ownedBy_none ht, ownedBy_none ((hnone i).mpr ht)]
  | some t =>
      obtain ⟨pointer, hp⟩ := h.exists_pointer ht
      obtain ⟨t', ht', hstack⟩ := Option.map_eq_some_iff.mp ((hs i).trans (by rw [ht]; rfl))
      rw [ownedBy_some ht hp, ownedBy_some (x := (s, x.2)) ht' hp]
      unfold blocksOf
      rw [hstack]

end Reading

/-! ## §2. Statements. -/

section Statements

variable {s : State} {h : Memory}

/-- `free(nullptr)` does nothing. -/
theorem exec_free_null (m : SigSet) : (free none).exec (s, h) m = .ret () (s, h) m := rfl

/-- Freeing an allocated block takes it, and nothing else, out of the heap. -/
theorem exec_free {b : Block} (hb : b ∈ h.heap.live) (m : SigSet) :
    (free (some b.base)).exec (s, h) m
      = .ret () (s, h.setHeap (h.heap.remove b)) m := by
  simp only [free, Prog.exec, Heap.free_of_mem hb]

/-- An allocation that fails leaves the heap as it is. -/
theorem exec_malloc_null (size : Nat) (m : SigSet) :
    (malloc none size).exec (s, h) m = .ret none (s, h) m := rfl

/-- An allocation that succeeds adds a block, apart from all the others. -/
theorem exec_malloc {address size : Nat} (hb : h.heap.Fits ⟨address, size⟩) (m : SigSet) :
    (malloc (some address) size).exec (s, h) m
      = .ret (some address) (s, h.setHeap (h.heap.add _ hb)) m := by
  simp only [malloc, Prog.exec, Heap.alloc_of_fits hb]

/-- An answer that no allocator gives. -/
theorem exec_malloc_bad {address size : Nat} (hb : ¬ h.heap.Fits ⟨address, size⟩) (m : SigSet) :
    (malloc (some address) size).exec (s, h) m = .stop (.badAnswer address) := by
  have hnone : h.heap.alloc ⟨address, size⟩ = none := dif_neg hb
  simp only [malloc, Prog.exec, hnone]

/-- Loading an entry of the table changes nothing. -/
@[simp] theorem exec_entry (tid : Int) (m : SigSet) :
    (entry tid).exec (s, h) m = .ret (h.pointers.get tid) (s, h) m := rfl

/-- A record that is there is read. -/
theorem exec_deref {tid : Int} {t : Thread} {pointer : Nat} (hload : s.load tid = .ok t)
    (hp : h.pointers.get tid = some pointer) (hlive : ⟨pointer, sizeofThread⟩ ∈ h.heap.live)
    (m : SigSet) : (deref tid).exec (s, h) m = .ret t (s, h) m := by
  have hcheck : (checkLive tid).exec (s, h) m = .ret () (s, h) m := by
    simp only [checkLive, Prog.exec, hp, if_pos hlive]
  rw [deref, exec_bind, hcheck, Outcome.andThen_ret, exec_zoom, UThreads.exec_deref m hload,
    zoom_ret]

/-- A write to a record that is still there is the write of the model without a heap. -/
theorem exec_update {tid : Int} {t : Thread} {pointer : Nat} (f : Thread → Thread)
    (hload : s.load tid = .ok t) (hp : h.pointers.get tid = some pointer)
    (hlive : ⟨pointer, sizeofThread⟩ ∈ h.heap.live) (m : SigSet) :
    (update tid f).exec (s, h) m = .ret () (s.setThread tid (some (f t)), h) m := by
  have hcheck : (checkLive tid).exec (s, h) m = .ret () (s, h) m := by
    simp only [checkLive, Prog.exec, hp, if_pos hlive]
  rw [update, exec_bind, hcheck, Outcome.andThen_ret, exec_zoom, UThreads.exec_update m f hload,
    zoom_ret]

@[simp] theorem setHeap_heap (heap : Heap) : (h.setHeap heap).heap = heap := rfl

@[simp] theorem setHeap_pointers (heap : Heap) : (h.setHeap heap).pointers = h.pointers := rfl

end Statements

/-! ## §3. Releasing one thread. -/

section Release

variable {s : State} {mem : Memory} {own : Int → List Block} {i : Int} {t : Thread} {pointer : Nat}

/-- Both blocks of a thread are freed, its stack first, by the code between
which nothing else happens to the heap. -/
theorem release (h : Owns own mem.heap) (hi : own i = blocksOf t pointer) :
    ∃ heap₁ heap₂, (∀ m, (free t.stack).exec (s, mem) m = .ret () (s, mem.setHeap heap₁) m)
      ∧ ⟨pointer, sizeofThread⟩ ∈ heap₁.live
      ∧ (∀ (s' : State) m, (free (some pointer)).exec (s', mem.setHeap heap₁) m
          = .ret () (s', mem.setHeap heap₂) m)
      ∧ Owns (fun j => if j = i then [] else own j) heap₂ := by
  -- what the thread owns once its stack is gone
  have hrecord : ∀ heap₁, Owns (fun j => if j = i then [⟨pointer, sizeofThread⟩] else own j) heap₁ →
      ∃ heap₂, ⟨pointer, sizeofThread⟩ ∈ heap₁.live
        ∧ (∀ (s' : State) m, (free (some pointer)).exec (s', mem.setHeap heap₁) m
          = .ret () (s', mem.setHeap heap₂) m)
        ∧ Owns (fun j => if j = i then [] else own j) heap₂ := by
    intro heap₁ h₁
    have hmem : (⟨pointer, sizeofThread⟩ : Block)
        ∈ (fun j => if j = i then [⟨pointer, sizeofThread⟩] else own j) i := by
      simp
    refine ⟨_, h₁.mem_live hmem, fun s' m => exec_free (s := s') (h := mem.setHeap heap₁)
      (h₁.mem_live hmem) m, h₁.free hmem ?_ ?_⟩
    · simp
    · intro j hj
      simp [hj]
  cases hst : t.stack with
  | none =>
      have hown : own i = [⟨pointer, sizeofThread⟩] := by
        rw [hi, blocksOf, hst]
        rfl
      obtain ⟨heap₂, hlive, hfree, hown₂⟩ := hrecord mem.heap (h.congr (fun j => by
        by_cases hj : j = i
        · rw [if_pos hj, hj, hown]
        · rw [if_neg hj]))
      exact ⟨mem.heap, heap₂, fun m => exec_free_null m, hlive, hfree, hown₂⟩
  | some stack =>
      have hown : own i = [⟨stack, stackSize⟩, ⟨pointer, sizeofThread⟩] := by
        rw [hi, blocksOf, hst]
        rfl
      have hmem : (⟨stack, stackSize⟩ : Block) ∈ own i := by
        rw [hown]
        simp
      obtain ⟨heap₂, hlive, hfree, hown₂⟩ := hrecord (mem.heap.remove ⟨stack, stackSize⟩)
        (h.free hmem (by simp [hown]) (fun j hj => if_neg hj))
      exact ⟨_, heap₂, fun m => exec_free (h.mem_live hmem) m, hlive, hfree, hown₂⟩

/-- **Removing a thread** frees what it owns. -/
theorem exec_removeThread (hf : s.freed = false) (h : Sound (s, mem))
    (ht : s.threads.get i = some t) (m : SigSet) :
    ∃ mem', (removeThread i).exec (s, mem) m
        = .ret () ((s.setThread i none).record (.terminated i t.quantum), mem') m
      ∧ Sound ((s.setThread i none).record (.terminated i t.quantum), mem') := by
  obtain ⟨pointer, hp⟩ := h.exists_pointer ht
  have hr := Table.inRange_of_get ht
  obtain ⟨heap₁, heap₂, hfree₁, hlive₁, hfree₂, hown⟩ :=
    release (s := s) h.owns (ownedBy_some (x := (s, mem)) ht hp)
  have hload := load_of_get hf ht
  have hget : ∀ j, (s.setThread i none).threads.get j = if j = i then none else s.threads.get j :=
    Table.get_set s.threads hr none
  have hptr := Table.get_set mem.pointers hr none
  refine ⟨⟨heap₂, mem.pointers.set i none⟩, ?_, ?_, hown.congr (fun j => ?_)⟩
  · -- the stack pointer that is cleared goes with its record
    have hclear : (s.setThread i (some { t with stack := none })).setThread i none
        = s.setThread i none := by
      refine State.ext (Table.ext_get (fun j => ?_)) rfl rfl rfl rfl rfl rfl rfl rfl rfl rfl rfl
      show ((s.threads.set i _).set i none).get j = (s.threads.set i none).get j
      rw [Table.get_set _ hr, Table.get_set _ hr, Table.get_set _ hr]
      split <;> rfl
    simp only [removeThread, exec_bind, exec_deref hload hp (h.record_live ht hp),
      Outcome.andThen_ret, hfree₁ m, exec_update (h := mem.setHeap heap₁) _ hload hp hlive₁,
      exec_entry, setHeap_pointers, hp, hfree₂]
    show Outcome.ret () (((s.setThread i _).setThread i none).record _, _) m = _
    rw [hclear]
    rfl
  · intro j
    show (mem.pointers.set i none).get j = none ↔ (s.setThread i none).threads.get j = none
    rw [hget, hptr]
    by_cases hj : j = i
    · simp [hj]
    · rw [if_neg hj, if_neg hj]
      exact h.pointers j
  · by_cases hj : j = i
    · rw [if_pos hj]
      exact ownedBy_none ((hget j).trans (if_pos hj))
    · rw [if_neg hj]
      have hget' : ((s.setThread i none).record (.terminated i t.quantum)).threads.get j
          = s.threads.get j := (hget j).trans (if_neg hj)
      have hptr' : (mem.pointers.set i none).get j = mem.pointers.get j :=
        (hptr j).trans (if_neg hj)
      unfold ownedBy
      rw [hget', hptr']

end Release

/-! ## §4. Releasing all threads. -/

section FreeThreads

variable {s : State}

/-- **One iteration** of `free_threads` frees what one thread owns. -/
theorem exec_freeLoop_cons {mem : Memory} {own : Int → List Block} {k : Nat} (is : List Nat)
    (hf : s.freed = false) (hptr : ∀ i, mem.pointers.get i = none ↔ s.threads.get i = none)
    (h : Owns own mem.heap) (hk : own k = ownedBy (s, mem) k) (m : SigSet) :
    ∃ heap', (freeLoop (k :: is)).exec (s, mem) m
        = (freeLoop is).exec (s, mem.setHeap heap') m
      ∧ Owns (fun j : Int => if j = k then [] else own j) heap' := by
  cases hp : mem.pointers.get (k : Int) with
  | none =>
      have hown : own k = [] := by
        rw [hk, ownedBy_none ((hptr k).mp hp)]
      refine ⟨mem.heap, ?_, h.congr (fun j => ?_)⟩
      · simp only [freeLoop, exec_bind, exec_entry, Outcome.andThen_ret, hp, Option.isSome_none,
          Bool.false_eq_true, if_false, exec_free_null]
        rfl
      · by_cases hj : j = k
        · rw [if_pos hj, hj, hown]
        · rw [if_neg hj]
  | some pointer =>
      obtain ⟨t, ht⟩ : ∃ t, s.threads.get (k : Int) = some t := by
        refine Option.ne_none_iff_exists'.mp (fun hn => ?_)
        rw [(hptr k).mpr hn] at hp
        cases hp
      rw [ownedBy_some (x := (s, mem)) ht hp] at hk
      have hlive : (⟨pointer, sizeofThread⟩ : Block) ∈ mem.heap.live :=
        h.mem_live (i := (k : Int)) (by rw [hk]; exact List.mem_append_right _ (by simp))
      obtain ⟨heap₁, heap₂, hfree₁, _, hfree₂, hown⟩ := release (s := s) h hk
      refine ⟨heap₂, ?_, hown⟩
      have hload := load_of_get hf ht
      simp only [freeLoop, exec_bind, exec_entry, Outcome.andThen_ret, hp, Option.isSome_some,
        if_true, exec_deref hload hp hlive]
      cases hst : t.stack with
      | none =>
          -- a null stack pointer is not passed to `free`
          have hsame : mem.setHeap heap₁ = mem := by
            have hfree := hfree₁ m
            rw [hst, exec_free_null] at hfree
            injection hfree with _ hx _
            exact (Prod.mk.inj hx).2.symm
          have hfree := hfree₂ s m
          rw [hsame] at hfree
          simp only [Option.isSome_none, Bool.false_eq_true, if_false, exec_bind, exec_entry,
            Outcome.andThen_ret, hp, hfree]
      | some stack =>
          rw [hst] at hfree₁
          simp only [Option.isSome_some, if_true, exec_bind, exec_entry, Outcome.andThen_ret,
            hfree₁ m, setHeap_pointers, hp, hfree₂]

/-- The loop of `free_threads` frees what the threads it visits own: by induction on
the ids, with the heap owned by those still to come. -/
theorem exec_freeLoop (hf : s.freed = false) (m : SigSet) :
    ∀ (is : List Nat) (mem : Memory) (own : Int → List Block), is.Nodup → Owns own mem.heap →
      (∀ i, mem.pointers.get i = none ↔ s.threads.get i = none) →
      (∀ k ∈ is, own k = ownedBy (s, mem) k) →
      ∃ heap', (freeLoop is).exec (s, mem) m = .ret () (s, mem.setHeap heap') m
        ∧ Owns (fun j : Int => if j ∈ is.map Nat.cast then [] else own j) heap' := by
  intro is
  induction is with
  | nil =>
      intro mem own _ h _ _
      exact ⟨mem.heap, rfl, h.congr (fun j => by simp)⟩
  | cons k is ih =>
      intro mem own hnd h hptr hown
      obtain ⟨hk, hnd'⟩ := List.nodup_cons.mp hnd
      obtain ⟨heap₁, hone, hown₁⟩ :=
        exec_freeLoop_cons is hf hptr h (hown k List.mem_cons_self) m
      obtain ⟨heap₂, hrest, hown₂⟩ := ih (mem.setHeap heap₁) _ hnd' hown₁ hptr (by
        intro l hl
        have hne : (l : Int) ≠ k := fun he => hk (Int.natCast_inj.mp he ▸ hl)
        rw [if_neg hne]
        exact hown l (List.mem_cons_of_mem _ hl))
      refine ⟨heap₂, hone.trans hrest, hown₂.congr (fun j => ?_)⟩
      rw [List.map_cons]
      by_cases hj : j = k
      · simp [hj]
      · simp [hj]

/-- **`free_threads` frees everything.** -/
theorem exec_freeThreads {mem : Memory} (hf : s.freed = false) (h : Sound (s, mem)) (m : SigSet) :
    ∃ mem', freeThreads.exec (s, mem) m = .ret () (s.setFreed, mem') m ∧ mem'.heap.live = [] := by
  obtain ⟨heap', hloop, hown⟩ := exec_freeLoop hf m (List.range maxThreadNum) mem _
    List.nodup_range h.owns h.pointers (fun _ _ => rfl)
  refine ⟨mem.setHeap heap', ?_, hown.live_eq_nil (fun j => ?_)⟩
  · simp only [freeThreads, exec_bind, hloop, Outcome.andThen_ret, exec_zoom,
      markFreed, exec_modify, zoom_ret]
  · by_cases hr : Table.InRange maxThreadNum j
    · refine if_pos (List.mem_map.mpr ⟨j.toNat, ?_, Int.toNat_of_nonneg hr.1⟩)
      exact List.mem_range.mpr hr.toNat_lt
    · rw [ownedBy_none (Table.get_of_not_inRange s.threads hr)]
      split <;> rfl

end FreeThreads

/-! ## §5. Next to the model without a heap. -/

/-- The outcome with the heap is that without: a return or a jump leaves a sound
memory, an exit leaves nothing allocated, no `free` goes wrong.  (If the
allocator gives an impossible answer there is nothing to compare.) -/
inductive Agrees {α : Type} :
    Outcome State SigSet Stop α → Outcome (State × Memory) SigSet Trap α → Prop where
  | ret (a : α) (s : State) (mem : Memory) (m : SigSet) (h : Sound (s, mem)) :
      Agrees (.ret a s m) (.ret a (s, mem) m)
  | jump (t : Target) (s : State) (mem : Memory) (m : SigSet) (h : Sound (s, mem)) :
      Agrees (.jump t s m) (.jump t (s, mem) m)
  | exit (code : Int) : Agrees (.stop (.exit code)) (.stop (.exit code []))
  | fault (f : Fault) : Agrees (.stop (.fault f)) (.stop (.fault f))
  | badAnswer (o : Outcome State SigSet Stop α) (address : Nat) :
      Agrees o (.stop (.badAnswer address))

section Agrees

variable {α β : Type} {s : State} {mem : Memory} (m : SigSet)

/-- Where two programs agree, and what follows them does, so do the sequences. -/
theorem Agrees.andThen {o : Outcome State SigSet Stop α}
    {o' : Outcome (State × Memory) SigSet Trap α}
    {f : α → State → SigSet → Outcome State SigSet Stop β}
    {f' : α → State × Memory → SigSet → Outcome (State × Memory) SigSet Trap β} (h : Agrees o o')
    (hf : ∀ a s mem m, Sound (s, mem) → Agrees (f a s m) (f' a (s, mem) m)) :
    Agrees (o.andThen f) (o'.andThen f') := by
  cases h with
  | ret a s mem m h => exact hf a s mem m h
  | jump t s mem m h => exact .jump t s mem m h
  | exit code => exact .exit code
  | fault f => exact .fault f
  | badAnswer o address => exact .badAnswer _ address

/-- **Code that keeps the stacks** does what it does without a heap. -/
theorem agrees_plain {p : Lib α} (hp : Steady p) (h : Sound (s, mem)) :
    Agrees (p.exec s m) ((plain p).exec (s, mem) m) := by
  have hframe := hp.exec SameStacks.refl SameStacks.trans s m
  rw [exec_zoom]
  cases hexec : p.exec s m with
  | ret a s' m' =>
      rw [hexec] at hframe
      exact .ret a s' mem m' (h.congr hframe.stack)
  | jump t s' m' =>
      rw [hexec] at hframe
      exact .jump t s' mem m' (h.congr hframe.stack)
  | stop e =>
      rw [hexec] at hframe
      cases e with
      | exit code => exact absurd hframe id
      | fault f => exact .fault f

variable (order : IterOrder)

/-- `uthread_terminate` with the heap does what it does without, on each of its ways. -/
theorem agrees_terminate (hw : WellFormed s) (h : Sound (s, mem)) (tid : Int) :
    Agrees ((UThreads.uthreadTerminate order tid).exec s m)
      ((uthreadTerminate order tid).exec (s, mem) m) := by
  cases ht : s.threads.get tid with
  | none =>
      rw [exec_uthreadTerminate_unknown order m ht]
      simp only [uthreadTerminate, exec_bind, exec_zoom, exec_maskTimer, zoom_ret,
        Outcome.andThen_ret, exec_unknownTid, ht, Option.isNone_none, if_true, exec_report,
        exec_unmaskTimer, exec_pure]
      exact .ret _ _ _ _ (h.congr (fun _ => rfl))
  | some t =>
      have hload := load_of_get hw.freed ht
      obtain ⟨pointer, hp⟩ := h.exists_pointer ht
      have hlive := h.record_live ht hp
      by_cases h0 : tid = 0
      · subst h0
        obtain ⟨mem', hfree, hnil⟩ := exec_freeThreads hw.freed h signalSet
        rw [exec_uthreadTerminate_main order m hw.main_live]
        simp only [uthreadTerminate, exec_bind, exec_zoom, exec_maskTimer, zoom_ret,
          Outcome.andThen_ret, exec_unknownTid_live _ ht, Bool.false_eq_true, if_false, if_true,
          hfree, exec_unmaskTimer, exec_exit, zoom_stop, Outcome.andThen_stop, Trap.of, hnil]
        exact .exit 0
      · obtain ⟨mem', hremove, hsound⟩ := exec_removeThread hw.freed h ht signalSet
        have hidle : t.state = .ready ∨ t.state = .blocked →
            Agrees ((UThreads.uthreadTerminate order tid).exec s m)
              ((uthreadTerminate order tid).exec (s, mem) m) := by
          intro hst
          rw [exec_uthreadTerminate_idle order m hw.freed h0 ht hst]
          simp only [uthreadTerminate, exec_bind, exec_zoom, exec_maskTimer, zoom_ret,
            Outcome.andThen_ret, exec_unknownTid_live _ ht, Bool.false_eq_true, if_false, h0,
            exec_deref hload hp hlive, hst, if_true, hremove, exec_pushHeap,
            exec_removeTidFromReadyQueue, exec_unmaskTimer, exec_pure]
          exact .ret _ _ _ _ (hsound.congr (fun _ => rfl))
        cases hst : t.state with
        | ready => exact hidle (Or.inl hst)
        | blocked => exact hidle (Or.inr hst)
        | sleeping =>
            -- the id leaves the set first
            have hmem := hw.sleepMem tid t ht (Or.inl hst)
            obtain ⟨mem₁, hremove₁, hsound₁⟩ := exec_removeThread
              (s := s.setSleeping (s.sleepingThreads.erase tid)) hw.freed
              (h.congr (fun _ => rfl)) ht signalSet
            rw [exec_uthreadTerminate_sleeping order m hw.freed h0 ht hst hmem]
            simp only [uthreadTerminate, exec_bind, exec_zoom, exec_maskTimer, zoom_ret,
              Outcome.andThen_ret, exec_unknownTid_live _ ht, Bool.false_eq_true, if_false, h0,
              exec_deref hload hp hlive, hst, reduceCtorEq, or_self, if_true,
              exec_eraseSleeping _ hmem, hremove₁, exec_pushHeap, exec_unmaskTimer, exec_pure]
            exact .ret _ _ _ _ (hsound₁.congr (fun _ => rfl))
        | running =>
            simp only [uthreadTerminate, UThreads.uthreadTerminate, exec_bind, exec_zoom,
              exec_maskTimer, zoom_ret, Outcome.andThen_ret, exec_unknownTid_live _ ht,
              Bool.false_eq_true, if_false, h0, exec_deref hload hp hlive,
              UThreads.exec_deref _ hload, hst, reduceCtorEq, or_self, if_true, UThreads.exec_removeThread _ hload, hremove, exec_pushHeap, exec_modify,
              exec_unmaskTimer, exec_pure]
            rw [← exec_zoom]
            refine Agrees.andThen (agrees_plain signalSet (steady_setReadyToRun order) ?_)
              (fun _ s' mem₁ m₁ h' => ?_)
            · exact hsound.congr (fun _ => rfl)
            · exact .ret successReturnValue s' mem₁ (m₁ \ signalSet) h'

/-- Both allocations of `uthread_spawn`, for a thread that is not there yet. -/
theorem Sound.spawn {newId : Int} {ids : List Int} {newStack record : Nat} (entryPoint : Nat)
    (h : Sound (s, mem)) (hr : Table.InRange maxThreadNum newId)
    (hnull : s.threads.get newId = none) (h₁ : mem.heap.Fits ⟨newStack, stackSize⟩)
    (h₂ : (mem.heap.add _ h₁).Fits ⟨record, sizeofThread⟩) :
    Sound (s.spawn newId ids newStack entryPoint,
      ⟨(mem.heap.add _ h₁).add _ h₂, mem.pointers.set newId (some record)⟩) := by
  have hget : ∀ j, (s.spawn newId ids newStack entryPoint).threads.get j
      = if j = newId then some (setNewThread entryPoint newId newStack s.nextToken)
        else s.threads.get j := Table.get_set s.threads hr _
  have hptr := Table.get_set mem.pointers hr (some record)
  have hnone : ownedBy (s, mem) newId = [] := ownedBy_none hnull
  -- the stack first, then the record
  have hown₁ : Owns (fun j => if j = newId then [⟨newStack, stackSize⟩] else ownedBy (s, mem) j)
      (mem.heap.add _ h₁) :=
    h.owns.alloc h₁ (i := newId) (by rw [if_pos rfl, hnone]; rfl) (fun j hj => if_neg hj)
  refine ⟨fun j => ?_, hown₁.alloc h₂ (i := newId) ?_ (fun j hj => ?_)⟩
  · show (mem.pointers.set newId (some record)).get j = none ↔ _
    rw [hptr, hget]
    by_cases hj : j = newId
    · simp [hj]
    · rw [if_neg hj, if_neg hj]
      exact h.pointers j
  · rw [if_pos rfl]
    exact ownedBy_some (x := (s.spawn newId ids newStack entryPoint, ⟨_, _⟩))
      ((hget newId).trans (if_pos rfl)) ((hptr newId).trans (if_pos rfl))
  · rw [if_neg hj]
    have hget' : (s.spawn newId ids newStack entryPoint).threads.get j = s.threads.get j :=
      (hget j).trans (if_neg hj)
    have hptr' : (mem.pointers.set newId (some record)).get j = mem.pointers.get j :=
      (hptr j).trans (if_neg hj)
    unfold ownedBy
    rw [hget', hptr']

/-- **Spawning** allocates a stack and a record; without memory for both it
frees whatever there is. -/
theorem agrees_spawn (hw : WellFormed s) (h : Sound (s, mem)) (answers : Malloc) (record : Nat)
    (entryPoint : Option Nat) :
    Agrees ((UThreads.uthreadSpawn answers entryPoint).exec s m)
      ((uthreadSpawn answers record entryPoint).exec (s, mem) m) := by
  cases entryPoint with
  | none =>
      rw [exec_uthreadSpawn_null]
      exact .ret _ _ _ _ (h.congr (fun _ => rfl))
  | some entryPoint =>
      cases hheap : s.minHeapId with
      | nil =>
          rw [exec_uthreadSpawn_full answers entryPoint m hheap]
          simp only [uthreadSpawn, exec_bind, exec_zoom, exec_maskTimer, zoom_ret,
            Outcome.andThen_ret, exec_getMinAvailableId_empty signalSet hheap, if_true,
            exec_report, exec_unmaskTimer, exec_pure]
          exact .ret _ _ _ _ (h.congr (fun _ => rfl))
      | cons newId ids =>
          obtain ⟨hr, hnull⟩ := hw.heap_top_free hheap
          have hne : newId ≠ fullThreads := by
            have := hr.1
            unfold fullThreads
            omega
          have hgiveUp := exec_freeThreads (s := (s.setHeap ids).print
            (systemErrorPrefix ++ memoryErrorMsg)) hw.freed (h.congr (fun _ => rfl)) signalSet
          obtain ⟨mem', hfree, hnil⟩ := hgiveUp
          obtain ⟨stack, thread⟩ := answers
          cases stack with
          | none =>
              rw [exec_uthreadSpawn_nomem (by simp [Malloc.Succeeds]) entryPoint m hheap hr.1]
              simp only [uthreadSpawn, exec_bind, exec_zoom, exec_maskTimer, zoom_ret,
                Outcome.andThen_ret, exec_getMinAvailableId signalSet hheap, if_neg hne,
                exec_malloc_null, exec_report, hfree, exec_unmaskTimer, exec_exit, zoom_stop,
                Trap.of, hnil]
              exact .exit 1
          | some newStack =>
              by_cases h₁ : mem.heap.Fits ⟨newStack, stackSize⟩
              · cases thread with
                | false =>
                    -- the new stack goes back, and the heap is what it was
                    have hback : (free (some newStack)).exec
                        (s.setHeap ids, mem.setHeap (mem.heap.add _ h₁)) signalSet
                          = .ret () (s.setHeap ids, mem) signalSet := by
                      have hfreed := exec_free (s := s.setHeap ids)
                        (h := mem.setHeap (mem.heap.add _ h₁))
                        ((Heap.mem_add h₁).mpr (Or.inl rfl)) signalSet
                      rw [setHeap_heap, Heap.remove_add] at hfreed
                      exact hfreed
                    rw [exec_uthreadSpawn_nomem (by simp [Malloc.Succeeds]) entryPoint m hheap hr.1]
                    simp only [uthreadSpawn, exec_bind, exec_zoom, exec_maskTimer, zoom_ret,
                      Outcome.andThen_ret, exec_getMinAvailableId signalSet hheap, if_neg hne,
                      exec_malloc h₁, Bool.false_eq_true, if_false, exec_malloc_null, hback,
                      exec_report, hfree, exec_unmaskTimer, exec_exit, zoom_stop, Trap.of, hnil]
                    exact .exit 1
                | true =>
                    rw [exec_uthreadSpawn newStack entryPoint m hheap hr.1]
                    by_cases h₂ : (mem.heap.add _ h₁).Fits ⟨record, sizeofThread⟩
                    · simp only [uthreadSpawn, exec_bind, exec_zoom, exec_maskTimer, zoom_ret,
                        Outcome.andThen_ret, exec_getMinAvailableId signalSet hheap, if_neg hne,
                        exec_malloc h₁, if_true]
                      rw [exec_malloc (h := mem.setHeap (mem.heap.add _ h₁)) h₂]
                      exact .ret _ _ _ _ (h.spawn entryPoint hr hnull h₁ h₂)
                    · have hbad := exec_malloc_bad (s := s.setHeap ids)
                        (h := mem.setHeap (mem.heap.add _ h₁)) h₂ signalSet
                      simp only [uthreadSpawn, exec_bind, exec_zoom, exec_maskTimer, zoom_ret,
                        Outcome.andThen_ret, exec_getMinAvailableId signalSet hheap, if_neg hne,
                        exec_malloc h₁, if_true, hbad, Outcome.andThen_stop]
                      exact .badAnswer _ record
              · have hbad := exec_malloc_bad (s := s.setHeap ids) h₁ signalSet
                simp only [uthreadSpawn, exec_bind, exec_zoom, exec_maskTimer, zoom_ret,
                  Outcome.andThen_ret, exec_getMinAvailableId signalSet hheap, if_neg hne, hbad,
                  Outcome.andThen_stop]
                exact .badAnswer _ newStack

/-- Every call does with the heap what it does without; all but two are the same code. -/
theorem agrees_call (hw : WellFormed s) (h : Sound (s, mem)) (record : Nat) (c : Call) :
    Agrees ((c.prog order).exec s m) ((prog order record c).exec (s, mem) m) := by
  cases c with
  | spawn answers entryPoint => exact agrees_spawn m hw h answers record entryPoint
  | terminate tid => exact agrees_terminate m order hw h tid
  | block tid => exact agrees_plain m (steady_uthreadBlock order tid) h
  | resume tid => exact agrees_plain m (steady_uthreadResume tid) h
  | sleep n => exact agrees_plain m (steady_uthreadSleep order n) h
  | getTid => exact agrees_plain m (steady_read _ _) h
  | getTotalQuantums => exact agrees_plain m (steady_read _ _) h
  | getQuantums tid => exact agrees_plain m (steady_uthreadGetQuantums tid) h

end Agrees

/-! ## §6. Events. -/

/-- What an agreement says about the next state and about a stop. -/
theorem Agrees.settled {α : Type} {o : Outcome State SigSet Stop α}
    {o' : Outcome (State × Memory) SigSet Trap α} (h : Agrees o o') :
    (∀ x, settle o' = some x → settle o = some x.1 ∧ Sound x)
      ∧ (∀ trap, o'.stopped = some trap → (∃ address, trap = .badAnswer address)
          ∨ (∃ code, trap = .exit code [] ∧ o.stopped = some (.exit code))
          ∨ (∃ f, trap = .fault f ∧ o.stopped = some (.fault f))) := by
  -- a stop has no next state
  have hnone : ∀ (trap : Trap) (x : State × Memory),
      settle (.stop trap : Outcome (State × Memory) SigSet Trap α) ≠ some x := by
    intro trap x hx
    cases hx
  cases h with
  | ret a s mem m h =>
      refine ⟨fun x hx => ?_, nofun⟩
      injection hx with hx
      exact hx ▸ ⟨rfl, h⟩
  | jump t s mem m h =>
      refine ⟨fun x hx => ?_, nofun⟩
      injection hx with hx
      exact hx ▸ ⟨rfl, h⟩
  | exit code =>
      refine ⟨fun x hx => absurd hx (hnone _ x), fun trap htrap => Or.inr (Or.inl ⟨code, ?_, rfl⟩)⟩
      injection htrap with htrap
      exact htrap.symm
  | fault f =>
      refine ⟨fun x hx => absurd hx (hnone _ x), fun trap htrap => Or.inr (Or.inr ⟨f, ?_, rfl⟩)⟩
      injection htrap with htrap
      exact htrap.symm
  | badAnswer o address =>
      refine ⟨fun x hx => absurd hx (hnone _ x), fun trap htrap => Or.inl ⟨address, ?_⟩⟩
      injection htrap with htrap
      exact htrap.symm

/-- Nothing is lost by erasing the heap. -/
theorem Agrees.erased {α : Type} {o : Outcome State SigSet Stop α}
    {o' : Outcome (State × Memory) SigSet Trap α} (h : Agrees o o')
    (hanswer : ∀ address, o'.stopped ≠ some (.badAnswer address)) :
    (settle o').map Prod.fst = settle o ∧ o'.stopped.bind Trap.erased = o.stopped := by
  cases h with
  | ret a s mem m h => exact ⟨rfl, rfl⟩
  | jump t s mem m h => exact ⟨rfl, rfl⟩
  | exit code => exact ⟨rfl, rfl⟩
  | fault f => exact ⟨rfl, rfl⟩
  | badAnswer o address => exact absurd rfl (hanswer address)

section Events

variable {order : IterOrder} {x x' : State × Memory} {e : Event × Nat}

/-- **One event** does what it does without a heap, and leaves a sound memory. -/
theorem Sound.step (h : Sound x) (hw : WellFormed x.1) (hs : Memory.step order x e = some x') :
    UThreads.step order x.1 e.1 = some x'.1 ∧ Sound x' := by
  obtain ⟨e, record⟩ := e
  cases e with
  | call c => exact (agrees_call ∅ order hw h record c).settled.1 x' hs
  | tick mask =>
      exact (agrees_plain (insert sigvtalrm mask) (steady_timerHandler order) h).settled.1 x' hs

/-- **How an event stops the process**: as without a heap, and an exit leaves
nothing allocated. -/
theorem Sound.stop (h : Sound x) (hw : WellFormed x.1) {trap : Trap}
    (hs : Memory.stop order x e = some trap) :
    (∃ address, trap = .badAnswer address)
      ∨ (∃ code, trap = .exit code [] ∧ e.1.stop order x.1 = some (.exit code))
      ∨ (∃ f, trap = .fault f ∧ e.1.stop order x.1 = some (.fault f)) := by
  obtain ⟨e, record⟩ := e
  cases e with
  | call c => exact (agrees_call ∅ order hw h record c).settled.2 trap hs
  | tick mask =>
      exact (agrees_plain (insert sigvtalrm mask) (steady_timerHandler order) h).settled.2 trap hs

end Events

/-! ## §7. Start. -/

/-- The memory that `uthread_init` leaves. -/
def initial {pointer : Nat} (hp : Memory.empty.heap.Fits ⟨pointer, sizeofThread⟩) : Memory :=
  ⟨Memory.empty.heap.add _ hp, Memory.empty.pointers.set 0 (some pointer)⟩

/-- **`uthread_init`** allocates the record of the main thread. -/
theorem exec_uthreadInit {quantumUsecs : Int} (hq : 0 < quantumUsecs) {pointer : Nat}
    (hp : Memory.empty.heap.Fits ⟨pointer, sizeofThread⟩) (m : SigSet) :
    (uthreadInit (some pointer) quantumUsecs).exec (boot, Memory.empty) m
      = .ret successReturnValue (initialState quantumUsecs, initial hp) m := by
  have hpos : ¬ quantumUsecs ≤ 0 := by omega
  -- the heap is filled with all ids, then the main thread takes 0
  have hgo := exec_initMinHeapId_go m (List.range maxThreadNum)
    ((boot.setLen quantumUsecs).setTotal 1)
  have hheap : pushAll ((boot.setLen quantumUsecs).setTotal 1).minHeapId
      (List.range maxThreadNum) = 0 :: (List.range' 1 99).map (fun k : Nat => (k : Int)) :=
    heap_of_range
  rw [hheap] at hgo
  have hmin := exec_getMinAvailableId (m := m) (s := ((boot.setLen quantumUsecs).setTotal 1).setHeap
    (0 :: (List.range' 1 99).map (fun k : Nat => (k : Int)))) rfl
  rw [uthreadInit]
  simp only [exec_bind, if_neg hpos, exec_malloc hp, exec_zoom, exec_modify, zoom_ret,
    Outcome.andThen_ret, exec_pure, initMinHeapId, hgo, hmin, initTimer]
  rfl

/-- Nothing is owned before `uthread_init`. -/
theorem sound_boot : Sound (boot, Memory.empty) := by
  refine ⟨fun i => ?_, owns_empty (fun i => ownedBy_none (Table.get_empty i))⟩
  show (Table.empty maxThreadNum Nat).get i = none ↔ (Table.empty maxThreadNum Thread).get i = none
  rw [Table.get_empty, Table.get_empty]
  simp

/-- What `uthread_init` leaves, and when. -/
theorem initial_iff {x : State × Memory} :
    Initial x ↔ ∃ quantumUsecs pointer,
      ∃ hp : Memory.empty.heap.Fits ⟨pointer, sizeofThread⟩,
        0 < quantumUsecs ∧ x = (initialState quantumUsecs, initial hp) := by
  constructor
  · rintro ⟨answer, q, m, m', h⟩
    by_cases hq : q ≤ 0
    · simp [uthreadInit, hq, successReturnValue, failureReturnValue] at h
    · cases answer with
      | none =>
          -- without memory the process exits
          obtain ⟨mem', hfree, _⟩ := exec_freeThreads (s := boot.print
            (systemErrorPrefix ++ memoryErrorMsg)) rfl (sound_boot.congr (fun _ => rfl)) m
          simp [uthreadInit, hq, exec_malloc_null, hfree] at h
      | some pointer =>
          by_cases hp : Memory.empty.heap.Fits ⟨pointer, sizeofThread⟩
          · rw [exec_uthreadInit (by omega) hp m] at h
            injection h with _ hx _
            exact ⟨q, pointer, hp, by omega, hx.symm⟩
          · simp [uthreadInit, hq, exec_malloc_bad hp] at h
  · rintro ⟨q, pointer, hp, hq, rfl⟩
    exact ⟨some pointer, q, ∅, ∅, exec_uthreadInit hq hp ∅⟩

/-- What `uthread_init` leaves is sound: the main thread owns its record. -/
theorem Initial.sound {x : State × Memory} (h : Initial x) : UThreads.Initial x.1 ∧ Sound x := by
  obtain ⟨q, pointer, hp, hq, rfl⟩ := initial_iff.mp h
  have hptr : ∀ i, (initial hp).pointers.get i = if i = 0 then some pointer else none := by
    intro i
    show ((Table.empty maxThreadNum Nat).set 0 (some pointer)).get i = _
    rw [Table.get_set _ (by decide), Table.get_empty]
  refine ⟨UThreads.initial_iff.mpr ⟨q, hq, rfl⟩, fun i => ?_, ?_⟩
  · rw [hptr, initialState_get]
    by_cases hi : i = 0
    · simp [hi]
    · simp [hi]
  · -- one block, for the record of the main thread
    have hboot : ∀ j, ownedBy (boot, Memory.empty) j = [] := fun j =>
      ownedBy_none (x := (boot, Memory.empty)) (Table.get_empty j)
    refine sound_boot.owns.alloc hp (i := 0) ?_ (fun j hj => ?_)
    · rw [hboot]
      exact ownedBy_some (x := (initialState q, initial hp)) (initialState_get q 0) (hptr 0)
    · rw [hboot]
      exact ownedBy_none ((initialState_get q j).trans (if_neg hj))

end Memory

end UThreads
