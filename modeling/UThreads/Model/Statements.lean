/-
  UThreads.Model.Statements
  ─────────────────────────
  **THE STATEMENTS THE LIBRARY IS MADE OF.**

  Each definition is one atomic statement of `uthreads.cpp` over the process
  `State`; the functions of the library are `do` blocks of these.  A statement
  says in its label whether it touches `threads`, `ready_threads`,
  `sleeping_threads`, `min_heap_id` or `curr_thread_id`.
-/
import UThreads.Model.State

namespace UThreads

open Interruptible

/-! ## §1. Labels. -/

/-- What a statement touches. -/
inductive Access where
  /-- one of the five structures of the scheduler -/
  | shared
  /-- the read of `ready_threads.front()` in `set_ready_to_run` -/
  | front
  /-- none of them -/
  | other
  deriving DecidableEq, Repr

/-- Code of the library. -/
abbrev Lib := Prog State SigSet Stop Access

/-! ## §2. Reading and writing the globals. -/

variable {α : Type}

/-- Evaluate an expression. -/
def read (l : Access) (f : State → α) : Lib α :=
  .stmt l (fun s => .ok (f s, s)) .ret

/-- Assign. -/
def modify (l : Access) (f : State → State) : Lib Unit :=
  .stmt l (fun s => .ok ((), f s)) .ret

/-- `exit(code)`. -/
def exit (code : Int) : Lib α :=
  .stmt .other (fun _ => .error (.exit code) : State → Except Stop (α × State)) .ret

/-- `std::cerr << pre << msg << std::endl`. -/
def report (pre msg : String) : Lib Unit := modify .other (fun s => s.print (pre ++ msg))

/-! ## §3. The thread table. -/

/-- The record behind `threads[tid]`. -/
def State.load (s : State) (tid : Int) : Except Stop Thread :=
  if s.freed then .error (.fault .freedThread)
  else match s.threads.get tid with
    | some t => .ok t
    | none   => .error (.fault .nullThread)

/-- `*threads[tid]`, the load of the pointer included: one statement where the timer
is masked. -/
def deref (tid : Int) : Lib Thread :=
  .stmt .shared (fun s => (s.load tid).map (fun t => (t, s))) .ret

/-- A pointer to a record: to the one that `tid` had after `life` earlier ones.  Once
that record is freed the pointer is invalid for good, also where the allocator
gives its address to a later record. -/
structure RecordPtr where
  tid : Int
  life : Nat
  deriving DecidableEq, Repr

/-- The event frees a record of `tid`. -/
def JmpEvent.ends (tid : Int) : JmpEvent → Bool
  | .terminated i _ => i = tid
  | _               => false

/-- How many records of `tid` have been freed. -/
def State.life (s : State) (tid : Int) : Nat := s.history.countP (JmpEvent.ends tid)

/-- The pointer that `threads[tid]` holds, if it is not null. -/
def State.pointer (s : State) (tid : Int) : Option RecordPtr :=
  (s.threads.get tid).map (fun _ => ⟨tid, s.life tid⟩)

/-- The record behind a pointer. -/
def State.follow (s : State) : Option RecordPtr → Except Stop Thread
  | none   => .error (.fault .nullThread)
  | some p => if s.life p.tid = p.life then s.load p.tid else .error (.fault .freedThread)

/-- Load the pointer `threads[tid]`. -/
def loadPtr (tid : Int) : Lib (Option RecordPtr) := read .shared (fun s => s.pointer tid)

/-- `*thread`, through a pointer that has been loaded. -/
def derefPtr (thread : Option RecordPtr) : Lib Thread :=
  .stmt .shared (fun s => (s.follow thread).map (fun t => (t, s))) .ret

/-- Write fields of `*threads[tid]`. -/
def update (tid : Int) (f : Thread → Thread) : Lib Unit :=
  .stmt .shared (fun s => (s.load tid).map (fun t => ((), s.setThread tid (some (f t))))) .ret

/-- `threads[tid]->state = st`. -/
def setState (tid : Int) (st : ThreadState) : Lib Unit :=
  update tid (fun t => { t with state := st })

/-- `threads[new_id] = new_thread`. -/
def putThread (newId : Int) (newThread : Thread) (address : Nat) : Lib Unit :=
  modify .shared (fun s =>
    (s.setThread newId (some newThread)).record
      (.spawned newId newThread.env.token address))

/-- `free(threads[tid]->stack); threads[tid]->stack = nullptr;
free(threads[tid]); threads[tid] = nullptr`. -/
def removeThread (tid : Int) : Lib Unit :=
  .stmt .shared
    (fun s => (s.load tid).map (fun t =>
      ((), (s.setThread tid none).record (.terminated tid t.quantum)))) .ret

/-! ## §4. The queue, the set and the heap. -/

/-- `ready_threads.push(tid)`. -/
def pushReady (tid : Int) : Lib Unit :=
  modify .shared (fun s => s.setReady (s.readyThreads ++ [tid]))

/-- `ready_threads.front()`. -/
def frontReady (l : Access) : Lib Int :=
  .stmt l (fun s => match s.readyThreads with
    | x :: _ => .ok (x, s)
    | []     => .error (.fault .emptyQueue)) .ret

/-- `ready_threads.pop()`. -/
def popReady : Lib Unit :=
  .stmt .shared (fun s => match s.readyThreads with
    | _ :: xs => .ok ((), s.setReady xs)
    | []      => .error (.fault .emptyQueue)) .ret

/-- `sleeping_threads.insert(tid)`. -/
def insertSleeping (tid : Int) : Lib Unit :=
  modify .shared (fun s => s.setSleeping (s.sleepingThreads.insert tid))

/-- `sleeping_threads.erase(sleeping_threads.find(tid))`. -/
def eraseSleeping (tid : Int) : Lib Unit :=
  .stmt .shared (fun s =>
    if tid ∈ s.sleepingThreads
    then .ok ((), s.setSleeping (s.sleepingThreads.erase tid))
    else .error (.fault .eraseEnd)) .ret

/-- `min_heap_id.push(tid)`. -/
def pushHeap (tid : Int) : Lib Unit :=
  modify .shared (fun s => s.setHeap (s.minHeapId.orderedInsert (· ≤ ·) tid))

/-- `min_heap_id.top()`. -/
def topHeap : Lib Int :=
  .stmt .shared (fun s => match s.minHeapId with
    | x :: _ => .ok (x, s)
    | []     => .error (.fault .emptyHeap)) .ret

/-- `min_heap_id.pop()`. -/
def popHeap : Lib Unit :=
  .stmt .shared (fun s => match s.minHeapId with
    | _ :: xs => .ok ((), s.setHeap xs)
    | []      => .error (.fault .emptyHeap)) .ret

/-! ## §5. Masks and jumps. -/

/-- `mask_timer`: `sigprocmask(SIG_SETMASK, &signal_set, nullptr)`. -/
def maskTimer : Lib Unit := .setmask (fun _ => signalSet) (.ret ())

/-- `unmask_timer`: `sigprocmask(SIG_UNBLOCK, &signal_set, nullptr)`. -/
def unmaskTimer : Lib Unit := .setmask (fun m => m \ signalSet) (.ret ())

/-- The record after `sigsetjmp(threads[tid]->env, 1)`. -/
def Thread.save (t : Thread) (token : Nat) (site : JmpSite) (m : SigSet) : Thread :=
  { t with env := ⟨token, .site site, none, m⟩ }

/-- `sigsetjmp(threads[tid]->env, 1)`: 0 when called, 1 when jumped to. -/
def sigsetjmp (tid : Int) (site : JmpSite) : Lib Int :=
  .setjmp .shared
    (fun m s => (s.load tid).map (fun t =>
      (s.nextToken,
        ((s.setThread tid (some (t.save s.nextToken site m))).drawToken).record
          (.saved tid s.nextToken site)))) .ret

/-- Where a saved environment lands. -/
def SigJmpBuf.target (env : SigJmpBuf) : Target :=
  match env.pc with
  | .entry _ => .entry
  | _        => .saved env.token

/-- `siglongjmp(threads[tid]->env, 1)`. -/
def siglongjmp (tid : Int) : Lib Unit :=
  .longjmp .shared
    (fun s => (s.load tid).map (fun t =>
      (t.env.target, t.env.savedMask, s.record (.resumed tid t.env.token t.env.pc))))

/-! ## §6. What each statement does, uninterrupted. -/

section Exec

variable (s : State) (m : SigSet)

/-- `threads[tid]` points to a record. -/
theorem load_of_get {s : State} {tid : Int} {t : Thread}
    (hf : s.freed = false) (h : s.threads.get tid = some t) : s.load tid = .ok t := by
  simp [State.load, hf, h]

theorem load_of_null {s : State} {tid : Int}
    (hf : s.freed = false) (h : s.threads.get tid = none) :
    s.load tid = .error (.fault .nullThread) := by
  simp [State.load, hf, h]

/-- Two reads of one entry give one record. -/
theorem same_record {s : State} {tid : Int} {t u : Thread} (ht : s.threads.get tid = some t)
    (hu : s.threads.get tid = some u) : t = u :=
  Option.some.inj (ht.symm.trans hu)

theorem get_of_load {s : State} {tid : Int} {t : Thread} (h : s.load tid = .ok t) :
    s.threads.get tid = some t := by
  unfold State.load at h
  split at h
  · cases h
  · cases hget : s.threads.get tid with
    | none =>
        rw [hget] at h
        cases h
    | some u =>
        rw [hget] at h
        injection h with h
        rw [h]

/-- A statement on a record that does not stop the process has a record. -/
theorem load_map_ok {x : Except Stop Thread} {β : Type} {f : Thread → β} {b : β}
    (h : x.map f = .ok b) : ∃ t, x = .ok t ∧ f t = b := by
  cases x with
  | error e => cases h
  | ok t =>
      injection h with h
      exact ⟨t, rfl, h⟩

/-- What `threads[tid]` points to. -/
theorem pointer_of_get {s : State} {tid : Int} {t : Thread} (h : s.threads.get tid = some t) :
    s.pointer tid = some ⟨tid, s.life tid⟩ := by
  simp [State.pointer, h]

/-- A pointer that has just been loaded leads to the record. -/
theorem follow_pointer {s : State} {tid : Int} {t : Thread} (hf : s.freed = false)
    (h : s.threads.get tid = some t) : s.follow (s.pointer tid) = .ok t := by
  simp [pointer_of_get h, State.follow, load_of_get hf h]

/-- What was just written is read back. -/
theorem load_setThread {s : State} {tid : Int} {t u : Thread}
    (hf : s.freed = false) (h : s.threads.get tid = some t) :
    (s.setThread tid (some u)).load tid = .ok u :=
  load_of_get hf (Table.get_set_self s.threads (Table.inRange_of_get h) _)

@[simp] theorem exec_read (l : Access) (f : State → α) :
    (read l f).exec s m = .ret (f s) s m := rfl

@[simp] theorem exec_modify (l : Access) (f : State → State) :
    (modify l f).exec s m = .ret () (f s) m := rfl

@[simp] theorem exec_exit (code : Int) :
    (exit code : Lib α).exec s m = .stop (.exit code) := rfl

@[simp] theorem exec_report (pre msg : String) :
    (report pre msg).exec s m = .ret () (s.print (pre ++ msg)) m := rfl

@[simp] theorem exec_maskTimer : maskTimer.exec s m = .ret () s signalSet := rfl

@[simp] theorem exec_unmaskTimer : unmaskTimer.exec s m = .ret () s (m \ signalSet) := rfl

@[simp] theorem exec_pushReady (tid : Int) :
    (pushReady tid).exec s m = .ret () (s.setReady (s.readyThreads ++ [tid])) m := rfl

@[simp] theorem exec_pushHeap (tid : Int) :
    (pushHeap tid).exec s m
      = .ret () (s.setHeap (s.minHeapId.orderedInsert (· ≤ ·) tid)) m := rfl

@[simp] theorem exec_insertSleeping (tid : Int) :
    (insertSleeping tid).exec s m
      = .ret () (s.setSleeping (s.sleepingThreads.insert tid)) m := rfl

@[simp] theorem exec_putThread (newId : Int) (newThread : Thread) (address : Nat) :
    (putThread newId newThread address).exec s m
      = .ret () ((s.setThread newId (some newThread)).record
          (.spawned newId newThread.env.token address)) m := rfl

variable {s}

theorem exec_deref {tid : Int} {t : Thread} (h : s.load tid = .ok t) :
    (deref tid).exec s m = .ret t s m := by
  simp [deref, Prog.exec, h, Except.map]

theorem exec_derefPtr {thread : Option RecordPtr} {t : Thread} (h : s.follow thread = .ok t) :
    (derefPtr thread).exec s m = .ret t s m := by
  simp [derefPtr, Prog.exec, h, Except.map]

theorem exec_derefPtr_error {thread : Option RecordPtr} {e : Stop}
    (h : s.follow thread = .error e) : (derefPtr thread).exec s m = .stop e := by
  simp [derefPtr, Prog.exec, h, Except.map]

theorem exec_update {tid : Int} {t : Thread} (f : Thread → Thread) (h : s.load tid = .ok t) :
    (update tid f).exec s m = .ret () (s.setThread tid (some (f t))) m := by
  simp [update, Prog.exec, h, Except.map]

theorem exec_update_error {tid : Int} {e : Stop} (f : Thread → Thread)
    (h : s.load tid = .error e) : (update tid f).exec s m = .stop e := by
  simp [update, Prog.exec, h, Except.map]

theorem exec_setState {tid : Int} {t : Thread} (st : ThreadState) (h : s.load tid = .ok t) :
    (setState tid st).exec s m = .ret () (s.setThread tid (some { t with state := st })) m :=
  exec_update m _ h

theorem exec_removeThread {tid : Int} {t : Thread} (h : s.load tid = .ok t) :
    (removeThread tid).exec s m
      = .ret () ((s.setThread tid none).record (.terminated tid t.quantum)) m := by
  simp [removeThread, Prog.exec, h, Except.map]

theorem exec_sigsetjmp {tid : Int} {t : Thread} (site : JmpSite) (h : s.load tid = .ok t) :
    (sigsetjmp tid site).exec s m
      = .ret 0 (((s.setThread tid (some (t.save s.nextToken site m))).drawToken).record
          (.saved tid s.nextToken site)) m := by
  simp [sigsetjmp, Prog.exec, h, Except.map]

theorem exec_siglongjmp {tid : Int} {t : Thread} (h : s.load tid = .ok t) :
    (siglongjmp tid).exec s m
      = .jump t.env.target (s.record (.resumed tid t.env.token t.env.pc)) t.env.savedMask := by
  simp [siglongjmp, Prog.exec, h, Except.map]

theorem exec_frontReady {x : Int} {xs : List Int} (l : Access)
    (h : s.readyThreads = x :: xs) : (frontReady l).exec s m = .ret x s m := by
  simp [frontReady, Prog.exec, h]

theorem exec_popReady {x : Int} {xs : List Int} (h : s.readyThreads = x :: xs) :
    popReady.exec s m = .ret () (s.setReady xs) m := by
  simp [popReady, Prog.exec, h]

theorem exec_topHeap {x : Int} {xs : List Int} (h : s.minHeapId = x :: xs) :
    topHeap.exec s m = .ret x s m := by
  simp [topHeap, Prog.exec, h]

theorem exec_popHeap {x : Int} {xs : List Int} (h : s.minHeapId = x :: xs) :
    popHeap.exec s m = .ret () (s.setHeap xs) m := by
  simp [popHeap, Prog.exec, h]

theorem exec_eraseSleeping {tid : Int} (h : tid ∈ s.sleepingThreads) :
    (eraseSleeping tid).exec s m
      = .ret () (s.setSleeping (s.sleepingThreads.erase tid)) m := by
  simp [eraseSleeping, Prog.exec, h]

end Exec

end UThreads
