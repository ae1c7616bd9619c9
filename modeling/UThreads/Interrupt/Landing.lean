/-
  UThreads.Interrupt.Landing
  ──────────────────────────
  **WITH WHICH MASK A `siglongjmp` LANDS, AND WHERE.**

  The mask after a switch is the one in the environment of the thread that gets
  the CPU.  `uthread_spawn` empties it; the three `sigsetjmp` calls are executed
  with `SIGVTALRM` blocked.
-/
import UThreads.Interrupt.Machine
import UThreads.Properties.Control

namespace UThreads

open Interruptible

/-! ## §1. The masks in the table. -/

/-- A new thread starts unblocked, a saved context is resumed blocked. -/
def SigJmpBuf.MaskOk (env : SigJmpBuf) : Prop :=
  match env.pc with
  | .unset   => True
  | .entry _ => sigvtalrm ∉ env.savedMask
  | .site _  => sigvtalrm ∈ env.savedMask

/-- Every environment in the table has such a mask. -/
def EnvMasks (s : State) : Prop := ∀ i t, s.threads.get i = some t → t.env.MaskOk

section Effects

variable {order : IterOrder} {s s' p : State} {tid : Int} {t u : Thread} {e : Event}

/-- One entry is written. -/
theorem EnvMasks.set (h : EnvMasks s) (tid : Int) {v : Option Thread}
    (hthreads : s'.threads = s.threads.set tid v) (hv : ∀ t, v = some t → t.env.MaskOk) :
    EnvMasks s' := by
  intro i u hu
  by_cases hi : i = tid
  · have hr := Table.inRange_of_get hu
    rw [hthreads, hi, Table.get_set_self _ (hi ▸ hr)] at hu
    exact hv u hu
  · rw [hthreads, Table.get_set_ne _ hi] at hu
    exact h i u hu

/-- A record is written. -/
theorem EnvMasks.put (h : EnvMasks s) (tid : Int) {t' : Thread}
    (hthreads : s'.threads = s.threads.set tid (some t')) (hok : t'.env.MaskOk) : EnvMasks s' := by
  refine h.set tid hthreads ?_
  intro t hu
  cases hu
  exact hok

/-- A record is written, with the old environment. -/
theorem EnvMasks.keep (h : EnvMasks s) (ht : s.threads.get tid = some t) {t' : Thread}
    (hthreads : s'.threads = s.threads.set tid (some t')) (henv : t'.env = t.env) :
    EnvMasks s' := by
  refine h.put tid hthreads ?_
  rw [henv]
  exact h tid t ht

/-- A record that is gone has no mask. -/
theorem EnvMasks.remove (h : EnvMasks s) (hthreads : s'.threads = s.threads.set tid none) :
    EnvMasks s' :=
  h.set tid hthreads (fun _ hv => nomatch hv)

/-- The set that `mask_timer` blocks is SIGVTALRM. -/
theorem mem_signalSet : sigvtalrm ∈ signalSet := Finset.mem_singleton_self sigvtalrm

/-- The running thread is saved, blocked. -/
theorem EnvMasks.suspends (h : EnvMasks s) (hp : Suspends s t e p) : EnvMasks p := by
  cases hp with
  | tick mask =>
      -- the handler runs with `SIGVTALRM` added to what it interrupts
      exact h.put s.currThreadId rfl (Finset.mem_insert_self sigvtalrm mask)
  | block h0 => exact h.put s.currThreadId rfl mem_signalSet
  | sleep h0 n => exact h.put s.currThreadId rfl mem_signalSet
  | terminate h0 => exact h.remove rfl

/-- A dispatch saves no context. -/
theorem EnvMasks.dispatched (h : EnvMasks p) {next : Int} {rest : List Int}
    (hu : p.threads.get next = some u) : EnvMasks (p.dispatched order next rest u) := by
  intro i t' ht'
  obtain ⟨v, hv, hcase⟩ := dispatched_get_cases hu ht'
  have henv : t'.env = v.env := by
    rcases hcase with ⟨_, rfl⟩ | ⟨_, rfl⟩
    · exact wakeRecord_env v
    · rfl
  rw [henv]
  by_cases hi : i = next
  · rw [if_pos hi] at hv
    injection hv with hv
    rw [← hv]
    exact h next u hu
  · rw [if_neg hi] at hv
    exact h i v hv

/-- **The step lemma**: an entry point is stored unblocked, a context is saved blocked. -/
theorem EnvMasks.effect (h : EnvMasks s) (he : Effect order s e s') : EnvMasks s' := by
  cases he with
  | reject c line hr => exact h
  | idle c hi => exact h
  | spawn newStack entryPoint newId ids hids =>
      -- `sigemptyset` on the mask that `sigsetjmp` stored
      exact h.put newId rfl (Finset.notMem_empty sigvtalrm)
  | retireIdle tid t h0 ht hst => exact h.remove rfl
  | retireSleeping tid t h0 ht hst => exact h.remove rfl
  | blockSleeping tid t h0 ht hst => exact h.keep ht rfl rfl
  | blockReady tid t h0 ht hst => exact h.keep ht rfl rfl
  | resumeBlocked tid t h0 ht hst hsl => exact h.keep ht rfl rfl
  | resumeCounting tid t h0 ht hst hsl => exact h.keep ht rfl rfl
  | switch e t p next rest u hcurr hrun hp hq hu hready hlive =>
      exact (h.suspends hp).dispatched hu

end Effects

/-- At the start no context has been saved. -/
theorem initial_envMasks {s : State} (h : Initial s) : EnvMasks s := by
  obtain ⟨q, _, rfl⟩ := initial_iff.mp h
  intro i t ht
  rw [initialState_get] at ht
  split at ht
  · injection ht with ht
    rw [← ht]
    trivial
  · cases ht

/-- **The run lemma** for the saved masks. -/
theorem Reachable.envMasks {order : IterOrder} {s : State} (h : Reachable order s) :
    EnvMasks s :=
  h.effect_invariant EnvMasks (fun _ => initial_envMasks) (fun _ _ _ _ hI he => hI.effect he)

/-! ## §2. Landing. -/

/-- A context in the history is among the saved ones. -/
theorem mem_savedTokens {s : State} {tid : Int} {token : Nat} {site : JmpSite}
    (h : .saved tid token site ∈ s.history) : token ∈ s.savedTokens :=
  List.mem_filterMap.mpr ⟨_, h, rfl⟩

/-- **Where a `siglongjmp` lands**: at an entry point, unblocked, or in a saved
context, blocked.  The state it leaves is one that user code runs in, so the
environment it read is the last bookmark of the thread. -/
theorem lands_siglongjmp (order : IterOrder) (tid : Int) :
    (contract order).Lands TimerBlocked (fun s => (s.load tid).map (fun t =>
      (t.env.target, t.env.savedMask, s.record (.resumed tid t.env.token t.env.pc)))) := by
  intro s target m s' h
  obtain ⟨u, hload, hjump⟩ := load_map_ok h
  have hu := get_of_load hload
  injection hjump with htarget hjump
  injection hjump with hmask hs
  subst htarget hmask hs
  constructor
  · -- a resume saves nothing
    intro _ n hn
    have hsame : (s.record (.resumed tid u.env.token u.env.pc)).savedTokens = s.savedTokens :=
      savedTokens_record rfl
    have hn' : n ∈ (s.record (.resumed tid u.env.token u.env.pc)).savedTokens := hn
    rw [hsame] at hn'
    exact hn'
  · intro hgood
    have hreach : Reachable order (s.record (.resumed tid u.env.token u.env.pc)) := hgood
    have hok : u.env.MaskOk := hreach.envMasks tid u hu
    have hmark : Bookmark s.history tid u.env.token u.env.pc :=
      hreach.bookmarks.coherent.bookmark rfl
    unfold SigJmpBuf.MaskOk at hok
    rcases hmark with ⟨address, _, hpc⟩ | ⟨site, hlast, hpc⟩
    · have htarget : u.env.target = .entry := by
        unfold SigJmpBuf.target
        rw [hpc]
      rw [hpc] at hok
      rw [htarget]
      exact hok
    · have htarget : u.env.target = .saved u.env.token := by
        unfold SigJmpBuf.target
        rw [hpc]
      rw [hpc] at hok
      rw [htarget]
      obtain ⟨_, l₁, l₂, hl, _⟩ := lastOf_split hlast
      have hmem : JmpEvent.saved tid u.env.token site
          ∈ (s.record (.resumed tid u.env.token u.env.pc)).history := by
        show _ ∈ s.history ++ _
        rw [hl]
        exact List.mem_append_left _ (List.mem_append_right l₁ List.mem_cons_self)
      exact ⟨hok, mem_savedTokens hmem⟩

end UThreads
