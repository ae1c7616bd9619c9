/-
  UThreads.Properties.Control
  ───────────────────────────
  **CONTROL INTEGRITY: EVERY CONTEXT IS RESUMED BY ITS OWNER, ONCE.**

  `Coherent` says which histories a run can have: every token is given out
  once, and a thread is resumed from the last bookmark its current lifetime
  left.  That no token is resumed twice or after its lifetime has ended is a
  fact about such histories alone; `Bookmarks` ties them to the environments
  in the table.
-/
import UThreads.Properties.Quanta

namespace UThreads

open Interruptible Runs

/-! ## §1. Coherent histories. -/

/-- After the history `l`, the bookmark of `tid` is `token`: its last event is
its spawn, and `pc` the entry point, or a save, and `pc` its place. -/
def Bookmark (l : List JmpEvent) (tid : Int) (token : Nat) (pc : JmpPc) : Prop :=
  (∃ address, lastOf tid l = some (.spawned tid token address) ∧ pc = .entry address)
    ∨ (∃ site, lastOf tid l = some (.saved tid token site) ∧ pc = .site site)

/-- The histories with fresh tokens and resumes from bookmarks; `n` is the next
token. -/
inductive Coherent : Nat → List JmpEvent → Prop where
  | start : Coherent 1 []
  | spawned {n l} (h : Coherent n l) (tid : Int) (address : Nat) :
      Coherent (n + 1) (l ++ [.spawned tid n address])
  | saved {n l} (h : Coherent n l) (tid : Int) (site : JmpSite) :
      Coherent (n + 1) (l ++ [.saved tid n site])
  | resumed {n l} (h : Coherent n l) {tid : Int} {token : Nat} {pc : JmpPc}
      (hb : Bookmark l tid token pc) : Coherent n (l ++ [.resumed tid token pc])
  | terminated {n l} (h : Coherent n l) (tid quantum : Int) :
      Coherent n (l ++ [.terminated tid quantum])

/-- The event a bookmark comes from. -/
theorem Bookmark.last {l : List JmpEvent} {tid : Int} {token : Nat} {pc : JmpPc}
    (h : Bookmark l tid token pc) :
    ∃ ev, lastOf tid l = some ev ∧ ev.tid = tid ∧ ev.gives = some token := by
  rcases h with ⟨address, hl, _⟩ | ⟨site, hl, _⟩
  · exact ⟨_, hl, rfl, rfl⟩
  · exact ⟨_, hl, rfl, rfl⟩

/-- An event of another thread leaves a bookmark where it is. -/
theorem Bookmark.snoc {l : List JmpEvent} {tid : Int} {token : Nat} {pc : JmpPc}
    (h : Bookmark l tid token pc) {ev : JmpEvent} (hev : ev.tid ≠ tid) :
    Bookmark (l ++ [ev]) tid token pc := by
  unfold Bookmark
  rw [lastOf_snoc, if_neg hev]
  exact h

/-- The tokens given out are below the next one. -/
theorem Coherent.fresh {n : Nat} {l : List JmpEvent} (h : Coherent n l) :
    ∀ ev ∈ l, ∀ token, ev.gives = some token → token < n := by
  induction h with
  | start =>
      intro ev hev
      cases hev
  | spawned _ tid address ih =>
      intro ev hev token hg
      rcases List.mem_append.mp hev with hev | hev
      · exact Nat.lt_succ_of_lt (ih ev hev token hg)
      · rw [List.mem_singleton.mp hev] at hg
        injection hg with hg
        omega
  | saved _ tid site ih =>
      intro ev hev token hg
      rcases List.mem_append.mp hev with hev | hev
      · exact Nat.lt_succ_of_lt (ih ev hev token hg)
      · rw [List.mem_singleton.mp hev] at hg
        injection hg with hg
        omega
  | resumed _ hb ih =>
      intro ev hev token hg
      rcases List.mem_append.mp hev with hev | hev
      · exact ih ev hev token hg
      · rw [List.mem_singleton.mp hev] at hg
        cases hg
  | terminated _ tid quantum ih =>
      intro ev hev token hg
      rcases List.mem_append.mp hev with hev | hev
      · exact ih ev hev token hg
      · rw [List.mem_singleton.mp hev] at hg
        cases hg

/-- **Every token is given out once.** -/
theorem Coherent.once {n : Nat} {l : List JmpEvent} (h : Coherent n l) :
    (l.filterMap JmpEvent.gives).Nodup := by
  have hgive : ∀ (l : List JmpEvent) (n : Nat) (ev : JmpEvent), Coherent n l →
      ev.gives = some n → (l.filterMap JmpEvent.gives).Nodup →
      ((l ++ [ev]).filterMap JmpEvent.gives).Nodup := by
    intro l n ev hl hg hnd
    rw [List.filterMap_append, List.filterMap_cons_some hg, List.filterMap_nil,
        List.nodup_append_comm]
    -- an event that gave it before would have a token below `n`
    refine List.nodup_cons.mpr ⟨?_, hnd⟩
    intro hn
    obtain ⟨x, hx, hgx⟩ := List.mem_filterMap.mp hn
    exact Nat.lt_irrefl n (hl.fresh x hx n hgx)
  induction h with
  | start => exact List.nodup_nil
  | spawned h tid address ih => exact hgive _ _ _ h rfl ih
  | saved h tid site ih => exact hgive _ _ _ h rfl ih
  | resumed _ hb ih =>
      rw [List.filterMap_append, List.filterMap_cons_none rfl, List.filterMap_nil, List.append_nil]
      exact ih
  | terminated _ tid quantum ih =>
      rw [List.filterMap_append, List.filterMap_cons_none rfl, List.filterMap_nil, List.append_nil]
      exact ih

/-- Two events that give the same token are one. -/
theorem gives_unique {c d : List JmpEvent} {x y : JmpEvent} {token : Nat}
    (hnd : ((c ++ x :: d).filterMap JmpEvent.gives).Nodup) (hx : x.gives = some token)
    (hy : y.gives = some token) : y ∉ c ∧ y ∉ d := by
  rw [List.filterMap_append, List.filterMap_cons_some hx] at hnd
  obtain ⟨_, htail, hdisj⟩ := List.nodup_append.mp hnd
  constructor
  · intro hyc
    exact hdisj token (List.mem_filterMap.mpr ⟨y, hyc, hy⟩) token List.mem_cons_self rfl
  · intro hyd
    exact (List.nodup_cons.mp htail).1 (List.mem_filterMap.mpr ⟨y, hyd, hy⟩)

/-- Where a list that ends in `x` splits: at `x`, or before it. -/
theorem snoc_split {α : Type} {l l₁ l₂ : List α} {x y : α} (h : l ++ [x] = l₁ ++ y :: l₂) :
    (l₁ = l ∧ y = x) ∨ ∃ l₂', l = l₁ ++ y :: l₂' := by
  rcases List.eq_nil_or_concat l₂ with rfl | ⟨l₂', z, rfl⟩
  · obtain ⟨hl, hx⟩ := List.append_inj' h rfl
    injection hx with hx _
    exact Or.inl ⟨hl.symm, hx.symm⟩
  · rw [List.concat_eq_append, ← List.cons_append, ← List.append_assoc] at h
    exact Or.inr ⟨l₂', (List.append_inj' h rfl).1⟩

/-- **A resume goes to the bookmark** that its thread has then. -/
theorem Coherent.bookmark {n : Nat} {l : List JmpEvent} (h : Coherent n l) :
    ∀ {l₁ l₂ tid token pc}, l = l₁ ++ .resumed tid token pc :: l₂ → Bookmark l₁ tid token pc := by
  induction h with
  | start =>
      intro l₁ l₂ tid token pc hl
      exact absurd hl.symm (List.append_ne_nil_of_right_ne_nil _ (List.cons_ne_nil _ _))
  | spawned _ i address ih =>
      intro l₁ l₂ tid token pc hl
      rcases snoc_split hl with ⟨_, hx⟩ | ⟨l₂', hl'⟩
      · cases hx
      · exact ih hl'
  | saved _ i site ih =>
      intro l₁ l₂ tid token pc hl
      rcases snoc_split hl with ⟨_, hx⟩ | ⟨l₂', hl'⟩
      · cases hx
      · exact ih hl'
  | resumed _ hb ih =>
      intro l₁ l₂ tid token pc hl
      rcases snoc_split hl with ⟨rfl, hx⟩ | ⟨l₂', hl'⟩
      · injection hx with htid htoken hpc
        rw [htid, htoken, hpc]
        exact hb
      · exact ih hl'
  | terminated _ i quantum ih =>
      intro l₁ l₂ tid token pc hl
      rcases snoc_split hl with ⟨_, hx⟩ | ⟨l₂', hl'⟩
      · cases hx
      · exact ih hl'

/-- **Nothing happens to a thread after its bookmark**: if `x` gives the token
of the bookmark of `tid`, it is an event of `tid`, and an event `z` that comes
later and gives no token is not. -/
theorem Bookmark.later {l a b : List JmpEvent} {tid : Int} {token : Nat} {pc : JmpPc}
    {x z : JmpEvent} (h : Bookmark l tid token pc) (hnd : (l.filterMap JmpEvent.gives).Nodup)
    (hl : l = a ++ z :: b) (hx : x ∈ a) (hg : x.gives = some token) (hz : z.gives = none) :
    x.tid = tid ∧ z.tid ≠ tid := by
  obtain ⟨ev, hlast, hevtid, hevg⟩ := h.last
  obtain ⟨_, c, d, hcd, hlater⟩ := lastOf_split hlast
  have hzev : z ≠ ev := by
    intro he
    rw [he, hevg] at hz
    cases hz
  have hunique : x ∉ c ∧ x ∉ d := by
    rw [hcd] at hnd
    exact gives_unique hnd hevg hg
  rw [hcd] at hl
  -- the bookmark's event and `z` both split the history: compare the places
  rcases List.append_eq_append_iff.mp hl with ⟨e, ha, hd⟩ | ⟨e, hc, hd⟩
  · -- the bookmark stands before `z`
    cases e with
    | nil =>
        rw [List.nil_append] at hd
        injection hd with hd _
        exact absurd hd.symm hzev
    | cons y e =>
        rw [List.cons_append] at hd
        injection hd with hy hd
        have hzd : z ∈ d := hd ▸ List.mem_append_right e List.mem_cons_self
        have hxev : x = ev := by
          rw [ha] at hx
          rcases List.mem_append.mp hx with hx | hx
          · exact absurd hx hunique.1
          · rcases List.mem_cons.mp hx with hx | hx
            · exact hx.trans hy.symm
            · exact absurd (hd ▸ List.mem_append_left _ hx) hunique.2
        exact ⟨hxev ▸ hevtid, hlater z hzd⟩
  · -- `x` stands before the bookmark, so it would give the token again
    exact absurd (hc ▸ List.mem_append_left e hx) hunique.1

/-! ## §2. The invariant. -/

/-- The history is coherent, the environment of a thread that does not run is
the bookmark of its current lifetime, and whoever was resumed last runs. -/
structure Bookmarks (s : State) : Prop where
  coherent : Coherent s.nextToken s.history
  env : ∀ i t, s.threads.get i = some t → t.state ≠ .running →
    Bookmark s.history i t.env.token t.env.pc
  current : ∀ l tid token pc, s.history = l ++ [.resumed tid token pc] → tid = s.currThreadId

/-- A history that ends in another event does not end in a resume. -/
theorem not_resumed_last {l l' : List JmpEvent} {ev : JmpEvent} {tid : Int} {token : Nat}
    {pc : JmpPc} (h : l ++ [ev] = l' ++ [.resumed tid token pc]) : ev = .resumed tid token pc :=
  List.singleton_inj.mp (List.append_inj' h rfl).2

section OneEntry

variable {s s' : State} {tid : Int} {t t' : Thread}

/-- A new record with the old environment. -/
theorem Bookmarks.replace (h : Bookmarks s) (ht : s.threads.get tid = some t)
    (hst : t.state ≠ .running) (hthreads : s'.threads = s.threads.set tid (some t'))
    (henv : t'.env = t.env) (htoken : s'.nextToken = s.nextToken)
    (hhistory : s'.history = s.history) (hcurr : s'.currThreadId = s.currThreadId) :
    Bookmarks s' := by
  refine ⟨by rw [htoken, hhistory]; exact h.coherent, ?_, ?_⟩
  case refine_2 =>
    rw [hhistory, hcurr]
    exact h.current
  intro i u hu hrun
  rw [hthreads, Table.get_set _ (Table.inRange_of_get ht)] at hu
  rw [hhistory]
  by_cases hi : i = tid
  · rw [if_pos hi] at hu
    injection hu with hu
    rw [← hu, henv, hi]
    exact h.env tid t ht hst
  · rw [if_neg hi] at hu
    exact h.env i u hu hrun

/-- A record that goes. -/
theorem Bookmarks.retire (h : Bookmarks s) (ht : s.threads.get tid = some t) :
    Bookmarks (s.retire tid t) := by
  refine ⟨h.coherent.terminated tid t.quantum, ?_, fun l i token pc hl => by
    cases not_resumed_last hl⟩
  intro i u hu hrun
  rw [retire_get ht] at hu
  show Bookmark (s.history ++ [.terminated tid t.quantum]) i u.env.token u.env.pc
  by_cases hi : i = tid
  · rw [if_pos hi] at hu
    cases hu
  · rw [if_neg hi] at hu
    exact (h.env i u hu hrun).snoc (fun he => hi he.symm)

/-- A record that comes, with its entry point. -/
theorem Bookmarks.add (h : Bookmarks s) (hr : Table.InRange maxThreadNum tid) {address : Nat}
    (hthreads : s'.threads = s.threads.set tid (some t'))
    (henv : t'.env.token = s.nextToken ∧ t'.env.pc = .entry address)
    (htoken : s'.nextToken = s.nextToken + 1)
    (hhistory : s'.history = s.history ++ [.spawned tid s.nextToken address]) :
    Bookmarks s' := by
  refine ⟨by rw [htoken, hhistory]; exact h.coherent.spawned tid address, ?_, ?_⟩
  case refine_2 =>
    intro l i token pc hl
    rw [hhistory] at hl
    cases not_resumed_last hl
  intro i u hu hrun
  rw [hthreads, Table.get_set _ hr] at hu
  rw [hhistory]
  by_cases hi : i = tid
  · rw [if_pos hi] at hu
    injection hu with hu
    refine Or.inl ⟨address, ?_, ?_⟩
    · rw [← hu, hi, henv.1, lastOf_snoc]
      exact if_pos rfl
    · rw [← hu]
      exact henv.2
  · rw [if_neg hi] at hu
    exact (h.env i u hu hrun).snoc (fun he => hi he.symm)

/-- The running thread is saved. -/
theorem Bookmarks.saveCurrent (h : Bookmarks s) (hcurr : s.threads.get s.currThreadId = some t)
    (t' : Thread) (site : JmpSite) (henv : t'.env.token = s.nextToken ∧ t'.env.pc = .site site) :
    Bookmarks (s.saveCurrent t' site) := by
  refine ⟨h.coherent.saved s.currThreadId site, ?_, fun l i token pc hl => by
    cases not_resumed_last hl⟩
  intro i u hu hrun
  rw [saveCurrent_get hcurr] at hu
  show Bookmark (s.history ++ [.saved s.currThreadId s.nextToken site]) i u.env.token u.env.pc
  by_cases hi : i = s.currThreadId
  · rw [if_pos hi] at hu
    injection hu with hu
    refine Or.inr ⟨site, ?_, ?_⟩
    · rw [← hu, hi, henv.1, lastOf_snoc]
      exact if_pos rfl
    · rw [← hu]
      exact henv.2
  · rw [if_neg hi] at hu
    exact (h.env i u hu hrun).snoc (fun he => hi he.symm)

end OneEntry

section Switch

variable {order : IterOrder} {s p : State} {t u : Thread} {e : Event} {next : Int}
  {rest : List Int}

/-- A suspension saves the context at the place of the call. -/
theorem Bookmarks.suspends (h : Bookmarks s) (hcurr : s.threads.get s.currThreadId = some t)
    (hp : Suspends s t e p) : Bookmarks p := by
  cases hp with
  | tick mask =>
      have hsave := h.saveCurrent hcurr { t.save s.nextToken .timerHandler
        (insert sigvtalrm mask) with state := .ready } .timerHandler ⟨rfl, rfl⟩
      exact ⟨hsave.coherent, hsave.env, hsave.current⟩
  | block h0 =>
      exact h.saveCurrent hcurr { t.save s.nextToken .uthreadBlock signalSet with
        state := .blocked } .uthreadBlock ⟨rfl, rfl⟩
  | sleep h0 n =>
      have hsave := h.saveCurrent hcurr { t.save s.nextToken .uthreadSleep signalSet with
        sleepingTime := n, state := .sleeping } .uthreadSleep ⟨rfl, rfl⟩
      exact ⟨hsave.coherent, hsave.env, hsave.current⟩
  | terminate h0 =>
      have hremove := h.retire hcurr
      exact ⟨hremove.coherent, hremove.env, fun l i token pc hl => by cases not_resumed_last hl⟩

/-- A wake-up stops nobody. -/
theorem wakeRecord_state_ne_running {v : Thread} (h : (wakeRecord v).state ≠ .running) :
    v.state ≠ .running :=
  fun hv => h ((wakeRecord_running v).mpr hv)

/-- **A dispatch resumes the bookmark** of the thread at the front. -/
theorem Bookmarks.dispatched (h : Bookmarks p) (hpaused : Paused p)
    (hu : p.threads.get next = some u) : Bookmarks (p.dispatched order next rest u) := by
  refine ⟨h.coherent.resumed (h.env next u hu (hpaused.noneRunning next u hu)), ?_,
    fun l i token pc hl => ?_⟩
  case refine_2 =>
    injection not_resumed_last hl with hi _ _
    exact hi.symm
  intro i t' ht' hrun
  obtain ⟨v, hv, hcase⟩ := dispatched_get_cases hu ht'
  have henv : t'.env = v.env := by
    rcases hcase with ⟨_, rfl⟩ | ⟨_, rfl⟩
    · exact wakeRecord_env v
    · rfl
  have hvrun : v.state ≠ .running := by
    rcases hcase with ⟨_, rfl⟩ | ⟨_, rfl⟩
    · exact wakeRecord_state_ne_running hrun
    · exact hrun
  by_cases hi : i = next
  · -- the dispatched thread runs
    rw [if_pos hi] at hv
    injection hv with hv
    exact absurd (hv ▸ rfl) hvrun
  · rw [if_neg hi] at hv
    rw [dispatched_history, henv]
    exact (h.env i v hv hvrun).snoc (fun he => hi he.symm)

end Switch

/-- **The step lemma**: what is in the table is what was saved last. -/
theorem Bookmarks.effect {order : IterOrder} {s s' : State} {e : Event} (hw : WellFormed s)
    (h : Bookmarks s) (he : Effect order s e s') : Bookmarks s' := by
  cases he with
  | reject c line hr => exact ⟨h.coherent, h.env, h.current⟩
  | idle c hi => exact h
  | spawn newStack entryPoint newId ids hids =>
      exact h.add (hw.heap_top_free hids).1 rfl ⟨rfl, rfl⟩ rfl rfl
  | retireIdle tid t h0 ht hst =>
      have hremove := h.retire ht
      exact ⟨hremove.coherent, hremove.env, hremove.current⟩
  | retireSleeping tid t h0 ht hst =>
      have hremove := h.retire ht
      exact ⟨hremove.coherent, hremove.env, hremove.current⟩
  | blockSleeping tid t h0 ht hst => exact h.replace ht (by simp [hst]) rfl rfl rfl rfl rfl
  | blockReady tid t h0 ht hst => exact h.replace ht (by simp [hst]) rfl rfl rfl rfl rfl
  | resumeBlocked tid t h0 ht hst hsl => exact h.replace ht (by simp [hst]) rfl rfl rfl rfl rfl
  | resumeCounting tid t h0 ht hst hsl => exact h.replace ht (by simp [hst]) rfl rfl rfl rfl rfl
  | switch e t p next rest u hcurr hrun hp hq hu hready hlive =>
      exact (h.suspends hcurr hp).dispatched (hw.suspends hcurr hrun hp) hu

/-- At the start nothing has been saved. -/
theorem initial_bookmarks {s : State} (h : Initial s) : Bookmarks s := by
  obtain ⟨q, _, rfl⟩ := initial_iff.mp h
  refine ⟨.start, ?_, fun l i token pc hl => ?_⟩
  case refine_2 =>
    exact absurd hl.symm (List.append_ne_nil_of_right_ne_nil _ (List.cons_ne_nil _ _))
  intro i t ht hrun
  rw [initialState_get] at ht
  by_cases hi : i = 0
  · rw [if_pos hi] at ht
    injection ht with ht
    exact absurd (ht ▸ rfl) hrun
  · rw [if_neg hi] at ht
    cases ht

/-- **The run lemma** for the saved contexts. -/
theorem Reachable.bookmarks {order : IterOrder} {s : State} (h : Reachable order s) :
    Bookmarks s :=
  h.effect_invariant Bookmarks (fun _ => initial_bookmarks)
    (fun _ _ _ hw hI he => hI.effect hw he)

/-! ## §3. Control integrity. -/

section Switches

variable {order : IterOrder} {s s' p : State} {e : Event} {t : Thread}

/-- Suspending a thread resumes nobody. -/
theorem Suspends.history (hp : Suspends s t e p) :
    ∃ ev, p.history = s.history ++ [ev] ∧ ev.resumedTid = none := by
  cases hp with
  | tick mask => exact ⟨_, rfl, rfl⟩
  | block h0 => exact ⟨_, rfl, rfl⟩
  | sleep h0 n => exact ⟨_, rfl, rfl⟩
  | terminate h0 => exact ⟨_, rfl, rfl⟩

/-- **A context switch is one resume**, of the thread that runs then; no other event
resumes anybody. -/
theorem Effect.resumes (hw : WellFormed s) (he : Effect order s e s') :
    ∃ w, s'.history = s.history ++ w
      ∧ w.filterMap JmpEvent.resumedTid = if e.Switches s then [s'.currThreadId] else [] := by
  have hnothing : ¬ e.Switches s → s'.history = s.history →
      ∃ w, s'.history = s.history ++ w
        ∧ w.filterMap JmpEvent.resumedTid = if e.Switches s then [s'.currThreadId] else [] := by
    intro hno hsame
    exact ⟨[], by rw [hsame, List.append_nil], by rw [if_neg hno]; rfl⟩
  have hone : ∀ ev, ¬ e.Switches s → s'.history = s.history ++ [ev] → ev.resumedTid = none →
      ∃ w, s'.history = s.history ++ w
        ∧ w.filterMap JmpEvent.resumedTid = if e.Switches s then [s'.currThreadId] else [] := by
    intro ev hno hev hnone
    exact ⟨[ev], hev, by rw [if_neg hno, List.filterMap_cons_none hnone]; rfl⟩
  cases he with
  | reject c line hr => exact hnothing (hr.not_switches hw) rfl
  | idle c hi => exact hnothing (hi.not_switches hw) rfl
  | spawn newStack entryPoint newId ids hids => exact hone _ id rfl rfl
  | retireIdle tid t h0 ht hst =>
      have hne : t.state ≠ .running := by
        rcases hst with hst | hst <;> simp [hst]
      exact hone _ (terminate_not_switches hw ht hne) rfl rfl
  | retireSleeping tid t h0 ht hst =>
      exact hone _ (terminate_not_switches hw ht (by simp [hst])) rfl rfl
  | blockSleeping tid t h0 ht hst =>
      exact hnothing (block_not_switches hw ht (by simp [hst])) rfl
  | blockReady tid t h0 ht hst => exact hnothing (block_not_switches hw ht (by simp [hst])) rfl
  | resumeBlocked tid t h0 ht hst hsl => exact hnothing id rfl
  | resumeCounting tid t h0 ht hst hsl => exact hnothing id rfl
  | switch e t p next rest u hcurr hrun hp hq hu hready hlive =>
      obtain ⟨ev, hev, hnone⟩ := hp.history
      refine ⟨[ev, .resumed next u.env.token u.env.pc], ?_, ?_⟩
      · rw [dispatched_history, hev, List.append_assoc]
        rfl
      · rw [if_pos hp.switches, List.filterMap_cons_none hnone]
        rfl

end Switches

/-- **A resume** is one of the bookmark of the thread's current lifetime, and the only
one of that bookmark. -/
theorem Reachable.resumed {order : IterOrder} {s : State} (h : Reachable order s)
    {before after : List JmpEvent} {tid : Int} {token : Nat} {pc : JmpPc}
    (hs : s.history = before ++ .resumed tid token pc :: after) :
    (after = [] → tid = s.currThreadId)
      ∧ ((∃ address, lastOf tid before = some (.spawned tid token address) ∧ pc = .entry address)
        ∨ (∃ site, lastOf tid before = some (.saved tid token site) ∧ pc = .site site))
      ∧ (∀ tid' pc', .resumed tid' token pc' ∉ before)
      ∧ (∀ l₁ l₂ tid' quantum, before = l₁ ++ .terminated tid' quantum :: l₂ →
          ∀ ev ∈ l₁, ev.tid = tid' → ev.gives ≠ some token) := by
  have hcoherent := h.bookmarks.coherent
  have hb : Bookmark before tid token pc := hcoherent.bookmark hs
  have hnd : (before.filterMap JmpEvent.gives).Nodup := by
    have hall := hcoherent.once
    rw [hs, List.filterMap_append] at hall
    exact (List.nodup_append.mp hall).1
  refine ⟨?_, hb, ?_, ?_⟩
  · intro hnil
    rw [hnil] at hs
    exact h.bookmarks.current before tid token pc hs
  · -- a first resume would be an event of the thread after its bookmark
    intro tid' pc' hmem
    obtain ⟨a, b, hab⟩ := List.append_of_mem hmem
    have hb' : Bookmark a tid' token pc' := by
      have hsplit : s.history
          = a ++ .resumed tid' token pc' :: (b ++ .resumed tid token pc :: after) := by
        rw [hs, hab, List.append_assoc]
        rfl
      exact hcoherent.bookmark hsplit
    obtain ⟨x, hlast, hxtid, hg⟩ := hb'.last
    obtain ⟨_, c, d, hcd, _⟩ := lastOf_split hlast
    have hx : x ∈ a := by
      rw [hcd]
      exact List.mem_append_right c List.mem_cons_self
    obtain ⟨htid, hne⟩ := hb.later hnd hab hx hg rfl
    exact hne (hxtid.symm.trans htid)
  · -- so would a termination
    intro l₁ l₂ tid' quantum hl ev hev htid' hg
    obtain ⟨htid, hne⟩ := hb.later hnd hl hev hg rfl
    exact hne (htid'.symm.trans htid)

/-- **Control integrity.**  Every `siglongjmp` of every run (the history is
what stood before it, then the resume, then what came after): the thread it
resumes is the one that runs next; the token is the bookmark of that thread's
current lifetime; it has not been resumed before; it was not given to a
lifetime that has ended.  And a context switch is one `siglongjmp`, to the thread
that runs then, and no other event is one. -/
theorem control_integrity {order : IterOrder} {s : State} (h : Reachable order s) :
    (∀ before after tid token pc, s.history = before ++ .resumed tid token pc :: after →
        (after = [] → tid = s.currThreadId)
          ∧ ((∃ address, lastOf tid before = some (.spawned tid token address)
              ∧ pc = .entry address)
            ∨ (∃ site, lastOf tid before = some (.saved tid token site) ∧ pc = .site site))
          ∧ (∀ tid' pc', .resumed tid' token pc' ∉ before)
          ∧ (∀ l₁ l₂ tid' quantum, before = l₁ ++ .terminated tid' quantum :: l₂ →
              ∀ ev ∈ l₁, ev.tid = tid' → ev.gives ≠ some token))
      ∧ ∀ e s', step order s e = some s' → ∃ w, s'.history = s.history ++ w
          ∧ w.filterMap JmpEvent.resumedTid = if e.Switches s then [s'.currThreadId] else [] :=
  ⟨fun _ _ _ _ _ hs => h.resumed hs,
    fun _ _ hs => (step_effect h.wellFormed hs).resumes h.wellFormed⟩

/-- A spawn and a preemption: the new thread starts at its entry point. -/
def firstSwitch : List Event := [.call (.spawn ⟨some 4096, true⟩ (some 1)), .tick ∅]

/-- The main thread is saved, thread 1 enters its function. -/
theorem firstSwitch_history :
    (run (step .listing) (initialState 1000) firstSwitch).map State.history
      = some ([.spawned 1 1 1, .saved 0 2 .timerHandler] ++ [.resumed 1 1 (.entry 1)]) := by
  decide +kernel

/-- The context that is resumed there has not been resumed before. -/
theorem control_integrity_firstSwitch :
    ∃ s, run (step .listing) (initialState 1000) firstSwitch = some s ∧ 1 = s.currThreadId
      ∧ ∀ tid' pc', JmpEvent.resumed tid' 1 pc'
          ∉ [JmpEvent.spawned 1 1 1, .saved 0 2 .timerHandler] := by
  obtain ⟨s, hs, hhistory⟩ := Option.map_eq_some_iff.mp firstSwitch_history
  obtain ⟨hcurr, _, honce, _⟩ :=
    (control_integrity (reachable_of_run (by decide) hs)).1 _ _ _ _ _ hhistory
  exact ⟨s, hs, hcurr rfl, honce⟩

end UThreads
