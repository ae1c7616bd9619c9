/-
  UThreads.Properties.Resume
  ──────────────────────────
  **A RESUMED THREAD IS NOT LOST, UNLESS ITS ID CARRIES AN OLD COUNTDOWN.**

  `uthread_resume` decides between READY and SLEEPING by the countdown alone.
  The countdown of a thread has three possible sources, which the history
  variable `Mark` tells apart: none, a sleep of its own, or an id that was in
  the sleeping set when its previous owner was terminated.  In the last case
  the countdown starts below 0 with the first quantum and never ends.
-/
import UThreads.Properties.SleepingSet

namespace UThreads

open Interruptible Runs

/-! ## §1. Where a countdown comes from. -/

/-- What the last sleep of a thread, or the last termination of its id, left. -/
inductive Mark where
  /-- neither, or a termination that cleared the sleeping set -/
  | clear
  /-- a sleep of the thread, with its deadline -/
  | slept (deadline : Int)
  /-- a termination that left the id in the set, when the total was `total` -/
  | left (total : Int)
  deriving DecidableEq, Repr

/-- The id stays in the sleeping set when its thread is terminated. -/
def State.LeavesInSet (s : State) (tid : Int) : Prop :=
  tid ∈ s.sleepingThreads ∧ s.stateOf tid ≠ some .sleeping

instance (s : State) (tid : Int) : Decidable (s.LeavesInSet tid) :=
  inferInstanceAs (Decidable (_ ∧ _))

/-- The mark of `tid` after one event. -/
def Mark.note (tid : Int) (s : State) (e : Event) (m : Mark) : Mark :=
  match e with
  | .call (.sleep n) => if s.currThreadId = tid then .slept (s.totalQuantom + n) else m
  | .call (.terminate i) =>
      if i = tid ∧ s.threads.get tid ≠ none then
        if s.LeavesInSet tid then .left s.totalQuantom else .clear
      else m
  | _ => m

/-- The mark of `tid` after a run. -/
def markAfter (order : IterOrder) (tid : Int) (s₀ : State) (es : List Event) : Mark :=
  track (step order) (Mark.note tid) .clear s₀ es

/-- The thread is inside a sleep of its own: its deadline is not reached. -/
def Mark.Unfinished (s : State) : Mark → Prop
  | .slept deadline => s.totalQuantom < deadline
  | _               => False

/-- The thread has an old countdown, and a quantum has started with it. -/
def Mark.Inherited (s : State) : Mark → Prop
  | .left total => total < s.totalQuantom
  | _           => False

/-- How the thread table and the sleeping set agree with the mark of `tid`. -/
inductive Standing (s : State) (tid : Int) : Mark → Prop where
  | dead (hnull : s.threads.get tid = none) (hout : tid ∉ s.sleepingThreads) :
      Standing s tid .clear
  | left (hnull : s.threads.get tid = none) (hmem : tid ∈ s.sleepingThreads) :
      Standing s tid (.left s.totalQuantom)
  | awake (m : Mark) (t : Thread) (ht : s.threads.get tid = some t)
      (hout : tid ∉ s.sleepingThreads)
      (hm : m = .clear ∨ ∃ deadline, m = .slept deadline ∧ deadline ≤ s.totalQuantom) :
      Standing s tid m
  | asleep (deadline : Int) (t : Thread) (ht : s.threads.get tid = some t)
      (hmem : tid ∈ s.sleepingThreads) (hsl : t.sleepingTime = deadline - s.totalQuantom)
      (hlt : s.totalQuantom < deadline) : Standing s tid (.slept deadline)
  | inherited (total : Int) (t : Thread) (ht : s.threads.get tid = some t)
      (hmem : tid ∈ s.sleepingThreads) (hsl : t.sleepingTime = total - s.totalQuantom - 1)
      (hle : total ≤ s.totalQuantom) (hst : t.state = .sleeping → total < s.totalQuantom) :
      Standing s tid (.left total)

/-! ## §2. One event. -/

section Step

variable {order : IterOrder} {s s' p : State} {tid next : Int} {rest : List Int} {m : Mark}
  {t t' u : Thread} {e : Event}

/-- Nothing about `tid` changes. -/
theorem Standing.frame (h : Standing s tid m) (hget : s'.threads.get tid = s.threads.get tid)
    (hmem : tid ∈ s'.sleepingThreads ↔ tid ∈ s.sleepingThreads)
    (htotal : s'.totalQuantom = s.totalQuantom) : Standing s' tid m := by
  cases h with
  | dead hnull hout => exact .dead (hget.trans hnull) (fun hm => hout (hmem.mp hm))
  | left hnull hm => exact htotal ▸ .left (hget.trans hnull) (hmem.mpr hm)
  | awake m t ht hout hm =>
      exact .awake m t (hget.trans ht) (fun hm => hout (hmem.mp hm)) (htotal ▸ hm)
  | asleep d t ht hm hsl hlt =>
      exact .asleep d t (hget.trans ht) (hmem.mpr hm) (htotal ▸ hsl) (htotal ▸ hlt)
  | inherited q t ht hm hsl hle hst =>
      exact .inherited q t (hget.trans ht) (hmem.mpr hm) (htotal ▸ hsl) (htotal ▸ hle)
        (htotal ▸ hst)

/-- A new record with the old countdown. -/
theorem Standing.replace (h : Standing s tid m) (ht : s.threads.get tid = some t)
    (hget : s'.threads.get tid = some t')
    (hmem : tid ∈ s'.sleepingThreads ↔ tid ∈ s.sleepingThreads)
    (htotal : s'.totalQuantom = s.totalQuantom) (hsl : t'.sleepingTime = t.sleepingTime)
    (hst : t'.state = .sleeping → t.state = .sleeping ∨ t.sleepingTime ≠ notSleeping) :
    Standing s' tid m := by
  cases h with
  | dead hnull hout => cases ht.symm.trans hnull
  | left hnull hm => cases ht.symm.trans hnull
  | awake m v hv hout hm =>
      exact .awake m t' hget (fun hm => hout (hmem.mp hm)) (htotal ▸ hm)
  | asleep d v hv hm hvsl hlt =>
      obtain rfl := same_record ht hv
      exact .asleep d t' hget (hmem.mpr hm) (by rw [hsl, htotal, hvsl]) (htotal ▸ hlt)
  | inherited q v hv hm hvsl hle hvst =>
      obtain rfl := same_record ht hv
      refine .inherited q t' hget (hmem.mpr hm) (by rw [hsl, htotal, hvsl]) (htotal ▸ hle) ?_
      intro hs
      rw [htotal]
      rcases hst hs with hs | hs
      · exact hvst hs
      · unfold notSleeping at hs
        omega

/-- A new record with the old countdown, for `tid` or for another thread. -/
theorem Standing.change (h : Standing s tid m) {i : Int} (ht : s.threads.get i = some t)
    (hget : ∀ j, s'.threads.get j = if j = i then some t' else s.threads.get j)
    (hset : s'.sleepingThreads = s.sleepingThreads) (htotal : s'.totalQuantom = s.totalQuantom)
    (hsl : t'.sleepingTime = t.sleepingTime)
    (hst : t'.state = .sleeping → t.state = .sleeping ∨ t.sleepingTime ≠ notSleeping) :
    Standing s' tid m := by
  have hmem : tid ∈ s'.sleepingThreads ↔ tid ∈ s.sleepingThreads := by rw [hset]
  by_cases hne : tid = i
  · subst hne
    exact h.replace ht ((hget tid).trans (if_pos rfl)) hmem htotal hsl hst
  · exact h.frame ((hget tid).trans (if_neg hne)) hmem htotal

/-- The record of `tid` after a dispatch, before and after the wake-up pass. -/
theorem dispatched_record (order : IterOrder) (rest : List Int)
    (hu : p.threads.get next = some u) (ht : p.threads.get tid = some t) :
    ∃ v, (p.dispatched order next rest u).threads.get tid
        = some (if tid ∈ p.sleepingThreads then wakeRecord v else v)
      ∧ v.sleepingTime = t.sleepingTime := by
  by_cases hne : tid = next
  · subst hne
    obtain rfl := same_record hu ht
    exact ⟨_, dispatched_get_next hu, rfl⟩
  · refine ⟨t, ?_, rfl⟩
    rw [dispatched_get_ne hu hne, ht]
    split <;> rfl

/-- **A quantum start** counts an own sleep down to its deadline, and an
inherited countdown further away from 0. -/
theorem Standing.dispatched (h : Standing p tid m) (hu : p.threads.get next = some u)
    (hlive : ∀ i ∈ p.sleepingThreads, p.threads.get i ≠ none) :
    Standing (p.dispatched order next rest u) tid m := by
  cases h with
  | dead hnull hout =>
      exact .dead ((dispatched_get_none hu).mpr hnull)
        (fun hm => hout (sleeping_of_dispatched hu hm))
  | left hnull hmem => exact absurd hnull (hlive tid hmem)
  | awake m t ht hout hm =>
      obtain ⟨v, hv, _⟩ := dispatched_record order rest hu ht
      refine .awake m _ hv (fun hm => hout (sleeping_of_dispatched hu hm)) ?_
      rcases hm with hm | ⟨d, hm, hd⟩
      · exact Or.inl hm
      · exact Or.inr ⟨d, hm, by rw [dispatched_total]; omega⟩
  | asleep d t ht hmem hsl hlt =>
      obtain ⟨v, hv, hvsl⟩ := dispatched_record order rest hu ht
      rw [if_pos hmem] at hv
      by_cases hz : t.sleepingTime - 1 = 0
      · -- the deadline is reached
        refine .awake _ _ hv ?_ (Or.inr ⟨d, rfl, by rw [dispatched_total]; omega⟩)
        exact fun hm => ((mem_dispatched_sleeping hu ht).mp hm).2 hz
      · refine .asleep d _ hv ((mem_dispatched_sleeping hu ht).mpr ⟨hmem, hz⟩) ?_ ?_
        · rw [wakeRecord_sleepingTime, hvsl, if_neg hz, dispatched_total]
          omega
        · rw [dispatched_total]
          omega
  | inherited q t ht hmem hsl hle hst =>
      obtain ⟨v, hv, hvsl⟩ := dispatched_record order rest hu ht
      rw [if_pos hmem] at hv
      -- below 0 the countdown never ends
      have hz : t.sleepingTime - 1 ≠ 0 := by omega
      refine .inherited q _ hv ((mem_dispatched_sleeping hu ht).mpr ⟨hmem, hz⟩) ?_ ?_ ?_
      · rw [wakeRecord_sleepingTime, hvsl, if_neg hz, dispatched_total]
        omega
      · rw [dispatched_total]
        omega
      · intro _
        rw [dispatched_total]
        omega

/-- The mark changes with a sleep of `tid` and a termination of `tid` only. -/
theorem note_other (hsleep : ∀ n, e = .call (.sleep n) → s.currThreadId ≠ tid)
    (hterm : e = .call (.terminate tid) → s.threads.get tid = none) : m.note tid s e = m := by
  unfold Mark.note
  split
  · exact if_neg (hsleep _ rfl)
  · next i =>
      refine if_neg ?_
      intro hall
      obtain ⟨rfl, hne⟩ := hall
      exact hne (hterm rfl)
  · rfl

theorem note_terminate (ht : s.threads.get tid = some t) :
    m.note tid s (.call (.terminate tid))
      = if s.LeavesInSet tid then .left s.totalQuantom else .clear := by
  exact if_pos ⟨rfl, by rw [ht]; simp⟩

/-- The record of `tid` goes, and the sleeping set stays: the id is left in it,
or was not in it. -/
theorem Standing.removed (ht : s.threads.get tid = some t) (hst : t.state ≠ .sleeping)
    (hnull : s'.threads.get tid = none) (hset : s'.sleepingThreads = s.sleepingThreads)
    (htotal : s'.totalQuantom = s.totalQuantom) :
    Standing s' tid (m.note tid s (.call (.terminate tid))) := by
  have hstate : s.stateOf tid ≠ some .sleeping := by
    rw [State.stateOf, ht, Option.map_some]
    simp [hst]
  rw [note_terminate ht]
  by_cases hmem : tid ∈ s.sleepingThreads
  · rw [if_pos ⟨hmem, hstate⟩, ← htotal]
    exact .left hnull (hset ▸ hmem)
  · rw [if_neg (fun hl => hmem hl.1)]
    exact .dead hnull (hset ▸ hmem)

/-- The suspension of the running thread. -/
theorem Standing.suspends (h : Standing s tid m) (hcurr : s.threads.get s.currThreadId = some t)
    (hrun : t.state = .running) (hp : Suspends s t e p) (he : e.SleepsPositive) :
    Standing p tid (m.note tid s e) := by
  by_cases hne : tid = s.currThreadId
  · subst hne
    cases hp with
    | tick mask =>
        exact h.change hcurr (saveCurrent_get hcurr { t.save s.nextToken .timerHandler
          (insert sigvtalrm mask) with state := .ready } .timerHandler) rfl rfl rfl (by simp)
    | block h0 =>
        exact h.change hcurr (saveCurrent_get hcurr { t.save s.nextToken .uthreadBlock signalSet
          with state := .blocked } .uthreadBlock) rfl rfl rfl (by simp)
    | sleep h0 n =>
        have hn : 1 ≤ n := he
        have hget := (saveCurrent_get hcurr
          { t.save s.nextToken .uthreadSleep signalSet with
            sleepingTime := n, state := .sleeping } .uthreadSleep s.currThreadId).trans (if_pos rfl)
        rw [Mark.note, if_pos rfl]
        refine .asleep _ _ hget List.mem_insert_self ?_ ?_
        · show n = s.totalQuantom + n - s.totalQuantom
          omega
        · show s.totalQuantom < s.totalQuantom + n
          omega
    | terminate h0 =>
        exact .removed hcurr (by simp [hrun])
          (Table.get_set_self s.threads (Table.inRange_of_get hcurr) none) rfl rfl
  · obtain ⟨hget, hmem, _⟩ := hp.frame hcurr hne
    have hnote : m.note tid s e = m := by
      refine note_other ?_ ?_
      · intro n _ hc
        exact hne hc.symm
      · intro hterm
        rw [hterm] at hp
        exact absurd hp.switches.1 hne
    rw [hnote]
    exact h.frame hget hmem hp.total

/-- A new thread takes the place in the set that the old owner of its id left. -/
theorem Standing.spawn (h : Standing s tid m) (hw : WellFormed s) {newId : Int} {ids : List Int}
    (hids : s.minHeapId = newId :: ids) (newStack entryPoint : Nat) :
    Standing (s.spawn newId ids newStack entryPoint) tid m := by
  by_cases hne : tid = newId
  · subst hne
    obtain ⟨hr, hnull⟩ := hw.heap_top_free hids
    have hget : (s.spawn tid ids newStack entryPoint).threads.get tid
        = some (setNewThread entryPoint tid newStack s.nextToken) :=
      Table.get_set_self s.threads hr _
    cases h with
    | dead _ hout => exact .awake _ _ hget hout (Or.inl rfl)
    | left _ hin =>
        -- `NOT_SLEEPING` in the set: the countdown of the old owner's id
        refine .inherited _ _ hget hin ?_ (Int.le_refl _) ?_
        · show notSleeping = s.totalQuantom - s.totalQuantom - 1
          unfold notSleeping
          omega
        · intro hst
          cases hst
    | awake _ v hv _ _ => cases hv.symm.trans hnull
    | asleep _ v hv _ _ _ => cases hv.symm.trans hnull
    | inherited _ v hv _ _ _ _ => cases hv.symm.trans hnull
  · exact h.frame (Table.get_set_ne s.threads hne _) Iff.rfl rfl

/-- **The step lemma**: the mark accounts for the countdown after every event. -/
theorem Standing.step (h : Standing s tid m) (h0 : tid ≠ 0) (hw : WellFormed s)
    (hs : UThreads.step order s e = some s') (hpos : e.SleepsPositive) :
    Standing s' tid (m.note tid s e) := by
  have he := step_effect hw hs
  cases he with
  | reject c line hr =>
      have hnote : m.note tid s (.call c) = m := by
        refine note_other ?_ ?_
        · intro n hc
          injection hc with hc
          rw [hc] at hr
          exact fun he => h0 (he.symm.trans hr)
        · intro hc
          injection hc with hc
          rw [hc] at hr
          exact hr
      rw [hnote]
      exact h.frame rfl Iff.rfl rfl
  | idle c hi =>
      have hnote : m.note tid s (.call c) = m := by
        refine note_other ?_ ?_
        · intro n hc
          injection hc with hc
          rw [hc] at hi
          exact absurd hi id
        · intro hc
          injection hc with hc
          rw [hc] at hi
          exact absurd hi id
      rw [hnote]
      exact h
  | spawn newStack entryPoint newId ids hids => exact h.spawn hw hids newStack entryPoint
  | retireIdle i v hi0 hv hvst =>
      by_cases hne : tid = i
      · subst hne
        have hst : v.state ≠ .sleeping := by
          rcases hvst with hvst | hvst <;> simp [hvst]
        exact .removed hv hst ((retire_get hv tid).trans (if_pos rfl)) rfl rfl
      · rw [note_other (by simp) (fun hc => absurd (by simpa using hc.symm) hne)]
        exact h.frame (Table.get_set_ne s.threads hne _) Iff.rfl rfl
  | retireSleeping i v hi0 hv hvst =>
      by_cases hne : tid = i
      · subst hne
        have hst : ¬ s.LeavesInSet tid := by
          intro hall
          obtain ⟨_, hst⟩ := hall
          rw [State.stateOf, hv, Option.map_some, hvst] at hst
          exact hst rfl
        rw [note_terminate hv, if_neg hst]
        refine .dead ((retire_get hv tid).trans (if_pos rfl)) ?_
        exact fun hm => (hw.sleepNodup.mem_erase_iff.mp hm).1 rfl
      · rw [note_other (by simp) (fun hc => absurd (by simpa using hc.symm) hne)]
        exact h.frame (Table.get_set_ne s.threads hne _) (List.mem_erase_of_ne hne) rfl
  | blockSleeping i v hi0 hv hvst =>
      exact h.change hv (setThread_get hv _) rfl rfl rfl (by simp)
  | blockReady i v hi0 hv hvst => exact h.change hv (setThread_get hv _) rfl rfl rfl (by simp)
  | resumeBlocked i v hi0 hv hvst hvsl =>
      exact h.change hv (setThread_get hv _) rfl rfl rfl (by simp)
  | resumeCounting i v hi0 hv hvst hvsl =>
      exact h.change hv (setThread_get hv _) rfl rfl rfl (fun _ => Or.inr hvsl)
  | switch e v p next rest u hcurr hrun hp hq hu hready hlive =>
      exact (h.suspends hcurr hrun hp hpos).dispatched hu hlive

theorem initial_standing (h : Initial s) (h0 : tid ≠ 0) : Standing s tid .clear := by
  obtain ⟨q, _, rfl⟩ := initial_iff.mp h
  refine .dead ?_ (by simp [initialState, boot])
  rw [initialState_get, if_neg h0]

end Step

/-! ## §3. The law. -/

/-- What a resume owes to thread `tid`: it makes the thread READY or RUNNING,
and after a block of a READY thread it only moves the thread to the queue's
tail. -/
def ResumeLaw (order : IterOrder) (s : State) (tid : Int) : Prop :=
  (∃ s', step order s (.call (.resume tid)) = some s'
      ∧ (s'.stateOf tid = some .ready ∨ s'.stateOf tid = some .running))
    ∧ (s.stateOf tid = some .ready → ∃ b, step order s (.call (.block tid)) = some b
        ∧ step order b (.call (.resume tid))
            = some (s.setReady (s.readyThreads.erase tid ++ [tid])))

section Law

variable {order : IterOrder} {s : State} {tid : Int} {t : Thread}

/-- A resume of a thread that is not BLOCKED changes nothing. -/
theorem step_resume_other (hw : WellFormed s) (h0 : tid ≠ 0) (ht : s.threads.get tid = some t)
    (hst : t.state ≠ .blocked) : step order s (.call (.resume tid)) = some s := by
  show settle ((uthreadResume tid).exec s ∅) = some s
  rw [exec_uthreadResume_other ∅ hw.freed h0 ht hst]
  rfl

theorem step_resume_blocked (hw : WellFormed s) (h0 : tid ≠ 0) (ht : s.threads.get tid = some t)
    (hst : t.state = .blocked) (hsl : t.sleepingTime = notSleeping) :
    step order s (.call (.resume tid))
      = some ((s.setThread tid (some { t with state := .ready })).setReady
          (s.readyThreads ++ [tid])) := by
  show settle ((uthreadResume tid).exec s ∅) = _
  rw [exec_uthreadResume_blocked ∅ hw.freed h0 ht hst hsl]
  rfl

theorem step_resume_counting (hw : WellFormed s) (h0 : tid ≠ 0) (ht : s.threads.get tid = some t)
    (hst : t.state = .blocked) (hsl : t.sleepingTime ≠ notSleeping) :
    step order s (.call (.resume tid))
      = some (s.setThread tid (some { t with state := .sleeping })) := by
  show settle ((uthreadResume tid).exec s ∅) = _
  rw [exec_uthreadResume_counting ∅ hw.freed h0 ht hst hsl]
  rfl

theorem step_block_ready (order : IterOrder) (hw : WellFormed s) (h0 : tid ≠ 0)
    (ht : s.threads.get tid = some t) (hst : t.state = .ready) :
    step order s (.call (.block tid))
      = some ((s.setReady (s.readyThreads.erase tid)).setThread tid
          (some { t with state := .blocked })) := by
  have herase : s.readyThreads.erase tid
      = s.readyThreads.filter (fun i => decide (i ≠ tid)) := by
    rw [hw.readyNodup.erase_eq_filter]
    exact List.filter_congr (fun i _ => by by_cases hi : i = tid <;> simp [hi])
  show settle ((uthreadBlock order tid).exec s ∅) = _
  rw [exec_uthreadBlock_ready ∅ order hw.freed h0 ht hst, herase]
  rfl

/-- The state of a thread that was just given a new record. -/
theorem stateOf_setThread (ht : s.threads.get tid = some t) (u : Thread) :
    (s.setThread tid (some u)).stateOf tid = some u.state := by
  rw [State.stateOf, setThread_get ht, if_pos rfl, Option.map_some]

/-- **The law holds of a thread without a countdown.** -/
theorem resumeLaw_of_awake (hw : WellFormed s) (h0 : tid ≠ 0) (ht : s.threads.get tid = some t)
    (hsl : t.sleepingTime = notSleeping) (hst : t.state ≠ .sleeping) :
    ResumeLaw order s tid := by
  constructor
  · by_cases hb : t.state = .blocked
    · exact ⟨_, step_resume_blocked hw h0 ht hb hsl, Or.inl (stateOf_setThread ht _)⟩
    · refine ⟨s, step_resume_other hw h0 ht hb, ?_⟩
      rw [State.stateOf, ht, Option.map_some]
      cases hs : t.state with
      | running => exact Or.inr rfl
      | ready => exact Or.inl rfl
      | blocked => exact absurd hs hb
      | sleeping => exact absurd hs hst
  · intro hready
    obtain ⟨v, hv, hvst⟩ := stateOf_eq_some.mp hready
    obtain rfl := same_record ht hv
    have hblock := step_block_ready order hw h0 ht hvst
    have hget : ((s.setReady (s.readyThreads.erase tid)).setThread tid
        (some { t with state := .blocked })).threads.get tid = some { t with state := .blocked } :=
      (setThread_get ht _ tid).trans (if_pos rfl)
    refine ⟨_, hblock, ?_⟩
    rw [step_resume_blocked (hw.step hblock) h0 hget rfl hsl]
    congr 1
    apply State.ext <;> try rfl
    -- the record is the old one again
    show (s.threads.set tid _).set tid _ = s.threads
    rw [Table.set_set]
    have hsame : some { t with state := ThreadState.ready } = s.threads.get tid := by
      rw [ht, ← hvst]
    exact hsame ▸ Table.set_get_self s.threads tid

/-- **Of a thread with a countdown the law holds only while it runs.** -/
theorem resumeLaw_counting (hw : WellFormed s) (h0 : tid ≠ 0) (ht : s.threads.get tid = some t)
    (hsl : t.sleepingTime ≠ notSleeping) :
    ResumeLaw order s tid ↔ s.stateOf tid = some .running := by
  have hst : s.stateOf tid = some t.state := by rw [State.stateOf, ht, Option.map_some]
  constructor
  · intro hall
    obtain ⟨⟨s', hs', hafter⟩, hagain⟩ := hall
    rw [hst]
    cases hs : t.state with
    | running => rfl
    | blocked =>
        rw [step_resume_counting hw h0 ht hs hsl] at hs'
        injection hs' with hs'
        rw [← hs', stateOf_setThread ht] at hafter
        simp at hafter
    | sleeping =>
        -- a resume leaves it SLEEPING
        rw [step_resume_other hw h0 ht (by simp [hs])] at hs'
        injection hs' with hs'
        rw [← hs', hst, hs] at hafter
        simp at hafter
    | ready =>
        obtain ⟨b, hb, hr⟩ := hagain (hst.trans (congrArg some hs))
        have hblock := step_block_ready order hw h0 ht hs
        rw [hblock] at hb
        injection hb with hb
        have hget : b.threads.get tid = some { t with state := .blocked } := by
          rw [← hb]
          exact (setThread_get ht _ tid).trans (if_pos rfl)
        rw [step_resume_counting (hw.step (hb ▸ hblock)) h0 hget rfl hsl] at hr
        injection hr with hr
        -- the thread is SLEEPING after the resume, and READY after the move
        have hstate := congrArg (fun v : State => v.stateOf tid) hr
        simp only [stateOf_setThread hget] at hstate
        rw [show (s.setReady (s.readyThreads.erase tid ++ [tid])).stateOf tid = s.stateOf tid
          from rfl, hst, hs] at hstate
        simp at hstate
  · intro hrun
    rw [hst] at hrun
    injection hrun with hrun
    refine ⟨⟨s, step_resume_other hw h0 ht (by simp [hrun]), Or.inr (hst.trans ?_)⟩, ?_⟩
    · rw [hrun]
    · intro hready
      rw [hst, hrun] at hready
      simp at hready

end Law

/-! ## §4. The exact condition. -/

/-- **The mark decides.**  For a live thread that is not inside a sleep of its
own, the law holds unless an inherited countdown has begun. -/
theorem Standing.resumeLaw_iff {order : IterOrder} {s : State} {tid : Int} {m : Mark}
    (h : Standing s tid m) (hw : WellFormed s) (h0 : tid ≠ 0) (hlive : s.threads.get tid ≠ none)
    (hawake : ¬ m.Unfinished s) :
    ResumeLaw order s tid ↔ s.stateOf tid = some .running ∨ ¬ m.Inherited s := by
  cases h with
  | dead hnull hout => exact absurd hnull hlive
  | left hnull hmem => exact absurd hnull hlive
  | awake m t ht hout hm =>
      obtain ⟨hst, hsl⟩ := hw.awake ht hout
      have hno : ¬ m.Inherited s := by
        rcases hm with rfl | ⟨d, rfl, _⟩
        · exact id
        · exact id
      exact ⟨fun _ => Or.inr hno, fun _ => resumeLaw_of_awake hw h0 ht hsl hst⟩
  | asleep d t ht hmem hsl hlt => exact absurd hlt hawake
  | inherited q t ht hmem hsl hle hst =>
      by_cases hlt : q < s.totalQuantom
      · have hne : t.sleepingTime ≠ notSleeping := by
          unfold notSleeping
          omega
        rw [resumeLaw_counting hw h0 ht hne]
        exact ⟨Or.inl, fun h => h.resolve_right (fun hn => hn hlt)⟩
      · -- no quantum has started since: the countdown is still `NOT_SLEEPING`
        have hsl' : t.sleepingTime = notSleeping := by
          unfold notSleeping
          omega
        exact ⟨fun _ => Or.inr hlt, fun _ =>
          resumeLaw_of_awake hw h0 ht hsl' (fun hs => hlt (hst hs))⟩

/-- In a good run no termination leaves its id in the set. -/
theorem Sleepers.note_ne_left {s : State} {e : Event} {tid total : Int} {m : Mark} (h : Sleepers s)
    (hgood : ¬ e.EndsBlockedSleeper s) (hm : m ≠ .left total) :
    m.note tid s e ≠ .left total := by
  unfold Mark.note
  split
  · split
    · simp
    · exact hm
  · next i =>
      split
      · next hi =>
          obtain ⟨rfl, _⟩ := hi
          refine fun hleft => hgood ?_
          by_cases hl : s.LeavesInSet i
          · obtain ⟨t, ht, hpos, hst⟩ := h i hl.1
            refine ⟨t, ht, hst.resolve_left ?_, ?_⟩
            · exact fun hs => hl.2 (stateOf_eq_some.mpr ⟨t, ht, hs⟩)
            · unfold notSleeping
              omega
          · rw [if_neg hl] at hleft
            cases hleft
      · exact hm
  · exact hm

section Run

variable {order : IterOrder} {s₀ s : State} {es : List Event} {tid : Int}

/-- **The run lemma**: the mark accounts for the countdown at the end of a run. -/
theorem standing_run (h₀ : Initial s₀) (h0 : tid ≠ 0) (hpos : ∀ e ∈ es, e.SleepsPositive)
    (hrun : run (step order) s₀ es = some s) : Standing s tid (markAfter order tid s₀ es) := by
  refine (run_track (fun v m => Standing v tid m ∧ WellFormed v) (fun _ e => e.SleepsPositive)
    ?_ es s₀ s .clear ⟨initial_standing h₀ h0, initial_wellFormed h₀⟩ ?_ hrun).1
  · exact fun v m e w hI hP hs => ⟨hI.1.step h0 hI.2 hs hP, hI.2.step hs⟩
  · exact AllSteps.mono (fun _ _ hP => hP.1) es s₀
      (allSteps_and_events es s₀ hpos (allSteps_true es s₀))

/-- After a good run nobody has an inherited countdown. -/
theorem not_inherited_run (h₀ : Initial s₀) (hpos : ∀ e ∈ es, e.SleepsPositive)
    (hrun : run (step order) s₀ es = some s)
    (hgood : AllSteps (step order) (fun v e => ¬ e.EndsBlockedSleeper v) s₀ es) :
    ¬ (markAfter order tid s₀ es).Inherited s := by
  have hclean : ∀ total, markAfter order tid s₀ es ≠ .left total := by
    intro total
    refine (run_track (fun v m => (WellFormed v ∧ Sleepers v) ∧ m ≠ Mark.left total)
      (fun v e => e.SleepsPositive ∧ ¬ e.EndsBlockedSleeper v)
      (fun v m e w hI hP hs => ⟨⟨hI.1.1.step hs, hI.1.2.step hI.1.1 hs hP.1 hP.2⟩,
        hI.1.2.note_ne_left hP.2 hI.2⟩)
      es s₀ s .clear ⟨⟨initial_wellFormed h₀, initial_sleepers h₀⟩, by simp⟩
      (allSteps_and_events es s₀ hpos hgood) hrun).2
  intro hinh
  cases hm : markAfter order tid s₀ es with
  | left total => exact hclean total hm
  | clear =>
      rw [hm] at hinh
      exact hinh
  | slept d =>
      rw [hm] at hinh
      exact hinh

end Run

/-- **Exactly when a resumed thread is not lost.**  At the end of any run with
positive sleeps, for every live thread other than the main one that is not
inside a sleep of its own: the law holds if and only if the thread is RUNNING
or has no inherited countdown.  In a run without a termination of a BLOCKED
thread whose sleep still counts it always holds. -/
theorem resume_law_iff {order : IterOrder} {s₀ s : State} {es : List Event} {tid : Int}
    (h₀ : Initial s₀) (hpos : ∀ e ∈ es, e.SleepsPositive)
    (hrun : run (step order) s₀ es = some s) (h0 : tid ≠ 0) (hlive : s.threads.get tid ≠ none)
    (hawake : ¬ (markAfter order tid s₀ es).Unfinished s) :
    (ResumeLaw order s tid
        ↔ s.stateOf tid = some .running ∨ ¬ (markAfter order tid s₀ es).Inherited s)
      ∧ (AllSteps (step order) (fun v e => ¬ e.EndsBlockedSleeper v) s₀ es →
          ResumeLaw order s tid) := by
  have hreach : Reachable order s := ⟨s₀, es, h₀, hrun⟩
  have hstand := standing_run h₀ h0 hpos hrun
  have hiff : ResumeLaw order s tid
      ↔ s.stateOf tid = some .running ∨ ¬ (markAfter order tid s₀ es).Inherited s :=
    hstand.resumeLaw_iff hreach.wellFormed h0 hlive hawake
  exact ⟨hiff, fun hgood => hiff.mpr (Or.inr (not_inherited_run h₀ hpos hrun hgood))⟩

theorem resume_law_iff_mixedRun :
    ∃ s, run (step .listing) (initialState 1000) mixedRun = some s ∧ ResumeLaw .listing s 2 := by
  have hend : (run (step .listing) (initialState 1000) mixedRun).map (fun s =>
      ((s.threads.get 2).isSome, markAfter .listing 2 (initialState 1000) mixedRun))
      = some (true, .clear) := by
    decide +kernel
  obtain ⟨s, hs, hobs⟩ := Option.map_eq_some_iff.mp hend
  injection hobs with hlive hmark
  have hlaw := resume_law_iff (initial_iff.mpr ⟨1000, by decide, rfl⟩) (by decide) hs (by decide)
    (Option.isSome_iff_ne_none.mp hlive) (by rw [hmark]; exact id)
  exact ⟨s, hs, hlaw.1.mpr (Or.inr (by rw [hmark]; exact id))⟩

/-- A blocked sleeper is terminated, its id is used again, and two quanta start. -/
def reusedIdRun : List Event :=
  blockedSleeperRun ++ [.call (.spawn ⟨some 4096, true⟩ (some 2)), .tick ∅, .tick ∅]

/-- **A thread that never slept is lost**: it is READY, and a block and a resume
leave it SLEEPING. -/
theorem reused_id_is_lost :
    Initial (initialState 1000) ∧ (∀ e ∈ reusedIdRun, e.SleepsPositive)
      ∧ ∃ s, run (step .listing) (initialState 1000) reusedIdRun = some s
        ∧ s.threads.get 1 ≠ none
        ∧ ¬ (markAfter .listing 1 (initialState 1000) reusedIdRun).Unfinished s
        ∧ (run (step .listing) s [.call (.block 1), .call (.resume 1)]).map (fun v => v.stateOf 1)
            = some (some .sleeping)
        ∧ ¬ ResumeLaw .listing s 1 := by
  have hend : (run (step .listing) (initialState 1000) reusedIdRun).map (fun s =>
      (s.stateOf 1, markAfter .listing 1 (initialState 1000) reusedIdRun,
        (run (step .listing) s [.call (.block 1), .call (.resume 1)]).map (fun v => v.stateOf 1)))
      = some (some .ready, .left 3, some (some .sleeping)) := by
    decide +kernel
  obtain ⟨s, hs, hobs⟩ := Option.map_eq_some_iff.mp hend
  injection hobs with hready hobs
  injection hobs with hmark hafter
  obtain ⟨t, ht, hst⟩ := stateOf_eq_some.mp hready
  refine ⟨initial_iff.mpr ⟨1000, by decide, rfl⟩, by decide, s, hs, by simp [ht], ?_, hafter, ?_⟩
  · rw [hmark]
    exact id
  · intro hall
    obtain ⟨_, hagain⟩ := hall
    obtain ⟨b, hb, hr⟩ := hagain hready
    rw [run, hb, Option.bind_some, run, hr, Option.bind_some, run_nil, Option.map_some] at hafter
    injection hafter with hafter
    rw [show (s.setReady (s.readyThreads.erase 1 ++ [1])).stateOf 1 = s.stateOf 1 from rfl, hready]
      at hafter
    cases hafter

end UThreads
