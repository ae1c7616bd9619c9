/-
  UThreads.Properties.CallerMask
  ──────────────────────────────
  **THE CALLS FORGET WHICH OTHER SIGNALS THEIR CALLER BLOCKS.**

  `mask_timer` sets the mask to `SIGVTALRM` alone and does not keep the old one,
  so from the first statement of a call on no other signal is blocked: not in the
  contexts that are saved inside it, not when they are resumed, not when the call
  returns.
-/
import UThreads.Interrupt.Points
import UThreads.Invariant.Preservation

namespace UThreads

open Interruptible Relation

/-! ## §1. The invariant. -/

/-- From the first statement of a call that changes the scheduler on, nothing but
`SIGVTALRM` is blocked; under the handler, that is said of what it interrupted. -/
def NarrowIn (order : IterOrder) : Ctrl State SigSet Stop Access Call Int → SigSet → Prop
  | .user, _                    => True
  | .call i _ p, m              => i.Mutates → p = i.prog order ∨ Narrow m
  | .handler _ interrupted m, _ => NarrowIn order interrupted m

/-- It holds now, and of every context that the table leads to, with the mask it
is resumed with. -/
structure CallerMasks (order : IterOrder) (c : Cpu) : Prop where
  now : NarrowIn order c.ctrl c.mask
  saved : ∀ j t n, c.mem.threads.get j = some t → t.env.target = .saved n →
    n < c.mem.nextToken ∧ ∀ ctrl, c.conts n = some ctrl → NarrowIn order ctrl t.env.savedMask

/-- The environments of the table were there before or are those of new threads. -/
structure Inherits (s s' : State) : Prop where
  drawn : s.nextToken ≤ s'.nextToken
  envs : ∀ j t', s'.threads.get j = some t' →
    (∃ i t, s.threads.get i = some t ∧ t'.env = t.env) ∨ t'.env.target = .entry

section Step

variable {order : IterOrder} {c c' : Cpu} {i : Call} {β : Type}

theorem Calm.inherits {s s' : State} (h : Calm s s') : Inherits s s' := ⟨h.drawn, h.envs⟩

theorem inherits_setFreed (s : State) : Inherits s s.setFreed :=
  ⟨Nat.le_refl _, fun j t' ht' => Or.inl ⟨j, t', ht', rfl⟩⟩

theorem Booted.callerMasks (h : Booted c) : CallerMasks order c where
  now := by
    rw [h.ctrl]
    trivial
  saved := by
    obtain ⟨q, _, hq⟩ := initial_iff.mp h.mem
    intro j t n ht htarget
    rw [hq, initialState_get] at ht
    split at ht
    · -- the main thread has saved nothing yet
      injection ht with ht
      subst ht
      injection htarget with htarget
      refine ⟨?_, fun ctrl hn => by rw [h.conts n] at hn; cases hn⟩
      rw [← htarget, hq]
      exact Nat.zero_lt_one
    · cases ht

/-- **One statement**: a save keeps the mask in force, a jump restores one. -/
theorem CallerMasks.did {F : Facts State SigSet Stop Access β}
    {back : Bool → Prog State SigSet Stop Access β → Ctrl State SigSet Stop Access Call Int}
    (h : CallerMasks order c) (hdid : Did F back c c')
    (hstmt : ∀ s s' rest, F.stmt s s' rest → Inherits s s')
    (hsetjmp : ∀ m s n s', F.setjmp m s n s' → Saves m s n s')
    (hlongjmp : ∀ s t m s', F.longjmp s t m s' → Jumps s t m s')
    (hback : ∀ a q, NarrowIn order (back a q) c.mask)
    (hmask : ∀ g q, F.setmask g → NarrowIn order (back false q) (g c.mask)) :
    CallerMasks order c' := by
  cases hdid with
  | stmt a q s hF hq =>
      refine ⟨hback a q, fun j t' n ht' htarget => ?_⟩
      rcases (hstmt _ _ _ hF).envs j t' ht' with ⟨k, t, ht, henv⟩ | hentry
      · rw [henv] at htarget ⊢
        obtain ⟨hn, hconts⟩ := h.saved k t n ht htarget
        exact ⟨hn.trans_le (hstmt _ _ _ hF).drawn, hconts⟩
      · cases hentry.symm.trans htarget
  | setmask g q hF hq => exact ⟨hmask g q hF, h.saved⟩
  | setjmp a token q r s hF hr hq hr' =>
      obtain ⟨rfl, hdrawn, _, _, henvs⟩ := hsetjmp _ _ _ _ hF
      refine ⟨hback a q, fun j t' n ht' htarget => ?_⟩
      show n < s.nextToken ∧ ∀ ctrl,
        Function.update c.conts c.mem.nextToken (some (back a r)) n = some ctrl → _
      rw [hdrawn]
      rcases henvs j t' ht' with ⟨k, t, ht, henv⟩ | ⟨hnew, hsaved⟩
      · -- an older context: the new token is another one
        rw [henv] at htarget ⊢
        obtain ⟨hn, hconts⟩ := h.saved k t n ht htarget
        refine ⟨Nat.lt_succ_of_lt hn, fun ctrl hctrl => hconts ctrl ?_⟩
        rw [Function.update_of_ne (Nat.ne_of_lt hn)] at hctrl
        exact hctrl
      · injection hnew.symm.trans htarget with hn
        subst hn
        refine ⟨Nat.lt_succ_self _, fun ctrl hctrl => ?_⟩
        rw [Function.update_self] at hctrl
        injection hctrl with hctrl
        rw [← hctrl, hsaved]
        exact hback a r
  | entry m s hF =>
      obtain ⟨_, hthreads, hdrawn, _, _⟩ := hlongjmp _ _ _ _ hF
      refine ⟨trivial, fun j t n ht htarget => ?_⟩
      rw [hthreads] at ht
      rw [hdrawn]
      exact h.saved j t n ht htarget
  | resume token m s ctrl hn hF =>
      obtain ⟨henv, hthreads, hdrawn, _, _⟩ := hlongjmp _ _ _ _ hF
      obtain ⟨k, u, hu, htarget, hm⟩ := henv
      refine ⟨?_, fun j t n ht htarget => ?_⟩
      · rw [hm]
        exact (h.saved k u token hu htarget.symm).2 ctrl hn
      · rw [hthreads] at ht
        rw [hdrawn]
        exact h.saved j t n ht htarget

/-- A call that changes the scheduler begins with `mask_timer`. -/
theorem Call.Mutates.masks (order : IterOrder) (hi : i.Mutates) :
    ∃ k, i.prog order = .setmask (fun _ => signalSet) k := by
  cases i with
  | spawn mem entryPoint => exact ⟨_, rfl⟩
  | terminate tid => exact ⟨_, rfl⟩
  | block tid => exact ⟨_, rfl⟩
  | resume tid => exact ⟨_, rfl⟩
  | sleep n => exact ⟨_, rfl⟩
  | getTid => exact absurd hi id
  | getTotalQuantums => exact absurd hi id
  | getQuantums tid => exact absurd hi id

/-- A statement of a call: the first sets the mask, and the others keep it narrow. -/
theorem CallerMasks.call (h : CallerMasks order c) (hin : InCode c) {b : Bool} {p : Lib Int}
    (hctrl : c.ctrl = .call i b p)
    (hnext : p.Next Access.touches (fun a q => .call i (b || a) q) c c') :
    CallerMasks order c' := by
  have hnow : i.Mutates → p = i.prog order ∨ Narrow c.mask := by
    have := h.now
    rw [hctrl] at this
    exact this
  by_cases hfirst : i.Mutates ∧ p = i.prog order
  · obtain ⟨hi, rfl⟩ := hfirst
    obtain ⟨k, hk⟩ := hi.masks order
    rw [hk] at hnext
    cases hnext with
    | setmask => exact ⟨fun _ => Or.inr (Finset.Subset.refl _), h.saved⟩
  · have hnarrow : i.Mutates → Narrow c.mask :=
      fun hi => (hnow hi).resolve_left (fun hp => hfirst ⟨hi, hp⟩)
    refine h.did (hnext.did (hin.inCall hctrl)) ?_ (fun _ _ _ _ hs => hs) (fun _ _ _ _ hj => hj)
      (fun a q hi => Or.inr (hnarrow hi)) (fun g q hg hi => Or.inr (hg _ (hnarrow hi)))
    intro s s' rest hF
    rcases hF with hcalm | ⟨rfl, _⟩
    · exact hcalm.inherits
    · exact inherits_setFreed s

/-- **The step lemma.** -/
theorem CallerMasks.step (h : CallerMasks order c) (hin : InCode c)
    (hstep : (machine order).Step c c') : CallerMasks order c' := by
  cases hstep with
  | arrive => exact ⟨h.now, h.saved⟩
  | deliver hpending hopen => exact ⟨h.now, h.saved⟩
  | userMask m huser hm =>
      refine ⟨?_, h.saved⟩
      show NarrowIn order c.ctrl m
      rw [huser]
      trivial
  | invoke i huser => exact ⟨fun _ => Or.inl rfl, h.saved⟩
  | call i b p c' hctrl hnext => exact h.call hin hctrl hnext
  | callReturn i b a hctrl => exact ⟨trivial, h.saved⟩
  | handler p interrupted m c' hctrl hnext =>
      have hnow : NarrowIn order interrupted m := by
        have := h.now
        rw [hctrl] at this
        exact this
      exact h.did (hnext.did (hin.inHandler hctrl).1) (fun _ _ _ hF => Calm.inherits hF)
        (fun _ _ _ _ hs => hs) (fun _ _ _ _ hj => hj) (fun _ _ => hnow)
        (fun _ _ hF => absurd hF id)
  | handlerReturn interrupted m hctrl =>
      refine ⟨?_, h.saved⟩
      have := h.now
      rw [hctrl] at this
      exact this

/-- **The run lemma.** -/
theorem CallerMasks.run (h : CallerMasks order c) (hin : InCode c)
    (hrun : ReflTransGen (machine order).Step c c') : CallerMasks order c' := by
  induction hrun with
  | refl => exact h
  | tail hbefore hstep ih => exact ih.step (hin.run (machine_obeys order) hbefore) hstep

theorem CpuReachable.callerMasks (h : CpuReachable order c) : CallerMasks order c := by
  obtain ⟨c₀, h₀, hrun⟩ := h.steps
  exact h₀.callerMasks.run (.start h₀.ctrl h₀.conts) hrun

/-- **A call returns with no other signal blocked.** -/
theorem CallerMasks.returns (h : CallerMasks order c) (hi : i.Mutates) {b : Bool} {r : Int}
    (hret : c.ctrl = .call i b (.ret r)) : ∀ sig, sig ≠ sigvtalrm → sig ∉ c.mask := by
  have hnow := h.now
  rw [hret] at hnow
  rcases hnow hi with hfirst | hnarrow
  · obtain ⟨k, hk⟩ := hi.masks order
    cases hfirst.trans hk
  · intro sig hne hmem
    exact hne (Finset.mem_singleton.mp (hnarrow hmem))

end Step

/-! ## §2. When the caller's mask survives. -/

/-- **The caller's mask for other signals** is the same after a call that changes
the scheduler, whenever it returns, exactly if the caller blocks none. -/
theorem callers_mask_iff {order : IterOrder} {c₀ c : Cpu} {i : Call} {b : Bool} {r : Int}
    (h₀ : CpuReachable order c₀) (hi : i.Mutates) (hcaller : c₀.ctrl = .user)
    (hrun : ReflTransGen (machine order).Step { c₀ with ctrl := .call i false (i.prog order) } c)
    (hret : c.ctrl = .call i b (.ret r)) :
    (∀ sig, sig ≠ sigvtalrm → (sig ∈ c.mask ↔ sig ∈ c₀.mask))
      ↔ ∀ sig, sig ≠ sigvtalrm → sig ∉ c₀.mask := by
  have hinvoke : (machine order).Step c₀ { c₀ with ctrl := .call i false (i.prog order) } :=
    .invoke i hcaller
  have hc : CallerMasks order c := h₀.callerMasks.run h₀.within (.head hinvoke hrun)
  have hnone := hc.returns hi hret
  constructor
  · intro hsame sig hne hmem
    exact hnone sig hne ((hsame sig hne).mpr hmem)
  · intro hempty sig hne
    exact iff_of_false (hnone sig hne) (hempty sig hne)

/-- The main thread blocks signal 2. -/
def blocksTwo : Cpu := { startCpu 1000 with mask := {2} }

theorem cpuReachable_blocksTwo : CpuReachable .listing blocksTwo := by
  have hgo : goOn .listing [.userMask {2}] (startCpu 1000) = some blocksTwo := by
    with_unfolding_all rfl
  exact (cpuReachable_start .listing (by decide)).goOn hgo

/-- It resumes itself, which fails: the call masks the timer, prints and unmasks it. -/
theorem blocksTwo_resume :
    ∃ c : Cpu, ReflTransGen (machine .listing).Step
        { blocksTwo with ctrl := .call (.resume 0) false (uthreadResume 0) } c
      ∧ c.ctrl = .call (.resume 0) false (.ret failureReturnValue) ∧ c.mask = ∅ := by
  have hgo : (goOn .listing [.next, .next, .next]
      { blocksTwo with ctrl := .call (.resume 0) false (uthreadResume 0) }).map
        (fun c => (c.ctrl, c.mask))
      = some (.call (.resume 0) false (.ret failureReturnValue), ∅) := by
    with_unfolding_all rfl
  obtain ⟨c, hc, hobs⟩ := Option.map_eq_some_iff.mp hgo
  injection hobs with hctrl hmask
  exact ⟨c, (goOn_run hc).lift id (fun _ _ hs => hs.2), hctrl, hmask⟩

theorem callers_mask_blocksTwo :
    ∃ c : Cpu, c.ctrl = .call (.resume 0) false (.ret failureReturnValue)
      ∧ ((∀ sig, sig ≠ sigvtalrm → (sig ∈ c.mask ↔ sig ∈ blocksTwo.mask))
          ↔ ∀ sig, sig ≠ sigvtalrm → sig ∉ blocksTwo.mask) := by
  obtain ⟨c, hrun, hret, _⟩ := blocksTwo_resume
  have hi : (Call.resume 0).Mutates := trivial
  exact ⟨c, hret, callers_mask_iff cpuReachable_blocksTwo hi rfl hrun hret⟩

/-- **A caller's mask is lost**: signal 2 is blocked before the call and not after it. -/
theorem callers_mask_lost :
    ∃ c : Cpu, CpuReachable .listing blocksTwo ∧ blocksTwo.ctrl = .user ∧ 2 ∈ blocksTwo.mask
      ∧ ReflTransGen (machine .listing).Step
          { blocksTwo with ctrl := .call (.resume 0) false ((Call.resume 0).prog .listing) } c
      ∧ c.ctrl = .call (.resume 0) false (.ret failureReturnValue) ∧ 2 ∉ c.mask := by
  obtain ⟨c, hrun, hret, hmask⟩ := blocksTwo_resume
  refine ⟨c, cpuReachable_blocksTwo, rfl, Finset.mem_singleton_self 2, hrun, hret, ?_⟩
  rw [hmask]
  exact Finset.notMem_empty 2

end UThreads
