/-
  UThreads.Lib.Points
  ───────────────────
  **FROM WHAT EACH STATEMENT DOES TO WHAT EACH STEP OF A RUN DOES.**

  `Facts` says what the statements of a program may do: to the memory, to the
  mask, and where a saved context is resumed.  `Prog.Obeys` asks it of every
  statement, on every path.  A machine never leaves the code of its calls and of
  its handler (`System.Within.step`), however it is interrupted; so `Did` lists
  everything a statement of a run can do.
-/
import UThreads.Lib.Interrupt

namespace Interruptible

variable {σ μ ε ℓ ι α β γ : Type}

/-! ## §1. Facts about statements. -/

/-- What the statements of a program may do. -/
structure Facts (σ μ ε ℓ β : Type) : Type 1 where
  /-- the memory before and after a statement, and what is left of the program -/
  stmt : σ → σ → Prog σ μ ε ℓ β → Prop
  /-- a change of the mask -/
  setmask : (μ → μ) → Prop
  /-- the mask, the memory, the token and the memory of a saved context -/
  setjmp : μ → σ → Nat → σ → Prop
  /-- where a saved context is resumed -/
  resumed : Prog σ μ ε ℓ β → Prop
  /-- the memory, the target and its mask, and the memory of a jump -/
  longjmp : σ → Target → μ → σ → Prop

/-- Every statement of the program, on every path, is as the facts say. -/
def Prog.Obeys (F : Facts σ μ ε ℓ β) : Prog σ μ ε ℓ β → Prop
  | .ret _           => True
  | .stmt _ f k      => ∀ s b s', f s = .ok (b, s') → F.stmt s s' (k b) ∧ (k b).Obeys F
  | .setmask g k     => F.setmask g ∧ k.Obeys F
  | .setjmp _ save k =>
      (∀ m s n s', save m s = .ok (n, s') → F.setjmp m s n s')
        ∧ F.resumed (k 1) ∧ (k 0).Obeys F ∧ (k 1).Obeys F
  | .longjmp _ load  => ∀ s t m s', load s = .ok (t, m, s') → F.longjmp s t m s'

/-- The facts about a first part, when `q` follows. -/
def Facts.before (F : Facts σ μ ε ℓ β) (q : α → Prog σ μ ε ℓ β) : Facts σ μ ε ℓ α where
  stmt := fun s s' rest => F.stmt s s' (rest.bind q)
  setmask := F.setmask
  setjmp := F.setjmp
  resumed := fun p => F.resumed (p.bind q)
  longjmp := F.longjmp

section Rules

variable {F : Facts σ μ ε ℓ β}

theorem obeys_pure (b : β) : (pure b : Prog σ μ ε ℓ β).Obeys F := trivial

/-- **The rule of sequencing.** -/
theorem obeys_bind {p : Prog σ μ ε ℓ α} {q : α → Prog σ μ ε ℓ β} (hp : p.Obeys (F.before q))
    (hq : ∀ a, (q a).Obeys F) : (p >>= q).Obeys F := by
  show (p.bind q).Obeys F
  induction p with
  | ret a => exact hq a
  | stmt l f k ih => exact fun s b s' hf => ⟨(hp s b s' hf).1, ih b (hp s b s' hf).2⟩
  | setmask g k ih => exact ⟨hp.1, ih hp.2⟩
  | setjmp l save k ih => exact ⟨hp.1, hp.2.1, ih 0 hp.2.2.1, ih 1 hp.2.2.2⟩
  | longjmp l load => exact hp

theorem obeys_ite {c : Prop} [Decidable c] {p q : Prog σ μ ε ℓ β} (hp : p.Obeys F)
    (hq : q.Obeys F) : (if c then p else q).Obeys F := by
  split
  · exact hp
  · exact hq

/-- Straight-line code whose relation implies the fact about statements. -/
theorem Prog.Plain.obeys {P : ℓ → Prop} {R : σ → σ → Prop} {p : Prog σ μ ε ℓ β} (hp : p.Plain P R)
    (hR : ∀ s s' rest, R s s' → F.stmt s s' rest) : p.Obeys F := by
  induction p with
  | ret b => trivial
  | stmt l f k ih => exact fun s b s' hf => ⟨hR s s' _ (hp.2.1 s b s' hf), ih b (hp.2.2 b)⟩
  | setmask g k ih => exact absurd hp id
  | setjmp l save k ih => exact absurd hp id
  | longjmp l load => exact absurd hp id

end Rules

/-! ## §2. What a statement of a machine did. -/

/-- **Everything a statement can do**, with what the facts say of it; `back` puts
the rest of the program where it came from. -/
inductive Did (F : Facts σ μ ε ℓ β) (back : Bool → Prog σ μ ε ℓ β → Ctrl σ μ ε ℓ ι α)
    (c : Config σ μ ε ℓ ι α) : Config σ μ ε ℓ ι α → Prop where
  | stmt (a : Bool) (q : Prog σ μ ε ℓ β) (s : σ) (hF : F.stmt c.mem s q) (hq : q.Obeys F) :
      Did F back c { c with mem := s, ctrl := back a q }
  | setmask (g : μ → μ) (q : Prog σ μ ε ℓ β) (hF : F.setmask g) (hq : q.Obeys F) :
      Did F back c { c with mask := g c.mask, ctrl := back false q }
  | setjmp (a : Bool) (n : Nat) (q r : Prog σ μ ε ℓ β) (s : σ) (hF : F.setjmp c.mask c.mem n s)
      (hr : F.resumed r) (hq : q.Obeys F) (hr' : r.Obeys F) :
      Did F back c { c with
        mem := s, ctrl := back a q, conts := Function.update c.conts n (some (back a r)) }
  | entry (m : μ) (s : σ) (hF : F.longjmp c.mem .entry m s) :
      Did F back c { c with mem := s, mask := m, ctrl := .user }
  | resume (n : Nat) (m : μ) (s : σ) (ctrl : Ctrl σ μ ε ℓ ι α) (hn : c.conts n = some ctrl)
      (hF : F.longjmp c.mem (.saved n) m s) :
      Did F back c { c with mem := s, mask := m, ctrl := ctrl }

section Machine

variable {access : ℓ → Bool} {back : Bool → Prog σ μ ε ℓ β → Ctrl σ μ ε ℓ ι α}
  {sys : System σ μ ε ℓ ι α} {c c' : Config σ μ ε ℓ ι α}

theorem Prog.Next.did {F : Facts σ μ ε ℓ β} {p : Prog σ μ ε ℓ β} (h : p.Next access back c c')
    (hp : p.Obeys F) : Did F back c c' := by
  cases h with
  | stmt l f k b s hf => exact .stmt (access l) (k b) s (hp c.mem b s hf).1 (hp c.mem b s hf).2
  | setmask g k => exact .setmask g k hp.1 hp.2
  | setjmp l save k n s hsave =>
      exact .setjmp (access l) n (k 0) (k 1) s (hp.1 _ _ _ _ hsave) hp.2.1 hp.2.2.1 hp.2.2.2
  | entry l load m s hl => exact .entry m s (hp _ _ _ _ hl)
  | resume l load n m s ctrl hl hn => exact .resume n m s ctrl hn (hp _ _ _ _ hl)

/-! ## §3. A machine keeps to its code. -/

/-- The facts about the calls and about the handler. -/
structure System.Obeys (sys : System σ μ ε ℓ ι α) (F : ι → Facts σ μ ε ℓ α)
    (H : Facts σ μ ε ℓ Unit) : Prop where
  call : ∀ i, (sys.call i).Obeys (F i)
  handler : sys.handler.Obeys H

variable {F : ι → Facts σ μ ε ℓ α} {H : Facts σ μ ε ℓ Unit}

/-- What is left to execute obeys the facts. -/
def Ctrl.Obeys (F : ι → Facts σ μ ε ℓ α) (H : Facts σ μ ε ℓ Unit) : Ctrl σ μ ε ℓ ι α → Prop
  | .user                    => True
  | .call i _ p              => p.Obeys (F i)
  | .handler p interrupted _ => p.Obeys H ∧ interrupted.Obeys F H

/-- A context is saved where the facts say that it is resumed. -/
def Ctrl.Resumed (F : ι → Facts σ μ ε ℓ α) (H : Facts σ μ ε ℓ Unit) : Ctrl σ μ ε ℓ ι α → Prop
  | .user          => False
  | .call i _ p    => (F i).resumed p
  | .handler p _ _ => H.resumed p

/-- **Control and the saved contexts are within the code.** -/
structure System.Within (F : ι → Facts σ μ ε ℓ α) (H : Facts σ μ ε ℓ Unit)
    (c : Config σ μ ε ℓ ι α) : Prop where
  ctrl : c.ctrl.Obeys F H
  conts : ∀ n ctrl, c.conts n = some ctrl → ctrl.Obeys F H ∧ ctrl.Resumed F H

/-- User code that has saved nothing is within the code. -/
theorem System.Within.start (hctrl : c.ctrl = .user) (hconts : ∀ n, c.conts n = none) :
    System.Within F H c where
  ctrl := by
    rw [hctrl]
    trivial
  conts := by
    intro n ctrl hn
    rw [hconts n] at hn
    cases hn

theorem System.Within.inCall (hin : System.Within F H c) {i : ι} {begun : Bool}
    {p : Prog σ μ ε ℓ α} (hctrl : c.ctrl = .call i begun p) : p.Obeys (F i) := by
  have hall := hin.ctrl
  rw [hctrl] at hall
  exact hall

theorem System.Within.inHandler (hin : System.Within F H c) {p : Prog σ μ ε ℓ Unit}
    {interrupted : Ctrl σ μ ε ℓ ι α} {m : μ} (hctrl : c.ctrl = .handler p interrupted m) :
    p.Obeys H ∧ interrupted.Obeys F H := by
  have hall := hin.ctrl
  rw [hctrl] at hall
  exact hall

/-- A statement stays within the code. -/
theorem Did.within {G : Facts σ μ ε ℓ β} (h : Did G back c c') (hin : System.Within F H c)
    (hback : ∀ a q, q.Obeys G → (back a q).Obeys F H)
    (hresumed : ∀ a q, G.resumed q → (back a q).Resumed F H) : System.Within F H c' := by
  cases h with
  | stmt a q s hF hq => exact ⟨hback a q hq, hin.conts⟩
  | setmask g q hF hq => exact ⟨hback false q hq, hin.conts⟩
  | setjmp a n q r s hF hr hq hr' =>
      refine ⟨hback a q hq, ?_⟩
      intro i ctrl hi
      by_cases hin' : i = n
      · -- the context that has just been saved
        have hnew : some (back a r) = some ctrl := by
          rw [← hi, hin']
          exact (Function.update_self n _ c.conts).symm
        injection hnew with hnew
        exact hnew ▸ ⟨hback a r hr', hresumed a r hr⟩
      · exact hin.conts i ctrl ((Function.update_of_ne hin' _ c.conts).symm.trans hi)
  | entry m s hF => exact ⟨trivial, hin.conts⟩
  | resume n m s ctrl hn hF => exact ⟨(hin.conts n ctrl hn).1, hin.conts⟩

/-- **The step lemma**, for every step. -/
theorem System.Within.step (hsys : sys.Obeys F H) (hin : System.Within F H c) (h : sys.Step c c') :
    System.Within F H c' := by
  cases h with
  | arrive => exact ⟨hin.ctrl, hin.conts⟩
  | deliver hpending hopen => exact ⟨⟨hsys.handler, hin.ctrl⟩, hin.conts⟩
  | userMask m hctrl hm => exact ⟨hin.ctrl, hin.conts⟩
  | invoke i hctrl => exact ⟨hsys.call i, hin.conts⟩
  | call i begun p c' hctrl hnext =>
      exact (hnext.did (hin.inCall hctrl)).within hin (fun _ _ hq => hq) (fun _ _ hq => hq)
  | callReturn i begun a hctrl => exact ⟨trivial, hin.conts⟩
  | handler p interrupted m c' hctrl hnext =>
      obtain ⟨hp, hint⟩ := hin.inHandler hctrl
      exact (hnext.did hp).within hin (fun _ _ hq => ⟨hq, hint⟩) (fun _ _ hq => hq)
  | handlerReturn interrupted m hctrl => exact ⟨(hin.inHandler hctrl).2, hin.conts⟩

/-- **The run lemma.** -/
theorem System.Within.run (hsys : sys.Obeys F H) {c₀ c : Config σ μ ε ℓ ι α}
    (h₀ : System.Within F H c₀) (h : Relation.ReflTransGen sys.Step c₀ c) :
    System.Within F H c := by
  induction h with
  | refl => exact h₀
  | tail _ hstep ih => exact ih.step hsys hstep

/-! ## §4. What a step does to the memory. -/

/-- Whatever a statement does relates the memories by `R`. -/
structure Facts.Imply (G : Facts σ μ ε ℓ β) (R : σ → σ → Prop) : Prop where
  stmt : ∀ s s' rest, G.stmt s s' rest → R s s'
  setjmp : ∀ m s n s', G.setjmp m s n s' → R s s'
  longjmp : ∀ s t m s', G.longjmp s t m s' → R s s'

theorem Did.mem {G : Facts σ μ ε ℓ β} {R : σ → σ → Prop} (h : Did G back c c')
    (hrefl : R c.mem c.mem) (hG : G.Imply R) : R c.mem c'.mem := by
  cases h with
  | stmt a q s hF hq => exact hG.stmt _ _ _ hF
  | setmask g q hF hq => exact hrefl
  | setjmp a n q r s hF hr hq hr' => exact hG.setjmp _ _ _ _ hF
  | entry m s hF => exact hG.longjmp _ _ _ _ hF
  | resume n m s ctrl hn hF => exact hG.longjmp _ _ _ _ hF

/-- Every step relates the memories as the statements do. -/
theorem System.Within.mem_step {R : σ → σ → Prop} (hrefl : ∀ s, R s s) (hF : ∀ i, (F i).Imply R)
    (hH : H.Imply R) (hin : System.Within F H c) (h : sys.Step c c') : R c.mem c'.mem := by
  cases h with
  | call i begun p c' hctrl hnext =>
      exact (hnext.did (hin.inCall hctrl)).mem (hrefl _) (hF i)
  | handler p interrupted m c' hctrl hnext =>
      exact (hnext.did (hin.inHandler hctrl).1).mem (hrefl _) hH
  | _ => exact hrefl _

/-- And so does every run. -/
theorem System.Within.mem_run {R : σ → σ → Prop} (hrefl : ∀ s, R s s)
    (htrans : ∀ s t u, R s t → R t u → R s u) (hsys : sys.Obeys F H) (hF : ∀ i, (F i).Imply R)
    (hH : H.Imply R) {c₀ c : Config σ μ ε ℓ ι α} (h₀ : System.Within F H c₀)
    (h : Relation.ReflTransGen sys.Step c₀ c) : R c₀.mem c.mem := by
  induction h with
  | refl => exact hrefl _
  | tail hrun hstep ih =>
      exact htrans _ _ _ ih ((h₀.run hsys hrun).mem_step hrefl hF hH hstep)

/-! ## §5. Where a call began. -/

variable {K : Contract σ}

/-- **A call that is never resumed** still runs in the memory it began in, up to what
its statements do. -/
theorem System.Within.origin {R : σ → σ → Prop} (hrefl : ∀ s, R s s)
    (htrans : ∀ s t u, R s t → R t u → R s u) (hd : sys.Disciplined K) (hsys : sys.Obeys F H)
    {i : ι} (hF : (F i).Imply R) (hno : ∀ p, ¬ (F i).resumed p) {c₀ : Config σ μ ε ℓ ι α}
    (h₀ : sys.Start K c₀) (h : Relation.ReflTransGen (sys.LiveStep K) c₀ c)
    (halive : K.alive c.mem) {begun : Bool} {p : Prog σ μ ε ℓ α}
    (hctrl : c.ctrl = .call i begun p) : ∃ s, K.good s ∧ R s c.mem := by
  induction h generalizing begun p with
  | refl => cases h₀.ctrl.symm.trans hctrl
  | @tail b c hrun hstep ih =>
      by_cases hmask : sys.blocked c.mask
      · have hinv := hd.run h₀ hrun hstep.1
        have hin : System.Within F H b :=
          (System.Within.start h₀.ctrl h₀.conts).run hsys (hrun.lift id (fun _ _ hs => hs.2))
        -- no context of this call is saved
        have hsaved : ∀ n, b.conts n ≠ some (.call i begun p) :=
          fun n hn => hno p (hin.conts n _ hn).2
        cases hstep.2 with
        | arrive => exact ih hstep.1 hctrl
        | deliver hpending hopen => cases hctrl
        | userMask m huser hm => cases huser.symm.trans hctrl
        | invoke j huser => exact absurd hmask (hinv.inUser huser).1
        | call j begun' p' c hcall hnext =>
            cases hnext.did (hin.inCall hcall) with
            | stmt a q s hfact hq =>
                injection hctrl with hi
                subst hi
                obtain ⟨s₀, hgood, hR⟩ := ih hstep.1 hcall
                exact ⟨s₀, hgood, htrans _ _ _ hR (hF.stmt _ _ _ hfact)⟩
            | setmask g q hfact hq =>
                injection hctrl with hi
                subst hi
                exact ih hstep.1 hcall
            | setjmp a n q r s hfact hr hq hr' =>
                injection hctrl with hi
                subst hi
                obtain ⟨s₀, hgood, hR⟩ := ih hstep.1 hcall
                exact ⟨s₀, hgood, htrans _ _ _ hR (hF.setjmp _ _ _ _ hfact)⟩
            | entry m s hfact => cases hctrl
            | resume n m s ctrl hn hfact => exact absurd (hn.trans (congrArg some hctrl)) (hsaved n)
        | callReturn j begun' a hcall => cases hctrl
        | handler p' interrupted m c hhandler hnext =>
            cases hnext.did (hin.inHandler hhandler).1 with
            | stmt a q s hfact hq => cases hctrl
            | setmask g q hfact hq => cases hctrl
            | setjmp a n q r s hfact hr hq hr' => cases hctrl
            | entry m' s hfact => cases hctrl
            | resume n m' s ctrl hn hfact => exact absurd (hn.trans (congrArg some hctrl)) (hsaved n)
        | handlerReturn interrupted m hhandler =>
            -- what was interrupted was not blocked
            exact absurd hmask (hinv.inHandler hhandler).2.2.2.2
      · exact ⟨c.mem, (hd.run h₀ (hrun.tail hstep) halive).delivered hmask, hrefl _⟩

end Machine

end Interruptible
