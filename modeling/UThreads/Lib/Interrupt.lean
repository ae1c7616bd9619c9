/-
  UThreads.Lib.Interrupt
  ──────────────────────
  **PROGRAMS UNDER A MASKABLE SIGNAL.**

  One CPU runs user code, which may make calls; a signal may arrive between any
  two statements.  It is delivered when it is not blocked: a handler runs on
  top of what it interrupts, with a mask of its own, and its return restores
  the interrupted mask.  A `setjmp` stores the rest of the program under a
  token; a `longjmp` leaves for user code or for what is stored.

  The discipline: a call blocks the signal first, does all its work, and its
  last statement unblocks it.  `discipline` concludes that user code runs
  unblocked, that every section is executed blocked, and that the signal is
  delivered in good memories only.
-/
import UThreads.Lib.Prog
import Mathlib.Logic.Function.Basic
import Mathlib.Logic.Relation
import Mathlib.Data.Set.Insert

namespace Interruptible

/-! ## §1. Configurations. -/

/-- Where control is: in user code, in a call, or in the handler on top of what
it interrupted.  `begun` says whether the call has made an access yet. -/
inductive Ctrl (σ μ ε ℓ ι α : Type) : Type 1 where
  | user
  | call (i : ι) (begun : Bool) (p : Prog σ μ ε ℓ α)
  | handler (p : Prog σ μ ε ℓ Unit) (interrupted : Ctrl σ μ ε ℓ ι α) (mask : μ)

/-- Memory, mask, the pending signal, control, and the saved contexts. -/
structure Config (σ μ ε ℓ ι α : Type) : Type 1 where
  mem : σ
  mask : μ
  pending : Bool
  ctrl : Ctrl σ μ ε ℓ ι α
  conts : Nat → Option (Ctrl σ μ ε ℓ ι α)

/-- The calls, the handler and the signal.  `enter` is the handler's mask. -/
structure System (σ μ ε ℓ ι α : Type) : Type 1 where
  call : ι → Prog σ μ ε ℓ α
  handler : Prog σ μ ε ℓ Unit
  blocked : μ → Prop
  enter : μ → μ
  access : ℓ → Bool

variable {σ μ ε ℓ ι α β : Type}

/-! ## §2. Steps. -/

/-- One statement of a program.  `back` puts the rest of the program where it
came from; its argument says whether the statement was an access. -/
inductive Prog.Next (access : ℓ → Bool)
    (back : Bool → Prog σ μ ε ℓ β → Ctrl σ μ ε ℓ ι α) (c : Config σ μ ε ℓ ι α) :
    Prog σ μ ε ℓ β → Config σ μ ε ℓ ι α → Prop where
  | stmt {γ : Type} (l : ℓ) (f : σ → Except ε (γ × σ)) (k : γ → Prog σ μ ε ℓ β) (b : γ) (s : σ)
      (h : f c.mem = .ok (b, s)) :
      Next access back c (.stmt l f k) { c with mem := s, ctrl := back (access l) (k b) }
  | setmask (g : μ → μ) (k : Prog σ μ ε ℓ β) :
      Next access back c (.setmask g k) { c with mask := g c.mask, ctrl := back false k }
  | setjmp (l : ℓ) (save : μ → σ → Except ε (Nat × σ)) (k : Int → Prog σ μ ε ℓ β) (n : Nat) (s : σ)
      (h : save c.mask c.mem = .ok (n, s)) :
      Next access back c (.setjmp l save k)
        { c with
          mem := s
          ctrl := back (access l) (k 0)
          conts := Function.update c.conts n (some (back (access l) (k 1))) }
  | entry (l : ℓ) (load : σ → Except ε (Target × μ × σ)) (m : μ) (s : σ)
      (h : load c.mem = .ok (.entry, m, s)) :
      Next access back c (.longjmp l load) { c with mem := s, mask := m, ctrl := .user }
  | resume (l : ℓ) (load : σ → Except ε (Target × μ × σ)) (n : Nat) (m : μ) (s : σ)
      (ctrl : Ctrl σ μ ε ℓ ι α) (h : load c.mem = .ok (.saved n, m, s))
      (hn : c.conts n = some ctrl) :
      Next access back c (.longjmp l load) { c with mem := s, mask := m, ctrl := ctrl }

/-- One step of the CPU, or the arrival of the signal. -/
inductive System.Step (sys : System σ μ ε ℓ ι α) (c : Config σ μ ε ℓ ι α) :
    Config σ μ ε ℓ ι α → Prop where
  | arrive : Step sys c { c with pending := true }
  | deliver (hpending : c.pending = true) (hopen : ¬ sys.blocked c.mask) :
      Step sys c
        { c with
          mask := sys.enter c.mask
          pending := false
          ctrl := .handler sys.handler c.ctrl c.mask }
  /-- user code changes the mask, but not for the signal -/
  | userMask (m : μ) (hctrl : c.ctrl = .user) (h : sys.blocked m ↔ sys.blocked c.mask) :
      Step sys c { c with mask := m }
  | invoke (i : ι) (hctrl : c.ctrl = .user) :
      Step sys c { c with ctrl := .call i false (sys.call i) }
  | call (i : ι) (begun : Bool) (p : Prog σ μ ε ℓ α) (c' : Config σ μ ε ℓ ι α)
      (hctrl : c.ctrl = .call i begun p)
      (h : p.Next sys.access (fun a q => .call i (begun || a) q) c c') : Step sys c c'
  | callReturn (i : ι) (begun : Bool) (a : α) (hctrl : c.ctrl = .call i begun (.ret a)) :
      Step sys c { c with ctrl := .user }
  | handler (p : Prog σ μ ε ℓ Unit) (interrupted : Ctrl σ μ ε ℓ ι α) (m : μ)
      (c' : Config σ μ ε ℓ ι α) (hctrl : c.ctrl = .handler p interrupted m)
      (h : p.Next sys.access (fun _ q => .handler q interrupted m) c c') : Step sys c c'
  | handlerReturn (interrupted : Ctrl σ μ ε ℓ ι α) (m : μ)
      (hctrl : c.ctrl = .handler (.ret ()) interrupted m) :
      Step sys c { c with mask := m, ctrl := interrupted }

section Inversion

variable {sys : System σ μ ε ℓ ι α} {c c' : Config σ μ ε ℓ ι α}

/-- The handler is entered on top of what runs. -/
def System.delivered (sys : System σ μ ε ℓ ι α) (c : Config σ μ ε ℓ ι α) : Config σ μ ε ℓ ι α :=
  { c with
    mask := sys.enter c.mask
    pending := false
    ctrl := .handler sys.handler c.ctrl c.mask }

/-- **Everything that can happen while a call runs.** -/
theorem System.Step.inCall (h : sys.Step c c') {i : ι} {begun : Bool} {p : Prog σ μ ε ℓ α}
    (hctrl : c.ctrl = .call i begun p) :
    c' = { c with pending := true }
      ∨ (c.pending = true ∧ ¬ sys.blocked c.mask ∧ c' = sys.delivered c)
      ∨ p.Next sys.access (fun a q => .call i (begun || a) q) c c'
      ∨ ∃ a, p = .ret a ∧ c' = { c with ctrl := .user } := by
  cases h with
  | arrive => exact Or.inl rfl
  | deliver hpending hopen => exact Or.inr (Or.inl ⟨hpending, hopen, rfl⟩)
  | userMask m huser hm => cases hctrl.symm.trans huser
  | invoke j huser => cases hctrl.symm.trans huser
  | call j b q c' hcall hnext =>
      injection hctrl.symm.trans hcall with hi hb hprog
      subst hi hb hprog
      exact Or.inr (Or.inr (Or.inl hnext))
  | callReturn j b a hret =>
      injection hctrl.symm.trans hret with _ _ hprog
      exact Or.inr (Or.inr (Or.inr ⟨a, hprog, rfl⟩))
  | handler q interrupted m c' hhandler hnext => cases hctrl.symm.trans hhandler
  | handlerReturn interrupted m hhandler => cases hctrl.symm.trans hhandler

/-- **Everything that can happen in the handler.** -/
theorem System.Step.inHandler (h : sys.Step c c') {p : Prog σ μ ε ℓ Unit}
    {interrupted : Ctrl σ μ ε ℓ ι α} {m : μ} (hctrl : c.ctrl = .handler p interrupted m) :
    c' = { c with pending := true }
      ∨ (c.pending = true ∧ ¬ sys.blocked c.mask ∧ c' = sys.delivered c)
      ∨ p.Next sys.access (fun _ q => .handler q interrupted m) c c'
      ∨ (p = .ret () ∧ c' = { c with mask := m, ctrl := interrupted }) := by
  cases h with
  | arrive => exact Or.inl rfl
  | deliver hpending hopen => exact Or.inr (Or.inl ⟨hpending, hopen, rfl⟩)
  | userMask m' huser hm => cases hctrl.symm.trans huser
  | invoke j huser => cases hctrl.symm.trans huser
  | call j b q c' hcall hnext => cases hctrl.symm.trans hcall
  | callReturn j b a hret => cases hctrl.symm.trans hret
  | handler q interrupted' m' c' hhandler hnext =>
      injection hctrl.symm.trans hhandler with hprog hint hm
      subst hprog hint hm
      exact Or.inr (Or.inr (Or.inl hnext))
  | handlerReturn interrupted' m' hhandler =>
      injection hctrl.symm.trans hhandler with hprog hint hm
      subst hprog hint hm
      exact Or.inr (Or.inr (Or.inr ⟨rfl, rfl⟩))

end Inversion

/-! ## §3. Accesses. -/

/-- The next statement is an access. -/
def Prog.AccessesNow (access : ℓ → Bool) : Prog σ μ ε ℓ β → Prop
  | .ret _        => False
  | .stmt l _ _   => access l = true
  | .setmask _ _  => False
  | .setjmp l _ _ => access l = true
  | .longjmp l _  => access l = true

/-- Some execution of the program still makes an access. -/
def Prog.MayAccess (access : ℓ → Bool) : Prog σ μ ε ℓ β → Prop
  | .ret _           => False
  | .stmt l f k      => access l = true ∨ ∃ s b s', f s = .ok (b, s') ∧ (k b).MayAccess access
  | .setmask _ k     => k.MayAccess access
  | .setjmp l _ k    => access l = true ∨ (k 0).MayAccess access ∨ (k 1).MayAccess access
  | .longjmp l _     => access l = true

/-- Control is in a section: in the handler, or in a call between its first and
its last access. -/
def Ctrl.InSection (access : ℓ → Bool) (guarded : ι → Prop) : Ctrl σ μ ε ℓ ι α → Prop
  | .user           => False
  | .call i begun p => guarded i ∧ (p.AccessesNow access ∨ (begun = true ∧ p.MayAccess access))
  | .handler _ _ _  => True

/-! ## §4. The discipline. -/

/-- What the programs say about the memory: `good` holds between the sections,
`alive` until the process shuts down, and `saved` are the tokens of the
contexts saved so far. -/
structure Contract (σ : Type) where
  good : σ → Prop
  alive : σ → Prop
  saved : σ → Set Nat

/-- Only known tokens are saved, as far as the process is alive. -/
def Contract.Keeps (K : Contract σ) (s s' : σ) : Prop := K.alive s' → K.saved s' ⊆ K.saved s

/-- A `longjmp` into a good memory lands in user code unblocked, or blocked in a
context that was saved. -/
def Contract.Lands (K : Contract σ) (blocked : μ → Prop)
    (load : σ → Except ε (Target × μ × σ)) : Prop :=
  ∀ s t m s', load s = .ok (t, m, s') → K.Keeps s s' ∧ (K.good s' →
    match t with
    | .entry   => ¬ blocked m
    | .saved n => blocked m ∧ n ∈ K.saved s')

/-- The program does its work without touching the mask until it is in `E`; a
context it saves is resumed in `E`. -/
def Prog.Until (K : Contract σ) (blocked : μ → Prop) (E : Prog σ μ ε ℓ β → Prop) :
    Prog σ μ ε ℓ β → Prop
  | .ret a          => E (.ret a)
  | .stmt _ f k     => ∀ s b s', f s = .ok (b, s') → K.alive s' →
      K.Keeps s s' ∧ (k b).Until K blocked E
  | .setmask g k    => E (.setmask g k)
  | .setjmp _ save k =>
      (∀ m s n s', save m s = .ok (n, s') → K.saved s' ⊆ insert n (K.saved s))
        ∧ (k 0).Until K blocked E ∧ E (k 1)
  | .longjmp _ load => K.Lands blocked load

/-- The end of a call: unblock the signal and return. -/
def Prog.Unblocks (blocked : μ → Prop) (p : Prog σ μ ε ℓ β) : Prop :=
  ∃ g a, p = .setmask g (.ret a) ∧ ∀ m, ¬ blocked (g m)

/-- The beginning of a call: block the signal, then do the work. -/
def Prog.Blocks (K : Contract σ) (blocked : μ → Prop) (p : Prog σ μ ε ℓ β) : Prop :=
  ∃ g k, p = .setmask g k ∧ (∀ m, blocked (g m)) ∧ k.Until K blocked (Prog.Unblocks blocked)

/-- Code that only looks at the memory. -/
def Prog.Reads : Prog σ μ ε ℓ β → Prop
  | .ret _        => True
  | .stmt _ f k   => ∀ s b s', f s = .ok (b, s') → s' = s ∧ (k b).Reads
  | .setmask _ _  => False
  | .setjmp _ _ _ => False
  | .longjmp _ _  => False

/-- **The discipline**: every call blocks the signal for its work or only reads,
the handler runs blocked and returns at once when it is resumed, and all of
them lead from good memories to good memories. -/
structure System.Disciplined (sys : System σ μ ε ℓ ι α) (K : Contract σ) : Prop where
  call : ∀ i, (sys.call i).Blocks K sys.blocked ∨ (sys.call i).Reads
  handler : sys.handler.Until K sys.blocked (· = .ret ())
  enter : ∀ m, sys.blocked (sys.enter m)
  callGood : ∀ i s m s', K.good s → settle ((sys.call i).exec s m) = some s' → K.good s'
  handlerGood : ∀ s m s', K.good s → settle (sys.handler.exec s (sys.enter m)) = some s' → K.good s'

/-! ## §5. Building disciplined programs. -/

section Until

variable {K : Contract σ} {blocked : μ → Prop} {P : ℓ → Prop} {R : σ → σ → Prop}

/-- Straight-line code in front. -/
theorem until_bind {E : Prog σ μ ε ℓ β → Prop} {p : Prog σ μ ε ℓ α} {q : α → Prog σ μ ε ℓ β}
    (hp : p.Plain P R) (hR : ∀ s s', R s s' → K.Keeps s s')
    (hq : ∀ a, (q a).Until K blocked E) : (p >>= q).Until K blocked E := by
  show (p.bind q).Until K blocked E
  induction p with
  | ret a => exact hq a
  | stmt l f k ih =>
      intro s b s' hf _
      exact ⟨hR s s' (hp.2.1 s b s' hf), ih b (hp.2.2 b)⟩
  | setmask g k ih => exact absurd hp id
  | setjmp l save k ih => exact absurd hp id
  | longjmp l load => exact absurd hp id

/-- What follows code that always jumps is never executed. -/
theorem until_bind_jumps {E : Prog σ μ ε ℓ β → Prop} {p : Prog σ μ ε ℓ α}
    {q : α → Prog σ μ ε ℓ β} (hp : p.Until K blocked (fun _ => False)) :
    (p >>= q).Until K blocked E := by
  show (p.bind q).Until K blocked E
  induction p with
  | ret a => exact absurd hp id
  | stmt l f k ih =>
      intro s b s' hf ha
      exact ⟨(hp s b s' hf ha).1, ih b (hp s b s' hf ha).2⟩
  | setmask g k ih => exact absurd hp id
  | setjmp l save k ih => exact absurd hp.2.2 id
  | longjmp l load => exact hp

theorem until_ite {E : Prog σ μ ε ℓ β → Prop} {c : Prop} [Decidable c] {p q : Prog σ μ ε ℓ β}
    (hp : p.Until K blocked E) (hq : q.Until K blocked E) :
    (if c then p else q).Until K blocked E := by
  split
  · exact hp
  · exact hq

end Until

theorem reads_bind {p : Prog σ μ ε ℓ α} {q : α → Prog σ μ ε ℓ β} (hp : p.Reads)
    (hq : ∀ a, (q a).Reads) : (p >>= q).Reads := by
  show (p.bind q).Reads
  induction p with
  | ret a => exact hq a
  | stmt l f k ih =>
      intro s b s' hf
      exact ⟨(hp s b s' hf).1, ih b (hp s b s' hf).2⟩
  | setmask g k ih => exact absurd hp id
  | setjmp l save k ih => exact absurd hp id
  | longjmp l load => exact absurd hp id

/-- Code that only reads and can return does not unblock the signal. -/
theorem Prog.Reads.not_until {K : Contract σ} {blocked : μ → Prop} {p : Prog σ μ ε ℓ β}
    (hp : p.Reads) {s s' : σ} {m m' : μ} {b : β} (halive : K.alive s)
    (hexec : p.exec s m = .ret b s' m') : ¬ p.Until K blocked (Prog.Unblocks blocked) := by
  induction p with
  | ret a =>
      intro hend
      obtain ⟨g, a', hga, _⟩ := hend
      cases hga
  | stmt l f k ih =>
      intro huntil
      cases hf : f s with
      | error e => simp [Prog.exec, hf] at hexec
      | ok r =>
          obtain ⟨hs, hk⟩ := hp s r.1 r.2 hf
          simp only [Prog.exec, hf, hs] at hexec
          exact ih r.1 hk hexec (huntil s r.1 r.2 hf (hs ▸ halive)).2
  | setmask g k ih => exact absurd hp id
  | setjmp l save k ih => exact absurd hp id
  | longjmp l load => exact absurd hp id

/-! ## §6. The invariant. -/

section Invariant

variable {sys : System σ μ ε ℓ ι α} {K : Contract σ}

/-- Where the signal may be delivered: in user code, before a call has begun,
after its last statement, and in a call that only reads. -/
inductive System.Open (sys : System σ μ ε ℓ ι α) : Ctrl σ μ ε ℓ ι α → Prop where
  | user : Open sys .user
  | start (i : ι) : Open sys (.call i false (sys.call i))
  | done (i : ι) (begun : Bool) (a : α) : Open sys (.call i begun (.ret a))
  | reading (i : ι) (begun : Bool) (p : Prog σ μ ε ℓ α) (hi : (sys.call i).Reads)
      (hp : p.Reads) : Open sys (.call i begun p)

/-- What a saved context is: the end of a call, or the end of the handler on top
of something open. -/
inductive System.Saved (sys : System σ μ ε ℓ ι α) : Ctrl σ μ ε ℓ ι α → Prop where
  | call (i : ι) (begun : Bool) (p : Prog σ μ ε ℓ α) (hp : p.Unblocks sys.blocked) :
      Saved sys (.call i begun p)
  | handler (interrupted : Ctrl σ μ ε ℓ ι α) (m : μ) (hopen : sys.Open interrupted)
      (hm : ¬ sys.blocked m) : Saved sys (.handler (.ret ()) interrupted m)

/-- What control, mask and memory are together: open and unblocked in a good
memory, or blocked and on the way to a good memory. -/
inductive System.Running (sys : System σ μ ε ℓ ι α) (K : Contract σ) (c : Config σ μ ε ℓ ι α) :
    Prop where
  | unblocked (hctrl : sys.Open c.ctrl) (hmask : ¬ sys.blocked c.mask) (hgood : K.good c.mem) :
      Running sys K c
  | call (i : ι) (begun : Bool) (p : Prog σ μ ε ℓ α) (hctrl : c.ctrl = .call i begun p)
      (hp : p.Until K sys.blocked (Prog.Unblocks sys.blocked)) (hmask : sys.blocked c.mask)
      (hgood : ∀ s, settle (p.exec c.mem c.mask) = some s → K.good s) : Running sys K c
  | handler (p : Prog σ μ ε ℓ Unit) (interrupted : Ctrl σ μ ε ℓ ι α) (m : μ)
      (hctrl : c.ctrl = .handler p interrupted m) (hp : p.Until K sys.blocked (· = .ret ()))
      (hmask : sys.blocked c.mask)
      (hgood : ∀ s, settle (p.exec c.mem c.mask) = some s → K.good s)
      (hopen : sys.Open interrupted) (hm : ¬ sys.blocked m) : Running sys K c

/-- **The invariant** of a disciplined system. -/
structure System.Inv (sys : System σ μ ε ℓ ι α) (K : Contract σ) (c : Config σ μ ε ℓ ι α) :
    Prop where
  running : sys.Running K c
  conts : ∀ n ctrl, c.conts n = some ctrl → sys.Saved ctrl
  found : ∀ n ∈ K.saved c.mem, c.conts n ≠ none

/-- User code starts, unblocked, in a good memory without saved contexts. -/
structure System.Start (sys : System σ μ ε ℓ ι α) (K : Contract σ) (c : Config σ μ ε ℓ ι α) :
    Prop where
  ctrl : c.ctrl = .user
  mask : ¬ sys.blocked c.mask
  good : K.good c.mem
  conts : ∀ n, c.conts n = none
  saved : K.saved c.mem = ∅

theorem System.Start.inv {c : Config σ μ ε ℓ ι α} (h : sys.Start K c) : sys.Inv K c where
  running := .unblocked (h.ctrl ▸ .user) h.mask h.good
  conts := by
    intro n ctrl hn
    rw [h.conts n] at hn
    cases hn
  found := by
    intro n hn
    rw [h.saved] at hn
    exact absurd hn id

/-! ## §7. One statement. -/

section Statement

variable {c c' : Config σ μ ε ℓ ι α} {p : Prog σ μ ε ℓ β}
  {back : Bool → Prog σ μ ε ℓ β → Ctrl σ μ ε ℓ ι α} {E : Prog σ μ ε ℓ β → Prop}

/-- **A statement of a program that works, blocked**: the program works on
towards the same memory, or it is at its end, or it jumps into a good memory:
to user code, unblocked, or to a saved context, blocked. -/
theorem Prog.Next.working (h : p.Next sys.access back c c') (hp : p.Until K sys.blocked E)
    (hmask : sys.blocked c.mask)
    (hgood : ∀ s, settle (p.exec c.mem c.mask) = some s → K.good s) (hinv : sys.Inv K c)
    (halive : K.alive c'.mem) :
    (∃ a q, c'.ctrl = back a q ∧ q.Until K sys.blocked E ∧ sys.blocked c'.mask
        ∧ ∀ s, settle (q.exec c'.mem c'.mask) = some s → K.good s)
      ∨ (∃ g k, p = .setmask g k ∧ E p
          ∧ c' = { c with mask := g c.mask, ctrl := back false k })
      ∨ (c'.ctrl = .user ∧ ¬ sys.blocked c'.mask ∧ K.good c'.mem)
      ∨ (sys.Saved c'.ctrl ∧ sys.blocked c'.mask ∧ K.good c'.mem) := by
  cases h with
  | stmt l f k b s hf =>
      -- the rest, run from here, ends where the whole would have ended
      refine Or.inl ⟨sys.access l, k b, rfl, (hp c.mem b s hf halive).2, hmask, ?_⟩
      intro s' hs'
      apply hgood s'
      simp only [Prog.exec, hf]
      exact hs'
  | setmask g k => exact Or.inr (Or.inl ⟨g, k, rfl, hp, rfl⟩)
  | setjmp l save k n s hsave =>
      -- execution goes on in the branch for 0, the one `exec` follows
      refine Or.inl ⟨sys.access l, k 0, rfl, hp.2.1, hmask, ?_⟩
      intro s' hs'
      apply hgood s'
      simp only [Prog.exec, hsave]
      exact hs'
  | entry l load m s hl =>
      have hs : K.good s := hgood s (by simp only [Prog.exec, hl]; rfl)
      exact Or.inr (Or.inr (Or.inl ⟨rfl, (hp c.mem _ m s hl).2 hs, hs⟩))
  | resume l load n m s ctrl hl hn =>
      have hs : K.good s := hgood s (by simp only [Prog.exec, hl]; rfl)
      exact Or.inr (Or.inr (Or.inr ⟨hinv.conts n ctrl hn, ((hp c.mem _ m s hl).2 hs).1, hs⟩))

/-- The contexts a statement saves are resumed in `E`. -/
theorem Prog.Next.contexts (h : p.Next sys.access back c c') (hp : p.Until K sys.blocked E)
    (hinv : sys.Inv K c) (hback : ∀ a q, E q → sys.Saved (back a q)) (halive : K.alive c'.mem) :
    (∀ n ctrl, c'.conts n = some ctrl → sys.Saved ctrl)
      ∧ ∀ n ∈ K.saved c'.mem, c'.conts n ≠ none := by
  cases h with
  | stmt l f k b s hf =>
      have hkeeps := (hp c.mem b s hf halive).1 halive
      exact ⟨hinv.conts, fun n hn => hinv.found n (hkeeps hn)⟩
  | setmask g k => exact ⟨hinv.conts, hinv.found⟩
  | setjmp l save k n s hsave =>
      obtain ⟨hsaved, _, hk1⟩ := hp
      constructor
      · intro i ctrl hi
        by_cases hin : i = n
        · -- the new context is the branch for 1, which is the end of the program
          have hnew : some (back (sys.access l) (k 1)) = some ctrl := by
            rw [← hi, hin]
            exact (Function.update_self n _ c.conts).symm
          injection hnew with hnew
          exact hnew ▸ hback _ _ hk1
        · exact hinv.conts i ctrl ((Function.update_of_ne hin _ c.conts).symm.trans hi)
      · intro i hi hnone
        by_cases hin : i = n
        · rw [hin] at hnone
          cases (Function.update_self n _ c.conts).symm.trans hnone
        · refine hinv.found i ?_ ((Function.update_of_ne hin _ c.conts).symm.trans hnone)
          exact (Set.mem_insert_iff.mp (hsaved _ _ _ _ hsave hi)).resolve_left hin
  | entry l load m s hl =>
      have hkeeps := (hp c.mem _ m s hl).1 halive
      exact ⟨hinv.conts, fun n hn => hinv.found n (hkeeps hn)⟩
  | resume l load n m s ctrl hl hn =>
      have hkeeps := (hp c.mem _ m s hl).1 halive
      exact ⟨hinv.conts, fun i hi => hinv.found i (hkeeps hi)⟩

/-- A statement of code that only reads. -/
theorem Prog.Next.reading (h : p.Next sys.access back c c') (hp : p.Reads) :
    ∃ a q, c' = { c with ctrl := back a q } ∧ q.Reads := by
  cases h with
  | stmt l f k b s hf =>
      obtain ⟨rfl, hk⟩ := hp c.mem b s hf
      exact ⟨sys.access l, k b, rfl, hk⟩
  | setmask g k => exact absurd hp id
  | setjmp l save k n s hsave => exact absurd hp id
  | entry l load m s hl => exact absurd hp id
  | resume l load n m s ctrl hl hn => exact absurd hp id

/-- A saved context that is resumed, blocked, in a good memory. -/
theorem System.Saved.running (h : sys.Saved c.ctrl) (hmask : sys.blocked c.mask)
    (hgood : K.good c.mem) : sys.Running K c := by
  generalize hctrl : c.ctrl = ctrl at h
  cases h with
  | call i begun p hp =>
      have hend := hp
      obtain ⟨g, a, rfl, _⟩ := hend
      refine .call i begun _ hctrl hp hmask ?_
      intro s hs
      injection hs with hs
      exact hs ▸ hgood
  | handler interrupted m hopen hm =>
      refine .handler _ interrupted m hctrl rfl hmask ?_ hopen hm
      intro s hs
      injection hs with hs
      exact hs ▸ hgood

end Statement

/-! ## §8. One step and every run. -/

variable {c c' : Config σ μ ε ℓ ι α}

/-- In user code the signal is not blocked, and the memory is good. -/
theorem System.Inv.inUser (hinv : sys.Inv K c) (hctrl : c.ctrl = .user) :
    ¬ sys.blocked c.mask ∧ K.good c.mem := by
  cases hinv.running with
  | unblocked hopen hmask hgood => exact ⟨hmask, hgood⟩
  | call i begun p hcall hp hmask hgood => cases hctrl.symm.trans hcall
  | handler p interrupted m hhandler hp hmask hgood hopen hm => cases hctrl.symm.trans hhandler

/-- In the handler the signal is blocked; it works towards a good memory, on top
of something open. -/
theorem System.Inv.inHandler (hinv : sys.Inv K c) {p : Prog σ μ ε ℓ Unit}
    {interrupted : Ctrl σ μ ε ℓ ι α} {m : μ} (hctrl : c.ctrl = .handler p interrupted m) :
    p.Until K sys.blocked (· = .ret ()) ∧ sys.blocked c.mask
      ∧ (∀ s, settle (p.exec c.mem c.mask) = some s → K.good s)
      ∧ sys.Open interrupted ∧ ¬ sys.blocked m := by
  cases hinv.running with
  | unblocked hopen hmask hgood =>
      rw [hctrl] at hopen
      cases hopen
  | call i begun p' hcall hp hmask hgood => cases hctrl.symm.trans hcall
  | handler p' interrupted' m' hhandler hp hmask hgood hopen hm =>
      injection hctrl.symm.trans hhandler with hprog hint hmask'
      subst hprog hint hmask'
      exact ⟨hp, hmask, hgood, hopen, hm⟩

/-- A statement of a call at a place where the signal may be delivered. -/
theorem System.Open.next {i : ι} {begun : Bool} {p : Prog σ μ ε ℓ α}
    (hd : sys.Disciplined K) (hctrl : sys.Open (.call i begun p)) (hmask : ¬ sys.blocked c.mask)
    (hgood : K.good c.mem)
    (h : p.Next sys.access (fun a q => .call i (begun || a) q) c c') :
    sys.Running K c' ∧ c'.mem = c.mem ∧ c'.conts = c.conts := by
  -- code that only reads goes on reading
  have hread : (sys.call i).Reads → p.Reads →
      sys.Running K c' ∧ c'.mem = c.mem ∧ c'.conts = c.conts := by
    intro hi hp
    obtain ⟨a, q, rfl, hq⟩ := h.reading hp
    exact ⟨.unblocked (.reading i _ q hi hq) hmask hgood, rfl, rfl⟩
  cases hctrl with
  | start =>
      rcases hd.call i with ⟨g, k, hik, hblock, hk⟩ | hi
      · have hsettle : ∀ s, settle (k.exec c.mem (g c.mask)) = some s → K.good s := by
          intro s hs
          refine hd.callGood i c.mem c.mask s hgood ?_
          rw [hik]
          exact hs
        rw [hik] at h
        cases h with
        -- the first statement of a call that works blocks the signal
        | setmask => exact ⟨.call i _ k rfl hk (hblock c.mask) hsettle, rfl, rfl⟩
      · exact hread hi hi
  | done => cases h
  | reading _ _ _ hi hp => exact hread hi hp

/-- A statement of a call: where the signal may be delivered, or blocked and on
the way to the call's end. -/
theorem System.Inv.callStep (hd : sys.Disciplined K) (hinv : sys.Inv K c) {i : ι} {begun : Bool}
    {p : Prog σ μ ε ℓ α} (hctrl : c.ctrl = .call i begun p)
    (hnext : p.Next sys.access (fun a q => .call i (begun || a) q) c c') (halive : K.alive c'.mem) :
    sys.Inv K c' := by
  cases hinv.running with
  | unblocked hopen hmask hgood =>
      obtain ⟨hrun, hmem, hconts⟩ := System.Open.next hd (hctrl ▸ hopen) hmask hgood hnext
      exact ⟨hrun, hconts ▸ hinv.conts, hmem ▸ hconts ▸ hinv.found⟩
  | call i' begun' p' hcall hp hmask hgood =>
      injection hctrl.symm.trans hcall with hi hbegun hprog
      subst hprog
      obtain ⟨hconts, hfound⟩ := hnext.contexts hp hinv
        (fun a q hq => .call i (begun || a) q hq) halive
      refine ⟨?_, hconts, hfound⟩
      rcases hnext.working hp hmask hgood hinv halive with
        ⟨a, q, hq, hu, hm, hg⟩ | ⟨g, k, hgk, hend, rfl⟩ | ⟨hu, hm, hg⟩ | ⟨hs, hm, hg⟩
      · exact .call i _ q hq hu hm hg
      · -- the last statement unblocks the signal
        obtain ⟨g', a, hga, hunblock⟩ := hend
        rw [hgk] at hga
        injection hga with hg' hk
        subst hg' hk hgk
        exact .unblocked (.done i _ a) (hunblock c.mask) (hgood c.mem rfl)
      · exact .unblocked (hu ▸ .user) hm hg
      · exact hs.running hm hg
  | handler p' interrupted m' hhandler _ _ _ _ _ => cases hctrl.symm.trans hhandler

/-- A statement of the handler, always blocked. -/
theorem System.Inv.handlerStep (hinv : sys.Inv K c) {p : Prog σ μ ε ℓ Unit}
    {interrupted : Ctrl σ μ ε ℓ ι α} {m : μ} (hctrl : c.ctrl = .handler p interrupted m)
    (hnext : p.Next sys.access (fun _ q => .handler q interrupted m) c c')
    (halive : K.alive c'.mem) : sys.Inv K c' := by
  obtain ⟨hp, hmask, hgood, hopen, hm⟩ := hinv.inHandler hctrl
  obtain ⟨hconts, hfound⟩ := hnext.contexts hp hinv
    (fun _ q hq => hq ▸ .handler interrupted m hopen hm) halive
  refine ⟨?_, hconts, hfound⟩
  rcases hnext.working hp hmask hgood hinv halive with
    ⟨a, q, hq, hu, hm', hg⟩ | ⟨g, k, hgk, hend, _⟩ | ⟨hu, hm', hg⟩ | ⟨hs, hm', hg⟩
  · exact .handler q interrupted m hq hu hm' hg hopen hm
  · -- it never touches the mask
    cases hgk.symm.trans hend
  · exact .unblocked (hu ▸ .user) hm' hg
  · exact hs.running hm' hg

/-- **The step lemma** of the invariant. -/
theorem System.Inv.step (hd : sys.Disciplined K) (hinv : sys.Inv K c) (h : sys.Step c c')
    (halive : K.alive c'.mem) : sys.Inv K c' := by
  cases h with
  | arrive =>
      -- nothing but the pending flag changes
      refine ⟨?_, hinv.conts, hinv.found⟩
      cases hinv.running with
      | unblocked hctrl hmask hgood => exact .unblocked hctrl hmask hgood
      | call i begun p hctrl hp hmask hgood => exact .call i begun p hctrl hp hmask hgood
      | handler p interrupted m hctrl hp hmask hgood hopen hm =>
          exact .handler p interrupted m hctrl hp hmask hgood hopen hm
  | deliver hpending hopen =>
      -- only where the mask is open, so on top of something open
      refine ⟨?_, hinv.conts, hinv.found⟩
      cases hinv.running with
      | unblocked hctrl hmask hgood =>
          exact .handler _ _ _ rfl hd.handler (hd.enter c.mask)
            (fun s hs => hd.handlerGood c.mem c.mask s hgood hs) hctrl hmask
      | call i begun p hctrl hp hmask hgood => exact absurd hmask hopen
      | handler p interrupted m hctrl hp hmask hgood _ _ => exact absurd hmask hopen
  | userMask m hctrl hm =>
      obtain ⟨hmask, hgood⟩ := hinv.inUser hctrl
      refine ⟨?_, hinv.conts, hinv.found⟩
      exact .unblocked (hctrl ▸ .user) (fun hb => hmask (hm.mp hb)) hgood
  | invoke i hctrl =>
      obtain ⟨hmask, hgood⟩ := hinv.inUser hctrl
      exact ⟨.unblocked (.start i) hmask hgood, hinv.conts, hinv.found⟩
  | call i begun p c' hctrl hnext => exact hinv.callStep hd hctrl hnext halive
  | callReturn i begun a hctrl =>
      refine ⟨?_, hinv.conts, hinv.found⟩
      cases hinv.running with
      | unblocked hopen hmask hgood => exact .unblocked .user hmask hgood
      | call i' begun' p hcall hp hmask hgood =>
          -- a call that works does not return
          injection hctrl.symm.trans hcall with _ _ hprog
          subst hprog
          obtain ⟨g, b, hgb, _⟩ := hp
          cases hgb
      | handler p interrupted m' hhandler _ _ _ _ _ => cases hctrl.symm.trans hhandler
  | handler p interrupted m c' hctrl hnext => exact hinv.handlerStep hctrl hnext halive
  | handlerReturn interrupted m hctrl =>
      -- back to what was interrupted, with the mask it had
      obtain ⟨_, _, hgood, hopen, hm⟩ := hinv.inHandler hctrl
      exact ⟨.unblocked hopen hm (hgood c.mem rfl), hinv.conts, hinv.found⟩

/-- A step of a process that has not begun to shut down. -/
def System.LiveStep (sys : System σ μ ε ℓ ι α) (K : Contract σ) (c c' : Config σ μ ε ℓ ι α) :
    Prop := K.alive c.mem ∧ sys.Step c c'

/-- **The run lemma**: the invariant holds until the process shuts down. -/
theorem System.Disciplined.run (hd : sys.Disciplined K) {c₀ c : Config σ μ ε ℓ ι α}
    (h₀ : sys.Start K c₀) (h : Relation.ReflTransGen (sys.LiveStep K) c₀ c)
    (halive : K.alive c.mem) : sys.Inv K c := by
  induction h with
  | refl => exact h₀.inv
  | tail _ hstep ih => exact (ih hstep.1).step hd hstep.2 halive

/-! ## §9. What the invariant gives. -/

/-- Where the signal can be delivered, the memory is good. -/
theorem System.Inv.delivered (hinv : sys.Inv K c) (hmask : ¬ sys.blocked c.mask) :
    K.good c.mem := by
  cases hinv.running with
  | unblocked hopen _ hgood => exact hgood
  | call i begun p _ _ hblocked _ => exact absurd hblocked hmask
  | handler p interrupted m _ _ hblocked _ _ _ => exact absurd hblocked hmask

/-- **Sections are executed blocked.** -/
theorem System.Inv.section (hd : sys.Disciplined K) (hinv : sys.Inv K c) {guarded : ι → Prop}
    (hguard : ∀ i, guarded i → ¬ (sys.call i).Reads)
    (hsec : c.ctrl.InSection sys.access guarded) : sys.blocked c.mask := by
  cases hinv.running with
  | call i begun p _ _ hblocked _ => exact hblocked
  | handler p interrupted m _ _ hblocked _ _ _ => exact hblocked
  | unblocked hopen hmask hgood =>
      -- outside the sections no access has begun, or none is left
      generalize c.ctrl = ctrl at hopen hsec
      cases hopen with
      | user => exact absurd hsec id
      | start i =>
          obtain ⟨hi, hnow | ⟨hbegun, _⟩⟩ := hsec
          · rcases hd.call i with ⟨g, k, hik, _⟩ | hreads
            · rw [hik] at hnow
              exact absurd hnow id
            · exact absurd hreads (hguard i hi)
          · cases hbegun
      | done i begun a =>
          obtain ⟨_, hnow | ⟨_, hmay⟩⟩ := hsec
          · exact absurd hnow id
          · exact absurd hmay id
      | reading i begun p hreads hp => exact absurd hreads (hguard i hsec.1)

/-- The `longjmp` that is executed next, if one is. -/
def Ctrl.jump : Ctrl σ μ ε ℓ ι α → Option (σ → Except ε (Target × μ × σ))
  | .call _ _ (.longjmp _ load)    => some load
  | .handler (.longjmp _ load) _ _ => some load
  | _                              => none

theorem Prog.Until.found {E : Prog σ μ ε ℓ β → Prop} {l : ℓ}
    {load : σ → Except ε (Target × μ × σ)} {n : Nat} {m : μ} {s : σ} (hinv : sys.Inv K c)
    (hp : (Prog.longjmp l load : Prog σ μ ε ℓ β).Until K sys.blocked E)
    (hgood : ∀ s, settle ((Prog.longjmp l load : Prog σ μ ε ℓ β).exec c.mem c.mask) = some s →
      K.good s)
    (hl : load c.mem = .ok (.saved n, m, s)) (halive : K.alive s) : c.conts n ≠ none := by
  obtain ⟨hkeeps, hland⟩ := hp c.mem _ m s hl
  have hs : K.good s := hgood s (by simp only [Prog.exec, hl]; rfl)
  exact hinv.found n (hkeeps halive (hland hs).2)

/-- No jump is executed where the signal may be delivered. -/
theorem System.Open.no_jump (hd : sys.Disciplined K) {ctrl : Ctrl σ μ ε ℓ ι α}
    (hopen : sys.Open ctrl) {load : σ → Except ε (Target × μ × σ)} : ctrl.jump ≠ some load := by
  intro hjump
  have hreads : ∀ i begun (p : Prog σ μ ε ℓ α), p.Reads →
      (Ctrl.call i begun p : Ctrl σ μ ε ℓ ι α).jump ≠ some load := by
    intro i begun p hp hjump
    cases p with
    | longjmp l load => exact absurd hp id
    | _ => cases hjump
  cases hopen with
  | user => cases hjump
  | start i =>
      rcases hd.call i with ⟨g, k, hik, _⟩ | hp
      · rw [hik] at hjump
        cases hjump
      · exact hreads i _ _ hp hjump
  | done i begun a => cases hjump
  | reading i begun p hi hp => exact hreads i begun p hp hjump

/-- **No context is lost**: what a `longjmp` leaves for is there. -/
theorem System.Inv.jump_found (hd : sys.Disciplined K) (hinv : sys.Inv K c)
    {load : σ → Except ε (Target × μ × σ)} {n : Nat} {m : μ} {s : σ}
    (hjump : c.ctrl.jump = some load) (hl : load c.mem = .ok (.saved n, m, s))
    (halive : K.alive s) : c.conts n ≠ none := by
  cases hinv.running with
  | unblocked hopen hmask hgood => exact absurd hjump (hopen.no_jump hd)
  | call i begun p hctrl hp hmask hgood =>
      rw [hctrl] at hjump
      cases p with
      | longjmp l load =>
          injection hjump with hjump
          subst hjump
          exact hp.found hinv hgood hl halive
      | _ => cases hjump
  | handler p interrupted m' hctrl hp hmask hgood hopen hm =>
      rw [hctrl] at hjump
      cases p with
      | longjmp l load =>
          injection hjump with hjump
          subst hjump
          exact hp.found hinv hgood hl halive
      | _ => cases hjump

end Invariant

/-! ## §10. The pending signal. -/

section Pending

variable {sys : System σ μ ε ℓ ι α} {c d : Config σ μ ε ℓ ι α}

/-- The signal can be delivered now. -/
def System.Deliverable (sys : System σ μ ε ℓ ι α) (c : Config σ μ ε ℓ ι α) : Prop :=
  c.pending = true ∧ ¬ sys.blocked c.mask

/-- A step that does not make the signal pending: what is pending after such
steps was pending before them. -/
def System.QuietStep (sys : System σ μ ε ℓ ι α) (c c' : Config σ μ ε ℓ ι α) : Prop :=
  sys.Step c c' ∧ (c'.pending = true → c.pending = true)

/-- The runs in which the signal does not arrive. -/
abbrev System.QuietRun (sys : System σ μ ε ℓ ι α) :
    Config σ μ ε ℓ ι α → Config σ μ ε ℓ ι α → Prop :=
  Relation.ReflTransGen sys.QuietStep

theorem System.quiet_pending (h : sys.QuietRun c d) (hd : d.pending = true) : c.pending = true := by
  induction h with
  | refl => exact hd
  | tail _ hstep ih => exact ih (hstep.2 hd)

variable {K : Contract σ}

/-- A saved context unblocks the signal with its next step. -/
theorem System.Saved.opens (h : sys.Saved c.ctrl) :
    ∃ d, sys.QuietStep c d ∧ ¬ sys.blocked d.mask ∧ d.mem = c.mem ∧ d.pending = c.pending := by
  generalize hctrl : c.ctrl = ctrl at h
  cases h with
  | call i begun p hp =>
      obtain ⟨g, a, rfl, hg⟩ := hp
      exact ⟨_, ⟨.call i begun _ _ hctrl (.setmask g _), id⟩, hg c.mask, rfl, rfl⟩
  | handler interrupted m hopen hm =>
      exact ⟨_, ⟨.handlerReturn interrupted m hctrl, id⟩, hm, rfl, rfl⟩

/-- A jump of a program that works leads to user code, or to a saved context. -/
theorem Prog.Until.lands {back : Bool → Prog σ μ ε ℓ β → Ctrl σ μ ε ℓ ι α}
    {E : Prog σ μ ε ℓ β → Prop} {l : ℓ} {load : σ → Except ε (Target × μ × σ)} {t : Target} {m : μ}
    {s : σ} (hinv : sys.Inv K c)
    (hp : (Prog.longjmp l load : Prog σ μ ε ℓ β).Until K sys.blocked E)
    (hgood : ∀ s, settle ((Prog.longjmp l load : Prog σ μ ε ℓ β).exec c.mem c.mask) = some s →
      K.good s)
    (hl : load c.mem = .ok (t, m, s)) (halive : K.alive s) :
    ∃ d, (Prog.longjmp l load).Next sys.access back c d ∧ d.mem = s ∧ d.pending = c.pending
      ∧ (¬ sys.blocked d.mask ∨ sys.Saved d.ctrl) := by
  have hs : K.good s := hgood s (by simp only [Prog.exec, hl]; rfl)
  cases t with
  | entry => exact ⟨_, .entry l load m s hl, rfl, rfl, Or.inl ((hp c.mem _ m s hl).2 hs)⟩
  | saved n =>
      obtain ⟨ctrl, hn⟩ := Option.ne_none_iff_exists'.mp (hp.found hinv hgood hl halive)
      exact ⟨_, .resume l load n m s ctrl hl hn, rfl, rfl, Or.inr (hinv.conts n ctrl hn)⟩

/-- **After a jump the signal is unblocked at once**, before anything else is done. -/
theorem System.Inv.jump_opens (hd : sys.Disciplined K) (hinv : sys.Inv K c)
    {load : σ → Except ε (Target × μ × σ)} {t : Target} {m : μ} {s : σ}
    (hjump : c.ctrl.jump = some load) (hl : load c.mem = .ok (t, m, s)) (halive : K.alive s) :
    ∃ d, sys.QuietRun c d ∧ ¬ sys.blocked d.mask ∧ d.mem = s ∧ d.pending = c.pending := by
  -- one step lands, and a saved context needs a second one
  have hland : ∀ e, sys.Step c e → e.mem = s → e.pending = c.pending →
      (¬ sys.blocked e.mask ∨ sys.Saved e.ctrl) →
      ∃ d, sys.QuietRun c d ∧ ¬ sys.blocked d.mask ∧ d.mem = s ∧ d.pending = c.pending := by
    intro e hstep hmem hpending hcase
    have hquiet : sys.QuietStep c e := ⟨hstep, fun he => hpending ▸ he⟩
    rcases hcase with hmask | hsaved
    · exact ⟨e, .single hquiet, hmask, hmem, hpending⟩
    · obtain ⟨d, hed, hmask, hmem', hpending'⟩ := hsaved.opens
      exact ⟨d, .tail (.single hquiet) hed, hmask, hmem'.trans hmem, hpending'.trans hpending⟩
  cases hinv.running with
  | unblocked hopen hmask hgood => exact absurd hjump (hopen.no_jump hd)
  | call i begun p hctrl hp hmask hgood =>
      rw [hctrl] at hjump
      cases p with
      | longjmp l load =>
          injection hjump with hjump
          subst hjump
          obtain ⟨e, hnext, hmem, hpending, hcase⟩ := hp.lands hinv hgood hl halive
          exact hland e (.call i begun _ e hctrl hnext) hmem hpending hcase
      | _ => cases hjump
  | handler p interrupted m' hctrl hp hmask hgood hopen hm =>
      rw [hctrl] at hjump
      cases p with
      | longjmp l load =>
          injection hjump with hjump
          subst hjump
          obtain ⟨e, hnext, hmem, hpending, hcase⟩ := hp.lands hinv hgood hl halive
          exact hland e (.handler _ interrupted m' e hctrl hnext) hmem hpending hcase
      | _ => cases hjump

end Pending

end Interruptible
