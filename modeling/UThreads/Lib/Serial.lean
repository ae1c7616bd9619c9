/-
  UThreads.Lib.Serial
  ───────────────────
  **SECTIONS UNDER A MASKABLE SIGNAL ARE SERIALIZABLE.**

  In a disciplined system a section begins where the signal gets blocked: a
  call starts its work, or the handler is entered.  `Trace` lists these
  beginnings along a run of single statements.  Whatever the statements were
  interleaved with, the memory is the one that the calls and signals of that
  list leave behind when each is executed in one piece (`serve`), and a call
  that comes to its end returns what it returns there.
-/
import UThreads.Lib.Drive
import UThreads.Lib.Run

namespace Interruptible

open Runs

variable {σ μ ε ℓ ι α β : Type}

/-! ## §1. The sections of a run. -/

/-- The beginning of a section: a call, or the handler on top of code that was
executed with this mask. -/
inductive Entry (ι μ : Type) where
  | call (i : ι)
  | signal (mask : μ)
  deriving DecidableEq

/-- The section that control is in. -/
def Ctrl.entry : Ctrl σ μ ε ℓ ι α → Option (Entry ι μ)
  | .user          => none
  | .call i _ _    => some (.call i)
  | .handler _ _ m => some (.signal m)

/-- A step begins a section. -/
def System.Enters (sys : System σ μ ε ℓ ι α) (c c' : Config σ μ ε ℓ ι α) : Prop :=
  ¬ sys.blocked c.mask ∧ sys.blocked c'.mask

/-- **A run and the sections it begins**, in order. -/
inductive Trace (sys : System σ μ ε ℓ ι α) (K : Contract σ) (c₀ : Config σ μ ε ℓ ι α) :
    List (Entry ι μ) → Config σ μ ε ℓ ι α → Prop where
  | nil : Trace sys K c₀ [] c₀
  | quiet {es : List (Entry ι μ)} {c c' : Config σ μ ε ℓ ι α} (h : Trace sys K c₀ es c)
      (hs : sys.LiveStep K c c') (hq : ¬ sys.Enters c c') : Trace sys K c₀ es c'
  | enter {es : List (Entry ι μ)} {c c' : Config σ μ ε ℓ ι α} {e : Entry ι μ}
      (h : Trace sys K c₀ es c) (hs : sys.LiveStep K c c') (hq : sys.Enters c c')
      (he : c'.ctrl.entry = some e) : Trace sys K c₀ (es ++ [e]) c'

theorem Trace.steps {sys : System σ μ ε ℓ ι α} {K : Contract σ} {c₀ c : Config σ μ ε ℓ ι α}
    {es : List (Entry ι μ)} (h : Trace sys K c₀ es c) :
    Relation.ReflTransGen (sys.LiveStep K) c₀ c := by
  induction h with
  | nil => exact .refl
  | quiet _ hs _ ih => exact .tail ih hs
  | enter _ hs _ _ ih => exact .tail ih hs

/-- What the sections do when each is executed in one piece. -/
structure System.Serves (sys : System σ μ ε ℓ ι α) (K : Contract σ)
    (serve : σ → Entry ι μ → Option σ) : Prop where
  call : ∀ i s m s', K.good s → settle ((sys.call i).exec s m) = some s' →
    serve s (.call i) = some s'
  signal : ∀ s m s', K.good s → settle (sys.handler.exec s (sys.enter m)) = some s' →
    serve s (.signal m) = some s'

/-! ## §2. The invariant. -/

/-- **Where the serial execution stands**: it has left this memory, or it is in
its last section and will end as what is left of that section. -/
inductive System.Serial (sys : System σ μ ε ℓ ι α) (K : Contract σ)
    (serve : σ → Entry ι μ → Option σ) (s₀ : σ) (es : List (Entry ι μ))
    (c : Config σ μ ε ℓ ι α) : Prop where
  | between (hmask : ¬ sys.blocked c.mask) (h : run serve s₀ es = some c.mem) :
      Serial sys K serve s₀ es c
  | resumed (n : Nat) (hn : c.conts n = some c.ctrl) (hmask : sys.blocked c.mask)
      (h : run serve s₀ es = some c.mem) : Serial sys K serve s₀ es c
  | call (i : ι) (begun : Bool) (p : Prog σ μ ε ℓ α) (hctrl : c.ctrl = .call i begun p)
      (hmask : sys.blocked c.mask) (es' : List (Entry ι μ)) (s : σ) (m : μ)
      (hes : es = es' ++ [.call i]) (h : run serve s₀ es' = some s) (hgood : K.good s)
      (hexec : p.exec c.mem c.mask = (sys.call i).exec s m) : Serial sys K serve s₀ es c
  | handler (p : Prog σ μ ε ℓ Unit) (interrupted : Ctrl σ μ ε ℓ ι α) (m : μ)
      (hctrl : c.ctrl = .handler p interrupted m) (hmask : sys.blocked c.mask)
      (es' : List (Entry ι μ)) (s : σ) (hes : es = es' ++ [.signal m])
      (h : run serve s₀ es' = some s) (hgood : K.good s)
      (hexec : p.exec c.mem c.mask = sys.handler.exec s (sys.enter m)) :
      Serial sys K serve s₀ es c

section Steps

variable {sys : System σ μ ε ℓ ι α} {K : Contract σ} {serve : σ → Entry ι μ → Option σ} {s₀ : σ}
  {es : List (Entry ι μ)} {c c' : Config σ μ ε ℓ ι α}

/-- **A statement of a program that works, blocked**: it brings the execution
closer to the same end, or it is the program's last one, or it is its jump. -/
theorem Prog.Next.serial {p : Prog σ μ ε ℓ β} {back : Bool → Prog σ μ ε ℓ β → Ctrl σ μ ε ℓ ι α}
    {E : Prog σ μ ε ℓ β → Prop} (h : p.Next sys.access back c c') (hp : p.Until K sys.blocked E)
    (hmask : sys.blocked c.mask)
    (hgood : ∀ s, settle (p.exec c.mem c.mask) = some s → K.good s) :
    (∃ a q, c'.ctrl = back a q ∧ sys.blocked c'.mask
        ∧ q.exec c'.mem c'.mask = p.exec c.mem c.mask)
      ∨ (∃ g k, p = .setmask g k ∧ E p ∧ c' = { c with mask := g c.mask, ctrl := back false k })
      ∨ (settle (p.exec c.mem c.mask) = some c'.mem
          ∧ (¬ sys.blocked c'.mask
              ∨ (sys.blocked c'.mask ∧ ∃ n, c'.conts n = some c'.ctrl))) := by
  cases h with
  | stmt l f k b s hf =>
      refine Or.inl ⟨sys.access l, k b, rfl, hmask, ?_⟩
      simp only [Prog.exec, hf]
  | setmask g k => exact Or.inr (Or.inl ⟨g, k, rfl, hp, rfl⟩)
  | setjmp l save k n s hsave =>
      refine Or.inl ⟨sys.access l, k 0, rfl, hmask, ?_⟩
      simp only [Prog.exec, hsave]
  | entry l load m s hl =>
      have hsettle : settle ((Prog.longjmp l load : Prog σ μ ε ℓ β).exec c.mem c.mask)
          = some s := by
        simp only [Prog.exec, hl]
        rfl
      exact Or.inr (Or.inr ⟨hsettle, Or.inl ((hp c.mem _ m s hl).2 (hgood s hsettle))⟩)
  | resume l load n m s ctrl hl hn =>
      have hsettle : settle ((Prog.longjmp l load : Prog σ μ ε ℓ β).exec c.mem c.mask)
          = some s := by
        simp only [Prog.exec, hl]
        rfl
      exact Or.inr (Or.inr ⟨hsettle,
        Or.inr ⟨((hp c.mem _ m s hl).2 (hgood s hsettle)).1, n, hn⟩⟩)

/-- The last section is over. -/
theorem run_entry {e : Entry ι μ} {s s' : σ} (h : run serve s₀ es = some s)
    (hs : serve s e = some s') : run serve s₀ (es ++ [e]) = some s' :=
  run_snoc.mpr ⟨s, h, hs⟩

/-- A section that ends in a jump opens the signal, or lands in a saved context. -/
theorem System.Serial.landed (h : run serve s₀ es = some c.mem)
    (hmask : ¬ sys.blocked c.mask ∨ (sys.blocked c.mask ∧ ∃ n, c.conts n = some c.ctrl)) :
    sys.Serial K serve s₀ es c := by
  rcases hmask with hmask | ⟨hmask, n, hn⟩
  · exact .between hmask h
  · exact .resumed n hn hmask h

/-- A statement of a call where the signal is open: either it stays open, or this
is the first statement of a call, which begins its section. -/
theorem System.Open.begins {i : ι} {begun : Bool} {p : Prog σ μ ε ℓ α} (hd : sys.Disciplined K)
    (hctrl : sys.Open (.call i begun p)) (hmask : ¬ sys.blocked c.mask)
    (h : p.Next sys.access (fun a q => .call i (begun || a) q) c c') :
    c'.mem = c.mem ∧ (¬ sys.blocked c'.mask
      ∨ ∃ a q, c'.ctrl = .call i a q ∧ sys.blocked c'.mask
          ∧ q.exec c'.mem c'.mask = (sys.call i).exec c.mem c.mask) := by
  have hread : p.Reads → c'.mem = c.mem ∧ (¬ sys.blocked c'.mask
      ∨ ∃ a q, c'.ctrl = .call i a q ∧ sys.blocked c'.mask
          ∧ q.exec c'.mem c'.mask = (sys.call i).exec c.mem c.mask) := by
    intro hp
    obtain ⟨a, q, rfl, _⟩ := h.reading hp
    exact ⟨rfl, Or.inl hmask⟩
  cases hctrl with
  | start =>
      rcases hd.call i with ⟨g, k, hik, hblock, _⟩ | hi
      · rw [hik] at h ⊢
        cases h with
        | setmask => exact ⟨rfl, Or.inr ⟨_, k, rfl, hblock c.mask, rfl⟩⟩
      · exact hread hi
  | done => cases h
  | reading _ _ _ _ hp => exact hread hp

/-- One step while the signal is open. -/
theorem System.Serial.open_step (hd : sys.Disciplined K) (hinv : sys.Inv K c)
    (hmask : ¬ sys.blocked c.mask) (h : run serve s₀ es = some c.mem) (hstep : sys.Step c c') :
    (¬ sys.blocked c'.mask ∧ sys.Serial K serve s₀ es c')
      ∨ ∃ e, c'.ctrl.entry = some e ∧ sys.blocked c'.mask
          ∧ sys.Serial K serve s₀ (es ++ [e]) c' := by
  have hgood : K.good c.mem := hinv.delivered hmask
  cases hstep with
  | arrive => exact Or.inl ⟨hmask, .between hmask h⟩
  | deliver hpending hopen =>
      have hblock : sys.blocked (sys.enter c.mask) := hd.enter c.mask
      exact Or.inr ⟨.signal c.mask, rfl, hblock,
        .handler _ _ c.mask rfl hblock es c.mem rfl h hgood rfl⟩
  | userMask m hctrl hm =>
      have hm' : ¬ sys.blocked m := fun hb => hmask (hm.mp hb)
      exact Or.inl ⟨hm', .between hm' h⟩
  | invoke i hctrl => exact Or.inl ⟨hmask, .between hmask h⟩
  | call i begun p c' hctrl hnext =>
      cases hinv.running with
      | unblocked hopen _ _ =>
          obtain ⟨hmem, hcase⟩ := System.Open.begins hd (hctrl ▸ hopen) hmask hnext
          rcases hcase with hm | ⟨a, q, hq, hm, hexec⟩
          · exact Or.inl ⟨hm, .between hm (hmem ▸ h)⟩
          · exact Or.inr ⟨.call i, by rw [hq]; rfl, hm,
              .call i a q hq hm es c.mem c.mask rfl h hgood hexec⟩
      | call _ _ _ _ _ hblock _ => exact absurd hblock hmask
      | handler _ _ _ _ _ hblock _ _ _ => exact absurd hblock hmask
  | callReturn i begun a hctrl => exact Or.inl ⟨hmask, .between hmask h⟩
  | handler p interrupted m c' hctrl hnext => exact absurd (hinv.inHandler hctrl).2.1 hmask
  | handlerReturn interrupted m hctrl => exact absurd (hinv.inHandler hctrl).2.1 hmask

/-- One step of a context that has just been resumed: it opens the signal. -/
theorem System.Serial.resumed_step (hinv : sys.Inv K c) {n : Nat} (hn : c.conts n = some c.ctrl)
    (hmask : sys.blocked c.mask) (h : run serve s₀ es = some c.mem) (hstep : sys.Step c c') :
    sys.Serial K serve s₀ es c' := by
  have hsaved := hinv.conts n c.ctrl hn
  generalize hc : c.ctrl = ctrl at hsaved
  cases hsaved with
  | call i begun p hp =>
      obtain ⟨g, a, rfl, hg⟩ := hp
      rcases hstep.inCall hc with rfl | ⟨_, hopen, _⟩ | hnext | ⟨b, hb, _⟩
      · exact .resumed n hn hmask h
      · exact absurd hmask hopen
      · cases hnext with
        | setmask => exact .between (hg c.mask) h
      · cases hb
  | handler interrupted m hopen hm =>
      rcases hstep.inHandler hc with rfl | ⟨_, hopen', _⟩ | hnext | ⟨_, rfl⟩
      · exact .resumed n hn hmask h
      · exact absurd hmask hopen'
      · cases hnext
      · exact .between hm h

/-- One step of a call in its section. -/
theorem System.Serial.call_step (hserve : sys.Serves K serve) (hinv : sys.Inv K c) {i : ι}
    {begun : Bool} {p : Prog σ μ ε ℓ α} (hctrl : c.ctrl = .call i begun p)
    (hmask : sys.blocked c.mask) {es' : List (Entry ι μ)} {s : σ} {m : μ}
    (h : run serve s₀ es' = some s) (hgood : K.good s)
    (hexec : p.exec c.mem c.mask = (sys.call i).exec s m) (hstep : sys.Step c c') :
    sys.Serial K serve s₀ (es' ++ [.call i]) c' := by
  -- where this execution ends, the serial one ends
  have hends : ∀ s', settle (p.exec c.mem c.mask) = some s' →
      run serve s₀ (es' ++ [.call i]) = some s' := fun s' hs' =>
    run_entry h (hserve.call i s m s' hgood (hexec ▸ hs'))
  cases hinv.running with
  | unblocked _ hopen _ => exact absurd hmask hopen
  | handler _ _ _ hhandler _ _ _ _ _ => cases hctrl.symm.trans hhandler
  | call i' begun' p' hcall hp _ hgood' =>
      injection hctrl.symm.trans hcall with hi hbegun hprog
      subst hi hbegun hprog
      rcases hstep.inCall hctrl with rfl | ⟨_, hopen, _⟩ | hnext | ⟨b, hb, _⟩
      · exact .call i begun p hctrl hmask es' s m rfl h hgood hexec
      · exact absurd hmask hopen
      · rcases hnext.serial hp hmask hgood' with
          ⟨a, q, hq, hm, hq'⟩ | ⟨g, k, rfl, hend, rfl⟩ | ⟨hsettle, hm⟩
        · exact .call i _ q hq hm es' s m rfl h hgood (hq'.trans hexec)
        · -- the last statement
          obtain ⟨g', a, hga, hunblock⟩ := hend
          injection hga with hg' hk
          subst hg' hk
          exact .between (hunblock c.mask) (hends c.mem rfl)
        · exact .landed (hends _ hsettle) hm
      · obtain ⟨g, a, hga, _⟩ := hb ▸ hp
        cases hga

/-- One step of the handler. -/
theorem System.Serial.handler_step (hserve : sys.Serves K serve) (hinv : sys.Inv K c)
    {p : Prog σ μ ε ℓ Unit} {interrupted : Ctrl σ μ ε ℓ ι α} {m : μ}
    (hctrl : c.ctrl = .handler p interrupted m) (hmask : sys.blocked c.mask)
    {es' : List (Entry ι μ)} {s : σ} (h : run serve s₀ es' = some s) (hgood : K.good s)
    (hexec : p.exec c.mem c.mask = sys.handler.exec s (sys.enter m)) (hstep : sys.Step c c') :
    sys.Serial K serve s₀ (es' ++ [.signal m]) c' := by
  have hends : ∀ s', settle (p.exec c.mem c.mask) = some s' →
      run serve s₀ (es' ++ [.signal m]) = some s' := fun s' hs' =>
    run_entry h (hserve.signal s m s' hgood (hexec ▸ hs'))
  obtain ⟨hp, _, hgood', _, hm⟩ := hinv.inHandler hctrl
  rcases hstep.inHandler hctrl with rfl | ⟨_, hopen, _⟩ | hnext | ⟨rfl, rfl⟩
  · exact .handler p interrupted m hctrl hmask es' s rfl h hgood hexec
  · exact absurd hmask hopen
  · rcases hnext.serial hp hmask hgood' with
      ⟨a, q, hq, hm', hq'⟩ | ⟨g, k, rfl, hend, _⟩ | ⟨hsettle, hm'⟩
    · exact .handler q interrupted m hq hm' es' s rfl h hgood (hq'.trans hexec)
    · cases hend
    · exact .landed (hends _ hsettle) hm'
  · exact .between hm (hends c.mem rfl)

/-- **The step lemma**: a step that begins a section adds it to the list. -/
theorem System.Serial.step (hd : sys.Disciplined K) (hserve : sys.Serves K serve)
    (hinv : sys.Inv K c) (h : sys.Serial K serve s₀ es c) (hstep : sys.Step c c') :
    (¬ sys.Enters c c' ∧ sys.Serial K serve s₀ es c')
      ∨ (sys.Enters c c' ∧ ∃ e, c'.ctrl.entry = some e ∧ sys.Serial K serve s₀ (es ++ [e]) c') := by
  -- who is in a section does not begin another one
  have hinside : sys.blocked c.mask → ¬ sys.Enters c c' := fun hmask henters => henters.1 hmask
  cases h with
  | between hmask h =>
      rcases System.Serial.open_step hd hinv hmask h hstep with ⟨hm, hs⟩ | ⟨e, he, hm, hs⟩
      · exact Or.inl ⟨fun henters => hm henters.2, hs⟩
      · exact Or.inr ⟨⟨hmask, hm⟩, e, he, hs⟩
  | resumed n hn hmask h =>
      exact Or.inl ⟨hinside hmask, System.Serial.resumed_step hinv hn hmask h hstep⟩
  | call i begun p hctrl hmask es' s m hes h hgood hexec =>
      subst hes
      exact Or.inl ⟨hinside hmask,
        System.Serial.call_step hserve hinv hctrl hmask h hgood hexec hstep⟩
  | handler p interrupted m hctrl hmask es' s hes h hgood hexec =>
      subst hes
      exact Or.inl ⟨hinside hmask,
        System.Serial.handler_step hserve hinv hctrl hmask h hgood hexec hstep⟩

end Steps

/-! ## §3. Every run. -/

section Runs

variable {sys : System σ μ ε ℓ ι α} {K : Contract σ} {serve : σ → Entry ι μ → Option σ}
  {es : List (Entry ι μ)} {c₀ c : Config σ μ ε ℓ ι α}

theorem System.Start.serial (h₀ : sys.Start K c₀) : sys.Serial K serve c₀.mem [] c₀ :=
  .between h₀.mask rfl

/-- **The run lemma.** -/
theorem Trace.serial (hd : sys.Disciplined K) (hserve : sys.Serves K serve) (h₀ : sys.Start K c₀)
    (h : Trace sys K c₀ es c) : sys.Serial K serve c₀.mem es c := by
  induction h with
  | nil => exact h₀.serial
  | quiet h hs hq ih =>
      rcases ih.step hd hserve (hd.run h₀ h.steps hs.1) hs.2 with ⟨_, hserial⟩ | ⟨henters, _⟩
      · exact hserial
      · exact absurd henters hq
  | enter h hs hq he ih =>
      rcases ih.step hd hserve (hd.run h₀ h.steps hs.1) hs.2 with ⟨hno, _⟩ | ⟨_, e, he', hserial⟩
      · exact absurd hq hno
      · obtain rfl := Option.some.inj (he.symm.trans he')
        exact hserial

/-- Every run has its list of sections. -/
theorem exists_trace (hd : sys.Disciplined K) (hserve : sys.Serves K serve)
    (h₀ : sys.Start K c₀) (h : Relation.ReflTransGen (sys.LiveStep K) c₀ c) :
    ∃ es, Trace sys K c₀ es c := by
  induction h with
  | refl => exact ⟨[], .nil⟩
  | tail hrun hs ih =>
      obtain ⟨es, htrace⟩ := ih
      rcases (htrace.serial hd hserve h₀).step hd hserve (hd.run h₀ hrun hs.1) hs.2 with
        ⟨hno, _⟩ | ⟨henters, e, he, _⟩
      · exact ⟨es, .quiet htrace hs hno⟩
      · exact ⟨es ++ [e], .enter htrace hs henters he⟩

/-- **Serializability.**  Where the signal is open, the memory is the one that
the sections of the run leave behind, one after the other. -/
theorem Trace.serial_run (hd : sys.Disciplined K) (hserve : sys.Serves K serve)
    (h₀ : sys.Start K c₀) (h : Trace sys K c₀ es c) (hmask : ¬ sys.blocked c.mask) :
    run serve c₀.mem es = some c.mem := by
  cases h.serial hd hserve h₀ with
  | between _ hrun => exact hrun
  | resumed _ _ hblock _ => exact absurd hblock hmask
  | call _ _ _ _ hblock => exact absurd hblock hmask
  | handler _ _ _ _ hblock => exact absurd hblock hmask

/-- **And its answers are the serial ones**: a call that is about to open the
signal and return `a` was resumed, or it ends its section as in the serial
execution, with this result and this memory. -/
theorem Trace.answers (hd : sys.Disciplined K) (hserve : sys.Serves K serve) (h₀ : sys.Start K c₀)
    (h : Trace sys K c₀ es c) {i : ι} {begun : Bool} {g : μ → μ} {a : α}
    (hctrl : c.ctrl = .call i begun (.setmask g (.ret a))) (hmask : sys.blocked c.mask) :
    (∃ n, c.conts n = some c.ctrl) ∧ run serve c₀.mem es = some c.mem
      ∨ ∃ es' s m, es = es' ++ [.call i] ∧ run serve c₀.mem es' = some s
          ∧ (sys.call i).exec s m = .ret a c.mem (g c.mask) := by
  cases h.serial hd hserve h₀ with
  | between hopen _ => exact absurd hmask hopen
  | resumed n hn _ hrun => exact Or.inl ⟨⟨n, hn⟩, hrun⟩
  | call j begun' p hcall _ es' s m hes hrun _ hexec =>
      injection hctrl.symm.trans hcall with hi _ hprog
      subst hi hprog
      exact Or.inr ⟨es', s, m, hes, hrun, hexec.symm⟩
  | handler p interrupted m hhandler => cases hctrl.symm.trans hhandler

/-- How the code that runs stops the process when nothing interferes, if it does. -/
def Config.stops (c : Config σ μ ε ℓ ι α) : Option ε :=
  match c.ctrl with
  | .user          => none
  | .call _ _ p    => (p.exec c.mem c.mask).stopped
  | .handler p _ _ => (p.exec c.mem c.mask).stopped

/-- What ends a call or the handler does not stop. -/
theorem System.Saved.not_stops {c : Config σ μ ε ℓ ι α} (h : sys.Saved c.ctrl) :
    c.stops = none := by
  unfold Config.stops
  generalize c.ctrl = ctrl at h ⊢
  cases h with
  | call i begun p hp =>
      obtain ⟨g, a, rfl, _⟩ := hp
      rfl
  | handler interrupted m hopen hm => rfl

/-- **A section that stops stops in the serial execution too**, from every one of
its statements on. -/
theorem Trace.stops (hd : sys.Disciplined K) (hserve : sys.Serves K serve) (h₀ : sys.Start K c₀)
    (h : Trace sys K c₀ es c) (halive : K.alive c.mem) (hmask : sys.blocked c.mask) {e : ε}
    (he : c.stops = some e) :
    (∃ i s m, K.good s ∧ ((sys.call i).exec s m).stopped = some e)
      ∨ ∃ s m, K.good s ∧ (sys.handler.exec s (sys.enter m)).stopped = some e := by
  cases h.serial hd hserve h₀ with
  | between hopen _ => exact absurd hmask hopen
  | resumed n hn _ _ =>
      rw [((hd.run h₀ h.steps halive).conts n c.ctrl hn).not_stops] at he
      cases he
  | call i begun p hctrl _ es' s m _ _ hgood hexec =>
      simp only [Config.stops, hctrl, hexec] at he
      exact Or.inl ⟨i, s, m, hgood, he⟩
  | handler p interrupted m hctrl _ es' s _ _ hgood hexec =>
      simp only [Config.stops, hctrl, hexec] at he
      exact Or.inr ⟨s, m, hgood, he⟩

end Runs

/-! ## §4. Traces that are computed. -/

section Computed

variable {sys : System σ μ ε ℓ ι α} [DecidablePred sys.blocked] {K : Contract σ}

/-- The sections that a list of moves begins. -/
def System.sections (sys : System σ μ ε ℓ ι α) [DecidablePred sys.blocked] :
    List (Move μ ι) → Config σ μ ε ℓ ι α → Option (List (Entry ι μ))
  | [], _      => some []
  | x :: xs, c =>
      (sys.move c x).bind (fun d =>
        if ¬ sys.blocked c.mask ∧ sys.blocked d.mask then
          d.ctrl.entry.bind (fun e => (sys.sections xs d).map (e :: ·))
        else sys.sections xs d)

/-- **What is computed is a trace.** -/
theorem Trace.drive {test : σ → Bool} (htest : ∀ s, test s = true → K.alive s)
    {c₀ c' : Config σ μ ε ℓ ι α} {xs : List (Move μ ι)} :
    ∀ {c : Config σ μ ε ℓ ι α} {es fs : List (Entry ι μ)}, Trace sys K c₀ es c →
      sys.drive test xs c = some c' → sys.sections xs c = some fs →
      Trace sys K c₀ (es ++ fs) c' := by
  induction xs with
  | nil =>
      intro c es fs h hgo hfs
      injection hgo with hgo
      obtain rfl : fs = [] := (Option.some.inj hfs).symm
      rw [List.append_nil]
      exact hgo ▸ h
  | cons x xs ih =>
      intro c es fs h hgo hfs
      simp only [System.drive] at hgo
      split at hgo
      · rename_i halive
        obtain ⟨d, hd, hrest⟩ := Option.bind_eq_some_iff.mp hgo
        have hstep : sys.LiveStep K c d := ⟨htest c.mem halive, System.move_sound hd⟩
        simp only [System.sections, hd, Option.bind_some] at hfs
        split at hfs
        · rename_i henters
          obtain ⟨e, he, hfs⟩ := Option.bind_eq_some_iff.mp hfs
          obtain ⟨rest, hsections, hfs⟩ := Option.map_eq_some_iff.mp hfs
          have htail := ih (.enter h hstep henters he) hrest hsections
          rwa [List.append_assoc, List.singleton_append, hfs] at htail
        · rename_i hquiet
          exact ih (.quiet h hstep hquiet) hrest hfs
      · cases hgo

end Computed

end Interruptible
