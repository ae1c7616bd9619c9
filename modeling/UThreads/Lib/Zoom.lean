/-
  UThreads.Lib.Zoom
  ─────────────────
  **A PROGRAM OVER A PART OF THE MEMORY.**

  `Prog.zoom` runs a program over `σ` in a memory `σ × η`, next to code that
  also uses the part `η`.  A stop of the small program is a stop of the large
  one, which may say something about `η` (the function `g`).
-/
import UThreads.Lib.Frame
import UThreads.Lib.Interrupt
import UThreads.Lib.Points

namespace Interruptible

variable {σ η μ ε ε' ℓ α β : Type}

/-! ## §1. Zooming. -/

/-- A statement over `σ`, in `σ × η`. -/
def overFst (g : η → ε → ε') (f : σ → Except ε (β × σ)) (x : σ × η) :
    Except ε' (β × (σ × η)) :=
  match f x.1 with
  | .ok (b, s) => .ok (b, (s, x.2))
  | .error e   => .error (g x.2 e)

/-- A jump over `σ`, in `σ × η`. -/
def jumpFst (g : η → ε → ε') (load : σ → Except ε (Target × μ × σ)) (x : σ × η) :
    Except ε' (Target × μ × (σ × η)) :=
  match load x.1 with
  | .ok (t, m, s) => .ok (t, m, (s, x.2))
  | .error e      => .error (g x.2 e)

/-- **The program over `σ` as a program over `σ × η`.** -/
def Prog.zoom (g : η → ε → ε') : Prog σ μ ε ℓ α → Prog (σ × η) μ ε' ℓ α
  | .ret a           => .ret a
  | .stmt l f k      => .stmt l (overFst g f) (fun b => (k b).zoom g)
  | .setmask f k     => .setmask f (k.zoom g)
  | .setjmp l save k => .setjmp l (fun m => overFst g (save m)) (fun r => (k r).zoom g)
  | .longjmp l load  => .longjmp l (jumpFst g load)

/-- What an execution over `σ` is in `σ × η`. -/
def Outcome.zoom (g : η → ε → ε') (h : η) : Outcome σ μ ε α → Outcome (σ × η) μ ε' α
  | .ret a s m  => .ret a (s, h) m
  | .jump t s m => .jump t (s, h) m
  | .stop e     => .stop (g h e)

variable (g : η → ε → ε') (h : η)

@[simp] theorem zoom_ret (a : α) (s : σ) (m : μ) :
    (Outcome.ret a s m : Outcome σ μ ε α).zoom g h = .ret a (s, h) m := rfl

@[simp] theorem zoom_jump (t : Target) (s : σ) (m : μ) :
    (Outcome.jump t s m : Outcome σ μ ε α).zoom g h = .jump t (s, h) m := rfl

@[simp] theorem zoom_stop (e : ε) :
    (Outcome.stop e : Outcome σ μ ε α).zoom g h = .stop (g h e) := rfl

theorem overFst_ok {f : σ → Except ε (β × σ)} {s : σ} {h : η} {b : β} {x : σ × η}
    (hf : overFst g f (s, h) = .ok (b, x)) : ∃ s', f s = .ok (b, s') ∧ x = (s', h) := by
  unfold overFst at hf
  cases hfs : f s with
  | error e => simp [hfs] at hf
  | ok r =>
      simp only [hfs] at hf
      injection hf with hf
      injection hf with hb hx
      exact ⟨r.2, by rw [← hb], hx.symm⟩

theorem jumpFst_ok {load : σ → Except ε (Target × μ × σ)} {s : σ} {h : η} {t : Target} {m : μ}
    {x : σ × η} (hf : jumpFst g load (s, h) = .ok (t, m, x)) :
    ∃ s', load s = .ok (t, m, s') ∧ x = (s', h) := by
  unfold jumpFst at hf
  cases hfs : load s with
  | error e => simp [hfs] at hf
  | ok r =>
      simp only [hfs] at hf
      injection hf with hf
      injection hf with ht hf
      injection hf with hm hx
      exact ⟨r.2.2, by rw [← ht, ← hm], hx.symm⟩

/-! ## §2. Execution. -/

/-- **The part `η` is left alone.** -/
@[simp] theorem exec_zoom (p : Prog σ μ ε ℓ α) (s : σ) (m : μ) :
    (p.zoom g).exec (s, h) m = (p.exec s m).zoom g h := by
  induction p generalizing s m with
  | ret a => rfl
  | stmt l f k ih =>
      simp only [Prog.zoom, Prog.exec, overFst]
      cases hf : f s with
      | error e => rfl
      | ok r => exact ih r.1 r.2 m
  | setmask f k ih => exact ih s (f m)
  | setjmp l save k ih =>
      simp only [Prog.zoom, Prog.exec, overFst]
      cases hf : save m s with
      | error e => rfl
      | ok r => exact ih 0 r.2 m
  | longjmp l load =>
      simp only [Prog.zoom, Prog.exec, jumpFst]
      cases hf : load s with
      | error e => rfl
      | ok r => rfl

/-- Its statements are those of the small execution. -/
@[simp] theorem visits_zoom (p : Prog σ μ ε ℓ α) (s : σ) (m : μ) :
    (p.zoom g).visits (s, h) m = (p.visits s m).map (fun v => (v.1, (v.2, h))) := by
  induction p generalizing s m with
  | ret a => rfl
  | stmt l f k ih =>
      simp only [Prog.zoom, Prog.visits, overFst]
      cases hf : f s with
      | error e => rfl
      | ok r => simp only [ih r.1 r.2 m, List.map_cons]
  | setmask f k ih => exact ih s (f m)
  | setjmp l save k ih =>
      simp only [Prog.zoom, Prog.visits, overFst]
      cases hf : save m s with
      | error e => rfl
      | ok r => simp only [ih 0 r.2 m, List.map_cons]
  | longjmp l load => rfl

/-- It keeps to every frame that only asks for the part `η` to be left alone. -/
theorem frames_zoom {R : σ × η → σ × η → Prop} {P : ε' → Prop} (hR : ∀ s s' h, R (s, h) (s', h))
    (hP : ∀ h e, P (g h e)) (p : Prog σ μ ε ℓ α) : (p.zoom g).Frames R P := by
  have hover : ∀ {γ : Type} (f : σ → Except ε (γ × σ)) (x : σ × η),
      Framed (R x) P (overFst g f x) := by
    intro γ f x
    unfold overFst
    cases f x.1 with
    | error e => exact hP x.2 e
    | ok r => exact hR x.1 r.2 x.2
  induction p with
  | ret a => trivial
  | stmt l f k ih => exact ⟨hover f, ih⟩
  | setmask f k ih => exact ih
  | setjmp l save k ih => exact ⟨fun m => hover (save m), ih⟩
  | longjmp l load =>
      intro x
      show Framed _ _ (jumpFst g load x)
      unfold jumpFst
      cases load x.1 with
      | error e => exact hP x.2 e
      | ok r => exact hR x.1 r.2.2 x.2

/-! ## §3. Under a signal. -/

section Signal

variable {K : Contract σ} {K' : Contract (σ × η)} {blocked : μ → Prop}

/-- The larger contract asks nothing new of the part `σ`. -/
structure Contract.Extends (K' : Contract (σ × η)) (K : Contract σ) : Prop where
  good : ∀ s h, K'.good (s, h) → K.good s
  alive : ∀ s h, K'.alive (s, h) → K.alive s
  saved : ∀ s h, K'.saved (s, h) = K.saved s

theorem Contract.Extends.keeps (hK : K'.Extends K) {s s' : σ} (h : K.Keeps s s') (t : η) :
    K'.Keeps (s, t) (s', t) := by
  intro halive
  rw [hK.saved, hK.saved]
  exact h (hK.alive _ _ halive)

/-- **Work over `σ` is work in `σ × η`.** -/
theorem until_zoom (hK : K'.Extends K) {E : Prog σ μ ε ℓ α → Prop}
    {E' : Prog (σ × η) μ ε' ℓ α → Prop} (hE : ∀ p, E p → E' (p.zoom g)) {p : Prog σ μ ε ℓ α}
    (hp : p.Until K blocked E) : (p.zoom g).Until K' blocked E' := by
  induction p with
  | ret a => exact hE _ hp
  | stmt l f k ih =>
      rintro ⟨s, t⟩ b x' hf halive
      obtain ⟨s', hs, rfl⟩ := overFst_ok g hf
      obtain ⟨hkeeps, hrest⟩ := hp s b s' hs (hK.alive s' t halive)
      exact ⟨hK.keeps hkeeps t, ih b hrest⟩
  | setmask f k ih => exact hE _ hp
  | setjmp l save k ih =>
      refine ⟨?_, ih 0 hp.2.1, hE _ hp.2.2⟩
      rintro m ⟨s, t⟩ n x' hf
      obtain ⟨s', hs, rfl⟩ := overFst_ok g hf
      rw [hK.saved, hK.saved]
      exact hp.1 m s n s' hs
  | longjmp l load =>
      rintro ⟨s, t⟩ target m x' hf
      obtain ⟨s', hs, rfl⟩ := jumpFst_ok g hf
      obtain ⟨hkeeps, hland⟩ := hp s target m s' hs
      refine ⟨hK.keeps hkeeps t, fun hgood => ?_⟩
      have hlanded := hland (hK.good s' t hgood)
      cases target with
      | entry => exact hlanded
      | saved n => exact ⟨hlanded.1, by rw [hK.saved]; exact hlanded.2⟩

theorem blocks_zoom (hK : K'.Extends K) {p : Prog σ μ ε ℓ α} (hp : p.Blocks K blocked) :
    (p.zoom g).Blocks K' blocked := by
  obtain ⟨f, k, rfl, hblock, hwork⟩ := hp
  refine ⟨f, k.zoom g, rfl, hblock, until_zoom g hK ?_ hwork⟩
  rintro p ⟨f', a, rfl, hopen⟩
  exact ⟨f', a, rfl, hopen⟩

theorem reads_zoom {p : Prog σ μ ε ℓ α} (hp : p.Reads) : (p.zoom g).Reads := by
  induction p with
  | ret a => trivial
  | stmt l f k ih =>
      rintro ⟨s, t⟩ b x' hf
      obtain ⟨s', hs, rfl⟩ := overFst_ok g hf
      obtain ⟨rfl, hrest⟩ := hp s b s' hs
      exact ⟨rfl, ih b hrest⟩
  | setmask f k ih => exact absurd hp id
  | setjmp l save k ih => exact absurd hp id
  | longjmp l load => exact absurd hp id

end Signal

/-- What the facts over `σ` say of a statement, the larger facts say of it in `σ × η`. -/
structure Facts.Zooms (F : Facts σ μ ε ℓ α) (F' : Facts (σ × η) μ ε' ℓ α) : Prop where
  stmt : ∀ s s' rest h, F.stmt s s' rest → F'.stmt (s, h) (s', h) (rest.zoom g)
  setmask : ∀ f, F.setmask f → F'.setmask f
  setjmp : ∀ m s n s' h, F.setjmp m s n s' → F'.setjmp m (s, h) n (s', h)
  resumed : ∀ p, F.resumed p → F'.resumed (p.zoom g)
  longjmp : ∀ s t m s' h, F.longjmp s t m s' → F'.longjmp (s, h) t m (s', h)

/-- **Code that obeys facts over `σ` obeys them in `σ × η`.** -/
theorem obeys_zoom {F : Facts σ μ ε ℓ α} {F' : Facts (σ × η) μ ε' ℓ α} (hF : F.Zooms g F')
    {p : Prog σ μ ε ℓ α} (hp : p.Obeys F) : (p.zoom g).Obeys F' := by
  induction p with
  | ret a => trivial
  | stmt l f k ih =>
      rintro ⟨s, h⟩ b x' hf
      obtain ⟨s', hs, rfl⟩ := overFst_ok g hf
      obtain ⟨hfact, hrest⟩ := hp s b s' hs
      exact ⟨hF.stmt s s' (k b) h hfact, ih b hrest⟩
  | setmask f k ih => exact ⟨hF.setmask f hp.1, ih hp.2⟩
  | setjmp l save k ih =>
      refine ⟨?_, hF.resumed _ hp.2.1, ih 0 hp.2.2.1, ih 1 hp.2.2.2⟩
      rintro m ⟨s, h⟩ n x' hf
      obtain ⟨s', hs, rfl⟩ := overFst_ok g hf
      exact hF.setjmp m s n s' h (hp.1 m s n s' hs)
  | longjmp l load =>
      rintro ⟨s, h⟩ t m x' hf
      obtain ⟨s', hs, rfl⟩ := jumpFst_ok g hf
      exact hF.longjmp s t m s' h (hp s t m s' hs)

/-- Straight-line code is straight-line code. -/
theorem plain_zoom {P : ℓ → Prop} {R : σ → σ → Prop} {R' : σ × η → σ × η → Prop}
    (hR : ∀ s s' h, R s s' → R' (s, h) (s', h)) {p : Prog σ μ ε ℓ α} (hp : p.Plain P R) :
    (p.zoom g).Plain P R' := by
  induction p with
  | ret a => trivial
  | stmt l f k ih =>
      refine ⟨hp.1, ?_, fun b => ih b (hp.2.2 b)⟩
      rintro ⟨s, t⟩ b x' hf
      obtain ⟨s', hs, rfl⟩ := overFst_ok g hf
      exact hR s s' t (hp.2.1 s b s' hs)
  | setmask f k ih => exact absurd hp id
  | setjmp l save k ih => exact absurd hp id
  | longjmp l load => exact absurd hp id

end Interruptible
