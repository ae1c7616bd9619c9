/-
  UThreads.Lib.Table
  ──────────────────
  **FIXED-SIZE TABLES OF OPTIONAL RECORDS, INDEXED BY MACHINE INTEGERS.**

  The shape of a C array of pointers: an index is any integer, an index
  outside the array and a null entry both read as `none`.  Two tables are
  equal when they read the same everywhere (`Table.ext_get`), so later proofs
  reason through `get` and never look at the vector underneath; the operations
  are irreducible to keep it that way.
-/
import Mathlib.Algebra.BigOperators.Fin
import Mathlib.Tactic.Common

/-- A table of `n` entries, each null or a record. -/
abbrev Table (n : Nat) (α : Type) := Vector (Option α) n

namespace Table

variable {n : Nat} {α : Type}

/-! ## §1. Operations. -/

/-- The table with every entry null. -/
def empty (n : Nat) (α : Type) : Table n α := Vector.replicate n none

/-- An index of the table. -/
def InRange (n : Nat) (i : Int) : Prop := 0 ≤ i ∧ i < n

instance (n : Nat) (i : Int) : Decidable (InRange n i) :=
  inferInstanceAs (Decidable (0 ≤ i ∧ i < n))

theorem InRange.toNat_lt {n : Nat} {i : Int} (h : InRange n i) : i.toNat < n := by
  unfold InRange at h
  omega

/-- Read entry `i`. -/
@[irreducible] def get (t : Table n α) (i : Int) : Option α :=
  if h : InRange n i then
    have hlt := h.toNat_lt
    t[i.toNat]
  else none

/-- Overwrite entry `i` (nothing happens outside the table). -/
@[irreducible] def set (t : Table n α) (i : Int) (v : Option α) : Table n α :=
  if h : InRange n i then Vector.set t i.toNat v h.toNat_lt else t

/-- Apply `f` to the records at the indices that satisfy `p`. -/
@[irreducible] def mapOn (p : Int → Bool) (f : α → α) (t : Table n α) : Table n α :=
  Vector.ofFn (fun k : Fin n => if p k then (t.get k).map f else t.get k)

/-- Sum a weight over the records of a table. -/
def sum (w : α → Int) (t : Table n α) : Int :=
  ∑ k : Fin n, ((t.get k).map w).getD 0

/-! ## §2. Reading after writing. -/

@[simp] theorem get_empty (i : Int) : (empty n α).get i = none := by
  unfold get empty
  split <;> simp

theorem get_of_not_inRange (t : Table n α) {i : Int} (h : ¬ InRange n i) : t.get i = none := by
  unfold get
  rw [dif_neg h]

theorem inRange_of_get {t : Table n α} {i : Int} {a : α} (h : t.get i = some a) :
    InRange n i := by
  by_contra hc
  rw [get_of_not_inRange t hc] at h
  simp at h

theorem get_set_self (t : Table n α) {i : Int} (h : InRange n i) (v : Option α) :
    (t.set i v).get i = v := by
  unfold get set
  rw [dif_pos h, dif_pos h]
  simp

theorem get_set_ne (t : Table n α) {i j : Int} (h : j ≠ i) (v : Option α) :
    (t.set i v).get j = t.get j := by
  unfold get set
  by_cases hj : InRange n j
  · rw [dif_pos hj, dif_pos hj]
    by_cases hi : InRange n i
    · have hne : i.toNat ≠ j.toNat := by
        unfold InRange at hi hj
        omega
      simp only [dif_pos hi]
      rw [Vector.getElem_set_ne _ _ hne]
    · simp only [dif_neg hi]
  · rw [dif_neg hj, dif_neg hj]

/-- **Reading one written entry**: the new value at that index, the old
table elsewhere. -/
theorem get_set (t : Table n α) {i : Int} (h : InRange n i) (v : Option α) (j : Int) :
    (t.set i v).get j = if j = i then v else t.get j := by
  by_cases hj : j = i
  · subst hj
    rw [if_pos rfl, get_set_self t h v]
  · rw [if_neg hj, get_set_ne t hj v]

@[simp] theorem get_mapOn (p : Int → Bool) (f : α → α) (t : Table n α) (i : Int) :
    (t.mapOn p f).get i = if p i then (t.get i).map f else t.get i := by
  by_cases h : InRange n i
  · obtain ⟨k, rfl⟩ : ∃ k : Nat, i = k := ⟨i.toNat, (Int.toNat_of_nonneg h.1).symm⟩
    have hk : k < n := h.toNat_lt
    rw [show (t.mapOn p f).get (k : Int) = (t.mapOn p f)[k] from by
        unfold get
        simp only [dif_pos h, Int.toNat_natCast]]
    simp [mapOn]
  · rw [get_of_not_inRange _ h, get_of_not_inRange _ h]
    simp

/-! ## §3. Extensionality. -/

/-- **Two tables that read the same everywhere are equal.** -/
theorem ext_get {t u : Table n α} (h : ∀ i, t.get i = u.get i) : t = u := by
  apply Vector.ext
  intro k hk
  have hr : InRange n (k : Int) := ⟨by omega, by omega⟩
  have := h k
  unfold get at this
  rw [dif_pos hr, dif_pos hr] at this
  simpa using this

theorem set_get_self (t : Table n α) (i : Int) : t.set i (t.get i) = t := by
  by_cases hi : InRange n i
  · apply ext_get
    intro j
    rw [get_set t hi]
    split
    · next h => rw [h]
    · rfl
  · unfold set
    rw [dif_neg hi]

theorem set_set (t : Table n α) (i : Int) (v w : Option α) :
    (t.set i v).set i w = t.set i w := by
  by_cases hi : InRange n i
  · apply ext_get
    intro j
    rw [get_set _ hi, get_set _ hi, get_set _ hi]
    split <;> rfl
  · unfold set
    simp only [dif_neg hi]

/-- Writes to different entries commute. -/
theorem set_comm (t : Table n α) {i j : Int} (h : i ≠ j) (v w : Option α) :
    (t.set i v).set j w = (t.set j w).set i v := by
  apply ext_get
  intro k
  by_cases hki : k = i
  · subst hki
    by_cases hr : InRange n k
    · rw [get_set_ne _ h, get_set_self _ hr, get_set_self _ hr]
    · rw [get_of_not_inRange _ hr, get_of_not_inRange _ hr]
  · rw [get_set_ne _ hki]
    by_cases hkj : k = j
    · subst hkj
      by_cases hr : InRange n k
      · rw [get_set_self _ hr, get_set_self _ hr]
      · rw [get_of_not_inRange _ hr, get_of_not_inRange _ hr]
    · rw [get_set_ne _ hkj, get_set_ne _ hkj, get_set_ne _ hki]

/-- Changing nothing on no index. -/
theorem mapOn_none (f : α → α) (t : Table n α) : t.mapOn (fun _ => false) f = t :=
  ext_get (fun i => by simp)

/-! ## §4. Sums over the records. -/

/-- Overwriting one entry changes a sum by the difference at that entry. -/
theorem sum_set (w : α → Int) (t : Table n α) {i : Int} (h : InRange n i) (v : Option α) :
    (t.set i v).sum w = t.sum w - ((t.get i).map w).getD 0 + (v.map w).getD 0 := by
  have hk : i.toNat < n := h.toNat_lt
  have hi : ((⟨i.toNat, hk⟩ : Fin n) : Int) = i := Int.toNat_of_nonneg h.1
  have hne : ∀ k : Fin n, k ≠ ⟨i.toNat, hk⟩ → (k : Int) ≠ i := by
    intro k hkne he
    apply hkne
    apply Fin.ext
    show (k : Nat) = i.toNat
    omega
  unfold sum
  rw [← Finset.add_sum_erase _ _ (Finset.mem_univ (⟨i.toNat, hk⟩ : Fin n)),
      ← Finset.add_sum_erase (Finset.univ) (fun k : Fin n => ((t.get k).map w).getD 0)
        (Finset.mem_univ (⟨i.toNat, hk⟩ : Fin n))]
  have hrest : ∑ k ∈ Finset.univ.erase (⟨i.toNat, hk⟩ : Fin n),
        (((t.set i v).get k).map w).getD 0
      = ∑ k ∈ Finset.univ.erase (⟨i.toNat, hk⟩ : Fin n), ((t.get k).map w).getD 0 := by
    apply Finset.sum_congr rfl
    intro k hkm
    rw [get_set_ne t (hne k (Finset.ne_of_mem_erase hkm))]
  rw [hrest, hi, get_set_self t h]
  omega

/-- A change that keeps every record's weight keeps the sum. -/
theorem sum_mapOn (w : α → Int) (p : Int → Bool) (f : α → α) (t : Table n α)
    (hf : ∀ a, w (f a) = w a) : (t.mapOn p f).sum w = t.sum w := by
  unfold sum
  apply Finset.sum_congr rfl
  intro k _
  rw [get_mapOn]
  split
  · cases t.get k with
    | none => rfl
    | some a => simp [hf a]
  · rfl

theorem sum_empty (w : α → Int) : (empty n α).sum w = 0 := by
  simp [sum]

end Table
