/-
  UThreads.Lib.Heap
  ─────────────────
  **DYNAMIC MEMORY: BLOCKS, AND WHO OWNS THEM.**

  A `Heap` lists the blocks that have been allocated and not freed; that no
  two of them overlap is part of the type.  `Heap.alloc` takes the block that
  the allocator chose, if it is one that an allocator may choose; `Heap.free`
  takes an address, and fails where no live block starts.

  `Owns own heap` says that the live blocks are those listed by `own`, each by
  one owner, once: nothing is lost and nothing is shared.
-/
import Mathlib.Data.List.Nodup
import Mathlib.Data.List.Pairwise
import Mathlib.Tactic.Common

namespace Allocation

/-! ## §1. Heaps. -/

/-- `size` bytes, from the address `base` on. -/
@[ext] structure Block where
  base : Nat
  size : Nat
  deriving DecidableEq, Repr

/-- The two blocks have no byte in common. -/
def Block.Apart (b c : Block) : Prop := b.base + b.size ≤ c.base ∨ c.base + c.size ≤ b.base

instance (b c : Block) : Decidable (b.Apart c) := inferInstanceAs (Decidable (_ ∨ _))

instance : Std.Symm Block.Apart := ⟨fun _ _ h => Or.symm h⟩

/-- The blocks that are allocated: none is at the null address, none is empty,
no two overlap. -/
@[ext] structure Heap where
  live : List Block
  proper : ∀ b ∈ live, 0 < b.base ∧ 0 < b.size
  apart : live.Pairwise Block.Apart

namespace Heap

/-- Nothing is allocated. -/
def empty : Heap := ⟨[], by simp, List.Pairwise.nil⟩

/-- The block may be handed out. -/
def Fits (h : Heap) (b : Block) : Prop := 0 < b.base ∧ 0 < b.size ∧ ∀ c ∈ h.live, b.Apart c

instance (h : Heap) (b : Block) : Decidable (h.Fits b) :=
  inferInstanceAs (Decidable (_ ∧ _ ∧ ∀ c ∈ h.live, b.Apart c))

/-- Hand out a block. -/
def add (h : Heap) (b : Block) (hb : h.Fits b) : Heap where
  live := b :: h.live
  proper := by
    intro c hc
    rcases List.mem_cons.mp hc with rfl | hc
    · exact ⟨hb.1, hb.2.1⟩
    · exact h.proper c hc
  apart := List.pairwise_cons.mpr ⟨hb.2.2, h.apart⟩

/-- Take a block back. -/
def remove (h : Heap) (b : Block) : Heap where
  live := h.live.erase b
  proper := fun c hc => h.proper c (List.mem_of_mem_erase hc)
  apart := h.apart.sublist List.erase_sublist

/-- Allocate the block that the allocator chose. -/
def alloc (h : Heap) (b : Block) : Option Heap := if hb : h.Fits b then some (h.add b hb) else none

/-- Free the block that starts at an address. -/
def free (h : Heap) (base : Nat) : Option Heap :=
  (h.live.find? (fun b => decide (b.base = base))).map h.remove

variable {h h' : Heap} {b c : Block}

theorem alloc_of_fits (hb : h.Fits b) : h.alloc b = some (h.add b hb) := dif_pos hb

/-- A block that does not overlap itself would be empty. -/
theorem not_fits_of_mem (hb : b ∈ h.live) : ¬ h.Fits b := by
  intro hf
  have hsize := (h.proper b hb).2
  have hself := hf.2.2 b hb
  unfold Block.Apart at hself
  omega

theorem nodup (h : Heap) : h.live.Nodup := by
  refine h.apart.imp_of_mem ?_
  intro b c hb _ hapart he
  subst he
  have hsize := (h.proper b hb).2
  unfold Block.Apart at hapart
  omega

/-- **Live blocks start at different addresses.** -/
theorem eq_of_base (hb : b ∈ h.live) (hc : c ∈ h.live) (he : b.base = c.base) : b = c := by
  by_contra hne
  have hapart := h.apart.forall hb hc hne
  have hpb := (h.proper b hb).2
  have hpc := (h.proper c hc).2
  unfold Block.Apart at hapart
  omega

theorem mem_add (hb : h.Fits b) : c ∈ (h.add b hb).live ↔ c = b ∨ c ∈ h.live := List.mem_cons

theorem mem_remove : c ∈ (h.remove b).live ↔ c ≠ b ∧ c ∈ h.live := h.nodup.mem_erase_iff

/-- What has just been handed out is taken back. -/
theorem remove_add (hb : h.Fits b) : (h.add b hb).remove b = h :=
  Heap.ext (List.erase_cons_head b h.live)

/-- A live block can be freed. -/
theorem free_of_mem (hb : b ∈ h.live) : h.free b.base = some (h.remove b) := by
  unfold free
  cases hf : h.live.find? (fun c => decide (c.base = b.base)) with
  | none =>
      have hno := List.find?_eq_none.mp hf b hb
      simp at hno
  | some c =>
      have hbase := List.find?_some hf
      rw [eq_of_base (List.mem_of_find?_eq_some hf) hb (of_decide_eq_true hbase)]
      rfl

end Heap

/-! ## §2. Owners. -/

section Owners

variable {ι : Type} {own own' : ι → List Block} {h : Heap} {b : Block} {i : ι}

/-- The live blocks are those of the owners, each with one owner. -/
structure Owns (own : ι → List Block) (h : Heap) : Prop where
  live : ∀ b, b ∈ h.live ↔ ∃ i, b ∈ own i
  once : ∀ i j b, b ∈ own i → b ∈ own j → i = j
  nodup : ∀ i, (own i).Nodup

theorem Owns.congr (ho : Owns own h) (he : ∀ i, own' i = own i) : Owns own' h := by
  rw [funext he]
  exact ho

/-- A new block is nobody's. -/
theorem Owns.fresh (ho : Owns own h) (hb : h.Fits b) (i : ι) : b ∉ own i := fun hm =>
  Heap.not_fits_of_mem ((ho.live b).mpr ⟨i, hm⟩) hb

/-- **Allocation for an owner.** -/
theorem Owns.alloc (ho : Owns own h) (hb : h.Fits b) (hi : own' i = own i ++ [b])
    (hj : ∀ j, j ≠ i → own' j = own j) : Owns own' (h.add b hb) := by
  have hmem : ∀ j c, c ∈ own' j ↔ c ∈ own j ∨ (j = i ∧ c = b) := by
    intro j c
    by_cases hji : j = i
    · subst hji
      rw [hi, List.mem_append, List.mem_singleton]
      simp
    · rw [hj j hji]
      simp [hji]
  have hfresh := ho.fresh hb
  refine ⟨?_, ?_, ?_⟩
  · intro c
    rw [Heap.mem_add, ho.live c]
    constructor
    · intro hall
      rcases hall with rfl | ⟨j, hm⟩
      · exact ⟨i, (hmem i c).mpr (Or.inr ⟨rfl, rfl⟩)⟩
      · exact ⟨j, (hmem j c).mpr (Or.inl hm)⟩
    · intro hall
      obtain ⟨j, hm⟩ := hall
      rcases (hmem j c).mp hm with hm | ⟨_, rfl⟩
      · exact Or.inr ⟨j, hm⟩
      · exact Or.inl rfl
  · intro j k c hcj hck
    rcases (hmem j c).mp hcj with hcj | ⟨rfl, rfl⟩
    · rcases (hmem k c).mp hck with hck | ⟨rfl, rfl⟩
      · exact ho.once j k c hcj hck
      · exact absurd hcj (hfresh j)
    · rcases (hmem k c).mp hck with hck | ⟨rfl, _⟩
      · exact absurd hck (hfresh k)
      · rfl
  · intro j
    by_cases hji : j = i
    · subst hji
      rw [hi, List.nodup_append_comm]
      exact List.nodup_cons.mpr ⟨hfresh j, ho.nodup j⟩
    · rw [hj j hji]
      exact ho.nodup j

/-- **An owner frees a block.** -/
theorem Owns.free (ho : Owns own h) (hb : b ∈ own i) (hi : own' i = (own i).erase b)
    (hj : ∀ j, j ≠ i → own' j = own j) : Owns own' (h.remove b) := by
  have hmem : ∀ j c, c ∈ own' j ↔ c ≠ b ∧ c ∈ own j := by
    intro j c
    by_cases hji : j = i
    · subst hji
      rw [hi, (ho.nodup j).mem_erase_iff]
    · rw [hj j hji]
      -- another owner does not have the block
      exact ⟨fun hm => ⟨fun he => hji (ho.once j i b (he ▸ hm) hb), hm⟩, And.right⟩
  refine ⟨?_, ?_, ?_⟩
  · intro c
    rw [Heap.mem_remove, ho.live c]
    constructor
    · rintro ⟨hne, j, hm⟩
      exact ⟨j, (hmem j c).mpr ⟨hne, hm⟩⟩
    · rintro ⟨j, hm⟩
      obtain ⟨hne, hm⟩ := (hmem j c).mp hm
      exact ⟨hne, j, hm⟩
  · exact fun j k c hcj hck =>
      ho.once j k c ((hmem j c).mp hcj).2 ((hmem k c).mp hck).2
  · intro j
    by_cases hji : j = i
    · subst hji
      rw [hi]
      exact (ho.nodup j).erase b
    · rw [hj j hji]
      exact ho.nodup j

/-- What an owner has is live. -/
theorem Owns.mem_live (ho : Owns own h) (hb : b ∈ own i) : b ∈ h.live := (ho.live b).mpr ⟨i, hb⟩

/-- Where nobody owns anything, nothing is allocated. -/
theorem Owns.live_eq_nil (ho : Owns own h) (hnil : ∀ i, own i = []) : h.live = [] := by
  refine List.eq_nil_iff_forall_not_mem.mpr (fun b hb => ?_)
  obtain ⟨i, hm⟩ := (ho.live b).mp hb
  rw [hnil i] at hm
  cases hm

theorem owns_empty (hnil : ∀ i, own i = []) : Owns own Heap.empty := by
  have hno : ∀ i b, b ∉ own i := by
    intro i b hb
    rw [hnil i] at hb
    cases hb
  refine ⟨?_, fun i _ b hb => absurd hb (hno i b), ?_⟩
  · exact fun b => ⟨fun hb => (nomatch hb), fun ⟨i, hb⟩ => absurd hb (hno i b)⟩
  · intro i
    rw [hnil i]
    exact List.nodup_nil

end Owners

end Allocation
