/-
  UThreads.Lib.Fifo
  ─────────────────
  **FIRST-IN-FIRST-OUT QUEUES WITH REMOVALS.**

  A queue moves in three ways: new items join at the tail; the head is served
  (the served item may be one that joins in the same move); an item is
  cancelled wherever it stands.  `Moves.position` says how far an item that
  waits advances in one move, `Moves.before` that two waiting items keep
  their order.  With the item in service at the end of the line, two items that
  stay in line are served in turn (`Moves.turn`).
-/
import Mathlib.Data.List.Basic
import Mathlib.Data.List.Nodup
import Mathlib.Tactic.Common

namespace Fifo

variable {α : Type} [DecidableEq α]

/-! ## §1. Moves. -/

/-- What happens to a queue in one step. -/
inductive Move (α : Type) where
  | join
  | serve (x : α)
  | cancel (x : α)
  deriving DecidableEq

/-- The queues before and after a move. -/
inductive Moves : Move α → List α → List α → Prop where
  | join (q added : List α) : Moves .join q (q ++ added)
  | serve (q late : List α) (x : α) (rest added : List α) (h : q ++ late = x :: rest) :
      Moves (.serve x) q (rest ++ added)
  | cancel (q : List α) (x : α) : Moves (.cancel x) q (q.filter (fun y => decide (y ≠ x)))

/-- How many places an item at a position of `q` advances in a move. -/
def Move.advance (q : List α) (x : α) : Move α → Int
  | .join     => 0
  | .serve _  => 1
  | .cancel y => if y ∈ q ∧ q.idxOf y < q.idxOf x then 1 else 0

/-! ## §2. Positions. -/

/-- Taking one item out of a list moves up the items behind it. -/
theorem idxOf_filter_ne {x y : α} (hxy : x ≠ y) :
    ∀ q : List α, q.Nodup → x ∈ q →
      ((q.filter (fun z => decide (z ≠ y))).idxOf x : Int)
        = q.idxOf x - if y ∈ q ∧ q.idxOf y < q.idxOf x then 1 else 0 := by
  intro q
  induction q with
  | nil =>
      intro _ hx
      cases hx
  | cons z q ih =>
      intro hnd hx
      obtain ⟨hz, hnd'⟩ := List.nodup_cons.mp hnd
      by_cases hzx : z = x
      · -- `x` is the head: nobody stands ahead of it
        subst hzx
        simp [hxy]
      · have hxq : x ∈ q := by
          rcases List.mem_cons.mp hx with rfl | hxq
          · exact absurd rfl hzx
          · exact hxq
        have hidx : (z :: q).idxOf x = q.idxOf x + 1 := List.idxOf_cons_ne q hzx
        by_cases hzy : z = y
        · -- the head goes, `x` moves up by one and meets no other copy
          subst hzy
          have hfilter : (z :: q).filter (fun w => decide (w ≠ z)) = q := by
            rw [List.filter_cons_of_neg (by simp)]
            apply List.filter_eq_self.mpr
            intro w hw
            have hne : w ≠ z := fun he => hz (he ▸ hw)
            simp [hne]
          rw [hfilter, hidx, List.idxOf_cons_self, if_pos ⟨List.mem_cons_self, by omega⟩]
          omega
        · have hidy : (z :: q).idxOf y = q.idxOf y + 1 := List.idxOf_cons_ne q hzy
          have hmem : y ∈ z :: q ↔ y ∈ q := by
            rw [List.mem_cons]
            exact ⟨fun h => h.resolve_left (fun he => hzy he.symm), Or.inr⟩
          -- the head is neither of the two: both positions shift by one
          have htail := ih hnd' hxq
          rw [List.filter_cons_of_pos (by simp [hzy]), List.idxOf_cons_ne _ hzx, hidx, hidy]
          simp only [hmem, Nat.add_lt_add_iff_right]
          push_cast
          omega

/-- **An item that waits** is still there after a move, `advance` places
further on. -/
theorem Moves.position {mv : Move α} {q q' : List α} {x : α} (h : Moves mv q q')
    (hnd : q.Nodup) (hx : x ∈ q) (hserve : mv ≠ .serve x) (hcancel : mv ≠ .cancel x) :
    x ∈ q' ∧ (q'.idxOf x : Int) = q.idxOf x - mv.advance q x := by
  cases h with
  | join _ added =>
      refine ⟨List.mem_append_left _ hx, ?_⟩
      rw [List.idxOf_append_of_mem hx]
      simp [Move.advance]
  | serve _ late y rest added hq =>
      -- the item served is another one, and `x` was behind it
      have hyx : y ≠ x := fun he => hserve (he ▸ rfl)
      have hrest : x ∈ rest := by
        have hmem : x ∈ y :: rest := hq ▸ List.mem_append_left late hx
        exact (List.mem_cons.mp hmem).resolve_left (Ne.symm hyx)
      refine ⟨List.mem_append_left _ hrest, ?_⟩
      have hidx : q.idxOf x = rest.idxOf x + 1 := by
        have happend : (q ++ late).idxOf x = q.idxOf x := List.idxOf_append_of_mem hx
        rw [← happend, hq, List.idxOf_cons_ne _ hyx]
      rw [List.idxOf_append_of_mem hrest, hidx]
      simp [Move.advance]
  | cancel _ y =>
      have hxy : x ≠ y := fun he => hcancel (he ▸ rfl)
      refine ⟨List.mem_filter.mpr ⟨hx, by simp [hxy]⟩, ?_⟩
      exact idxOf_filter_ne hxy q hnd hx

/-- **Two items that wait keep their order.** -/
theorem Moves.before {mv : Move α} {q q' : List α} {x y : α} (h : Moves mv q q')
    (hnd : q.Nodup) (hx : x ∈ q) (hy : y ∈ q) (hxy : q.idxOf x < q.idxOf y)
    (hsx : mv ≠ .serve x) (hsy : mv ≠ .serve y) (hcx : mv ≠ .cancel x) (hcy : mv ≠ .cancel y) :
    q'.idxOf x < q'.idxOf y := by
  have hposx := (h.position hnd hx hsx hcx).2
  have hposy := (h.position hnd hy hsy hcy).2
  -- both advance by the same amount, but for a cancelled item between them
  cases mv with
  | join =>
      simp only [Move.advance] at hposx hposy
      omega
  | serve z =>
      simp only [Move.advance] at hposx hposy
      omega
  | cancel z =>
      -- the cancelled item stands at neither place
      have hzx : z ∈ q → q.idxOf z ≠ q.idxOf x := fun hz he =>
        hcx (congrArg Move.cancel ((List.idxOf_inj hz).mp he))
      have hzy : z ∈ q → q.idxOf z ≠ q.idxOf y := fun hz he =>
        hcy (congrArg Move.cancel ((List.idxOf_inj hz).mp he))
      simp only [Move.advance] at hposx hposy
      by_cases hz : z ∈ q
      · have h1 := hzx hz
        have h2 := hzy hz
        simp only [hz, true_and] at hposx hposy
        split at hposx <;> split at hposy <;> omega
      · simp only [hz, false_and, if_false] at hposx hposy
        omega

/-- Who is served while `x` stands ahead of `y` is not `y`. -/
theorem Moves.served_not_behind {q q' : List α} {x y : α} (h : Moves (.serve y) q q')
    (hx : x ∈ q) (hxy : q.idxOf x < q.idxOf y) : False := by
  cases h with
  | serve _ late _ rest added hq =>
      cases q with
      | nil => cases hx
      | cons z q =>
          rw [List.cons_append] at hq
          injection hq with hz _
          rw [hz, List.idxOf_cons_self] at hxy
          omega

/-! ## §3. The line, with who is in service. -/

omit [DecidableEq α] in
/-- Two items in a line whose last one is `r`: both wait, or the second is `r`. -/
theorem pair_sublist_snoc {q : List α} {a b r : α} (h : [a, b].Sublist (q ++ [r])) :
    [a, b].Sublist q ∨ (a ∈ q ∧ b = r) := by
  obtain ⟨l₁, l₂, hl, h₁, h₂⟩ := List.sublist_append_iff.mp h
  match l₁, hl with
  | [], hl =>
      -- one item cannot be two
      rw [List.nil_append] at hl
      subst hl
      have hlen := h₂.length_le
      simp at hlen
  | [x], hl =>
      injection hl with hx hl
      subst hx hl
      exact Or.inr ⟨List.singleton_sublist.mp h₁,
        List.mem_singleton.mp (List.singleton_sublist.mp h₂)⟩
  | [x, y], hl =>
      injection hl with hx hl
      injection hl with hy _
      subst hx hy
      exact Or.inl h₁
  | _ :: _ :: _ :: _, hl => simp at hl

omit [DecidableEq α] in
/-- Who stands in the first part of a line is ahead of who stands in the second. -/
theorem pair_sublist_append {l m : List α} {a b : α} (ha : a ∈ l) (hb : b ∈ m) :
    [a, b].Sublist (l ++ m) :=
  (List.singleton_sublist.mpr ha).append (List.singleton_sublist.mpr hb)

omit [DecidableEq α] in
/-- Nobody is ahead of the head of a line without repetition. -/
theorem not_ahead_of_head {l : List α} {a b : α} (hnd : (b :: l).Nodup) (hab : a ≠ b) :
    ¬ [a, b].Sublist (b :: l) := by
  intro h
  cases h with
  | cons _ h => exact (List.nodup_cons.mp hnd).1 (h.subset (by simp))
  | cons_cons _ h => exact hab rfl

omit [DecidableEq α] in
/-- In a line without repetition, who stands ahead does not stand behind. -/
theorem not_behind_of_ahead {a b : α} :
    ∀ {l : List α}, l.Nodup → a ≠ b → [a, b].Sublist l → ¬ [b, a].Sublist l := by
  intro l
  induction l with
  | nil => exact fun _ _ h => nomatch h
  | cons x l ih =>
      intro hnd hab hahead hbehind
      cases hahead with
      | cons _ hahead =>
          cases hbehind with
          | cons _ hbehind => exact ih (List.nodup_cons.mp hnd).2 hab hahead hbehind
          | cons_cons _ _ => exact (List.nodup_cons.mp hnd).1 (hahead.subset (by simp))
      | cons_cons _ _ => exact not_ahead_of_head hnd hab.symm hbehind

/-- Who is in service after a move. -/
def Move.server (r : α) : Move α → α
  | .serve x => x
  | _        => r

/-- **Two items that stay in line**, `a` ahead of `b`: `b` is not served before
`a`, and when `a` is served it goes behind `b`. -/
theorem Moves.line {mv : Move α} {q q' : List α} {r a b : α} (h : Moves mv q q') (hnd : q.Nodup)
    (hr : r ∉ q) (hab : a ≠ b) (hahead : [a, b].Sublist (q ++ [r]))
    (ha : a ∈ q' ++ [mv.server r]) (hb : b ∈ q' ++ [mv.server r]) :
    mv ≠ .serve b
      ∧ if mv = .serve a then [b, a].Sublist (q' ++ [mv.server r])
        else [a, b].Sublist (q' ++ [mv.server r]) := by
  cases h with
  | join _ added =>
      refine ⟨nofun, ?_⟩
      rw [if_neg nofun]
      rcases pair_sublist_snoc hahead with hq | ⟨haq, rfl⟩
      · exact (hq.trans (List.sublist_append_left _ _)).trans (List.sublist_append_left _ _)
      · exact pair_sublist_append (List.mem_append_left _ haq) (List.mem_singleton_self _)
  | cancel _ y =>
      refine ⟨nofun, ?_⟩
      rw [if_neg nofun]
      rcases pair_sublist_snoc hahead with hq | ⟨haq, rfl⟩
      · -- both waited, and neither is the one in service, so neither is cancelled
        have hkeep : ∀ z ∈ [a, b], z ∈ q.filter (fun w => decide (w ≠ y)) ++ [r] →
            decide (z ≠ y) = true := by
          intro z hz hm
          rcases List.mem_append.mp hm with hm | hm
          · exact (List.mem_filter.mp hm).2
          · exact absurd (List.mem_singleton.mp hm ▸ hq.subset hz) hr
        have hfilter : [a, b].filter (fun w => decide (w ≠ y)) = [a, b] := by
          refine List.filter_eq_self.mpr ?_
          intro z hz
          refine hkeep z hz ?_
          rcases List.mem_cons.mp hz with rfl | hz
          · exact ha
          · exact List.mem_singleton.mp hz ▸ hb
        have hsub := hq.filter (fun w => decide (w ≠ y))
        rw [hfilter] at hsub
        exact hsub.trans (List.sublist_append_left _ _)
      · rcases List.mem_append.mp ha with ha | ha
        · exact pair_sublist_append ha (List.mem_singleton_self _)
        · exact absurd (List.mem_singleton.mp ha) hab
  | serve _ late x rest added hq =>
      show _ ∧ if Move.serve x = Move.serve a then [b, a].Sublist (rest ++ added ++ [x])
        else [a, b].Sublist (rest ++ added ++ [x])
      have hb' : b ∈ rest ++ added ++ [x] := hb
      -- two items stand in the line, so the queue is not empty, and its head is served
      obtain ⟨q₁, rfl⟩ : ∃ q₁, q = x :: q₁ := by
        cases q with
        | nil =>
            have hlen := hahead.length_le
            simp at hlen
        | cons z q₁ =>
            injection hq with hz _
            exact ⟨q₁, by rw [hz]⟩
      have hrest : q₁ ++ late = rest := (List.cons.inj hq).2
      have hline : (x :: (q₁ ++ [r])).Nodup := by
        show ((x :: q₁) ++ [r]).Nodup
        rw [List.nodup_append_comm]
        exact List.nodup_cons.mpr ⟨hr, hnd⟩
      have hxb : x ≠ b := by
        rintro rfl
        exact not_ahead_of_head hline hab hahead
      refine ⟨fun he => hxb (Move.serve.inj he), ?_⟩
      by_cases hxa : x = a
      · -- `a` is served: `b` waits, ahead of it now
        subst hxa
        rw [if_pos rfl]
        rcases List.mem_append.mp hb' with hb' | hb'
        · exact pair_sublist_append hb' (List.mem_singleton_self _)
        · exact absurd (List.mem_singleton.mp hb') hab.symm
      · rw [if_neg (fun he => hxa (Move.serve.inj he)), ← hrest]
        have hahead' : [a, b].Sublist (q₁ ++ [r]) := by
          cases hahead with
          | cons _ h => exact h
          | cons_cons _ h => exact absurd rfl hxa
        rcases pair_sublist_snoc hahead' with hq₁ | ⟨haq, rfl⟩
        · rw [List.append_assoc, List.append_assoc]
          exact hq₁.trans (List.sublist_append_left _ _)
        · -- `b` was in service: it goes behind the queue, or stays out of line
          have hbq : b ∉ q₁ := fun hm => hr (List.mem_cons_of_mem _ hm)
          rw [← hrest, List.append_assoc, List.append_assoc] at hb'
          have hblate : b ∈ late ++ (added ++ [x]) :=
            (List.mem_append.mp hb').resolve_left hbq
          rw [List.append_assoc, List.append_assoc]
          exact pair_sublist_append haq hblate

/-- **Two items that stay in line are served in turn**: with `n` counting the
services, the one ahead gains one on the other when it goes behind it, and
nothing otherwise. -/
theorem Moves.turn {mv : Move α} {q q' : List α} {r a b : α} {n n' : α → Int} (h : Moves mv q q')
    (hnd : q.Nodup) (hr : r ∉ q) (hab : a ≠ b) (hahead : [a, b].Sublist (q ++ [r]))
    (ha : a ∈ q' ++ [mv.server r]) (hb : b ∈ q' ++ [mv.server r])
    (hna : n' a = n a + if mv = .serve a then 1 else 0)
    (hnb : n' b = n b + if mv = .serve b then 1 else 0) :
    ([a, b].Sublist (q' ++ [mv.server r]) ∧ n' a - n' b = n a - n b)
      ∨ ([b, a].Sublist (q' ++ [mv.server r]) ∧ n' a - n' b = n a - n b + 1) := by
  obtain ⟨hserve, hline⟩ := h.line hnd hr hab hahead ha hb
  rw [if_neg hserve] at hnb
  by_cases hmv : mv = .serve a
  · rw [if_pos hmv] at hna hline
    exact Or.inr ⟨hline, by omega⟩
  · rw [if_neg hmv] at hna hline
    exact Or.inl ⟨hline, by omega⟩

omit [DecidableEq α] in
/-- Of two items in a list one stands ahead. -/
theorem ahead_or_behind {a b : α} (hab : a ≠ b) :
    ∀ l : List α, a ∈ l → b ∈ l → [a, b].Sublist l ∨ [b, a].Sublist l := by
  intro l
  induction l with
  | nil => exact fun ha => nomatch ha
  | cons x l ih =>
      intro ha hb
      rcases List.mem_cons.mp ha with rfl | ha'
      · have hbl := (List.mem_cons.mp hb).resolve_left (Ne.symm hab)
        exact Or.inl ((List.singleton_sublist.mpr hbl).cons_cons a)
      · rcases List.mem_cons.mp hb with rfl | hb'
        · exact Or.inr ((List.singleton_sublist.mpr ha').cons_cons b)
        · exact (ih ha' hb').imp (fun h => h.cons x) (fun h => h.cons x)

end Fifo
