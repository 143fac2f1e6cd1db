import Mathlib.Algebra.BigOperators.Group.Finset.Basic
import Mathlib.Algebra.BigOperators.Group.Finset.Piecewise
import Mathlib.Data.Fintype.Card

/-! # Parties and what they add up to

A table with one entry for each party, as a function that is written one entry at a time, and the sums
and counts over it.

* `sum_update_add` — what writing one entry does to a sum over the table;
* `update_insert` — a party that joins a set of parties with the same entry;
* `phaseCount` — how many parties are in a given phase;
* `phaseCount_update` — what one party that changes its phase does to the counts. -/

namespace Parties

universe u v w

variable {ι : Type u} {α : Type v}

/-- **Writing an entry.** The sum changes by what the entry was and what it becomes. -/
theorem sum_update_add [DecidableEq ι] {M : Type w} [AddCommMonoid M] (g : α → M) (f : ι → α)
    {s : Finset ι} {i : ι} (hi : i ∈ s) (a : α) :
    ∑ j ∈ s, g (Function.update f i a j) + g (f i) = ∑ j ∈ s, g (f j) + g a := by
  have hrest : ∑ j ∈ s.erase i, g (Function.update f i a j) = ∑ j ∈ s.erase i, g (f j) := by
    refine Finset.sum_congr rfl ?_
    intro j hj
    rw [Function.update_of_ne (Finset.ne_of_mem_erase hj)]
  rw [← Finset.add_sum_erase s _ hi, ← Finset.add_sum_erase s (fun j => g (f j)) hi, hrest,
    Function.update_self, add_right_comm, add_comm (g a), add_right_comm]

/-- One more party joins those with the entry `a`. -/
theorem update_insert [DecidableEq ι] (s : Finset ι) (i : ι) (a b : α) :
    Function.update (fun j => if j ∈ s then a else b) i a = fun j => if j ∈ insert i s then a else b := by
  funext j
  by_cases hj : j = i
  · rw [hj, Function.update_self, if_pos (Finset.mem_insert_self ..)]
  · rw [Function.update_of_ne hj]
    simp [hj]

section Phases

variable [Fintype ι] [DecidableEq α]

/-- The number of parties in phase `p`. -/
def phaseCount (p : α) (phase : ι → α) : ℕ := (Finset.univ.filter (phase · = p)).card

/-- **One party changes its phase.** It is counted where it goes and no more where it was. -/
theorem phaseCount_update [DecidableEq ι] (p : α) (phase : ι → α) (i : ι) (a : α) :
    phaseCount p (Function.update phase i a) + (if phase i = p then 1 else 0) =
      phaseCount p phase + (if a = p then 1 else 0) := by
  rw [phaseCount, phaseCount, Finset.card_filter, Finset.card_filter]
  exact sum_update_add (fun q => if q = p then 1 else 0) phase (Finset.mem_univ i) a

/-- There are no more parties in a phase than parties. -/
theorem phaseCount_le_card (p : α) (phase : ι → α) : phaseCount p phase ≤ Fintype.card ι := Finset.card_filter_le ..

/-- All parties are in the phase, or none is. -/
theorem phaseCount_const (p q : α) : phaseCount p (fun _ : ι => q) = if q = p then Fintype.card ι else 0 := by
  rw [phaseCount]
  split
  · next h => simp [h]
  · next h => simp [h]

end Phases

end Parties
