import Mathlib.Data.Nat.Notation
import Mathlib.Algebra.Order.Ring.Int

/-! # Loops and the number of their passes

A loop is given by one pass over its state: the test of its condition and, where it holds, the body. A
pass ends the loop or goes on with another state.

* `Returns turn s n s'` — started in `s`, the loop is left in `s'` by its `n`-th pass;
* `Returns.unique` — a loop returns in one way at most;
* `Returns.last` — a loop is left by a pass;
* `returns_of_budget` — passes that draw on a budget are at most as many as it pays for, and one more. -/

namespace WhileLoop

universe u

/-- What a pass comes to. -/
inductive Turn (S : Type u) where
  /-- The loop is left. -/
  | ends (s : S)
  /-- The next pass begins. -/
  | goesOn (s : S)

variable {S : Type u}

/-- `Returns turn s n s'`: started in `s`, the loop is left in `s'` by its `n`-th pass. -/
inductive Returns (turn : S → Turn S) : S → ℕ → S → Prop
  /-- The pass that leaves the loop. -/
  | ends {s s' : S} (h : turn s = .ends s') : Returns turn s 1 s'
  /-- A pass before others. -/
  | goesOn {s t s' : S} {n : ℕ} (h : turn s = .goesOn t) (later : Returns turn t n s') :
      Returns turn s (n + 1) s'

variable {turn : S → Turn S} {s s' t : S} {n m : ℕ}

/-- A loop returns in one way at most. -/
theorem Returns.unique (h : Returns turn s n s') (h' : Returns turn s m t) : n = m ∧ s' = t := by
  induction h generalizing m with
  | ends hturn =>
    cases h' with
    | ends hturn' =>
      rw [hturn] at hturn'
      exact ⟨rfl, Turn.ends.inj hturn'⟩
    | goesOn hturn' _ =>
      rw [hturn] at hturn'
      cases hturn'
  | goesOn hturn _ ih =>
    cases h' with
    | ends hturn' =>
      rw [hturn] at hturn'
      cases hturn'
    | goesOn hturn' later =>
      rw [hturn] at hturn'
      obtain rfl := Turn.goesOn.inj hturn'
      obtain ⟨rfl, hend⟩ := ih later
      exact ⟨rfl, hend⟩

/-- A loop is left by a pass. -/
theorem Returns.last (h : Returns turn s n s') : ∃ t, turn t = .ends s' := by
  induction h with
  | ends hturn => exact ⟨_, hturn⟩
  | goesOn _ _ ih => exact ih

/-- **Budget rule.** If every pass that goes on takes `cost` from a budget, the loop returns, and after at
most one pass more than the budget pays for. -/
theorem returns_of_budget {budget : S → ℕ} {cost : ℕ} (hcost : 0 < cost)
    (h : ∀ s t, turn s = .goesOn t → budget t + cost ≤ budget s) (s : S) :
    ∃ n s', Returns turn s n s' ∧ n ≤ budget s / cost + 1 := by
  -- By strong induction on the budget: what is left pays for fewer passes.
  induction hb : budget s using Nat.strong_induction_on generalizing s with
  | _ b ih =>
    subst hb
    cases hturn : turn s with
    | ends s' => exact ⟨1, s', .ends hturn, Nat.le_add_left 1 _⟩
    | goesOn t =>
      have hpaid := h s t hturn
      obtain ⟨n, s', hreturns, hn⟩ := ih (budget t) (by omega) t rfl
      have hshare : budget t / cost + 1 ≤ budget s / cost := by
        rw [← Nat.add_div_right _ hcost]
        exact Nat.div_le_div_right hpaid
      exact ⟨n + 1, s', .goesOn hturn hreturns, by omega⟩

end WhileLoop
