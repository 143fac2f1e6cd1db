import Mathlib.Logic.Function.Basic
import Mathlib.Algebra.Order.Ring.Int

/-! # Counters that expire

A key-value store of counters: an increment creates an absent key with the value one, a key may be
given a deadline, and a key whose deadline has passed is removed at some later time.

* `Store.incr`, `Store.expire`, `Store.drop` — the operations; `Store.purge` removes at once every key
  whose deadline has passed;
* `Counts d k n` — the counter of `k` stands at `n`, and `k` will not be removed before `d`; the
  operations keep it, so that increments before `d` count every increment. -/

namespace CounterStore

universe u

/-- A counter and the time from which on it may be removed. -/
structure Cell where
  value : ℕ
  deadline : Option ℕ
  deriving DecidableEq, Repr

/-- The store: a cell for some of the keys. -/
abbrev Store (K : Type u) := K → Option Cell

variable {K : Type u}

/-- The value of a key; an absent one counts as zero. -/
def Store.value (s : Store K) (k : K) : ℕ := ((s k).map Cell.value).getD 0

/-- The key has a deadline that has passed. -/
def Store.Expired (s : Store K) (k : K) (now : ℕ) : Prop :=
  ∃ cell d, s k = some cell ∧ cell.deadline = some d ∧ d ≤ now

/-- The store without the keys whose deadline has passed. -/
def Store.purge (s : Store K) (now : ℕ) : Store K := fun k =>
  (s k).filter fun cell => cell.deadline.all (now < ·)

/-- The counter of `k` stands at `n`, and `k` has no deadline before `d`. -/
structure Counts (d : ℕ) (k : K) (n : ℕ) (s : Store K) : Prop where
  value_eq : s.value k = n
  deadline_le : ∀ cell d', s k = some cell → cell.deadline = some d' → d ≤ d'

section

variable {d : ℕ} {k : K} {n : ℕ} {s : Store K}

/-- An absent key has counted nothing. -/
theorem Counts.of_absent (h : s k = none) : Counts d k 0 s := by
  refine ⟨by rw [Store.value, h]; rfl, fun cell d' hcell => ?_⟩
  rw [h] at hcell
  cases hcell

/-- What is kept where the cell is not touched. -/
theorem Counts.congr (h : Counts d k n s) {s' : Store K} (heq : s' k = s k) : Counts d k n s' := by
  refine ⟨by rw [Store.value, heq]; exact h.value_eq, fun cell d' hcell => ?_⟩
  rw [heq] at hcell
  exact h.deadline_le cell d' hcell

/-- Before `d` the key is not purged. -/
theorem Counts.purge (h : Counts d k n s) {now : ℕ} (hnow : now < d) : Counts d k n (s.purge now) := by
  refine h.congr ?_
  cases hcell : s k with
  | none => rw [Store.purge, hcell, Option.filter_none]
  | some cell =>
    have hkept : cell.deadline.all (now < ·) = true := by
      cases hd : cell.deadline with
      | none => rfl
      | some d' =>
        have hle := h.deadline_le cell d' hcell hd
        simp only [Option.all_some, decide_eq_true_eq]
        omega
    rw [Store.purge, hcell, Option.filter_some, if_pos hkept]

end

variable [DecidableEq K]

/-- Increment a key; its deadline stays. -/
def Store.incr (s : Store K) (k : K) : Store K :=
  Function.update s k (some ⟨s.value k + 1, (s k).bind Cell.deadline⟩)

/-- Give a key a deadline; an absent key stays absent. -/
def Store.expire (s : Store K) (k : K) (d : ℕ) : Store K :=
  Function.update s k ((s k).map fun cell => { cell with deadline := some d })

/-- Remove a key. -/
def Store.drop (s : Store K) (k : K) : Store K := Function.update s k none

section

variable {d : ℕ} {k : K} {n : ℕ} {s : Store K}

/-- An increment is counted. -/
theorem Counts.incr (h : Counts d k n s) : Counts d k (n + 1) (s.incr k) := by
  refine ⟨?_, fun cell d' hcell hd => ?_⟩
  · rw [Store.value, Store.incr, Function.update_self, h.value_eq]
    rfl
  · rw [Store.incr, Function.update_self] at hcell
    obtain rfl := Option.some.inj hcell
    obtain ⟨old, hold, hd⟩ := Option.bind_eq_some_iff.mp hd
    exact h.deadline_le old d' hold hd

/-- An increment of another key is not. -/
theorem Counts.incr_of_ne (h : Counts d k n s) {k' : K} (hne : k ≠ k') : Counts d k n (s.incr k') :=
  h.congr (Function.update_of_ne hne _ _)

/-- A deadline that is late enough may be set. -/
theorem Counts.expire (h : Counts d k n s) (k' : K) (d' : ℕ) (hlate : k' = k → d ≤ d') :
    Counts d k n (s.expire k' d') := by
  by_cases heq : k' = k
  · subst heq
    refine ⟨?_, fun cell d'' hcell hd => ?_⟩
    · rw [Store.value, Store.expire, Function.update_self, Option.map_map, ← h.value_eq, Store.value]
      rfl
    · rw [Store.expire, Function.update_self] at hcell
      obtain ⟨old, _, rfl⟩ := Option.map_eq_some_iff.mp hcell
      obtain rfl := Option.some.inj hd
      exact hlate rfl
  · exact h.congr (Function.update_of_ne (Ne.symm heq) _ _)

/-- Before `d` the key is not removed. -/
theorem Counts.drop (h : Counts d k n s) {k' : K} {now : ℕ} (hexpired : s.Expired k' now)
    (hnow : now < d) : Counts d k n (s.drop k') := by
  by_cases heq : k = k'
  · subst heq
    obtain ⟨cell, d', hcell, hd, hle⟩ := hexpired
    have := h.deadline_le cell d' hcell hd
    omega
  · exact h.congr (Function.update_of_ne heq _ _)

end

end CounterStore
