import Mathlib.Data.List.Basic
import Mathlib.Data.List.TakeDrop

/-! # Compacting an array in place

A loop reads the first `n` slots of an array in order and copies the elements worth keeping to a write
index that never overtakes the read index. What stands behind the write index in the end is whatever
stood there before.

* `compact` — the loop;
* `compact_eq` — the kept elements in order, and the old contents behind them;
* `split_of_pairwise` — where nothing is dropped in front of an element of some kind, the array is a
  part that is kept as it is and a part without elements of that kind. -/

namespace Compact

universe u

variable {α : Type u}

/-- One turn: the element at the read index `r` goes to the write index, if it is kept. -/
def compactTurn (p : α → Bool) (acc : List α × ℕ) (r : ℕ) : List α × ℕ :=
  match acc.1[r]? with
  | none => acc
  | some a => if p a then (if acc.2 = r then acc.1 else acc.1.set acc.2 a, acc.2 + 1) else acc

/-- The loop over the first `n` slots: the array and the final write index. -/
def compact (p : α → Bool) (n : ℕ) (l : List α) : List α × ℕ :=
  (List.range n).foldl (compactTurn p) (l, 0)

section

variable {p : α → Bool} {l : List α}

/-- **Compaction.** The kept elements in front, in order, and the old contents behind them. -/
theorem compact_eq {n : ℕ} (h : n ≤ l.length) :
    compact p n l = ((l.take n).filter p ++ l.drop ((l.take n).filter p).length, ((l.take n).filter p).length) := by
  induction n with
  | zero => simp [compact]
  | succ n ih =>
    have hlt : n < l.length := by omega
    have htake : l.take (n + 1) = l.take n ++ [l[n]] := by
      rw [List.take_add_one, List.getElem?_eq_getElem hlt]
      rfl
    have hle : ((l.take n).filter p).length ≤ n := by
      have hfilter := List.length_filter_le p (l.take n)
      rw [List.length_take] at hfilter
      omega
    rw [compact, List.range_succ, List.foldl_append, ← compact, ih (by omega)]
    simp only [List.foldl_cons, List.foldl_nil, compactTurn, htake, List.filter_append]
    generalize hkept : (l.take n).filter p = kept at hle
    -- The slot that is read has not been written yet.
    have hread : (kept ++ l.drop kept.length)[n]? = some l[n] := by
      rw [List.getElem?_append_right hle, List.getElem?_drop, ← List.getElem?_eq_getElem hlt]
      congr 1
      omega
    rw [hread]
    dsimp only
    cases hp : p l[n] with
    | false => simp [hp]
    | true =>
      have hwrite : kept.length < l.length := by omega
      have hdrop : l.drop kept.length = l[kept.length] :: l.drop (kept.length + 1) := List.drop_eq_getElem_cons hwrite
      rcases Nat.lt_or_eq_of_le hle with hlt' | heq
      · rw [if_pos rfl, if_neg (by omega), List.set_append_right _ _ (Nat.le_refl _),
          Nat.sub_self, hdrop, List.set_cons_zero]
        simp [hp]
      · subst heq
        rw [if_pos rfl, if_pos rfl, hdrop]
        simp [hp]

/-- Where only elements without `q` stand behind an element that is dropped, and no dropped element has
`q`, the list is a part that is kept whole and a part without `q`. -/
theorem split_of_pairwise {q : α → Bool} (hpair : l.Pairwise fun a b => p a = false → q b = false)
    (hdrop : ∀ a ∈ l, p a = false → q a = false) :
    ∃ front back, l = front ++ back ∧ (∀ a ∈ front, p a = true) ∧ ∀ a ∈ back, q a = false := by
  induction l with
  | nil => exact ⟨[], [], rfl, fun _ h => absurd h List.not_mem_nil, fun _ h => absurd h List.not_mem_nil⟩
  | cons a l ih =>
    obtain ⟨hhead, htail⟩ := List.pairwise_cons.mp hpair
    cases hp : p a with
    | false =>
      refine ⟨[], a :: l, rfl, fun _ h => absurd h List.not_mem_nil, fun b hb => ?_⟩
      rcases List.mem_cons.mp hb with rfl | hb
      · exact hdrop b List.mem_cons_self hp
      · exact hhead b hb hp
    | true =>
      obtain ⟨front, back, rfl, hfront, hback⟩ := ih htail fun b hb => hdrop b (List.mem_cons_of_mem a hb)
      refine ⟨a :: front, back, rfl, fun b hb => ?_, hback⟩
      rcases List.mem_cons.mp hb with rfl | hb
      · exact hp
      · exact hfront b hb

end

end Compact
