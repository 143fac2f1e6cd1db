import Mathlib.Data.List.Rotate
import Mathlib.Order.Lattice
import Mathlib.Logic.Function.Basic

/-! # Ring buffers

An array that is written round and round: the newest values stay, the oldest are overwritten. The cells hold the
end of the history of what was pushed, but in the order of the array, which is a rotation of the history.

* `RingBuffer.push` — write the next cell;
* `RingBuffer.Holds` — the buffer against the history of what was pushed;
* `RingBuffer.Holds.push`, `RingBuffer.Holds.pushes` — one push, and any number of them;
* `RingBuffer.Holds.contents_perm` — the used cells hold the end of the history, in some order. -/

universe u

/-- A ring buffer: its cells, how many of them are used, and the one to write next. -/
structure RingBuffer (α : Type u) where
  cells : ℕ → α
  count : ℕ
  index : ℕ

namespace RingBuffer

variable {α : Type u}

/-- Write the next of `size` cells. -/
def push (size : ℕ) (x : α) (r : RingBuffer α) : RingBuffer α :=
  ⟨Function.update r.cells r.index x, if r.count < size then r.count + 1 else r.count, (r.index + 1) % size⟩

/-- What the used cells hold, in the order of the cells. -/
def contents (r : RingBuffer α) : List α := (List.range r.count).map r.cells

/-- Reading a used cell. -/
theorem getElem_contents (r : RingBuffer α) {i : ℕ} (hi : i < r.contents.length) : r.contents[i] = r.cells i := by
  simp only [contents, List.getElem_map, List.getElem_range]

/-- The buffer of `size` cells after the pushes of a history, the earliest first: of the last `size` values each is
in the cell of its number. -/
structure Holds (size : ℕ) (history : List α) (r : RingBuffer α) : Prop where
  count_eq : r.count = min history.length size
  index_eq : r.index = history.length % size
  cells_eq : ∀ k (hk : k < history.length), history.length ≤ k + size → r.cells (k % size) = history[k]

variable {size : ℕ} {history : List α} {r : RingBuffer α}

/-- Nothing was pushed yet. -/
theorem holds_nil (size : ℕ) (cells : ℕ → α) : Holds size [] ⟨cells, 0, 0⟩ :=
  ⟨(Nat.zero_min size).symm, (Nat.zero_mod size).symm, fun _ hk => absurd hk (Nat.not_lt_zero _)⟩

/-- Numbers less than `size` apart have cells of their own. -/
theorem mod_ne_mod {k n : ℕ} (hlt : k < n) (hnear : n < k + size) : k % size ≠ n % size := by
  intro heq
  have hdvd : size ∣ n - k := Nat.dvd_of_mod_eq_zero (Nat.sub_mod_eq_zero_of_mod_eq heq.symm)
  exact absurd (Nat.le_of_dvd (by omega) hdvd) (by omega)

/-- **A push** adds to the end of the history, and overwrites what has become too old. -/
theorem Holds.push (h : Holds size history r) (x : α) : Holds size (history ++ [x]) (r.push size x) := by
  have hlength : (history ++ [x]).length = history.length + 1 := List.length_append
  refine ⟨?_, ?_, ?_⟩
  · have hcount := h.count_eq
    rw [hlength]
    show (if r.count < size then r.count + 1 else r.count) = _
    split <;> omega
  · show (r.index + 1) % size = _
    rw [h.index_eq, hlength, Nat.mod_add_mod]
  · intro k hk hnear
    show Function.update r.cells r.index x (k % size) = _
    rw [hlength] at hk hnear
    rcases Nat.lt_succ_iff_lt_or_eq.mp hk with hold | rfl
    · -- a value that is still young enough is not in the cell that is overwritten
      rw [h.index_eq, Function.update_of_ne (mod_ne_mod hold (by omega)), h.cells_eq k hold (by omega),
        List.getElem_append_left hold]
    · rw [h.index_eq, Function.update_self, List.getElem_concat_length rfl]

/-- **Any number of pushes.** -/
theorem Holds.pushes (h : Holds size history r) (xs : List α) :
    Holds size (history ++ xs) (xs.foldl (fun r x => r.push size x) r) := by
  induction xs generalizing history r with
  | nil => rwa [List.append_nil]
  | cons x xs ih =>
    have hnext := ih (h.push x)
    rwa [List.append_assoc] at hnext

/-- **The contents** are the last `size` values of the history, in some order: once the buffer is full, the cells
read from the one to be written next are the history. -/
theorem Holds.contents_perm (hsize : 0 < size) (h : Holds size history r) :
    r.contents.Perm (history.drop (history.length - size)) := by
  have hcount := h.count_eq
  have hlength : r.contents.length = min history.length size := by
    rw [contents, List.length_map, List.length_range, hcount]
  have hrotate : history.drop (history.length - size) = r.contents.rotate (history.length - size) := by
    refine List.ext_getElem ?_ ?_
    · rw [List.length_drop, List.length_rotate, hlength]
      omega
    · intro i hi hi'
      rw [List.length_drop] at hi
      rw [List.getElem_drop, List.getElem_rotate, getElem_contents, hlength,
        ← h.cells_eq (history.length - size + i) (by omega) (by omega)]
      rcases le_total history.length size with hpart | hfull
      · -- not full yet: the cells are in the order of the history
        rw [min_eq_left hpart, Nat.sub_eq_zero_of_le hpart, Nat.zero_add, Nat.add_zero,
          Nat.mod_eq_of_lt (by omega), Nat.mod_eq_of_lt (by omega)]
      · rw [min_eq_right hfull, Nat.add_comm]
  rw [hrotate]
  exact (List.rotate_perm _ _).symm

end RingBuffer
