import Mathlib.Data.List.Basic

/-! # Linked lists threaded through a table

A link is either empty or names an element, and every element has a link to the next one. Following the
links from a head may never end; `Linked next head l` says that it does, and which elements it meets.

* `Linked.unique`, `Linked.nodup` — the list is determined by its head, and meets no element twice;
* `Linked.pop`, `Linked.push`, `Linked.congr` — taking the first element off, putting one in front, and
  changing the links of elements that are not in the list. -/

namespace LinkedList

universe u

variable {α : Type u} {next next' : α → Option α} {head : Option α} {l : List α}

/-- Following `next` from `head` meets the elements of `l` in order, and then ends. -/
inductive Linked (next : α → Option α) : Option α → List α → Prop
  | nil : Linked next none []
  | cons {a : α} {l : List α} (rest : Linked next (next a) l) : Linked next (some a) (a :: l)

namespace Linked

/-- Behind an empty link there is nothing. -/
theorem eq_nil (h : Linked next none l) : l = [] := by
  cases h
  rfl

/-- The first element, and what stands behind it. -/
theorem pop {a : α} (h : Linked next (some a) l) : ∃ rest, l = a :: rest ∧ Linked next (next a) rest := by
  cases h with
  | cons rest => exact ⟨_, rfl, rest⟩

/-- The links of other elements do not matter. -/
theorem congr (h : Linked next head l) (heq : ∀ a ∈ l, next' a = next a) : Linked next' head l := by
  induction h with
  | nil => exact .nil
  | @cons a l rest ih =>
    refine .cons ?_
    rw [heq a List.mem_cons_self]
    exact ih fun b hb => heq b (List.mem_cons_of_mem a hb)

/-- An element whose link is the old head, in front of the list. -/
theorem push {a : α} (h : Linked next head l) (hhead : next' a = head)
    (heq : ∀ b ∈ l, next' b = next b) : Linked next' (some a) (a :: l) := by
  refine .cons ?_
  rw [hhead]
  exact h.congr heq

/-- The head determines the list. -/
theorem unique {l' : List α} (h : Linked next head l) (h' : Linked next head l') : l = l' := by
  induction h generalizing l' with
  | nil => exact h'.eq_nil.symm
  | @cons a l rest ih =>
    obtain ⟨rest', rfl, hrest⟩ := h'.pop
    rw [ih hrest]

/-- Every element of the list is the head of the part from there on. -/
theorem from_mem {a : α} {front back : List α} (h : Linked next head (front ++ a :: back)) :
    Linked next (some a) (a :: back) := by
  induction front generalizing head with
  | nil =>
    cases h with
    | cons rest => exact .cons rest
  | cons b front ih =>
    cases h with
    | cons rest => exact ih rest

/-- **No repetition.** A list that ends meets no element twice. -/
theorem nodup (h : Linked next head l) : l.Nodup := by
  induction h with
  | nil => exact .nil
  | @cons a l rest ih =>
    refine List.nodup_cons.mpr ⟨fun hmem => ?_, ih⟩
    -- The part from the second occurrence on would be the whole list.
    obtain ⟨front, back, rfl⟩ := List.append_of_mem hmem
    have hagain := (Linked.cons rest).unique rest.from_mem
    have hlength := congrArg List.length hagain
    simp only [List.length_cons, List.length_append] at hlength
    omega

end Linked

end LinkedList
