import Mathlib.Data.List.Basic
import Mathlib.Data.List.Perm.Basic

/-! # Tables of slots

An array of records that is searched from the front and written one slot at a time, as a list.

* `countP_modify` — what writing one slot does to a count over all of them;
* `forall_mem_modify` — what writing one slot keeps;
* `getElem?_modify_self`, `exists_modify_iff` — reading a slot back;
* `modify_append_left`, `modify_append_self` — writing a slot of the front part, or the first behind it;
* `flatMap_eq_of_unique` — what all slots contribute, where only one does;
* `length_flatMap_erase` — what is in a table that has lost a slot;
* `nodup_map_cons`, `nodup_map_erase` — a list of holders, each of a slot of its own. -/

namespace Slots

universe u

variable {α : Type u}

variable {l : List α} {i : ℕ}

/-- **Writing a slot.** The count changes by what the slot was and what it becomes. -/
theorem countP_modify (p : α → Bool) (f : α → α) {a : α} (h : l[i]? = some a) :
    (l.modify i f).countP p + (p a).toNat = l.countP p + (p (f a)).toNat := by
  obtain ⟨hi, ha⟩ := List.getElem?_eq_some_iff.mp h
  have hsplit : l = l.take i ++ a :: l.drop (i + 1) := by
    rw [← ha, ← List.drop_eq_getElem_cons hi, List.take_append_drop]
  have hcount : l.countP p = (l.take i).countP p + ((l.drop (i + 1)).countP p + (p a).toNat) := by
    conv_lhs => rw [hsplit, List.countP_append, List.countP_cons]
    cases p a <;> rfl
  rw [List.modify_eq_take_cons_drop hi, ha, List.countP_append, List.countP_cons, hcount]
  cases p (f a) <;> simp <;> omega

/-- What holds of all slots, and is kept by the change of one, holds of all slots afterwards. -/
theorem forall_mem_modify {P : α → Prop} {f : α → α} (hf : ∀ a, P a → P (f a)) (i : ℕ) (h : ∀ a ∈ l, P a) :
    ∀ a ∈ l.modify i f, P a := by
  intro a ha
  obtain ⟨j, hj⟩ := List.mem_iff_getElem?.mp ha
  rw [List.getElem?_modify] at hj
  obtain ⟨b, hb, rfl⟩ := Option.map_eq_some_iff.mp hj
  have hmem := h b (List.mem_of_getElem? hb)
  split
  · exact hf b hmem
  · exact hmem

/-- The slot that was written. -/
theorem getElem?_modify_self (f : α → α) {a : α} (h : l[i]? = some a) : (l.modify i f)[i]? = some (f a) := by
  rw [List.getElem?_modify_eq, h]
  rfl

/-- A slot with a property after one was written. -/
theorem exists_modify_iff {P : α → Prop} {f : α → α} {j : ℕ} :
    (∃ a, (l.modify i f)[j]? = some a ∧ P a) ↔ ∃ a, l[j]? = some a ∧ P (if i = j then f a else a) := by
  rw [List.getElem?_modify]
  cases l[j]? with
  | none => simp
  | some a => simp

/-- Writing a slot of the front part. -/
theorem modify_append_left (f : α → α) (hi : i < l.length) (back : List α) :
    (l ++ back).modify i f = l.modify i f ++ back := by
  induction l generalizing i with
  | nil => cases hi
  | cons a l ih =>
    cases i with
    | zero => rfl
    | succ i =>
      rw [List.cons_append, List.modify_succ_cons, ih (Nat.lt_of_succ_lt_succ hi),
        List.modify_succ_cons, List.cons_append]

/-- Writing the first slot behind the front part. -/
theorem modify_append_self (f : α → α) (l : List α) (a : α) (back : List α) :
    (l ++ a :: back).modify l.length f = l ++ f a :: back := by
  induction l with
  | nil => rfl
  | cons b l ih => rw [List.cons_append, List.length_cons, List.modify_succ_cons, ih, List.cons_append]

/-- What the slots hold together, one of them apart. -/
theorem length_flatMap_erase {β : Type u} [BEq α] [LawfulBEq α] (f : α → List β) {a : α} (ha : a ∈ l) :
    (l.flatMap f).length = ((l.erase a).flatMap f).length + (f a).length := by
  rw [((List.perm_cons_erase ha).flatMap_right f).length_eq, List.flatMap_cons, List.length_append, Nat.add_comm]

/-- Where all slots but one contribute nothing, the one is left. -/
theorem flatMap_eq_of_unique {β : Type u} (hnodup : l.Nodup) {a : α} (ha : a ∈ l) {f : α → List β}
    (hother : ∀ b ∈ l, b ≠ a → f b = []) : l.flatMap f = f a := by
  induction l with
  | nil => cases ha
  | cons b l ih =>
    rw [List.nodup_cons] at hnodup
    rw [List.forall_mem_cons] at hother
    rw [List.flatMap_cons]
    rcases List.mem_cons.mp ha with rfl | ha
    · have hrest : l.flatMap f = [] := by
        rw [List.flatMap_eq_nil_iff]
        intro c hc
        refine hother.2 c hc ?_
        rintro rfl
        exact hnodup.1 hc
      rw [hrest, List.append_nil]
    · have hb : f b = [] := by
        refine hother.1 ?_
        rintro rfl
        exact hnodup.1 ha
      rw [hb, List.nil_append, ih hnodup.2 ha hother.2]

section Holders

variable {κ : Type u} {slot : α → κ} {holders : List α} {a : α}

/-- One more holder, of a slot that nobody holds. -/
theorem nodup_map_cons (h : (holders.map slot).Nodup) (hnew : ∀ b ∈ holders, slot b ≠ slot a) :
    ((a :: holders).map slot).Nodup := by
  rw [List.map_cons, List.nodup_cons]
  refine ⟨fun hmem => ?_, h⟩
  obtain ⟨b, hb, heq⟩ := List.mem_map.mp hmem
  exact hnew b hb heq

/-- One holder less: the others keep their slots apart, and hold other slots than that one. -/
theorem nodup_map_erase [DecidableEq α] (h : (holders.map slot).Nodup) (ha : a ∈ holders) :
    ((holders.erase a).map slot).Nodup ∧ ∀ b ∈ holders.erase a, slot a ≠ slot b := by
  have hperm := (List.perm_cons_erase ha).map slot
  have hnodup := hperm.nodup_iff.mp h
  rw [List.map_cons, List.nodup_cons] at hnodup
  exact ⟨hnodup.2, fun b hb heq => hnodup.1 (List.mem_map.mpr ⟨b, hb, heq.symm⟩)⟩

end Holders

end Slots
