import Mathlib.Data.List.Induction
import Mathlib.Data.List.Nodup
import Mathlib.Data.List.Perm.Basic
import Mathlib.Logic.Function.Basic

/-! # Maps of bounded size, kept as unordered lists of entries

What a table with room for a number of keys is for: a key is put or removed, and the answer says what became
of it. The table itself is a list of entries with a key and a value each, in no particular order. A new
entry goes to the end, and the last entry takes the place of one that is removed.

* `Contents`, `step` — the map, and what an operation does to it;
* `contents` — the map that a list of entries stands for;
* `step_put_found`, `step_put_new`, `step_remove_found` — what is done to the list is what is done to the
  map, as long as no two entries have one key. -/

namespace BoundedMap

universe u v w

/-- The values of the keys that are in the map, and how many these are. -/
@[ext] structure Contents (K : Type u) (V : Type v) where
  get : K → Option V
  size : ℕ

/-- The operations on a map. -/
inductive Op (K : Type u) (V : Type v) where
  | put (k : K) (v : V)
  | remove (k : K)
  deriving DecidableEq

/-- What became of an operation. -/
inductive Answer where
  | created
  | updated
  | full
  | removed
  | absent
  deriving DecidableEq, Repr

/-- One operation on a map with room for so many keys. -/
def step {K : Type u} {V : Type v} [DecidableEq K] (cap : ℕ) (m : Contents K V) :
    Op K V → Contents K V × Answer
  | .put k v =>
      if (m.get k).isSome then (⟨Function.update m.get k (some v), m.size⟩, .updated)
      else if cap ≤ m.size then (m, .full)
      else (⟨Function.update m.get k (some v), m.size + 1⟩, .created)
  | .remove k =>
      if (m.get k).isSome then (⟨Function.update m.get k none, m.size - 1⟩, .removed)
      else (m, .absent)

section Step

variable {K : Type u} {V : Type v} [DecidableEq K] {cap : ℕ} {m : Contents K V} {k : K} {v old : V}

/-- A key that is in the map is updated. -/
theorem step_put_of_some (h : m.get k = some old) :
    step cap m (.put k v) = (⟨Function.update m.get k (some v), m.size⟩, .updated) := by
  rw [step, if_pos (by rw [h]; rfl)]

/-- A key that is in the map is removed. -/
theorem step_remove_of_some (h : m.get k = some old) :
    step cap m (.remove k) = (⟨Function.update m.get k none, m.size - 1⟩, .removed) := by
  rw [step, if_pos (by rw [h]; rfl)]

/-- A key that is not in the map is added where there is room. -/
theorem step_put_of_none (h : m.get k = none) (hcap : m.size < cap) :
    step cap m (.put k v) = (⟨Function.update m.get k (some v), m.size + 1⟩, .created) := by
  rw [step, if_neg (by rw [h]; exact Bool.false_ne_true), if_neg (Nat.not_le.mpr hcap)]

/-- A map that is full takes no new key. -/
theorem step_put_of_full (h : m.get k = none) (hcap : cap ≤ m.size) : step cap m (.put k v) = (m, .full) := by
  rw [step, if_neg (by rw [h]; exact Bool.false_ne_true), if_pos hcap]

/-- A key that is not in the map is not removed. -/
theorem step_remove_of_none (h : m.get k = none) : step cap m (.remove k) = (m, .absent) := by
  rw [step, if_neg (by rw [h]; exact Bool.false_ne_true)]

end Step

/-! ### Lists of entries -/

section Entries

variable {K : Type u} {V : Type v} {E : Type w} [DecidableEq K] (key : E → K) (value : E → V)

/-- The map that the entries stand for. -/
def contents (entries : List E) : Contents K V :=
  ⟨fun k => (entries.find? fun e => key e = k).map value, entries.length⟩

/-- No two entries have one key. -/
def UniqueKeys (entries : List E) : Prop := (entries.map key).Nodup

variable {key value} {pre post entries : List E} {e : E} {k : K}

/-- What is found in a list of unique entries does not depend on their order. -/
theorem get_contents_eq_some_iff (h : UniqueKeys key entries) {v : V} :
    (contents key value entries).get k = some v ↔ ∃ e ∈ entries, key e = k ∧ value e = v := by
  rw [contents]
  dsimp only
  rw [Option.map_eq_some_iff]
  constructor
  · rintro ⟨e, hfind, rfl⟩
    exact ⟨e, List.mem_of_find?_eq_some hfind, by simpa using List.find?_some hfind, rfl⟩
  · rintro ⟨e, hmem, rfl, rfl⟩
    -- the entry that is found has the key of `e`, so it is `e`
    obtain ⟨found, hfind⟩ : ∃ found, entries.find? (fun a => key a = key e) = some found := by
      rw [← Option.isSome_iff_exists, List.find?_isSome]
      exact ⟨e, hmem, by simp⟩
    have hkey : key found = key e := by simpa using List.find?_some hfind
    refine ⟨found, hfind, ?_⟩
    rw [List.inj_on_of_nodup_map h (List.mem_of_find?_eq_some hfind) hmem hkey]

/-- Reordering entries does not change the map. -/
theorem contents_perm {entries' : List E} (h : UniqueKeys key entries) (hperm : entries.Perm entries') :
    contents key value entries = contents key value entries' := by
  have h' : UniqueKeys key entries' := (hperm.map key).nodup_iff.mp h
  refine Contents.ext (funext fun k => Option.ext fun v => ?_) hperm.length_eq
  rw [get_contents_eq_some_iff h, get_contents_eq_some_iff h']
  exact exists_congr fun e => and_congr_left fun _ => hperm.mem_iff

/-- A key without an entry is not in the map. -/
theorem get_contents_eq_none_iff : (contents key value entries).get k = none ↔ k ∉ entries.map key := by
  rw [contents]
  simp

/-- An entry more is a key more in the map. -/
theorem contents_cons (e : E) (entries : List E) :
    contents key value (e :: entries) =
      ⟨Function.update (contents key value entries).get (key e) (some (value e)), entries.length + 1⟩ := by
  refine Contents.ext (funext fun k => ?_) rfl
  dsimp only
  by_cases hk : k = key e
  · subst hk
    rw [Function.update_self]
    simp [contents]
  · rw [Function.update_of_ne hk]
    simp [contents, List.find?_cons, Ne.symm hk]

/-- The same for an entry in the middle. -/
theorem contents_middle (h : UniqueKeys key (pre ++ e :: post)) :
    contents key value (pre ++ e :: post) =
      ⟨Function.update (contents key value (pre ++ post)).get (key e) (some (value e)), (pre ++ post).length + 1⟩ := by
  have hperm : (pre ++ e :: post).Perm (e :: (pre ++ post)) := List.perm_middle
  rw [contents_perm h hperm, contents_cons]

/-- Without it the key is gone. -/
theorem get_contents_without (h : UniqueKeys key (pre ++ e :: post)) :
    (contents key value (pre ++ post)).get (key e) = none := by
  have hperm : (pre ++ e :: post).Perm (e :: (pre ++ post)) := List.perm_middle
  have hcons : UniqueKeys key (e :: (pre ++ post)) := (hperm.map key).nodup_iff.mp h
  exact get_contents_eq_none_iff.mpr (List.nodup_cons.mp hcons).1

/-- The last entry in the place of one that goes: the others, in some order. -/
theorem set_dropLast_perm {last : E} (hlast : (pre ++ e :: post).getLast? = some last) :
    ((pre ++ e :: post).set pre.length last).dropLast.Perm (pre ++ post) := by
  rw [List.set_append_right _ _ (Nat.le_refl _), Nat.sub_self, List.set_cons_zero]
  cases post using List.reverseRecOn with
  | nil => rw [List.dropLast_concat, List.append_nil]
  | append_singleton mid z =>
    have hz : last = z := by
      rw [← List.cons_append, ← List.append_assoc, List.getLast?_concat] at hlast
      exact (Option.some.inj hlast).symm
    rw [hz, ← List.cons_append, ← List.append_assoc, List.dropLast_concat, ← List.append_assoc]
    refine List.perm_middle.trans ?_
    exact (List.perm_append_singleton z (pre ++ mid)).symm

/-! ### The operations -/

variable {cap : ℕ}

/-- An entry is changed in its place. -/
theorem step_put_found (h : UniqueKeys key (pre ++ e :: post)) (e' : E) (hkey : key e' = key e) :
    step cap (contents key value (pre ++ e :: post)) (.put (key e) (value e')) =
      (contents key value (pre ++ e' :: post), .updated) := by
  have h' : UniqueKeys key (pre ++ e' :: post) := by
    unfold UniqueKeys at h ⊢
    rw [List.map_append, List.map_cons, hkey, ← List.map_cons, ← List.map_append]
    exact h
  rw [contents_middle h, contents_middle h', hkey, step_put_of_some (Function.update_self ..)]
  dsimp only
  rw [Function.update_idem]

/-- A new entry goes to the end. -/
theorem step_put_new (e : E) (hkey : key e ∉ entries.map key) (hcap : entries.length < cap) :
    step cap (contents key value entries) (.put (key e) (value e)) =
      (contents key value (entries ++ [e]), .created) := by
  have hnone : (contents key value entries).get (key e) = none := get_contents_eq_none_iff.mpr hkey
  have hcontents : contents key value (entries ++ [e]) =
      ⟨Function.update (contents key value entries).get (key e) (some (value e)), entries.length + 1⟩ := by
    refine Contents.ext (funext fun k => ?_) (by simp [contents])
    dsimp only
    by_cases hk : k = key e
    · subst hk
      rw [Function.update_self]
      rw [contents, Option.map_eq_none_iff] at hnone
      simp [contents, List.find?_append, hnone]
    · rw [Function.update_of_ne hk]
      simp [contents, List.find?_append, Ne.symm hk]
  rw [hcontents]
  exact step_put_of_none hnone hcap

/-- The last entry takes the place of one that is removed. -/
theorem step_remove_found (h : UniqueKeys key (pre ++ e :: post)) {last : E}
    (hlast : (pre ++ e :: post).getLast? = some last) :
    step cap (contents key value (pre ++ e :: post)) (.remove (key e)) =
      (contents key value ((pre ++ e :: post).set pre.length last).dropLast, .removed) := by
  have hrest : UniqueKeys key (pre ++ post) := by
    have hsub : (pre ++ post).Sublist (pre ++ e :: post) :=
      (List.Sublist.refl pre).append (List.sublist_cons_self e post)
    exact (hsub.map key).nodup h
  have hperm := set_dropLast_perm hlast
  have hgone : (contents key value (pre ++ post)).get (key e) = none := get_contents_without h
  rw [← contents_perm hrest hperm.symm, contents_middle h, step_remove_of_some (Function.update_self ..)]
  dsimp only
  rw [Function.update_idem, ← hgone, Function.update_eq_self]
  rfl

end Entries

end BoundedMap
