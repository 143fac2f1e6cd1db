import Mathlib.Data.Nat.Find
import Mathlib.Data.Nat.ModEq
import Mathlib.Logic.Function.Basic

/-! # Open addressing with linear probing

A table of `n` slots, of which each holds a key or is free. A key is looked for from the slot it hashes to
on, around the end of the table, up to the first slot that is free or its own.

* `probe` — the search, and `probe_eq_some_iff`, `probe_eq_none_iff`, what it finds;
* `Found` — every key that is stored is found where it is stored;
* `Found.insert` — storing a key where the search ends keeps that;
* `found_erase_iff` — freeing slots keeps it just when no chain of slots in front of a key that stays is
  broken. -/

namespace LinearProbing

universe u

variable {K : Type u} [DecidableEq K]

/-- The first slot from `i` on, of at most `fuel`, that is free or holds `key`. -/
def probe (n : ℕ) (free : K) (keys : ℕ → K) (key : K) : ℕ → ℕ → Option ℕ
  | 0, _ => none
  | fuel + 1, i =>
      if keys i = free ∨ keys i = key then some i else probe n free keys key fuel ((i + 1) % n)

section Search

variable {n : ℕ} {free : K} {keys : ℕ → K} {key : K}

/-- The slots of a search: from slot `i` on, around the end. -/
theorem probe_eq_some_iff {fuel i j : ℕ} (hi : i < n) :
    probe n free keys key fuel i = some j ↔
      ∃ k < fuel, (i + k) % n = j ∧ (keys j = free ∨ keys j = key) ∧
        ∀ m < k, keys ((i + m) % n) ≠ free ∧ keys ((i + m) % n) ≠ key := by
  induction fuel generalizing i with
  | zero => simp [probe]
  | succ fuel ih =>
    have hn : 0 < n := by omega
    have hshift : ∀ m, ((i + 1) % n + m) % n = (i + (m + 1)) % n := by
      intro m
      rw [Nat.mod_add_mod, Nat.add_assoc, Nat.add_comm 1]
    rw [probe]
    split
    · next hstop =>
        constructor
        · rintro ⟨rfl⟩
          exact ⟨0, by omega, Nat.mod_eq_of_lt hi, hstop, by simp⟩
        · rintro ⟨k, -, hk, -, hbefore⟩
          cases k with
          | zero => rw [← hk, Nat.add_zero, Nat.mod_eq_of_lt hi]
          | succ k =>
            have := hbefore 0 (by omega)
            rw [Nat.add_zero, Nat.mod_eq_of_lt hi] at this
            exact absurd hstop (not_or.mpr this)
    · next hgo =>
        rw [ih (Nat.mod_lt _ hn)]
        constructor
        · rintro ⟨k, hk, hslot, hends, hbefore⟩
          refine ⟨k + 1, by omega, by rw [← hshift, hslot], hends, ?_⟩
          intro m hm
          cases m with
          | zero =>
            rw [Nat.add_zero, Nat.mod_eq_of_lt hi]
            exact not_or.mp hgo
          | succ m =>
            rw [← hshift]
            exact hbefore m (by omega)
        · rintro ⟨k, hk, hslot, hends, hbefore⟩
          cases k with
          | zero =>
            rw [Nat.add_zero, Nat.mod_eq_of_lt hi] at hslot
            rw [← hslot] at hends
            exact absurd hends hgo
          | succ k =>
            refine ⟨k, by omega, by rw [hshift, hslot], hends, ?_⟩
            intro m hm
            rw [hshift]
            exact hbefore (m + 1) (by omega)

/-- Every slot is met by a search around the whole table. -/
theorem exists_offset {i j : ℕ} (hi : i < n) (hj : j < n) : ∃ k < n, (i + k) % n = j := by
  by_cases hle : i ≤ j
  · exact ⟨j - i, by omega, by rw [Nat.add_sub_cancel' hle, Nat.mod_eq_of_lt hj]⟩
  · refine ⟨j + n - i, by omega, ?_⟩
    rw [Nat.add_sub_cancel' (by omega), Nat.add_mod_right, Nat.mod_eq_of_lt hj]

/-- It is met once. -/
theorem offset_unique {i k k' : ℕ} (hk : k < n) (hk' : k' < n) (h : (i + k) % n = (i + k') % n) : k = k' := by
  have hmod : k ≡ k' [MOD n] := Nat.ModEq.add_left_cancel' i h
  rwa [Nat.ModEq, Nat.mod_eq_of_lt hk, Nat.mod_eq_of_lt hk'] at hmod

/-- A search fails on the tables that are full of other keys. -/
theorem probe_eq_none_iff {i : ℕ} (hi : i < n) :
    probe n free keys key n i = none ↔ ∀ j < n, keys j ≠ free ∧ keys j ≠ key := by
  constructor
  · intro hnone j hj
    by_contra hends
    -- of the slots that end the search, the one met first is found
    have hsome : ∃ k, k < n ∧ (keys ((i + k) % n) = free ∨ keys ((i + k) % n) = key) := by
      obtain ⟨k, hk, rfl⟩ := exists_offset hi hj
      exact ⟨k, hk, by rwa [not_and_or, not_not, not_not] at hends⟩
    have hfirst := Nat.find_spec hsome
    have hprobe : probe n free keys key n i = some ((i + Nat.find hsome) % n) := by
      refine (probe_eq_some_iff hi).mpr ⟨Nat.find hsome, hfirst.1, rfl, hfirst.2, ?_⟩
      intro m hm
      refine not_or.mp fun hstop => Nat.find_min hsome hm ⟨hm.trans hfirst.1, hstop⟩
    rw [hnone] at hprobe
    exact absurd hprobe nofun
  · intro hfull
    cases hprobe : probe n free keys key n i with
    | none => rfl
    | some j =>
      obtain ⟨k, -, hslot, hends, -⟩ := (probe_eq_some_iff hi).mp hprobe
      have hj : j < n := hslot ▸ Nat.mod_lt _ (by omega)
      exact absurd hends (not_or.mpr (hfull j hj))

end Search

/-! ### Tables whose keys are found -/

section Tables

variable (n : ℕ) (free : K) (hash : K → ℕ)

/-- Every key that is stored is found in its slot. -/
def Found (keys : ℕ → K) : Prop :=
  ∀ i < n, keys i ≠ free → probe n free keys (keys i) n (hash (keys i)) = some i

/-- Store `key` where its search ends; a table full of other keys stays as it is. -/
def insert (keys : ℕ → K) (key : K) : ℕ → K :=
  match probe n free keys key n (hash key) with
  | none => keys
  | some j => Function.update keys j key

/-- Slot `p` is searched before slot `i`, from slot `s` on. -/
def Before (s i p : ℕ) : Prop := ∃ k m, m < k ∧ k < n ∧ (s + k) % n = i ∧ (s + m) % n = p

variable {n free hash} {keys : ℕ → K}

/-- A key is stored once. -/
theorem Found.unique (h : Found n free hash keys) {i j : ℕ} (hi : i < n) (hj : j < n)
    (hkey : keys i ≠ free) (heq : keys i = keys j) : i = j := by
  have hfound := h i hi hkey
  rw [heq, h j hj (heq ▸ hkey)] at hfound
  exact (Option.some.inj hfound).symm

/-- A slot holds what it held, or the key that is stored. -/
theorem insert_apply (keys : ℕ → K) (key : K) (i : ℕ) :
    insert n free hash keys key i = keys i ∨ insert n free hash keys key i = key := by
  rw [LinearProbing.insert]
  cases probe n free keys key n (hash key) with
  | none => exact .inl rfl
  | some j =>
    by_cases hi : i = j
    · subst hi
      exact .inr (Function.update_self ..)
    · exact .inl (Function.update_of_ne hi ..)

/-- **Storing a key.** All keys are found where they were, and the new one where it was put. -/
theorem Found.insert (hhash : ∀ key, hash key < n) (h : Found n free hash keys) (key : K) :
    Found n free hash (insert n free hash keys key) := by
  rw [LinearProbing.insert]
  cases hprobe : probe n free keys key n (hash key) with
  | none => exact h
  | some j =>
    obtain ⟨k, hk, hslot, hends, hbefore⟩ := (probe_eq_some_iff (hhash key)).mp hprobe
    show Found n free hash (Function.update keys j key)
    intro i hi hstored
    rw [probe_eq_some_iff (hhash _)]
    by_cases hij : i = j
    · subst hij
      rw [Function.update_self]
      refine ⟨k, hk, hslot, .inr rfl, ?_⟩
      intro m hm
      have hne : (hash key + m) % n ≠ i := by
        intro heq
        exact not_or.mpr (heq ▸ hbefore m hm) hends
      rw [Function.update_of_ne hne]
      exact hbefore m hm
    · rw [Function.update_of_ne hij] at hstored ⊢
      obtain ⟨k', hk', hslot', hends', hbefore'⟩ := (probe_eq_some_iff (hhash _)).mp (h i hi hstored)
      refine ⟨k', hk', hslot', .inr rfl, ?_⟩
      intro m hm
      by_cases heq : (hash (keys i) + m) % n = j
      · -- slot `j` was not free there, so it held the key already
        have hnot := hbefore' m hm
        rw [heq] at hnot ⊢
        have hsame : keys j = key := hends.resolve_left hnot.1
        rw [Function.update_self, ← hsame]
        exact hnot
      · rw [Function.update_of_ne heq]
        exact hbefore' m hm

/-- **Freeing slots.** The keys that stay are found if and only if no slot is freed that is searched before
one of them. -/
theorem found_erase_iff (hhash : ∀ key, hash key < n) (h : Found n free hash keys)
    (erased : ℕ → Prop) [DecidablePred erased] :
    Found n free hash (fun i => if erased i then free else keys i) ↔
      ∀ i < n, keys i ≠ free → ¬ erased i → ∀ p, Before n (hash (keys i)) i p → ¬ erased p := by
  constructor
  · rintro hfound i hi hstored hstays p ⟨k, m, hm, hk, hslot, rfl⟩ herased
    have hkey : (if erased i then free else keys i) = keys i := if_neg hstays
    have hprobe := hfound i hi (by simpa only [hkey] using hstored)
    simp only [hkey] at hprobe
    obtain ⟨k', hk', hslot', -, hbefore⟩ := (probe_eq_some_iff (hhash _)).mp hprobe
    obtain rfl := offset_unique hk hk' (hslot.trans hslot'.symm)
    exact (hbefore m hm).1 (if_pos herased)
  · intro hchains i hi hstored
    have hstays : ¬ erased i := fun herased => hstored (if_pos herased)
    simp only [if_neg hstays] at hstored ⊢
    obtain ⟨k, hk, hslot, -, hbefore⟩ := (probe_eq_some_iff (hhash _)).mp (h i hi hstored)
    refine (probe_eq_some_iff (hhash _)).mpr ⟨k, hk, hslot, .inr (if_neg hstays), ?_⟩
    intro m hm
    have hkept := hchains i hi hstored hstays _ ⟨k, m, hm, hk, hslot, rfl⟩
    rw [if_neg hkept]
    exact hbefore m hm

end Tables

end LinearProbing
