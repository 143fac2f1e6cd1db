import Mathlib.Data.List.Infix
import Mathlib.Data.List.Induction
import Mathlib.Algebra.Order.Ring.Int

/-! # Words of brackets

Brackets of several kinds match when a stack of the open ones says so. Counters say less: how many brackets of a kind
are open, or how many of all kinds. What they miss is which kind was opened last.

* `read`, `Matched` — the stack, and the words it accepts;
* `count`, `depth` — openings minus closings, of one kind and of all;
* `Level` — the depth returns to where it was and is never below;
* `matched_iff` — brackets match just when the word is level and each level part of it closes as many of every kind as
  it opens. -/

/-- A bracket of some kind. -/
inductive Fence (κ : Type) where
  | opening (kind : κ)
  | closing (kind : κ)
  deriving DecidableEq, Repr

namespace Fence

variable {κ : Type}

/-! ### Depth -/

/-- What a bracket adds to the number of open ones. -/
def delta : Fence κ → ℤ
  | .opening _ => 1
  | .closing _ => -1

/-- Openings minus closings. -/
def depth (word : List (Fence κ)) : ℤ := (word.map delta).sum

@[simp] theorem depth_nil : depth ([] : List (Fence κ)) = 0 := rfl

@[simp] theorem depth_cons (b : Fence κ) (word : List (Fence κ)) : depth (b :: word) = b.delta + depth word := by
  simp [depth]

@[simp] theorem depth_append (u v : List (Fence κ)) : depth (u ++ v) = depth u + depth v := by
  simp [depth]

/-- The depth returns to where it was, and is never below. -/
structure Level (word : List (Fence κ)) : Prop where
  above : ∀ n, 0 ≤ depth (word.take n)
  closed : depth word = 0

theorem Level.nil : Level ([] : List (Fence κ)) where
  above n := by rw [List.take_nil, depth_nil]
  closed := rfl

variable {v word : List (Fence κ)} {stack stack' : List κ}

theorem Level.append {u : List (Fence κ)} (hu : Level u) (hv : Level v) : Level (u ++ v) where
  above n := by
    rw [List.take_append, depth_append]
    exact Int.add_nonneg (hu.above n) (hv.above _)
  closed := by rw [depth_append, hu.closed, hv.closed, add_zero]

/-- A pair of brackets around a level word, whatever their kinds. -/
theorem Level.enclose (hv : Level v) (kind kind' : κ) : Level (.opening kind :: (v ++ [.closing kind'])) where
  above n := by
    cases n with
    | zero => exact le_rfl
    | succ n =>
      have habove := hv.above n
      have hlast : -1 ≤ depth ([closing kind'].take (n - v.length)) := by
        cases n - v.length <;> simp [delta]
      rw [List.take_succ_cons, List.take_append, depth_cons, depth_append, delta]
      omega
  closed := by simp [hv.closed, delta]

/-! ### The stack -/

variable [DecidableEq κ]

/-- One bracket, with the kinds that are open, the innermost first. -/
def push (stack : List κ) : Fence κ → Option (List κ)
  | .opening kind => some (kind :: stack)
  | .closing kind =>
      match stack with
      | [] => none
      | top :: rest => if top = kind then some rest else none

/-- A word of brackets. -/
def read (stack : List κ) (word : List (Fence κ)) : Option (List κ) := word.foldlM push stack

/-- Every bracket has its partner, of the same kind. -/
def Matched (word : List (Fence κ)) : Prop := read [] word = some []

instance (word : List (Fence κ)) : Decidable (Matched word) := inferInstanceAs (Decidable (_ = _))

@[simp] theorem read_nil (stack : List κ) : read stack [] = some stack := rfl

theorem read_cons (stack : List κ) (b : Fence κ) (word : List (Fence κ)) :
    read stack (b :: word) = (push stack b).bind fun stack' => read stack' word := by
  rw [read, List.foldlM_cons]
  rfl

theorem read_append (stack : List κ) (u v : List (Fence κ)) :
    read stack (u ++ v) = (read stack u).bind fun stack' => read stack' v := by
  rw [read, List.foldlM_append]
  rfl

theorem push_closing {kind : κ} (h : push stack (.closing kind) = some stack') : stack = kind :: stack' := by
  cases stack with
  | nil => cases h
  | cons top rest =>
    rw [push] at h
    split at h
    · next heq => rw [heq, Option.some.inj h]
    · cases h

/-- The last bracket of a word that is read. -/
theorem read_concat {u : List (Fence κ)} {b : Fence κ} (h : read stack (u ++ [b]) = some stack') :
    ∃ mid, read stack u = some mid ∧ push mid b = some stack' := by
  rw [read_append] at h
  obtain ⟨mid, hmid, hlast⟩ := Option.bind_eq_some_iff.mp h
  rw [read_cons] at hlast
  obtain ⟨last, hpush, hnil⟩ := Option.bind_eq_some_iff.mp hlast
  obtain rfl := Option.some.inj hnil
  exact ⟨mid, hmid, hpush⟩

/-! ### Counters -/

/-- What a bracket adds to the number of open ones of a kind. -/
def deltaOf (kind : κ) : Fence κ → ℤ
  | .opening k => if k = kind then 1 else 0
  | .closing k => if k = kind then -1 else 0

/-- Openings minus closings of a kind. -/
def count (kind : κ) (word : List (Fence κ)) : ℤ := (word.map (deltaOf kind)).sum

@[simp] theorem count_nil (kind : κ) : count kind [] = 0 := rfl

@[simp] theorem count_cons (kind : κ) (b : Fence κ) (word : List (Fence κ)) :
    count kind (b :: word) = b.deltaOf kind + count kind word := by
  simp [count]

@[simp] theorem count_append (kind : κ) (u v : List (Fence κ)) : count kind (u ++ v) = count kind u + count kind v := by
  simp [count]

/-- A measure of the stack that every bracket changes by a number is changed by the sum of these. -/
theorem measure_of_read {f : List κ → ℤ} {g : Fence κ → ℤ}
    (hpush : ∀ {stack mid : List κ} {b : Fence κ}, push stack b = some mid → f mid = f stack + g b)
    (h : read stack word = some stack') : f stack' = f stack + (word.map g).sum := by
  induction word generalizing stack with
  | nil =>
    obtain rfl := Option.some.inj h
    simp
  | cons b word ih =>
    rw [read_cons] at h
    obtain ⟨mid, hmid, hrest⟩ := Option.bind_eq_some_iff.mp h
    rw [ih hrest, hpush hmid, List.map_cons, List.sum_cons, add_assoc]

/-- The depth is the change in the length of the stack. -/
theorem length_of_read (h : read stack word = some stack') : (stack'.length : ℤ) = stack.length + depth word := by
  refine measure_of_read (f := fun stack => (stack.length : ℤ)) ?_ h
  intro stack mid b hpush
  cases b with
  | opening kind =>
    obtain rfl := Option.some.inj hpush
    simp [delta]
  | closing kind => simp [push_closing hpush, delta]

/-- The count of a kind is the change in how often it is on the stack. -/
theorem count_of_read (h : read stack word = some stack') (kind : κ) :
    (stack'.count kind : ℤ) = stack.count kind + count kind word := by
  refine measure_of_read (f := fun stack => (stack.count kind : ℤ)) ?_ h
  intro stack mid b hpush
  cases b with
  | opening k =>
    obtain rfl := Option.some.inj hpush
    by_cases hk : k = kind <;> simp [deltaOf, hk]
  | closing k => by_cases hk : k = kind <;> simp [push_closing hpush, deltaOf, hk]

/-! ### Counting and matching -/

/-- A word that never goes below where it began leaves the stack below it alone. -/
theorem stack_of_read {top base stack' : List κ} {word : List (Fence κ)}
    (h : read (top ++ base) word = some stack') (habove : ∀ n, 0 ≤ (top.length : ℤ) + depth (word.take n)) :
    ∃ top', stack' = top' ++ base := by
  induction word generalizing top with
  | nil => exact ⟨top, (Option.some.inj h).symm⟩
  | cons b word ih =>
    rw [read_cons] at h
    obtain ⟨mid, hpush, hrest⟩ := Option.bind_eq_some_iff.mp h
    have hbelow : ∀ n, 0 ≤ (top.length : ℤ) + (b.delta + depth (word.take n)) := by
      intro n
      have hb := habove (n + 1)
      rwa [List.take_succ_cons, depth_cons] at hb
    cases b with
    | opening kind =>
      obtain rfl := Option.some.inj hpush
      rw [← List.cons_append] at hrest
      refine ih hrest fun n => ?_
      have hb := hbelow n
      rw [delta] at hb
      rw [List.length_cons]
      push_cast
      omega
    | closing kind =>
      -- The bracket that is closed is one of the top.
      have hfirst := hbelow 0
      rw [delta, List.take_zero, depth_nil] at hfirst
      cases top with
      | nil =>
        rw [List.length_nil] at hfirst
        omega
      | cons k top =>
        have heq := push_closing hpush
        rw [List.cons_append, List.cons.injEq] at heq
        rw [← heq.2] at hrest
        refine ih hrest fun n => ?_
        have hb := hbelow n
        rw [delta, List.length_cons] at hb
        push_cast at hb
        omega

/-- A level word that is read leaves the stack as it was. -/
theorem Level.stack_eq (hlevel : Level word) (h : read stack word = some stack') : stack' = stack := by
  have habove : ∀ n, 0 ≤ (([] : List κ).length : ℤ) + depth (word.take n) := by
    intro n
    rw [List.length_nil, Nat.cast_zero, zero_add]
    exact hlevel.above n
  obtain ⟨top, rfl⟩ := @stack_of_read κ _ [] stack stack' word h habove
  have hlen := length_of_read h
  rw [hlevel.closed, List.length_append] at hlen
  push_cast at hlen
  have htop : top = [] := List.length_eq_zero_iff.mp (by omega)
  rw [htop, List.nil_append]

/-- Where the innermost open bracket was opened: behind it the word is level. -/
theorem opened_of_read (n : ℕ) (hn : word.length = n) {kind : κ} {rest : List κ}
    (h : read [] word = some (kind :: rest)) :
    ∃ u v, word = u ++ .opening kind :: v ∧ read [] u = some rest ∧ Level v := by
  -- A closing bracket leads back to what stood in front of its partner, so the induction is on the length.
  induction n using Nat.strongRecOn generalizing word kind rest with
  | ind n ih =>
    rcases List.eq_nil_or_concat word with rfl | ⟨front, b, rfl⟩
    · cases h
    · rw [List.concat_eq_append] at h hn ⊢
      obtain ⟨mid, hmid, hpush⟩ := read_concat h
      rw [List.length_append, List.length_singleton] at hn
      cases b with
      | opening k =>
        obtain ⟨rfl, rfl⟩ := List.cons.inj (Option.some.inj hpush)
        exact ⟨front, [], rfl, hmid, .nil⟩
      | closing k =>
        rw [push_closing hpush] at hmid
        obtain ⟨u, v, rfl, hu, hv⟩ := ih front.length (by omega) rfl hmid
        rw [List.length_append] at hn
        obtain ⟨u', v', rfl, hu', hv'⟩ := ih u.length (by omega) rfl hu
        refine ⟨u', v' ++ .opening k :: (v ++ [.closing k]), by simp, hu', hv'.append (hv.enclose k k)⟩

theorem Matched.level (h : Matched word) : Level word where
  above n := by
    rw [Matched, ← List.take_append_drop n word, read_append] at h
    obtain ⟨mid, hmid, -⟩ := Option.bind_eq_some_iff.mp h
    have hlen := length_of_read hmid
    rw [List.length_nil] at hlen
    omega
  closed := by
    have hlen := length_of_read h
    rw [List.length_nil] at hlen
    omega

/-- A level part of matching brackets closes what it opens. -/
theorem Matched.count_eq_zero (h : Matched word) (hpart : v <:+: word) (hlevel : Level v) (kind : κ) :
    count kind v = 0 := by
  obtain ⟨u, x, rfl⟩ := hpart
  rw [Matched, read_append, read_append] at h
  obtain ⟨last, hlast, -⟩ := Option.bind_eq_some_iff.mp h
  obtain ⟨mid, -, hv⟩ := Option.bind_eq_some_iff.mp hlast
  have hcount := count_of_read hv kind
  rw [hlevel.stack_eq hv] at hcount
  omega

/-- A bracket that closes is of the kind that was opened last, if every level part closes what it opens. -/
theorem read_of_counts (hlevel : Level word) (hkinds : ∀ v, v <:+: word → Level v → ∀ kind, count kind v = 0)
    (u : List (Fence κ)) : ∀ y, word = u ++ y → ∃ stack, read [] u = some stack := by
  induction u using List.reverseRecOn with
  | nil => exact fun _ _ => ⟨[], rfl⟩
  | append_singleton u b ih =>
    intro y hword
    obtain ⟨stack, hstack⟩ := ih (b :: y) (by rw [hword, List.append_assoc, List.singleton_append])
    cases b with
    | opening kind => exact ⟨kind :: stack, by rw [read_append, hstack]; rfl⟩
    | closing kind =>
      have hdepth := hlevel.above (u ++ [closing kind]).length
      have hlen := length_of_read hstack
      rw [hword, List.take_left' rfl, depth_append, depth_cons, delta, depth_nil] at hdepth
      rw [List.length_nil] at hlen
      cases stack with
      | nil =>
        rw [List.length_nil] at hlen
        omega
      | cons top rest =>
        -- Between this bracket and its partner the word is level, and so it is with both of them.
        obtain ⟨x, v, rfl, -, hv⟩ := opened_of_read u.length rfl hstack
        have hpair := hkinds (.opening top :: (v ++ [.closing kind])) ⟨x, y, by simp [hword]⟩
          (hv.enclose top kind) top
        have hinner := hkinds v ⟨x ++ [.opening top], .closing kind :: y, by simp [hword]⟩ hv top
        have hkind : kind = top := by
          by_contra hne
          simp [deltaOf, hinner, hne] at hpair
        refine ⟨rest, ?_⟩
        rw [read_append, hstack, hkind]
        simp [read_cons, push]

/-- **Matching brackets by counting.** The brackets of a word match if and only if the word is level and every level
part of it has as many openings as closings of each kind. -/
theorem matched_iff (word : List (Fence κ)) :
    Matched word ↔ Level word ∧ ∀ v, v <:+: word → Level v → ∀ kind, count kind v = 0 := by
  constructor
  · exact fun h => ⟨h.level, fun v hpart hlevel kind => h.count_eq_zero hpart hlevel kind⟩
  · rintro ⟨hlevel, hkinds⟩
    obtain ⟨stack, hstack⟩ := read_of_counts hlevel hkinds word [] (List.append_nil word).symm
    rw [Matched, hstack, hlevel.stack_eq hstack]

end Fence
