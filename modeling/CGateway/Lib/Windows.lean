import Mathlib.Algebra.Order.Ring.Int
import Mathlib.Data.Int.Interval
import Mathlib.Data.List.Basic

/-! # Events in fixed windows

A **fixed window** of length `ttl` opens at some time and takes the events of the next `ttl` seconds.
Windows do not overlap, but they need not be adjacent or aligned. An interval as long as a window meets
at most two of them, so a cap on every window is twice that cap on every interval.

* `Windowed` — every event lies in its window, and different windows are `ttl` apart;
* `Windowed.cons` — one more event, in the latest window or in a later one;
* `Windowed.of_aligned` — windows that begin at multiples of their length;
* `Windowed.countP_interval_le` — the bound on an interval;
* `countP_le_of_numbered` — a cap on a window whose events are numbered. -/

namespace Windows

universe u

variable {α : Type u}

/-- Events with the time and the window of each: an event lies in its window, and windows are `ttl`
apart. -/
structure Windowed (ttl : ℤ) (time window : α → ℤ) (events : List α) : Prop where
  inside : ∀ e ∈ events, window e ≤ time e ∧ time e < window e + ttl
  spaced : ∀ e ∈ events, ∀ e' ∈ events, window e < window e' → window e + ttl ≤ window e'

section

variable {ttl : ℤ} {time window : α → ℤ} {events : List α}

/-- No events. -/
theorem Windowed.nil : Windowed ttl time window ([] : List α) :=
  ⟨fun _ h => absurd h List.not_mem_nil, fun _ h => absurd h List.not_mem_nil⟩

/-- One more event, in a window that is the latest so far or `ttl` later than all others. -/
theorem Windowed.cons (h : Windowed ttl time window events) {e : α}
    (hin : window e ≤ time e ∧ time e < window e + ttl)
    (hlast : ∀ e' ∈ events, window e' = window e ∨ window e' + ttl ≤ window e) :
    Windowed ttl time window (e :: events) := by
  refine ⟨fun x hx => ?_, fun x hx y hy hxy => ?_⟩
  · rcases List.mem_cons.mp hx with rfl | hx
    · exact hin
    · exact h.inside x hx
  · rcases List.mem_cons.mp hx with rfl | hx' <;> rcases List.mem_cons.mp hy with rfl | hy'
    · omega
    · have := hlast y hy'
      omega
    · have := hlast x hx'
      omega
    · exact h.spaced x hx' y hy' hxy

/-- Windows that begin at multiples of their length. -/
theorem Windowed.of_aligned (hin : ∀ e ∈ events, window e ≤ time e ∧ time e < window e + ttl)
    (haligned : ∀ e ∈ events, ttl ∣ window e) : Windowed ttl time window events := by
  refine ⟨hin, fun e he e' he' hlt => ?_⟩
  have hpos : 0 < window e' - window e := by omega
  have := Int.le_of_dvd hpos (Int.dvd_sub (haligned e' he') (haligned e he))
  omega

/-- The count of a union is at most the sum of the counts. -/
theorem countP_or_le (p q : α → Bool) (l : List α) : l.countP (fun e => p e || q e) ≤ l.countP p + l.countP q := by
  induction l with
  | nil => simp
  | cons e l ih =>
    simp only [List.countP_cons]
    cases p e <;> cases q e <;> simp <;> omega

/-- Of three events in an interval as long as a window, two are in the same window. -/
theorem Windowed.window_of_interval (h : Windowed ttl time window events) {a : ℤ} {x y z : α} (hx : x ∈ events)
    (hy : y ∈ events) (hz : z ∈ events) (hxa : a ≤ time x ∧ time x ≤ a + ttl) (hya : a ≤ time y ∧ time y ≤ a + ttl)
    (hza : a ≤ time z ∧ time z ≤ a + ttl) (hxy : window x ≠ window y) : window z = window x ∨ window z = window y := by
  by_contra hne
  rw [not_or] at hne
  have ix := h.inside x hx
  have iy := h.inside y hy
  have iz := h.inside z hz
  -- Three windows would be `2 * ttl` apart, from the first to the last.
  rcases lt_or_gt_of_ne hxy with hxy | hxy <;> rcases lt_or_gt_of_ne hne.1 with hzx | hzx <;>
    rcases lt_or_gt_of_ne hne.2 with hzy | hzy
  all_goals
    have := h.spaced x hx y hy
    have := h.spaced y hy x hx
    have := h.spaced x hx z hz
    have := h.spaced z hz x hx
    have := h.spaced y hy z hz
    have := h.spaced z hz y hy
    omega

/-- **Two windows.** Where no window holds more than `cap` of the counted events, an interval as long
as a window holds at most `2 * cap`. -/
theorem Windowed.countP_interval_le (h : Windowed ttl time window events) {p : α → Bool} {cap : ℕ}
    (hcap : ∀ w, events.countP (fun e => p e && window e == w) ≤ cap) (a : ℤ) :
    events.countP (fun e => p e && (a ≤ time e && time e ≤ a + ttl)) ≤ 2 * cap := by
  -- All events of the interval are in the windows of two of them, or in one window.
  have key : ∃ w₁ w₂, ∀ e ∈ events, a ≤ time e ∧ time e ≤ a + ttl → window e = w₁ ∨ window e = w₂ := by
    by_cases hsome : ∃ x ∈ events, a ≤ time x ∧ time x ≤ a + ttl
    · obtain ⟨x, hx, hxa⟩ := hsome
      by_cases htwo : ∃ y ∈ events, (a ≤ time y ∧ time y ≤ a + ttl) ∧ window x ≠ window y
      · obtain ⟨y, hy, hya, hxy⟩ := htwo
        exact ⟨window x, window y, fun e he hea => h.window_of_interval hx hy he hxa hya hea hxy⟩
      · refine ⟨window x, window x, fun e he hea => .inl ?_⟩
        by_contra hne
        exact htwo ⟨e, he, hea, fun heq => hne heq.symm⟩
    · exact ⟨0, 0, fun e he hea => absurd ⟨e, he, hea⟩ hsome⟩
  obtain ⟨w₁, w₂, hw⟩ := key
  calc events.countP (fun e => p e && (a ≤ time e && time e ≤ a + ttl))
      ≤ events.countP (fun e => (p e && window e == w₁) || (p e && window e == w₂)) := by
        refine List.countP_mono_left fun e he hin => ?_
        simp only [Bool.and_eq_true, decide_eq_true_eq] at hin
        rcases hw e he hin.2 with hwin | hwin <;> simp [hin.1, hwin]
    _ ≤ events.countP (fun e => p e && window e == w₁) +
          events.countP (fun e => p e && window e == w₂) := countP_or_le _ _ _
    _ ≤ 2 * cap := by
        have h₁ := hcap w₁
        have h₂ := hcap w₂
        omega

/-- The counted events are at most `cap` where each has a number from 1 to `cap` of its own: the labels
of all events are pairwise different, and the counted ones differ in the number alone. -/
theorem countP_le_of_numbered {κ : Type u} {label : α → Option (κ × ℤ)} {p : α → Bool} (key : κ)
    {cap : ℤ} (hnodup : (events.filterMap label).Nodup)
    (hlabel : ∀ e ∈ events, p e = true → ∃ n, label e = some (key, n) ∧ 1 ≤ n ∧ n ≤ cap) :
    events.countP p ≤ cap.toNat := by
  have hlength : ∀ l : List α, (∀ e ∈ l, p e = true → (label e).isSome) →
      ((l.filter p).filterMap label).length = l.countP p := by
    intro l hl
    induction l with
    | nil => rfl
    | cons e l ih =>
      have ih := ih fun e he => hl e (List.mem_cons_of_mem _ he)
      cases hp : p e with
      | false => simpa [hp] using ih
      | true =>
        obtain ⟨c, hc⟩ := Option.isSome_iff_exists.mp (hl e List.mem_cons_self hp)
        simp [hp, hc, ih]
  have hsub : ((events.filter p).filterMap label).Nodup := hnodup.sublist (List.filter_sublist.filterMap label)
  -- All labels of counted events are `key` with a number of the interval.
  have hmem : ∀ c ∈ (events.filter p).filterMap label,
      c ∈ ((Finset.Icc 1 cap).map ⟨Prod.mk key, Prod.mk_right_injective key⟩) := by
    intro c hc
    obtain ⟨e, he, hce⟩ := List.mem_filterMap.mp hc
    obtain ⟨n, hn, h₁, h₂⟩ := hlabel e (List.mem_of_mem_filter he) (List.mem_filter.mp he).2
    rw [hn, Option.some.injEq] at hce
    rw [← hce, Finset.mem_map]
    exact ⟨n, Finset.mem_Icc.mpr ⟨h₁, h₂⟩, rfl⟩
  have hsome : ∀ e ∈ events, p e = true → (label e).isSome := by
    intro e he hp
    obtain ⟨n, hn, _⟩ := hlabel e he hp
    rw [hn]
    rfl
  have hcard : (⟨((events.filter p).filterMap label : List (κ × ℤ)), Multiset.coe_nodup.mpr hsub⟩ :
      Finset (κ × ℤ)).card ≤ _ := Finset.card_le_card fun c hc => hmem c hc
  rw [Finset.card_map, Int.card_Icc, Finset.card_mk, Multiset.coe_card, hlength events hsome] at hcard
  simpa using hcard

end

end Windows
