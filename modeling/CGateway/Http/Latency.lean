import CGateway.Lib.RingBuffer
import CGateway.Http.Gateway

/-! # Latency percentiles

`record_latency_ms` writes into a ring of 256 values and `percentile_ms` sorts a copy of it. The ring is an
instance of the ring buffers of `Lib/RingBuffer`: its used cells are the last values recorded, in some order, and
sorting forgets the order.

* `HasRank` — the value of a rank in a list, by any sorted arrangement of it;
* `latencyRing_recordAll` — the ring after any number of samples;
* `latency_percentiles` — the percentiles are values of the last 256 samples, by rank. -/

namespace CGateway

/-! ### Ranks -/

/-- `v` stands at place `rank`, counted from 0, when the list is put in ascending order. -/
def HasRank (l : List ℤ) (rank : ℕ) (v : ℤ) : Prop :=
  ∃ sorted : List ℤ, sorted.Perm l ∧ sorted.Pairwise (· ≤ ·) ∧ sorted[rank]? = some v

section Ranks

variable {l l' : List ℤ} {rank rank' : ℕ} {v v' : ℤ}

/-- Ascending arrangements of one list are the same. -/
theorem eq_of_perm_of_ascending {s s' : List ℤ} (hperm : s.Perm s') (hs : s.Pairwise (· ≤ ·))
    (hs' : s'.Pairwise (· ≤ ·)) : s = s' :=
  hperm.eq_of_pairwise (fun _ _ _ _ hab hba => le_antisymm hab hba) hs hs'

/-- Sorting puts a list in ascending order. -/
theorem ascending_mergeSort (l : List ℤ) : l.mergeSort.Pairwise (· ≤ ·) := by
  have hsorted := @List.pairwise_mergeSort ℤ (fun a b => decide (a ≤ b)) ?_ ?_ l
  · exact hsorted.imp of_decide_eq_true
  · intro a b c hab hbc
    exact decide_eq_true (le_trans (of_decide_eq_true hab) (of_decide_eq_true hbc))
  · intro a b
    rw [Bool.or_eq_true, decide_eq_true_eq, decide_eq_true_eq]
    exact le_total a b

/-- The values of two ranks are in the order of the ranks. -/
theorem HasRank.le_of_le (h : HasRank l rank v) (h' : HasRank l rank' v') (hle : rank ≤ rank') : v ≤ v' := by
  obtain ⟨sorted, hperm, hsorted, hv⟩ := h
  obtain ⟨sorted', hperm', hsorted', hv'⟩ := h'
  obtain rfl := eq_of_perm_of_ascending (hperm'.trans hperm.symm) hsorted' hsorted
  obtain ⟨hlt, rfl⟩ := List.getElem?_eq_some_iff.mp hv
  obtain ⟨hlt', rfl⟩ := List.getElem?_eq_some_iff.mp hv'
  rcases hle.eq_or_lt with rfl | hlt
  · exact le_refl _
  · exact List.pairwise_iff_getElem.mp hsorted _ _ _ _ hlt

end Ranks

/-! ### The ring of samples -/

/-- The latency variables of the gateway. -/
def Gateway.latencyRing (g : Gateway) : RingBuffer ℤ := ⟨g.latencyBuf, g.latencyCount, g.latencyIndex⟩

/-- Record samples, the earliest first. -/
def recordAll (values : List ℤ) (g : Gateway) : Gateway := values.foldl (fun g ms => recordLatencyMs ms g) g

/-- The last 256 samples, with negative ones as 0. -/
def lastSamples (values : List ℤ) : List ℤ := (values.drop (values.length - 256)).map (max 0)

section Samples

/-- A sample is pushed into the ring. -/
theorem latencyRing_recordLatencyMs (ms : ℤ) (g : Gateway) :
    (recordLatencyMs ms g).latencyRing = g.latencyRing.push 256 (max 0 ms) := rfl

/-- **The ring after any number of samples.** -/
theorem latencyRing_recordAll (values : List ℤ) (startTimeSec : ℤ) :
    ((recordAll values (.atStart startTimeSec)).latencyRing).Holds 256 (values.map (max 0)) := by
  have hring : ∀ (values : List ℤ) (g : Gateway), (recordAll values g).latencyRing =
      (values.map (max 0)).foldl (fun r x => r.push 256 x) g.latencyRing := by
    intro values
    induction values with
    | nil => exact fun _ => rfl
    | cons ms values ih =>
      intro g
      rw [List.map_cons, List.foldl_cons, ← latencyRing_recordLatencyMs]
      exact ih (recordLatencyMs ms g)
  rw [hring]
  have hholds := (RingBuffer.holds_nil 256 fun _ => (0 : ℤ)).pushes (values.map (max 0))
  rwa [List.nil_append] at hholds

/-- The number of samples that the ring holds. -/
theorem latencyCount_recordAll (values : List ℤ) (startTimeSec : ℤ) :
    (recordAll values (.atStart startTimeSec)).latencyCount = min values.length 256 := by
  have hcount := (latencyRing_recordAll values startTimeSec).count_eq
  rwa [List.length_map] at hcount

/-- A percentile of a ring that is not empty is a value of a rank among its contents. -/
theorem hasRank_percentileMs {g : Gateway} (hcount : g.latencyCount ≠ 0) {p : ℕ} (hp : p ≤ 100) :
    HasRank g.latencyRing.contents (p * (g.latencyCount - 1) / 100) (percentileMs p g) := by
  have hlength : (g.latencyRing.contents.mergeSort).length = g.latencyCount := by
    rw [List.length_mergeSort, RingBuffer.contents, List.length_map, List.length_range]
    rfl
  -- the index is in range by itself, the clamps behind it change nothing
  have hrank : p * (g.latencyCount - 1) / 100 ≤ g.latencyCount - 1 := by
    rw [Nat.div_le_iff_le_mul_add_pred (by decide)]
    have hmul := Nat.mul_le_mul_right (g.latencyCount - 1) hp
    omega
  refine ⟨g.latencyRing.contents.mergeSort, List.mergeSort_perm _ _, ascending_mergeSort _, ?_⟩
  rw [percentileMs, if_neg hcount, min_eq_left hrank]
  show _ = some (g.latencyRing.contents.mergeSort.getD _ 0)
  rw [List.getD_eq_getElem?_getD, List.getElem?_eq_getElem (by omega), Option.getD_some]

/-- **Percentiles.** After any number of samples a percentile is `-1` if there was none, and otherwise the value of
rank `p * (n - 1) / 100` among the last `n` samples, at most 256; it does not fall as `p` grows. -/
theorem latency_percentiles (values : List ℤ) (startTimeSec : ℤ) (p : ℕ) (hp : p ≤ 100) :
    (values = [] → percentileMs p (recordAll values (.atStart startTimeSec)) = -1) ∧
    (values ≠ [] → HasRank (lastSamples values) (p * (min values.length 256 - 1) / 100)
      (percentileMs p (recordAll values (.atStart startTimeSec)))) ∧
    ∀ q, p ≤ q → q ≤ 100 → percentileMs p (recordAll values (.atStart startTimeSec)) ≤
      percentileMs q (recordAll values (.atStart startTimeSec)) := by
  have hcount := latencyCount_recordAll values startTimeSec
  have hrank : ∀ p, p ≤ 100 → values ≠ [] → HasRank (lastSamples values) (p * (min values.length 256 - 1) / 100)
      (percentileMs p (recordAll values (.atStart startTimeSec))) := by
    intro p hp hsome
    have hpos : 0 < values.length := List.length_pos_iff.mpr hsome
    obtain ⟨sorted, hperm, hsorted, hvalue⟩ :=
      @hasRank_percentileMs (recordAll values (.atStart startTimeSec)) (by omega) p hp
    rw [hcount] at hvalue
    refine ⟨sorted, hperm.trans ?_, hsorted, hvalue⟩
    have hlast := (latencyRing_recordAll values startTimeSec).contents_perm (by decide)
    rwa [List.length_map, ← List.map_drop] at hlast
  refine ⟨?_, hrank p hp, ?_⟩
  · rintro rfl
    rfl
  · intro q hpq hq
    rcases eq_or_ne values [] with rfl | hsome
    · exact le_refl _
    · refine (hrank p hp hsome).le_of_le (hrank q hq hsome) ?_
      exact Nat.div_le_div_right (Nat.mul_le_mul_right _ hpq)

end Samples

/-- Three samples, one of them negative: the median is the middle one. -/
theorem latency_percentiles_median :
    HasRank [7, 0, 5] 1 (percentileMs 50 (recordAll [7, -2, 5] (.atStart 0))) := by
  have hrank := (latency_percentiles [7, -2, 5] 0 50 (by decide)).2.1 (by decide)
  have hlast : lastSamples [7, -2, 5] = [7, 0, 5] := by decide
  have hplace : 50 * (min [(7 : ℤ), -2, 5].length 256 - 1) / 100 = 1 := by decide
  rwa [hlast, hplace] at hrank

end CGateway
