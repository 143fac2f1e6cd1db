import Mathlib.Algebra.Order.Field.Rat
import Mathlib.Algebra.Order.BigOperators.Group.List
import Mathlib.Order.WithBot
import Mathlib.Tactic.Linarith
import CGateway.Metrics.ExportBuffer

/-! # Histograms of durations

`prometheus_histogram_observe` is given microseconds, compares them with bucket bounds in seconds and adds them up as
they are. The exporter writes the bounds in seconds and the sum in microseconds.

* `defaultBuckets`, `boundText` — the bounds in seconds, and how the exporter writes them;
* `prometheusHistogramObserve`, `observeAll` — one observation and any number of them;
* `HistogramSamples`, `samplesOf` — the numbers of an exported histogram, and what observations make of them;
* `samples_observeAll` — the numbers of a histogram after any number of observations;
* `exported_histogram_consistent_iff` — buckets and count are right until the count wraps, the sum is in the unit of
  the bounds only if every observation was 0. -/

namespace CGateway

open Bytes CString

/-! ### Observations -/

/-- `default_buckets`, in seconds. -/
def defaultBuckets : Vector (WithTop ℚ) 10 :=
  #v[((1 / 1000 : ℚ) : WithTop ℚ), ((5 / 1000 : ℚ) : WithTop ℚ), ((1 / 100 : ℚ) : WithTop ℚ),
    ((5 / 100 : ℚ) : WithTop ℚ), ((1 / 10 : ℚ) : WithTop ℚ), ((5 / 10 : ℚ) : WithTop ℚ), ((1 : ℚ) : WithTop ℚ),
    ((5 : ℚ) : WithTop ℚ), ((10 : ℚ) : WithTop ℚ), ⊤]

/-- Microseconds in seconds. -/
def secondsOf (valueUs : UInt64) : ℚ := valueUs.toNat / 1000000

/-- A value in seconds is not above an upper bound. -/
def withinBound (bound : WithTop ℚ) (seconds : ℚ) : Bool := decide ((seconds : WithTop ℚ) ≤ bound)

/-- `prometheus_histogram_observe`, with exact comparisons. -/
def prometheusHistogramObserve (h : PrometheusHistogram) (valueUs : UInt64) : PrometheusHistogram :=
  { h with
    -- the buckets are cumulative: the loop does not stop at the first bound that is not exceeded
    buckets := defaultBuckets.zipWith
      (fun bound count => if withinBound bound (secondsOf valueUs) then count + 1 else count) h.buckets
    sum := h.sum + valueUs
    count := h.count + 1 }

/-- Observations, the earliest first. -/
def observeAll (values : List UInt64) (h : PrometheusHistogram) : PrometheusHistogram :=
  values.foldl prometheusHistogramObserve h

section Observations

variable (values : List UInt64) (h : PrometheusHistogram)

/-- Observations leave name, help text and labels alone. -/
@[simp] theorem observeAll_toMetric : (observeAll values h).toMetric = h.toMetric := by
  induction values generalizing h with
  | nil => rfl
  | cons value values ih => exact ih (prometheusHistogramObserve h value)

/-- A bucket after any number of observations. -/
theorem buckets_observeAll {i : ℕ} (hi : i < 10) : (observeAll values h).buckets[i] = h.buckets[i] +
    UInt64.ofNat (values.countP fun v => withinBound defaultBuckets[i] (secondsOf v)) := by
  induction values generalizing h with
  | nil => exact (UInt64.add_zero _).symm
  | cons value values ih =>
    have hnext := ih (prometheusHistogramObserve h value)
    rw [prometheusHistogramObserve, Vector.getElem_zipWith hi] at hnext
    rw [List.countP_cons]
    refine hnext.trans ?_
    split
    · rw [UInt64.ofNat_add, UInt64.add_assoc, UInt64.add_comm (UInt64.ofNat _)]
      rfl
    · rfl

/-- The sum after any number of observations. -/
theorem sum_observeAll : (observeAll values h).sum = h.sum + UInt64.ofNat (values.map UInt64.toNat).sum := by
  induction values generalizing h with
  | nil => exact (UInt64.add_zero _).symm
  | cons value values ih =>
    rw [List.map_cons, List.sum_cons, UInt64.ofNat_add, UInt64.ofNat_toNat, ← UInt64.add_assoc]
    exact ih (prometheusHistogramObserve h value)

/-- The count after any number of observations. -/
theorem count_observeAll : (observeAll values h).count = h.count + UInt64.ofNat values.length := by
  induction values generalizing h with
  | nil => exact (UInt64.add_zero _).symm
  | cons value values ih =>
    rw [List.length_cons, Nat.add_comm, UInt64.ofNat_add, ← UInt64.add_assoc]
    exact ih (prometheusHistogramObserve h value)

end Observations

/-! ### The exported numbers -/

/-- A bound as `%.3f` writes it, for a bound of whole milliseconds. -/
def thousandths (bound : ℚ) : List UInt8 :=
  let n := (bound * 1000).floor.toNat
  decimalNat (n / 1000) ++ 46 :: decimalNat (n / 100 % 10) ++ decimalNat (n / 10 % 10) ++ decimalNat (n % 10)

/-- The text of a bound. -/
def boundText : WithTop ℚ → List UInt8
  | ⊤ => ascii "+Inf"
  | (bound : ℚ) => thousandths bound

/-- The texts of the exporter are those of the bounds. -/
theorem bucketBounds_eq : bucketBounds.map ascii = defaultBuckets.toList.map boundText := by
  decide +kernel

/-- The numbers of an exported histogram. -/
structure HistogramSamples where
  buckets : List (WithTop ℚ × ℕ)
  sum : ℕ
  count : ℕ

/-- Their text. -/
def HistogramSamples.text (m : Metric) (s : HistogramSamples) : List UInt8 :=
  renderHistogram m (s.buckets.map fun bucket => (boundText bucket.1, bucket.2)) s.sum s.count

/-- The numbers that a histogram is exported with. -/
def PrometheusHistogram.samples (h : PrometheusHistogram) : HistogramSamples where
  buckets := defaultBuckets.toList.zip (h.buckets.toList.map UInt64.toNat)
  sum := h.sum.toNat
  count := h.count.toNat

/-- The numbers of observations in microseconds: the observations within each bound, their sum as it is, and how many
they are. -/
def samplesOf (values : List UInt64) : HistogramSamples where
  buckets := defaultBuckets.toList.map fun bound => (bound, values.countP fun v => withinBound bound (secondsOf v))
  sum := (values.map UInt64.toNat).sum
  count := values.length

section Samples

/-- The text of a histogram without labels is that of its numbers. -/
theorem text_samples (h : PrometheusHistogram) :
    renderHistogram h.toMetric h.boundedCounts h.sum.toNat h.count.toNat = h.samples.text h.toMetric := by
  rw [HistogramSamples.text, PrometheusHistogram.samples, PrometheusHistogram.boundedCounts, bucketBounds_eq,
    List.zip_map_left]
  rfl

/-- The text of a registry has the text of each histogram in it. -/
theorem text_samples_infix {r : MetricsRegistry} {h : PrometheusHistogram} (hmem : h ∈ r.histograms)
    (hlabels : h.labels = []) : h.samples.text h.toMetric <:+: (registryPieces r).flatten := by
  obtain ⟨before, after, hsplit⟩ := List.append_of_mem hmem
  refine ⟨(r.counters.flatMap counterPieces ++ r.gauges.flatMap gaugePieces ++
    before.flatMap histogramPieces).flatten, (after.flatMap histogramPieces).flatten, ?_⟩
  rw [registryPieces, hsplit, List.flatMap_append, List.flatMap_cons, ← text_samples, ← flatten_histogramPieces hlabels]
  simp only [List.flatten_append, List.append_assoc]

/-- A counter that began at 0 and was raised by less than `2 ^ 64`. -/
theorem toNat_zero_add_ofNat {n : ℕ} (hn : n < 2 ^ 64) : ((0 : UInt64) + UInt64.ofNat n).toNat = n := by
  rw [UInt64.zero_add, UInt64.toNat_ofNat_of_lt' hn]

/-- The exported sum is that of the microseconds. -/
theorem sum_samples_observeAll (name help : List UInt8) {values : List UInt64}
    (hsum : (values.map UInt64.toNat).sum < 2 ^ 64) :
    (observeAll values (prometheusHistogramCreate name help)).samples.sum = (values.map UInt64.toNat).sum := by
  rw [PrometheusHistogram.samples, sum_observeAll]
  exact toNat_zero_add_ofNat hsum

/-- **The numbers of a histogram** after any number of observations, as long as its counters do not wrap. -/
theorem samples_observeAll (name help : List UInt8) {values : List UInt64}
    (hsum : (values.map UInt64.toNat).sum < 2 ^ 64) (hcount : values.length < 2 ^ 64) :
    (observeAll values (prometheusHistogramCreate name help)).samples = samplesOf values := by
  have hbuckets : (observeAll values (prometheusHistogramCreate name help)).buckets.toList.map UInt64.toNat =
      defaultBuckets.toList.map fun bound => values.countP fun v => withinBound bound (secondsOf v) := by
    refine List.ext_getElem (by simp) ?_
    intro i hi _
    have hlt : i < 10 := by simpa using hi
    rw [List.getElem_map, List.getElem_map, Vector.getElem_toList, Vector.getElem_toList,
      buckets_observeAll values _ hlt]
    have hzero : (prometheusHistogramCreate name help).buckets[i] = 0 := Vector.getElem_replicate hlt
    rw [hzero]
    exact toNat_zero_add_ofNat (lt_of_le_of_lt List.countP_le_length hcount)
  rw [PrometheusHistogram.samples, samplesOf, hbuckets, sum_observeAll, count_observeAll, List.map_prod_left_eq_zip,
    HistogramSamples.mk.injEq]
  exact ⟨rfl, toNat_zero_add_ofNat hsum, toNat_zero_add_ofNat hcount⟩

end Samples

/-! ### Consistency -/

/-- What a scrape expects of buckets and count: each bucket counts the observations within its bound, the counts grow
with the bounds, and the last bucket is unbounded and counts all of them. -/
structure BucketsConsistent (observed : List ℚ) (s : HistogramSamples) : Prop where
  counts : ∀ bucket ∈ s.buckets, bucket.2 = observed.countP (withinBound bucket.1)
  ascending : s.buckets.Pairwise fun a b => a.1 ≤ b.1 ∧ a.2 ≤ b.2
  unbounded : s.buckets.getLast? = some (⊤, s.count)

section Consistency

variable (values : List UInt64)

/-- Buckets and count are as expected. -/
theorem bucketsConsistent_samplesOf : BucketsConsistent (values.map secondsOf) (samplesOf values) := by
  refine ⟨?_, ?_, ?_⟩
  · intro bucket hmem
    obtain ⟨bound, _, rfl⟩ := List.mem_map.mp hmem
    exact (List.countP_map (p := withinBound bound) (f := secondsOf)).symm
  · have hbounds : defaultBuckets.toList.Pairwise (· ≤ ·) := by decide +kernel
    rw [samplesOf, List.pairwise_map]
    refine hbounds.imp fun {a b} hle => ⟨hle, List.countP_mono_left fun v _ hwithin => ?_⟩
    exact decide_eq_true (le_trans (of_decide_eq_true hwithin) hle)
  · have hlast : defaultBuckets.toList.getLast? = some ⊤ := by decide +kernel
    have hall : (values.countP fun v => withinBound ⊤ (secondsOf v)) = values.length :=
      List.countP_eq_length.mpr fun v _ => decide_eq_true le_top
    rw [samplesOf, List.getLast?_map, hlast, Option.map_some, hall]

/-- Consistent buckets count every observation in the unbounded one. -/
theorem BucketsConsistent.count_eq {observed : List ℚ} {s : HistogramSamples} (h : BucketsConsistent observed s) :
    s.count = observed.length := by
  have hlast := h.counts (⊤, s.count) (List.mem_of_getLast? h.unbounded)
  exact hlast.trans (List.countP_eq_length.mpr fun v _ => decide_eq_true le_top)

/-- The sum in seconds. -/
theorem sum_secondsOf : (values.map secondsOf).sum = ((values.map UInt64.toNat).sum : ℚ) / 1000000 := by
  induction values with
  | nil => simp
  | cons value values ih =>
    rw [List.map_cons, List.sum_cons, ih, List.map_cons, List.sum_cons, secondsOf, Nat.cast_add, add_div]

/-- The sum in microseconds is the sum in seconds only if it is 0. -/
theorem sum_eq_seconds_iff :
    ((values.map UInt64.toNat).sum : ℚ) = (values.map secondsOf).sum ↔ ∀ v ∈ values, v = 0 := by
  have hzero : (values.map UInt64.toNat).sum = 0 ↔ ∀ v ∈ values, v = 0 := by
    rw [List.sum_eq_zero_iff, List.forall_mem_map]
    refine forall₂_congr fun v _ => ?_
    rw [← UInt64.toNat_inj]
    rfl
  rw [sum_secondsOf, ← hzero, ← @Nat.cast_eq_zero ℚ]
  constructor
  · -- a number that is its own millionth is 0
    intro h
    linarith
  · intro h
    rw [h, zero_div]

end Consistency

/-- **Exported histograms.** After any number of observations with a sum below `2 ^ 64`, the text of every export has
the histogram's numbers in it. Each bucket counts the observations within its bound, the counts grow with the bounds,
and the unbounded one is the count, just when there are fewer than `2 ^ 64` observations. But the sum is in
microseconds where the bounds are in seconds: it is the sum of the durations in seconds just when every observation
was 0. -/
theorem exported_histogram_consistent_iff (name help : List UInt8) (values : List UInt64)
    (hsum : (values.map UInt64.toNat).sum < 2 ^ 64) :
    let h := observeAll values (prometheusHistogramCreate name help)
    (∀ r bufferSize text, h ∈ r.histograms → prometheusExportText r bufferSize = some text →
      h.samples.text h.toMetric <:+: text) ∧
    (BucketsConsistent (values.map secondsOf) h.samples ↔ values.length < 2 ^ 64) ∧
    h.samples.sum = (values.map UInt64.toNat).sum ∧
    ((h.samples.sum : ℚ) = (values.map secondsOf).sum ↔ ∀ v ∈ values, v = 0) := by
  intro h
  have hexported : h.samples.sum = (values.map UInt64.toNat).sum := sum_samples_observeAll name help hsum
  refine ⟨?_, ⟨?_, ?_⟩, hexported, ?_⟩
  · intro r bufferSize text hmem htext
    have hlabels : h.labels = [] := congrArg Metric.labels (observeAll_toMetric values _)
    rw [prometheusExportText_eq] at htext
    split at htext
    · obtain rfl := Option.some.inj htext
      exact text_samples_infix hmem hlabels
    · cases htext
  · -- the count is a `uint64_t`, and consistent buckets make it the number of observations
    intro hconsistent
    have hcount := hconsistent.count_eq
    rw [List.length_map] at hcount
    rw [← hcount]
    exact h.count.toNat_lt
  · intro hcount
    have hsamples : h.samples = samplesOf values := samples_observeAll name help hsum hcount
    rw [hsamples]
    exact bucketsConsistent_samplesOf values
  · rw [hexported]
    exact sum_eq_seconds_iff values

/-- Two observations of 0. -/
theorem exported_histogram_consistent_zero :
    let h := observeAll [0, 0] (prometheusHistogramCreate (ascii "d") (ascii "D"))
    BucketsConsistent [secondsOf 0, secondsOf 0] h.samples ∧
      (h.samples.sum : ℚ) = ([0, 0].map secondsOf).sum := by
  have hall := exported_histogram_consistent_iff (ascii "d") (ascii "D") [0, 0] (by decide)
  have hzero : ∀ v ∈ ([0, 0] : List UInt64), v = 0 := fun v hv => List.eq_of_mem_replicate (n := 2) hv
  exact ⟨hall.2.1.mpr (by decide), hall.2.2.2.mpr hzero⟩

/-- One observation of 1.5 s: the exported sum, and with it the mean, is 1500000. -/
theorem exported_histogram_consistent_unit :
    let h := observeAll [1500000] (prometheusHistogramCreate (ascii "d") (ascii "D"))
    h.samples.sum = 1500000 ∧ h.samples.count = 1 ∧ ([1500000].map secondsOf).sum = 3 / 2 ∧
      ¬(h.samples.sum : ℚ) / h.samples.count ≤ secondsOf 1500000 := by
  decide +kernel

end CGateway
