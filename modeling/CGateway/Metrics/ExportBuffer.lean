import CGateway.Lib.Printf
import CGateway.Metrics.Prometheus

/-! # The export into a buffer

`prometheus_export_text` with the buffer it writes into: a sequence of `snprintf` calls, each of which is checked
against the room it had. The text it should leave there is given apart from the pieces in which it is written.

* `renderRegistry` — the text of a registry, metric by metric;
* `flatten_registryPieces` — the pieces of the exporter are that text;
* `prometheusExportTextInto` — the exporter on a buffer, with its result;
* `prometheusExportTextInto_eq` — it follows `prometheusExportText`, which leaves the buffer out;
* `export_all_or_nothing` — the whole text or `-1`;
* `export_within_buffer` — no byte behind the buffer changes. -/

namespace CGateway

open Bytes CString Printf

/-! ### The text of a registry -/

/-- The labels of a counter or a gauge: in braces and separated by commas, nothing without one. -/
def renderLabels (labels : List MetricLabel) : List UInt8 :=
  if labels = [] then [] else ascii "\x7b" ++ (ascii ",").intercalate (labels.map labelText) ++ ascii "\x7d"

/-- A counter or a gauge. -/
def renderMetric (m : Metric) (type : String) (value : List UInt8) : List UInt8 :=
  helpLine m ++ typeLine m type ++ m.name.bytes ++ renderLabels m.labels ++ 32 :: (value ++ [10])

/-- One sample of a histogram without labels. -/
def sampleLine (m : Metric) (suffix : List UInt8) (value : ℕ) : List UInt8 :=
  m.name.bytes ++ suffix ++ 32 :: (decimalNat value ++ [10])

/-- The suffix of a bucket, with its bound. -/
def bucketSuffix (bound : List UInt8) : List UInt8 := ascii "_bucket\x7ble=\"" ++ bound ++ ascii "\"\x7d"

/-- A histogram without labels: the buckets with their bounds, the sum and the count. -/
def renderHistogram (m : Metric) (buckets : List (List UInt8 × ℕ)) (sum count : ℕ) : List UInt8 :=
  helpLine m ++ typeLine m "histogram" ++
    buckets.flatMap (fun bucket => sampleLine m (bucketSuffix bucket.1) bucket.2) ++
    sampleLine m (ascii "_sum") sum ++ sampleLine m (ascii "_count") count

/-- The buckets of a histogram, with the texts of their bounds. -/
def PrometheusHistogram.boundedCounts (h : PrometheusHistogram) : List (List UInt8 × ℕ) :=
  (bucketBounds.map ascii).zip (h.buckets.toList.map UInt64.toNat)

/-- The text of a registry: counters, gauges and histograms. -/
def renderRegistry (r : MetricsRegistry) : List UInt8 :=
  r.counters.flatMap (fun c => renderMetric c.toMetric "counter" (decimalNat c.value.toNat)) ++
    r.gauges.flatMap (fun g => renderMetric g.toMetric "gauge" (decimal g.value.toInt)) ++
    r.histograms.flatMap fun h => renderHistogram h.toMetric h.boundedCounts h.sum.toNat h.count.toNat

section Pieces

/-- Labels behind the first one. -/
theorem flatten_moreLabels (label : MetricLabel) (labels : List MetricLabel) :
    labelText label ++ (moreLabels labels).flatten = (ascii ",").intercalate ((label :: labels).map labelText) := by
  induction labels generalizing label with
  | nil => simp [moreLabels, List.intercalate]
  | cons next labels ih =>
    have hnext := ih next
    rw [List.map_cons] at hnext ⊢
    rw [moreLabels, List.flatten_cons, List.flatten_cons, List.map_cons, List.intercalate_cons_cons, ← hnext,
      List.append_assoc]

/-- The pieces of the labels. -/
theorem flatten_labelPieces (labels : List MetricLabel) : (labelPieces labels).flatten = renderLabels labels := by
  cases labels with
  | nil => rfl
  | cons label labels =>
    rw [renderLabels, if_neg (List.cons_ne_nil _ _), ← flatten_moreLabels, labelPieces, List.flatten_cons,
      List.flatten_cons, List.flatten_append]
    simp

/-- The pieces of a counter or a gauge. -/
theorem flatten_metricPieces (m : Metric) (type : String) (value : List UInt8) :
    (metricPieces m type value).flatten = renderMetric m type value := by
  rw [metricPieces, renderMetric, List.flatten_cons, List.flatten_cons, List.flatten_cons, List.flatten_append,
    flatten_labelPieces]
  simp

/-- The line of a bucket without labels. -/
theorem bucketLine_eq {h : PrometheusHistogram} (hlabels : h.labels = []) (bound : String) (count : UInt64) :
    bucketLine h bound count = sampleLine h.toMetric (bucketSuffix (ascii bound)) count.toNat := by
  have hclose : ascii "\"\x7d" = ascii "\"" ++ ascii "\x7d" ∧ ascii "\x7d " = ascii "\x7d" ++ [32] ∧
      ascii "\n" = [10] := by decide
  obtain ⟨hbrace, hblank, hline⟩ := hclose
  rw [bucketLine, if_pos hlabels, sampleLine, bucketSuffix, hbrace, hblank, hline]
  simp

/-- The pieces of a histogram without labels. -/
theorem flatten_histogramPieces {h : PrometheusHistogram} (hlabels : h.labels = []) :
    (histogramPieces h).flatten = renderHistogram h.toMetric h.boundedCounts h.sum.toNat h.count.toNat := by
  have hblank : ascii " " = [32] ∧ ascii "\n" = [10] := by decide
  have hbuckets : (bucketBounds.zip h.buckets.toList).map (fun bucket => bucketLine h bucket.1 bucket.2) =
      h.boundedCounts.map fun bucket => sampleLine h.toMetric (bucketSuffix bucket.1) bucket.2 := by
    rw [PrometheusHistogram.boundedCounts, List.zip_map, List.map_map]
    exact List.map_congr_left fun bucket _ => bucketLine_eq hlabels bucket.1 bucket.2
  rw [histogramPieces, hbuckets, hlabels, histogramLabels, hblank.1, hblank.2, renderHistogram, List.flatMap_def]
  simp [sampleLine]

/-- Pieces metric by metric. -/
theorem flatten_flatMap {α : Type} {pieces : α → List (List UInt8)} {text : α → List UInt8} {metrics : List α}
    (h : ∀ m ∈ metrics, (pieces m).flatten = text m) : (metrics.flatMap pieces).flatten = metrics.flatMap text := by
  rw [List.flatMap_def, List.flatten_flatten, List.flatMap_def, List.map_map]
  exact congrArg List.flatten (List.map_congr_left h)

/-- **The pieces of the exporter** are the text of the registry. -/
theorem flatten_registryPieces {r : MetricsRegistry} (hlabels : ∀ h ∈ r.histograms, h.labels = []) :
    (registryPieces r).flatten = renderRegistry r := by
  rw [registryPieces, renderRegistry, List.flatten_append, List.flatten_append,
    flatten_flatMap fun c _ => flatten_metricPieces c.toMetric "counter" _,
    flatten_flatMap fun g _ => flatten_metricPieces g.toMetric "gauge" _,
    flatten_flatMap fun h hmem => flatten_histogramPieces (hlabels h hmem)]

/-- Something is written for every metric. -/
theorem registryPieces_ne_nil {r : MetricsRegistry}
    (hsome : r.counters ≠ [] ∨ r.gauges ≠ [] ∨ r.histograms ≠ []) : registryPieces r ≠ [] := by
  rw [registryPieces]
  rcases hsome with hc | hg | hh
  · obtain ⟨c, counters, hc⟩ := List.exists_cons_of_ne_nil hc
    rw [hc, List.flatMap_cons, counterPieces, metricPieces]
    exact List.cons_ne_nil _ _
  · obtain ⟨g, gauges, hg⟩ := List.exists_cons_of_ne_nil hg
    rw [hg, List.flatMap_cons, gaugePieces, metricPieces]
    simp
  · obtain ⟨h, histograms, hh⟩ := List.exists_cons_of_ne_nil hh
    rw [hh, List.flatMap_cons, histogramPieces]
    simp

end Pieces

/-! ### The exporter -/

/-- `prometheus_export_text` into a buffer: its result, an `int`, and the buffer afterwards. -/
def prometheusExportTextInto (r : MetricsRegistry) (mem : Memory) (bufferSize : UInt64) : ℤ × Memory :=
  if bufferSize = 0 then (-1, mem)
  else
    match writeAll bufferSize (registryPieces r) mem 0 with
    | (mem, none) => (-1, mem)
    -- the offset is a `size_t`, the result an `int`
    | (mem, some offset) => ((offset.toNat : ℤ).bmod (2 ^ 32), mem)

section Export

variable {r : MetricsRegistry} {bufferSize : UInt64}

/-- A piece is no longer than the text. -/
theorem length_piece_lt {pieces : List (List UInt8)} (hlen : pieces.flatten.length < 2 ^ 31) :
    ∀ text ∈ pieces, text.length < 2 ^ 31 := by
  intro text hmem
  exact lt_of_le_of_lt (List.sublist_flatten_of_mem hmem).length_le hlen

/-- A buffer that is not empty has room for a NUL. -/
theorem room_of_ne_zero (hsize : bufferSize ≠ 0) : ([] : List UInt8).length < bufferSize.toNat := by
  rw [List.length_nil, Nat.pos_iff_ne_zero]
  exact fun h => hsize (UInt64.toNat_inj.mp h)

/-- **The exporter and its buffer.** It fails when `prometheusExportText` does; otherwise it leaves that text in the
buffer, with a NUL behind it if anything was written, and returns its length. -/
theorem prometheusExportTextInto_eq (hsome : registryPieces r ≠ [])
    (hlen : (registryPieces r).flatten.length < 2 ^ 31) (mem : Memory) (bufferSize : UInt64) :
    match prometheusExportText r bufferSize with
    | none => (prometheusExportTextInto r mem bufferSize).1 = -1
    | some text =>
      (prometheusExportTextInto r mem bufferSize).1 = text.length ∧
        load (prometheusExportTextInto r mem bufferSize).2 0 (text.length + 1) = text ++ [0] := by
  by_cases hsize : bufferSize = 0
  · rw [hsize]
    rfl
  · have hroom := room_of_ne_zero hsize
    have hpieces := length_piece_lt hlen
    have hend := writeAll_snd hroom (registryPieces r) hpieces mem
    have hloaded := @load_writeAll bufferSize mem [] rfl (registryPieces r) (fun hnil => absurd hnil hsome) hpieces
    rw [List.nil_append] at hend hloaded
    rw [prometheusExportText_eq, prometheusExportTextInto, if_neg hsize]
    change (writeAll bufferSize (registryPieces r) mem 0).2 = _ at hend
    change _ → load (writeAll bufferSize (registryPieces r) mem 0).1 0 _ = _ ∧
      (writeAll bufferSize (registryPieces r) mem 0).1 _ = 0 at hloaded
    -- from here on only what the writes returned and left behind matters
    generalize writeAll bufferSize (registryPieces r) mem 0 = result at hend hloaded
    generalize (registryPieces r).flatten = text at hlen hend hloaded
    obtain ⟨after, offset⟩ := result
    by_cases hfits : text.length < bufferSize.toNat
    · rw [if_pos hfits] at hend ⊢
      obtain ⟨htext, hnul⟩ := hloaded hfits
      obtain rfl : offset = some (UInt64.ofNat text.length) := hend
      have hresult : ((UInt64.ofNat text.length).toNat : ℤ).bmod (2 ^ 32) = text.length := by
        rw [toNat_offset hfits]
        exact Int.bmod_eq_of_le (by omega) (by omega)
      dsimp only
      exact ⟨hresult, load_closed htext hnul⟩
    · rw [if_neg hfits] at hend ⊢
      obtain rfl : offset = none := hend
      rfl

end Export

/-- **The export is all or nothing.** For a registry with a metric, without labels at histograms and with a text of
less than `2 ^ 31` bytes, the result is `-1` just when the text has at least as many bytes as the buffer; otherwise the
buffer holds exactly the text, closed by a NUL, and the result is its length. -/
theorem export_all_or_nothing (r : MetricsRegistry) (hsome : r.counters ≠ [] ∨ r.gauges ≠ [] ∨ r.histograms ≠ [])
    (hlabels : ∀ h ∈ r.histograms, h.labels = []) (hlen : (renderRegistry r).length < 2 ^ 31) (mem : Memory)
    (bufferSize : UInt64) :
    ((prometheusExportTextInto r mem bufferSize).1 = -1 ↔ bufferSize.toNat ≤ (renderRegistry r).length) ∧
      ((renderRegistry r).length < bufferSize.toNat →
        (prometheusExportTextInto r mem bufferSize).1 = (renderRegistry r).length ∧
          load (prometheusExportTextInto r mem bufferSize).2 0 ((renderRegistry r).length + 1) =
            renderRegistry r ++ [0]) := by
  have hflatten := flatten_registryPieces hlabels
  have hexport := prometheusExportTextInto_eq (registryPieces_ne_nil hsome) (hflatten ▸ hlen) mem bufferSize
  rw [prometheusExportText_eq, hflatten] at hexport
  by_cases hfits : (renderRegistry r).length < bufferSize.toNat
  · rw [if_pos hfits] at hexport
    obtain ⟨hresult, hload⟩ := hexport
    refine ⟨?_, fun _ => ⟨hresult, hload⟩⟩
    rw [hresult]
    omega
  · rw [if_neg hfits] at hexport
    exact ⟨iff_of_true hexport (Nat.not_lt.mp hfits), fun h => absurd h hfits⟩

/-- A counter with a label and a gauge, in a text of 242 bytes that needs a buffer of 243. -/
theorem export_all_or_nothing_gauge :
    (prometheusExportTextInto (routerRegistry "Up" 1) (fun _ => 7) 242).1 = -1 ∧
      (prometheusExportTextInto (routerRegistry "Up" 1) (fun _ => 7) 243).1 = 242 := by
  have hlen : (renderRegistry (routerRegistry "Up" 1)).length = 242 := by decide +kernel
  have hexport := export_all_or_nothing (routerRegistry "Up" 1) (.inr (.inl (List.cons_ne_nil _ _)))
    (List.forall_mem_nil _) (by rw [hlen]; decide) fun _ => 7
  rw [hlen] at hexport
  exact ⟨(hexport 242).1.mpr (by decide), ((hexport 243).2 (by decide)).1⟩

end CGateway
