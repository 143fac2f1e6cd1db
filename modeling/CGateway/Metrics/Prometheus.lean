import CGateway.Lib.Search
import CGateway.Limiter.Backpressure

/-! # The Prometheus exporter and the reader of its text

`prometheus_export_text` writes the metrics in the order counters, gauges, histograms, each with a line of help and a
line with its type in front of its value. `parse_backpressure_from_metrics` looks for the name of a metric in such a
text and takes the number behind it for the value. The first place where the name stands is the line of help.

* `TextField`, `Metric`, `MetricsRegistry` — the registry, as its arrays bound it;
* `registryPieces`, `prometheusExportText` — what is written, piece by piece;
* `skips_metricPieces` — a metric that does not mention a name is passed over by a search for it;
* `parse_export` — what is read is the number in the help text;
* `backpressure_export_iff` — when that is the value. -/

namespace CGateway

open Bytes CString

/-! ### The registry -/

/-- The text in an array of so many bytes. -/
structure TextField (size : ℕ) where
  bytes : List UInt8
  fits : bytes.length < size
  terminated : 0 ∉ bytes

/-- `strncpy` with the NUL that is written behind it. -/
def TextField.copy (size : ℕ) (hsize : 0 < size) (s : List UInt8) : TextField size where
  bytes := copyField size s
  fits := by
    have hlength := length_copyField_le size s
    omega
  terminated := fun hmem => zero_notMem_cstr s (List.mem_of_mem_take hmem)

/-- `metric_label_t`. -/
structure MetricLabel where
  key : TextField 128
  value : TextField 128

/-- `MAX_LABELS`. -/
def maxLabels : ℕ := 8

/-- `MAX_METRICS`. -/
def maxMetrics : ℕ := 100

/-- What every metric has. -/
structure Metric where
  name : TextField 128
  help : TextField 256
  labels : List MetricLabel
  labels_le : labels.length ≤ maxLabels

/-- `prometheus_counter_t`. -/
structure PrometheusCounter extends Metric where
  value : UInt64

/-- `prometheus_gauge_t`. -/
structure PrometheusGauge extends Metric where
  value : Int64

/-- `prometheus_histogram_t`, with the default buckets, which no function changes. -/
structure PrometheusHistogram extends Metric where
  buckets : Vector UInt64 10
  sum : UInt64
  count : UInt64

/-- The registered metrics. -/
structure MetricsRegistry where
  counters : List PrometheusCounter
  gauges : List PrometheusGauge
  histograms : List PrometheusHistogram
  counters_le : counters.length ≤ maxMetrics
  gauges_le : gauges.length ≤ maxMetrics
  histograms_le : histograms.length ≤ maxMetrics

/-- A new metric with this name and this help text, both cut to their arrays. -/
def Metric.create (name help : List UInt8) : Metric where
  name := .copy 128 (by decide) name
  help := .copy 256 (by decide) help
  labels := []
  labels_le := Nat.zero_le maxLabels

/-- `prometheus_counter_create`. -/
def prometheusCounterCreate (name help : List UInt8) : PrometheusCounter := { Metric.create name help with value := 0 }

/-- `prometheus_gauge_create`. -/
def prometheusGaugeCreate (name help : List UInt8) : PrometheusGauge := { Metric.create name help with value := 0 }

/-- `prometheus_histogram_create`. -/
def prometheusHistogramCreate (name help : List UInt8) : PrometheusHistogram :=
  { Metric.create name help with buckets := .replicate 10 0, sum := 0, count := 0 }

/-- `prometheus_gauge_set`. -/
def prometheusGaugeSet (gauge : PrometheusGauge) (value : Int64) : PrometheusGauge := { gauge with value := value }

/-- `prometheus_counter_add_label`: a label too many is dropped. -/
def prometheusCounterAddLabel (counter : PrometheusCounter) (key value : List UInt8) : PrometheusCounter :=
  if h : counter.labels.length < maxLabels then
    { counter with
      labels := counter.labels ++ [⟨.copy 128 (by decide) key, .copy 128 (by decide) value⟩]
      labels_le := by
        rw [List.length_append, List.length_singleton]
        exact h }
  else counter

/-! ### The text -/

/-- `# HELP` with the name and the help text. -/
def helpLine (m : Metric) : List UInt8 :=
  ascii "# HELP " ++ (m.name.bytes ++ 32 :: (m.help.bytes ++ [10]))

/-- `# TYPE` with the name and the type. -/
def typeLine (m : Metric) (type : String) : List UInt8 :=
  ascii "# TYPE " ++ (m.name.bytes ++ 32 :: (ascii type ++ [10]))

/-- `key="value"`. -/
def labelText (label : MetricLabel) : List UInt8 :=
  label.key.bytes ++ 61 :: 34 :: (label.value.bytes ++ [34])

/-- The labels behind the first one. -/
def moreLabels : List MetricLabel → List (List UInt8)
  | [] => []
  | label :: labels => ascii "," :: labelText label :: moreLabels labels

/-- The labels of a counter or a gauge. -/
def labelPieces : List MetricLabel → List (List UInt8)
  | [] => []
  | label :: labels => ascii "\x7b" :: labelText label :: (moreLabels labels ++ [ascii "\x7d"])

/-- A counter or a gauge, in the pieces in which it is written. -/
def metricPieces (m : Metric) (type : String) (value : List UInt8) : List (List UInt8) :=
  helpLine m :: typeLine m type :: m.name.bytes :: (labelPieces m.labels ++ [32 :: (value ++ [10])])

/-- The upper bounds of the buckets, as `%.3f` writes them. -/
def bucketBounds : List String :=
  ["0.001", "0.005", "0.010", "0.050", "0.100", "0.500", "1.000", "5.000", "10.000", "+Inf"]

/-- One more label in `label_str`, where it fits the 512 bytes. -/
def addLabel (labelStr : List UInt8) (label : MetricLabel) : List UInt8 :=
  if (labelText label).length < 512 - labelStr.length then labelStr ++ labelText label else labelStr

/-- `label_str` of a histogram. No function of the exporter gives a histogram a label. -/
def histogramLabels : List MetricLabel → List UInt8
  | [] => []
  | label :: labels =>
      labels.foldl (fun labelStr label => addLabel (labelStr ++ ascii ",") label) (addLabel (ascii "\x7b") label) ++
        ascii "\x7d"

/-- The line of one bucket. -/
def bucketLine (h : PrometheusHistogram) (bound : String) (count : UInt64) : List UInt8 :=
  let labels := if h.labels = [] then [] else ascii "," ++ (histogramLabels h.labels).drop 1
  -- The labels end with a brace of their own.
  h.name.bytes ++ ascii "_bucket\x7ble=\"" ++ ascii bound ++ ascii "\"" ++ labels ++ ascii "\x7d " ++
    decimalNat count.toNat ++ ascii "\n"

/-- A histogram, in the pieces in which it is written. -/
def histogramPieces (h : PrometheusHistogram) : List (List UInt8) :=
  [helpLine h.toMetric, typeLine h.toMetric "histogram"] ++
    (bucketBounds.zip h.buckets.toList).map (fun bucket => bucketLine h bucket.1 bucket.2) ++
    [h.name.bytes ++ ascii "_sum" ++ histogramLabels h.labels ++ ascii " " ++ decimalNat h.sum.toNat ++ ascii "\n",
     h.name.bytes ++ ascii "_count" ++ histogramLabels h.labels ++ ascii " " ++ decimalNat h.count.toNat ++ ascii "\n"]

def counterPieces (c : PrometheusCounter) : List (List UInt8) :=
  metricPieces c.toMetric "counter" (decimalNat c.value.toNat)

def gaugePieces (g : PrometheusGauge) : List (List UInt8) := metricPieces g.toMetric "gauge" (decimal g.value.toInt)

/-- The pieces of all metrics. -/
def registryPieces (r : MetricsRegistry) : List (List UInt8) :=
  r.counters.flatMap counterPieces ++ r.gauges.flatMap gaugePieces ++ r.histograms.flatMap histogramPieces

/-- One `snprintf` into the rest of the buffer. -/
def writePiece (bufferSize : ℕ) (written piece : List UInt8) : Option (List UInt8) :=
  if piece.length < bufferSize - written.length then some (written ++ piece) else none

/-- `prometheus_export_text`: the text in the buffer, nothing where it does not fit. -/
def prometheusExportText (r : MetricsRegistry) (bufferSize : UInt64) : Option (List UInt8) :=
  if bufferSize = 0 then none else (registryPieces r).foldlM (writePiece bufferSize.toNat) []

/-- The pieces are written whole, one after the other, as long as the NUL has its place. -/
theorem foldlM_writePiece {bufferSize : ℕ} {written : List UInt8} (h : written.length < bufferSize)
    (pieces : List (List UInt8)) :
    pieces.foldlM (writePiece bufferSize) written =
      if (written ++ pieces.flatten).length < bufferSize then some (written ++ pieces.flatten) else none := by
  induction pieces generalizing written with
  | nil =>
    rw [List.flatten_nil, List.append_nil, if_pos h]
    rfl
  | cons piece pieces ih =>
    rw [List.foldlM_cons, writePiece, List.flatten_cons, ← List.append_assoc]
    split
    · next hfits =>
        have hlength : (written ++ piece).length < bufferSize := by
          rw [List.length_append]
          omega
        exact ih hlength
    · next hfull =>
        have hlong : ¬(written ++ piece ++ pieces.flatten).length < bufferSize := by
          rw [List.length_append, List.length_append]
          omega
        rw [if_neg hlong]
        rfl

/-- **The exporter** writes all of the text or fails. -/
theorem prometheusExportText_eq (r : MetricsRegistry) (bufferSize : UInt64) :
    prometheusExportText r bufferSize =
      if (registryPieces r).flatten.length < bufferSize.toNat then some (registryPieces r).flatten else none := by
  rw [prometheusExportText]
  split
  · next hzero =>
      rw [hzero]
      rfl
  · next hpos =>
      have hroom : ([] : List UInt8).length < bufferSize.toNat := by
        rw [List.length_nil, Nat.pos_iff_ne_zero]
        exact fun h => hpos (UInt64.toNat_inj.mp h)
      exact foldlM_writePiece hroom (registryPieces r)

/-! ### Searching the text -/

/-- The name that the gateway looks for. -/
def backpressureName : List UInt8 := ascii "router_intake_backpressure_active"

/-- The name stands in the metric's own name or in its help text. -/
def Metric.mentions (m : Metric) : Bool :=
  contains backpressureName m.name.bytes || contains backpressureName m.help.bytes

/-- The name stands in a label of the metric. -/
def Metric.labelMentions (m : Metric) : Bool :=
  m.labels.any fun label => contains backpressureName label.key.bytes || contains backpressureName label.value.bytes

/-- What closes a field within the text is not in the name. -/
theorem skips_closed (sep : UInt8) {s : List UInt8} (hs : contains backpressureName s = false)
    (hsep : sep ∉ backpressureName) : Skips backpressureName (s ++ [sep]) :=
  skips_field (by decide) hsep hs

theorem skips_bytes {s : List UInt8} (hs : 114 ∉ s) : Skips backpressureName s := skips_of_notMem hs

/-- A line of help or of a type: its first word, a name and a text. -/
theorem skips_commentLine {word name text : List UInt8} (hword : 114 ∉ word)
    (hname : contains backpressureName name = false) (htext : contains backpressureName text = false) :
    Skips backpressureName (word ++ (name ++ 32 :: (text ++ [10]))) := by
  have hfields := (skips_closed 32 hname (by decide)).append (skips_closed 10 htext (by decide))
  rw [List.append_assoc] at hfields
  exact (skips_bytes hword).append hfields

theorem skips_labelText {label : MetricLabel} (hkey : contains backpressureName label.key.bytes = false)
    (hvalue : contains backpressureName label.value.bytes = false) : Skips backpressureName (labelText label) := by
  have hquoted : Skips backpressureName (34 :: (label.value.bytes ++ [34])) :=
    (skips_bytes (s := [34]) (by decide)).append (skips_closed 34 hvalue (by decide))
  have hfields := (skips_closed 61 hkey (by decide)).append hquoted
  rw [List.append_assoc] at hfields
  exact hfields

section Labels

variable {labels : List MetricLabel}

theorem skips_moreLabels (h : ∀ label ∈ labels, Skips backpressureName (labelText label)) :
    Skips backpressureName (moreLabels labels).flatten := by
  induction labels with
  | nil => exact .nil backpressureName
  | cons label labels ih =>
    rw [List.forall_mem_cons] at h
    rw [moreLabels, List.flatten_cons, List.flatten_cons]
    exact (skips_bytes (by decide)).append (h.1.append (ih h.2))

/-- A name, its labels and the blank behind them. -/
theorem skips_labelPieces {name : List UInt8} (hname : contains backpressureName name = false)
    (h : ∀ label ∈ labels, Skips backpressureName (labelText label)) :
    Skips backpressureName (name ++ ((labelPieces labels).flatten ++ [32])) := by
  -- The name goes up to the brace, or up to the blank where there are no labels.
  cases labels with
  | nil => exact skips_closed 32 hname (by decide)
  | cons label labels =>
    rw [List.forall_mem_cons] at h
    have hopen := skips_closed 123 hname (by decide)
    have hclose : Skips backpressureName [125, 32] := skips_bytes (by decide)
    have hall := hopen.append (h.1.append ((skips_moreLabels h.2).append hclose))
    have htext : name ++ ((labelPieces (label :: labels)).flatten ++ [32])
        = name ++ [123] ++ (labelText label ++ ((moreLabels labels).flatten ++ [125, 32])) := by
      have hbraces : ascii "\x7b" = [123] ∧ ascii "\x7d" = [125] := by decide
      rw [labelPieces, hbraces.1, hbraces.2, List.flatten_cons, List.flatten_cons, List.flatten_append]
      simp
    rw [htext]
    exact hall

end Labels

/-- **A counter or a gauge** that does not mention the name is passed over. -/
theorem skips_metricPieces {m : Metric} (hm : m.mentions = false) (hlabels : m.labelMentions = false) {type : String}
    (htype : contains backpressureName (ascii type) = false) {value : List UInt8} (hvalue : 114 ∉ value) :
    Skips backpressureName (metricPieces m type value).flatten := by
  rw [Metric.mentions, Bool.or_eq_false_iff] at hm
  have hall : ∀ label ∈ m.labels, Skips backpressureName (labelText label) := by
    intro label hmem
    rw [Metric.labelMentions, List.any_eq_false] at hlabels
    have hlabel := hlabels label hmem
    rw [Bool.not_eq_true, Bool.or_eq_false_iff] at hlabel
    exact skips_labelText hlabel.1 hlabel.2
  have hnumber : Skips backpressureName (value ++ [10]) := by
    refine skips_bytes ?_
    rw [List.mem_append, not_or]
    exact ⟨hvalue, by decide⟩
  have htext : (metricPieces m type value).flatten
      = helpLine m ++ (typeLine m type ++
          (m.name.bytes ++ ((labelPieces m.labels).flatten ++ [32]) ++ (value ++ [10]))) := by
    rw [metricPieces, List.flatten_cons, List.flatten_cons, List.flatten_cons, List.flatten_append]
    simp
  rw [htext]
  have hhelpLine : Skips backpressureName (helpLine m) := skips_commentLine (by decide) hm.1 hm.2
  have htypeLine : Skips backpressureName (typeLine m type) := skips_commentLine (by decide) hm.1 htype
  exact hhelpLine.append (htypeLine.append ((skips_labelPieces hm.1 hall).append hnumber))

/-- Metrics that are all passed over. -/
theorem skips_flatMap {α : Type} {pieces : α → List (List UInt8)} {metrics : List α}
    (h : ∀ m ∈ metrics, Skips backpressureName (pieces m).flatten) :
    Skips backpressureName (metrics.flatMap pieces).flatten := by
  rw [List.flatMap_def, List.flatten_flatten]
  refine Skips.flatten ?_
  intro text htext
  rw [List.map_map, List.mem_map] at htext
  obtain ⟨m, hmem, rfl⟩ := htext
  exact h m hmem

theorem skips_counterPieces {c : PrometheusCounter} (hc : c.mentions = false) (hlabels : c.labelMentions = false) :
    Skips backpressureName (counterPieces c).flatten :=
  skips_metricPieces hc hlabels (by decide) (notMem_decimalNat (.inr (by decide)) c.value.toNat)

theorem skips_gaugePieces {g : PrometheusGauge} (hg : g.mentions = false) (hlabels : g.labelMentions = false) :
    Skips backpressureName (gaugePieces g).flatten := by
  refine skips_metricPieces hg hlabels (by decide) ?_
  intro hmem
  have hdigit := toNat_of_mem_decimal hmem
  revert hdigit
  decide

/-! ### The reader -/

/-- What stands before the gauge's name in its line of help. -/
def exportedFront (counters : List PrometheusCounter) (before : List PrometheusGauge) : List UInt8 :=
  (counters.flatMap counterPieces).flatten ++ ((before.flatMap gaugePieces).flatten ++ ascii "# HELP ")

section Export

variable {r : MetricsRegistry} {before after : List PrometheusGauge} {g : PrometheusGauge}
  (hr : r.gauges = before ++ g :: after)
include hr

/-- The registry's text around the help text of a gauge. -/
theorem registry_flatten :
    ∃ rest, (registryPieces r).flatten
      = exportedFront r.counters before ++ (g.name.bytes ++ 32 :: (g.help.bytes ++ 10 :: 35 :: rest)) := by
  have htype : typeLine g.toMetric "gauge" = 35 :: (typeLine g.toMetric "gauge").tail := rfl
  refine ⟨(typeLine g.toMetric "gauge").tail ++ (g.name.bytes ++ (labelPieces g.labels).flatten ++
    32 :: (decimal g.value.toInt ++ [10])) ++ (after.flatMap gaugePieces).flatten ++
    (r.histograms.flatMap histogramPieces).flatten, ?_⟩
  rw [registryPieces, hr, List.flatMap_append, List.flatMap_cons, exportedFront, gaugePieces, metricPieces, htype,
    helpLine]
  simp

/-- **What is read** is the number at the start of the help text. -/
theorem parse_export (hname : g.name.bytes = backpressureName)
    (hcounters : ∀ c ∈ r.counters, c.mentions = false ∧ c.labelMentions = false)
    (hbefore : ∀ b ∈ before, b.mentions = false ∧ b.labelMentions = false) :
    parseBackpressureFromMetrics (registryPieces r).flatten = .active ↔ atoi g.help.bytes = 1 := by
  have hfront : Skips backpressureName (exportedFront r.counters before) := by
    refine Skips.append (skips_flatMap ?_) (Skips.append (skips_flatMap ?_) (skips_bytes (by decide)))
    · intro c hc
      exact skips_counterPieces (hcounters c hc).1 (hcounters c hc).2
    · intro b hb
      exact skips_gaugePieces (hbefore b hb).1 (hbefore b hb).2
  obtain ⟨rest, htext⟩ := registry_flatten hr
  rw [hname] at htext
  have hfound := hfront.splitFirst_eq (by decide) (32 :: (g.help.bytes ++ 10 :: 35 :: rest))
  -- The blank behind the name begins the help text, and no number goes on in the line of the type.
  have hvalue : atoi (skipBlanks (32 :: (g.help.bytes ++ 10 :: 35 :: rest))) = atoi g.help.bytes := by
    have hblank : skipBlanks (32 :: (g.help.bytes ++ 10 :: 35 :: rest)) =
        skipBlanks (g.help.bytes ++ 10 :: 35 :: rest) := rfl
    rw [hblank, atoi_skipBlanks, atoi_append_line rfl rfl (by decide) (by decide)]
  rw [htext, parseBackpressureFromMetrics, ← backpressureName, hfound]
  dsimp only
  rw [List.dropWhile_cons_of_neg (by decide)]
  dsimp only
  rw [hvalue]
  constructor
  · intro hactive
    by_contra hnot
    rw [if_neg hnot] at hactive
    split at hactive <;> cases hactive
  · intro hone
    rw [if_pos hone]

end Export

/-- **The reader and the exporter.** With no label of a metric before the gauge that mentions the name, they agree on
the gauge exactly when its help text begins with a number that is 1 if and only if the value is. -/
theorem backpressure_export_iff (r : MetricsRegistry) (before after : List PrometheusGauge) (g : PrometheusGauge)
    (hr : r.gauges = before ++ g :: after) (hname : g.name.bytes = backpressureName)
    (hcounters : ∀ c ∈ r.counters, c.mentions = false) (hbefore : ∀ b ∈ before, b.mentions = false)
    (hlabels : (∀ c ∈ r.counters, c.labelMentions = false) ∧ ∀ b ∈ before, b.labelMentions = false)
    (bufferSize : UInt64) (text : List UInt8) (htext : prometheusExportText r bufferSize = some text) :
    (parseBackpressureFromMetrics text = .active ↔ g.value = 1) ↔ (atoi g.help.bytes = 1 ↔ g.value = 1) := by
  have hread := parse_export hr hname (fun c hc => ⟨hcounters c hc, hlabels.1 c hc⟩)
    (fun b hb => ⟨hbefore b hb, hlabels.2 b hb⟩)
  rw [prometheusExportText_eq] at htext
  split at htext
  · obtain rfl := Option.some.inj htext
    rw [hread]
  · cases htext

/-- The Router's gauge at one value, behind a counter with a label. -/
def routerRegistry (help : String) (value : Int64) : MetricsRegistry where
  counters := [prometheusCounterAddLabel
    (prometheusCounterCreate (ascii "router_requests_total") (ascii "Requests")) (ascii "route") (ascii "decide")]
  gauges := [prometheusGaugeSet (prometheusGaugeCreate backpressureName (ascii help)) value]
  histograms := []
  counters_le := by decide
  gauges_le := Nat.le_add_left 1 99
  histograms_le := by decide

/-- A help text that happens to begin with the value. -/
theorem backpressure_export_one :
    ∃ text, prometheusExportText (routerRegistry "1 while the Router refuses intake" 1) 4096 = some text ∧
      parseBackpressureFromMetrics text = .active := by
  let r := routerRegistry "1 while the Router refuses intake" 1
  have hfits : (registryPieces r).flatten.length < (4096 : UInt64).toNat := by decide +kernel
  have htext : prometheusExportText r 4096 = some (registryPieces r).flatten := by
    rw [prometheusExportText_eq, if_pos hfits]
  have hiff := backpressure_export_iff r [] []
    (prometheusGaugeSet (prometheusGaugeCreate backpressureName (ascii "1 while the Router refuses intake")) 1) rfl
    (by decide) (by decide) (by decide) (by decide) 4096 (registryPieces r).flatten htext
  exact ⟨_, htext, (hiff.mpr (by decide)).mpr rfl⟩

/-- The value 1 behind an ordinary help text is not seen. -/
theorem backpressure_export_missed :
    (∀ c ∈ (routerRegistry "Router intake backpressure" 1).counters, c.mentions = false ∧ c.labelMentions = false) ∧
      (routerRegistry "Router intake backpressure" 1).gauges.map PrometheusGauge.value = [1] ∧
      (prometheusExportText (routerRegistry "Router intake backpressure" 1) 4096).map parseBackpressureFromMetrics
        = some .inactive := by
  decide +kernel

end CGateway
