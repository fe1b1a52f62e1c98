import TopologyExporter.Federation.Merge
import TopologyExporter.Graph.Key

/-! # The topology collector

A scrape turns the current graph into metrics. Two metrics of one scrape may not
have the same descriptor and the same label values, or the scrape as a whole
fails. Label values are sanitized: runes that do not print are dropped, and the
rest is cut to 128 bytes.
-/

namespace TopologyExporter.Metrics

open Go Utf8 Discovery

def maxLabelLen : Int := 128

/-- The table says which runes outside Latin-1 print. -/
def sanitizeLabel (table : Nat → Bool) (text : GoString) : GoString :=
  truncateAtRuneBoundary
    (Strings.mapRunes (fun rune => if Unicode.isPrint table rune then some rune else none) text)
    maxLabelLen

/-! ## Metrics -/

inductive Desc where
  | deviceInfo
  | deviceUptime
  | edgeInfo
  | oosCount
  | boundaryObs
  | graphEdges
  | graphDevices
deriving DecidableEq

inductive GaugeValue where
  | one
  | seconds (duration : Duration)
  | count (number : Nat)
deriving DecidableEq

structure Metric where
  desc : Desc
  value : GaugeValue
  labels : List GoString
deriving DecidableEq

structure TopologyCollector where
  snap : Graph
  emitBoundaryObs : Bool

def canonicalPair (first second : GoString) : GoString × GoString :=
  if first ≤ second then (first, second) else (second, first)

section Labels

variable (table : Nat → Bool)

def deviceInfoLabels (device : Device) : List GoString :=
  [sanitizeLabel table device.id, sanitizeLabel table device.vendor,
    sanitizeLabel table device.model, sanitizeLabel table device.osVersion,
    sanitizeLabel table device.site]

/-- The direction is the only label that is not sanitized. -/
def edgeInfoLabels (edge : Edge) : List GoString :=
  [sanitizeLabel table edge.srcDevice, sanitizeLabel table edge.srcPort,
    sanitizeLabel table edge.dstDevice, sanitizeLabel table edge.dstPort,
    sanitizeLabel table edge.discoveryProto, sanitizeLabel table edge.linkKind, edge.direction]

/-- The pair has the smaller name first, whichever side reports. -/
def boundaryObsLabels (neighbour : OutOfScopeNeighbour) : List GoString :=
  let peers := canonicalPair (sanitizeLabel table neighbour.reportingDevice)
    (sanitizeLabel table neighbour.neighbourHint)
  [peers.1, peers.2, sanitizeLabel table neighbour.reportingDevice,
    sanitizeLabel table neighbour.reportingPort, sanitizeLabel table neighbour.proto]

def collect (collector : TopologyCollector) : List Metric :=
  collector.snap.devices.flatMap (fun device =>
      [⟨.deviceInfo, .one, deviceInfoLabels table device⟩,
        ⟨.deviceUptime, .seconds device.uptime, [sanitizeLabel table device.id]⟩]) ++
    collector.snap.edges.map (fun edge => ⟨.edgeInfo, .one, edgeInfoLabels table edge⟩) ++
    [⟨.oosCount, .count collector.snap.outOfScope.length, []⟩] ++
    (if collector.emitBoundaryObs then
      collector.snap.outOfScope.map (fun neighbour =>
        ⟨.boundaryObs, .one, boundaryObsLabels table neighbour⟩)
    else []) ++
    [⟨.graphEdges, .count collector.snap.edges.length, []⟩,
      ⟨.graphDevices, .count collector.snap.devices.length, []⟩]

end Labels

/-- What identifies a metric within a scrape. -/
def Metric.series (metric : Metric) : Desc × List GoString := (metric.desc, metric.labels)

/-- A scrape: all metrics, or none if two of them are of one series. -/
def scrape (table : Nat → Bool) (collector : TopologyCollector) : Option (List Metric) :=
  if ((collect table collector).map Metric.series).Nodup then some (collect table collector)
  else none

/-- The label values sent under a descriptor. -/
def sent (desc : Desc) (metrics : List Metric) : List (List GoString) :=
  (metrics.filter (fun metric => metric.desc = desc)).map Metric.labels

@[simp] theorem sent_nil (desc : Desc) : sent desc [] = [] := rfl

@[simp] theorem sent_cons (desc : Desc) (metric : Metric) (rest : List Metric) :
    sent desc (metric :: rest) =
      if metric.desc = desc then metric.labels :: sent desc rest else sent desc rest := by
  by_cases hdesc : metric.desc = desc
  · simp [sent, hdesc]
  · simp [sent, hdesc]

@[simp] theorem sent_append (desc : Desc) (front back : List Metric) :
    sent desc (front ++ back) = sent desc front ++ sent desc back := by
  simp [sent]

@[simp] theorem sent_flatMap {Item : Type} (desc : Desc) (items : List Item)
    (metrics : Item → List Metric) :
    sent desc (items.flatMap metrics) = items.flatMap (fun item => sent desc (metrics item)) := by
  induction items with
  | nil => rfl
  | cons item rest ih => simp [ih]

@[simp] theorem sent_map {Item : Type} (desc : Desc) (items : List Item)
    (metric : Item → Metric) :
    sent desc (items.map metric) = items.flatMap (fun item => sent desc [metric item]) := by
  rw [← sent_flatMap, List.map_eq_flatMap]

theorem flatMap_none {Item Value : Type} (items : List Item) :
    items.flatMap (fun _ => ([] : List Value)) = [] :=
  List.flatMap_eq_nil_iff.mpr fun _ _ => rfl

variable {table : Nat → Bool} {collector : TopologyCollector}

/-- Each descriptor has its own labels, so metrics can only clash with those of
their own kind. -/
theorem nodup_series_iff (metrics : List Metric) :
    (metrics.map Metric.series).Nodup ↔ ∀ desc, (sent desc metrics).Nodup := by
  have hcount : ∀ desc labels, (metrics.map Metric.series).count (desc, labels) =
      (sent desc metrics).count labels := by
    intro desc labels
    induction metrics with
    | nil => rfl
    | cons metric rest ih =>
        rw [List.map_cons, List.count_cons, ih]
        by_cases hdesc : metric.desc = desc
        · simp [sent, Metric.series, hdesc, List.count_cons]
        · simp [sent, Metric.series, hdesc]
  simp only [List.nodup_iff_count_le_one, Prod.forall, hcount]

variable (table collector) in
/-- What a scrape sends under each descriptor. -/
theorem sent_collect (desc : Desc) :
    sent desc (collect table collector) =
      match desc with
      | .deviceInfo => collector.snap.devices.map (deviceInfoLabels table)
      | .deviceUptime => collector.snap.devices.map (fun device => [sanitizeLabel table device.id])
      | .edgeInfo => collector.snap.edges.map (edgeInfoLabels table)
      | .boundaryObs =>
          if collector.emitBoundaryObs then
            collector.snap.outOfScope.map (boundaryObsLabels table)
          else []
      | .oosCount | .graphEdges | .graphDevices => [[]] := by
  cases hemit : collector.emitBoundaryObs with
  | false => cases desc <;> simp [collect, hemit, flatMap_none, ← List.map_eq_flatMap]
  | true => cases desc <;> simp [collect, hemit, flatMap_none, ← List.map_eq_flatMap]

/-! ## Distinct series -/

theorem canonicalPair_injective_right {first second other : GoString}
    (hpair : canonicalPair first second = canonicalPair first other) : second = other := by
  unfold canonicalPair at hpair
  split_ifs at hpair
  · exact (Prod.mk.inj hpair).2
  · obtain ⟨hother, hsecond⟩ := Prod.mk.inj hpair
    rw [hsecond, hother]
  · obtain ⟨hsecond, hother⟩ := Prod.mk.inj hpair
    rw [hsecond, hother]
  · exact (Prod.mk.inj hpair).1

section Clashes

variable (table : Nat → Bool)

def SameDevice (first second : Device) : Prop :=
  sanitizeLabel table first.id = sanitizeLabel table second.id

def SameEdge (first second : Edge) : Prop :=
  sanitizeLabel table first.srcDevice = sanitizeLabel table second.srcDevice ∧
    sanitizeLabel table first.srcPort = sanitizeLabel table second.srcPort ∧
    sanitizeLabel table first.dstDevice = sanitizeLabel table second.dstDevice ∧
    sanitizeLabel table first.dstPort = sanitizeLabel table second.dstPort ∧
    sanitizeLabel table first.discoveryProto = sanitizeLabel table second.discoveryProto ∧
    sanitizeLabel table first.linkKind = sanitizeLabel table second.linkKind ∧
    first.direction = second.direction

def SameNeighbour (first second : OutOfScopeNeighbour) : Prop :=
  sanitizeLabel table first.reportingDevice = sanitizeLabel table second.reportingDevice ∧
    sanitizeLabel table first.reportingPort = sanitizeLabel table second.reportingPort ∧
    sanitizeLabel table first.neighbourHint = sanitizeLabel table second.neighbourHint ∧
    sanitizeLabel table first.proto = sanitizeLabel table second.proto

end Clashes

theorem edgeInfoLabels_inj {first second : Edge} :
    edgeInfoLabels table first = edgeInfoLabels table second ↔ SameEdge table first second := by
  simp only [edgeInfoLabels, SameEdge, List.cons.injEq, and_true]

/-- The pair and the reporting device together tell who the neighbour is. -/
theorem boundaryObsLabels_inj {first second : OutOfScopeNeighbour} :
    boundaryObsLabels table first = boundaryObsLabels table second ↔
      SameNeighbour table first second := by
  constructor
  · intro hlabels
    simp only [boundaryObsLabels, List.cons.injEq, and_true] at hlabels
    obtain ⟨hsmaller, hlarger, hdevice, hport, hproto⟩ := hlabels
    refine ⟨hdevice, hport, ?_, hproto⟩
    rw [hdevice] at hsmaller hlarger
    exact canonicalPair_injective_right (Prod.ext hsmaller hlarger)
  · rintro ⟨hdevice, hport, hhint, hproto⟩
    simp only [boundaryObsLabels, hdevice, hport, hhint, hproto]

theorem nodup_series_of_pairwise
    (hdevices : collector.snap.devices.Pairwise
      (fun first second => ¬ SameDevice table first second))
    (hedges : collector.snap.edges.Pairwise (fun first second => ¬ SameEdge table first second))
    (hneighbours : collector.emitBoundaryObs = true → collector.snap.outOfScope.Pairwise
      (fun first second => ¬ SameNeighbour table first second)) :
    ((collect table collector).map Metric.series).Nodup := by
  rw [nodup_series_iff]
  intro desc
  rw [sent_collect]
  cases desc with
  | deviceInfo =>
      rw [List.Nodup, List.pairwise_map]
      exact hdevices.imp fun hne hsame => hne (List.cons.inj hsame).1
  | deviceUptime =>
      rw [List.Nodup, List.pairwise_map]
      exact hdevices.imp fun hne hsame => hne (List.cons.inj hsame).1
  | edgeInfo =>
      rw [List.Nodup, List.pairwise_map]
      exact hedges.imp fun hne hsame => hne (edgeInfoLabels_inj.mp hsame)
  | boundaryObs =>
      simp only
      split_ifs with hemit
      · rw [List.Nodup, List.pairwise_map]
        exact (hneighbours hemit).imp fun hne hsame => hne (boundaryObsLabels_inj.mp hsame)
      · exact List.nodup_nil
  | oosCount | graphEdges | graphDevices => exact List.nodup_singleton _

/-- A scrape has no two metrics of one series exactly when no two devices have IDs
that look the same once sanitized, and the same holds of the labelled fields of
the edges and, where they are emitted, of the boundary observations. -/
theorem series_distinct_iff (table : Nat → Bool) (collector : TopologyCollector) :
    ((collect table collector).map Metric.series).Nodup ↔
      collector.snap.devices.Pairwise (fun first second => ¬ SameDevice table first second) ∧
        collector.snap.edges.Pairwise (fun first second => ¬ SameEdge table first second) ∧
        (collector.emitBoundaryObs = true →
          collector.snap.outOfScope.Pairwise
            (fun first second => ¬ SameNeighbour table first second)) := by
  refine ⟨?_, fun ⟨hdevices, hedges, hneighbours⟩ =>
    nodup_series_of_pairwise hdevices hedges hneighbours⟩
  rw [nodup_series_iff]
  intro hdistinct
  refine ⟨?_, ?_, ?_⟩
  · have hdevices := hdistinct .deviceUptime
    rw [sent_collect, List.Nodup, List.pairwise_map] at hdevices
    refine hdevices.imp fun hne hsame => hne ?_
    rw [hsame]
  · have hedges := hdistinct .edgeInfo
    rw [sent_collect, List.Nodup, List.pairwise_map] at hedges
    exact hedges.imp fun hne hsame => hne (edgeInfoLabels_inj.mpr hsame)
  · intro hemit
    have hneighbours := hdistinct .boundaryObs
    rw [sent_collect] at hneighbours
    simp only [hemit, if_true, List.Nodup, List.pairwise_map] at hneighbours
    exact hneighbours.imp fun hne hsame => hne (boundaryObsLabels_inj.mpr hsame)

/-- Two devices whose IDs differ by a soft hyphen. -/
def hyphenated : List Device :=
  [Federation.plainDevice (str "sw1"), Federation.plainDevice (str "sw1" ++ [0xC2, 0xAD])]

/-- The hub accepts them, and every scrape of them sends a series twice. -/
theorem hyphenated_series_twice :
    (hyphenated.map Device.id).Nodup ∧
      Federation.validateSpokePayload .insertion ⟨str "east", Time.zero, hyphenated, [], []⟩ =
        none ∧
      ∀ table, ¬ ((collect table ⟨⟨hyphenated, [], []⟩, false⟩).map Metric.series).Nodup := by
  refine ⟨by decide, by decide, ?_⟩
  intro table hdistinct
  have hsame : sanitizeLabel table (str "sw1" ++ [0xC2, 0xAD]) = sanitizeLabel table (str "sw1") :=
    rfl
  have huptimes := (nodup_series_iff _).mp hdistinct .deviceUptime
  rw [sent_collect] at huptimes
  simp [hyphenated, Federation.plainDevice, hsame] at huptimes

end TopologyExporter.Metrics
