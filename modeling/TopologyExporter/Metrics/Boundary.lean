import TopologyExporter.App.Cycle
import TopologyExporter.Foundation.Selection
import TopologyExporter.Metrics.Collector

/-! # Links between uncoordinated instances

Two instances that do not know of each other each export the neighbours that are
out of their scope. A link between them is taken as confirmed when the pair of
devices has two observations for a protocol, one from either side. An instance
exports one observation for every port, so two links that only one side reports
look the same. A scrape that fails exports none.
-/

namespace TopologyExporter.Metrics

open Go Utf8 Discovery Selection

/-- An instance with the devices it polls, and the out-of-scope neighbours they
reported in a cycle. -/
structure Instance where
  reporting : List GoString
  devices : List Device
  edges : List Edge
  observed : List OutOfScopeNeighbour
  reportingDevice_mem : ∀ neighbour ∈ observed, neighbour.reportingDevice ∈ reporting

def Instance.collector (site : Instance) : TopologyCollector where
  snap := ⟨site.devices, site.edges, App.deduplicateOOS site.observed⟩
  emitBoundaryObs := true

/-- The labels are those of an observation of the pair with the protocol. -/
def isObservation (peers : GoString × GoString) (proto : GoString) (labels : List GoString) :
    Bool :=
  match labels with
  | [peerA, peerB, _, _, found] => (peerA, peerB) = peers ∧ found = proto
  | _ => false

/-- The series of an instance that a rule counts for a pair and a protocol. -/
def Instance.observations (table : Nat → Bool) (peers : GoString × GoString) (proto : GoString)
    (site : Instance) : List (List GoString) :=
  (((scrape table site.collector).map (sent .boundaryObs)).getD []).filter
    (isObservation peers proto)

/-- The device names the other one with the protocol. -/
def Reports (observed : List OutOfScopeNeighbour) (device named proto : GoString) : Prop :=
  ∃ neighbour ∈ observed, neighbour.reportingDevice = device ∧ neighbour.neighbourHint = named ∧
    neighbour.proto = proto

/-- The ports on which it does. -/
def namedPorts (observed : List OutOfScopeNeighbour) (device named proto : GoString) :
    List GoString :=
  ((observed.filter (fun neighbour => neighbour.reportingDevice = device ∧
      neighbour.neighbourHint = named ∧ neighbour.proto = proto)).map
    OutOfScopeNeighbour.reportingPort).dedup

/-- What tells records apart when they are deduplicated. -/
def neighbourKey (neighbour : OutOfScopeNeighbour) : GoString × GoString × GoString :=
  (neighbour.reportingDevice, neighbour.reportingPort, neighbour.neighbourHint)

/-- The record is one of the two devices about each other, with the protocol. -/
def Names (one other proto : GoString) (neighbour : OutOfScopeNeighbour) : Prop :=
  (neighbour.reportingDevice = one ∧ neighbour.neighbourHint = other ∨
      neighbour.reportingDevice = other ∧ neighbour.neighbourHint = one) ∧
    neighbour.proto = proto

/-- The records of the pair with the protocol can be told by their labels. They are the
first for their device, port and hint but for others of that protocol. An instance with
such records has no two devices or edges that look the same once sanitized, and two records
that do are of one device, port and hint. -/
structure Legible (table : Nat → Bool) (one other proto : GoString) (site : Instance) : Prop where
  labels : ∀ neighbour ∈ site.observed,
    isObservation (canonicalPair one other) proto (boundaryObsLabels table neighbour) = true ↔
      Names one other proto neighbour
  first : ∀ neighbour ∈ site.observed, Names one other proto neighbour →
    (site.observed.find? (fun other => neighbourKey other = neighbourKey neighbour)).map
      OutOfScopeNeighbour.proto = some proto
  distinct : (∃ neighbour ∈ site.observed, Names one other proto neighbour) →
    site.devices.Pairwise (fun first second => ¬ SameDevice table first second) ∧
      site.edges.Pairwise (fun first second => ¬ SameEdge table first second) ∧
      ∀ first ∈ site.observed, ∀ second ∈ site.observed, SameNeighbour table first second →
        neighbourKey first = neighbourKey second

/-! ## What is counted -/

theorem deduplicateOOS_eq (observed : List OutOfScopeNeighbour) :
    App.deduplicateOOS observed = keepFirst neighbourKey observed := by
  have hsame : ∀ first second, App.sameNeighbour first second =
      decide (neighbourKey first = neighbourKey second) := by
    intro first second
    rw [Bool.eq_iff_iff]
    simp [App.sameNeighbour, neighbourKey]
  simp only [App.deduplicateOOS, keepFirst, hsame]

theorem pairwise_neighbourKey (observed : List OutOfScopeNeighbour) :
    (App.deduplicateOOS observed).Pairwise
      (fun first second => neighbourKey first ≠ neighbourKey second) := by
  rw [deduplicateOOS_eq, ← List.pairwise_map]
  exact nodup_keepFirst observed

variable {table : Nat → Bool} {observed : List OutOfScopeNeighbour} {one other proto : GoString}
  {site : Instance} {neighbour : OutOfScopeNeighbour}

theorem mem_of_mem_deduplicateOOS (hkept : neighbour ∈ App.deduplicateOOS observed) :
    neighbour ∈ observed := by
  rw [deduplicateOOS_eq, mem_keepFirst] at hkept
  exact List.mem_of_find?_eq_some hkept

theorem mem_namedPorts {port : GoString} :
    port ∈ namedPorts observed one other proto ↔
      ∃ neighbour ∈ observed, (neighbour.reportingDevice = one ∧
        neighbour.neighbourHint = other ∧ neighbour.proto = proto) ∧
          neighbour.reportingPort = port := by
  simp [namedPorts, and_assoc]

theorem reports_iff : Reports observed one other proto ↔
    (namedPorts observed one other proto).length ≠ 0 := by
  rw [ne_eq, List.length_eq_zero_iff, List.eq_nil_iff_forall_not_mem]
  simp only [mem_namedPorts, Reports]
  push Not
  constructor
  · rintro ⟨neighbour, hmem, hnames⟩
    exact ⟨_, neighbour, hmem, hnames, rfl⟩
  · rintro ⟨port, neighbour, hmem, hnames, -⟩
    exact ⟨neighbour, hmem, hnames⟩

/-- A device that is polled elsewhere reports nothing here. -/
theorem names_iff (hforeign : other ∉ site.reporting) (hmem : neighbour ∈ site.observed) :
    Names one other proto neighbour ↔ neighbour.reportingDevice = one ∧
      neighbour.neighbourHint = other ∧ neighbour.proto = proto := by
  have hdevice : neighbour.reportingDevice ≠ other := fun heq =>
    hforeign (heq ▸ site.reportingDevice_mem neighbour hmem)
  simp [Names, hdevice, and_assoc]

/-- The records of the pair that are kept. -/
def keptRecords (table : Nat → Bool) (one other proto : GoString) (site : Instance) :
    List OutOfScopeNeighbour :=
  (App.deduplicateOOS site.observed).filter (fun neighbour =>
    isObservation (canonicalPair one other) proto (boundaryObsLabels table neighbour))

theorem observations_eq : site.observations table (canonicalPair one other) proto =
    if ((collect table site.collector).map Metric.series).Nodup then
      (keptRecords table one other proto site).map (boundaryObsLabels table)
    else [] := by
  unfold Instance.observations scrape
  split_ifs
  · rw [Option.map_some, Option.getD_some, sent_collect]
    simp only [Instance.collector, if_true, List.filter_map]
    rfl
  · rfl

theorem Legible.mem_keptRecords (hlegible : Legible table one other proto site) :
    neighbour ∈ keptRecords table one other proto site ↔
      neighbour ∈ App.deduplicateOOS site.observed ∧ Names one other proto neighbour := by
  rw [keptRecords, List.mem_filter]
  exact and_congr_right fun hkept => hlegible.labels _ (mem_of_mem_deduplicateOOS hkept)

/-- The records that are kept are on different ports, and there is one for each port on
which the device names the other. -/
theorem Legible.length_keptRecords (hlegible : Legible table one other proto site)
    (hforeign : other ∉ site.reporting) :
    (keptRecords table one other proto site).length =
      (namedPorts site.observed one other proto).length := by
  have hports : ((keptRecords table one other proto site).map
      OutOfScopeNeighbour.reportingPort).Nodup := by
    rw [List.Nodup, List.pairwise_map]
    refine ((pairwise_neighbourKey site.observed).filter _).imp_of_mem ?_
    intro first second hfirst hsecond hne hport
    apply hne
    obtain ⟨hkept, hnames⟩ := hlegible.mem_keptRecords.mp hfirst
    obtain ⟨hkept', hnames'⟩ := hlegible.mem_keptRecords.mp hsecond
    rw [names_iff hforeign (mem_of_mem_deduplicateOOS hkept)] at hnames
    rw [names_iff hforeign (mem_of_mem_deduplicateOOS hkept')] at hnames'
    simp only [neighbourKey, hport, hnames.1, hnames.2.1, hnames'.1, hnames'.2.1]
  rw [← List.length_map OutOfScopeNeighbour.reportingPort]
  refine ((List.perm_ext_iff_of_nodup hports (List.nodup_dedup _)).mpr fun port => ?_).length_eq
  rw [← namedPorts, mem_namedPorts, List.mem_map]
  constructor
  · rintro ⟨neighbour, hmem, hport⟩
    obtain ⟨hkept, hnames⟩ := hlegible.mem_keptRecords.mp hmem
    have hobserved := mem_of_mem_deduplicateOOS hkept
    exact ⟨neighbour, hobserved, (names_iff hforeign hobserved).mp hnames, hport⟩
  · rintro ⟨neighbour, hobserved, hnames, rfl⟩
    -- The first record of the same device, port and hint is kept, and has the protocol.
    have hproto := hlegible.first neighbour hobserved ((names_iff hforeign hobserved).mpr hnames)
    obtain ⟨found, hfind, hfound⟩ := Option.map_eq_some_iff.mp hproto
    have hkey : neighbourKey found = neighbourKey neighbour := by
      simpa using List.find?_some hfind
    obtain ⟨hdevice, hport, hhint⟩ : found.reportingDevice = neighbour.reportingDevice ∧
        found.reportingPort = neighbour.reportingPort ∧
        found.neighbourHint = neighbour.neighbourHint := by
      simpa [neighbourKey] using hkey
    refine ⟨found, hlegible.mem_keptRecords.mpr ⟨?_, ?_⟩, hport⟩
    · rw [deduplicateOOS_eq, mem_keepFirst, hkey, hfind]
    · rw [names_iff hforeign (List.mem_of_find?_eq_some hfind), hdevice, hhint]
      exact ⟨hnames.1, hnames.2.1, hfound⟩

/-- One series is counted for each port on which the device names the other. -/
theorem Legible.length_observations (hlegible : Legible table one other proto site)
    (hforeign : other ∉ site.reporting) :
    (site.observations table (canonicalPair one other) proto).length =
      (namedPorts site.observed one other proto).length := by
  have hlength := hlegible.length_keptRecords hforeign
  rw [observations_eq]
  split_ifs with hseries
  · rw [List.length_map, hlength]
  · -- Without a record of the pair nothing is lost with a scrape that fails.
    rw [← hlength, List.length_nil, eq_comm, List.length_eq_zero_iff,
      List.eq_nil_iff_forall_not_mem]
    intro neighbour hmem
    obtain ⟨hkept, hnames⟩ := hlegible.mem_keptRecords.mp hmem
    obtain ⟨hdevices, hedges, hneighbours⟩ :=
      hlegible.distinct ⟨neighbour, mem_of_mem_deduplicateOOS hkept, hnames⟩
    refine hseries (nodup_series_of_pairwise hdevices hedges fun _ => ?_)
    refine (pairwise_neighbourKey site.observed).imp_of_mem fun hfirst hsecond hne hsame => hne ?_
    exact hneighbours _ (mem_of_mem_deduplicateOOS hfirst) _ (mem_of_mem_deduplicateOOS hsecond)
      hsame

theorem canonicalPair_comm (first second : GoString) :
    canonicalPair first second = canonicalPair second first := by
  unfold canonicalPair
  split_ifs with hle hge hge
  · rw [le_antisymm hle hge]
  · rfl
  · rfl
  · exact absurd (le_total first second) (not_or.mpr ⟨hle, hge⟩)

/-- Where the records can be told by their labels, counting two observations tells that both
sides reported the link exactly when each side names the other on one port, or when only one
side names the other, if at all, and not on two ports. -/
theorem two_observations_confirm_iff (table : Nat → Bool) (first second : Instance)
    (hdisjoint : first.reporting.Disjoint second.reporting) (one other : GoString)
    (hone : one ∈ first.reporting) (hother : other ∈ second.reporting) (proto : GoString)
    (hfirst : Legible table one other proto first)
    (hsecond : Legible table other one proto second) :
    ((first.observations table (canonicalPair one other) proto).length +
          (second.observations table (canonicalPair one other) proto).length = 2 ↔
        Reports first.observed one other proto ∧ Reports second.observed other one proto) ↔
      ((namedPorts first.observed one other proto).length = 1 ∧
          (namedPorts second.observed other one proto).length = 1) ∨
        ((namedPorts first.observed one other proto).length = 0 ∧
          (namedPorts second.observed other one proto).length ≠ 2) ∨
        ((namedPorts second.observed other one proto).length = 0 ∧
          (namedPorts first.observed one other proto).length ≠ 2) := by
  rw [hfirst.length_observations (fun hmem => hdisjoint hmem hother), canonicalPair_comm,
    hsecond.length_observations (hdisjoint hone), reports_iff, reports_iff]
  omega

/-! ### Two devices -/

/-- An instance that polls one device, which names another one over LLDP on the ports. -/
def linked (device named : GoString) (ports : List GoString) : Instance where
  reporting := [device]
  devices := []
  edges := []
  observed := ports.map (fun port =>
    newOutOfScopeNeighbour discoveryProtocolLLDP device port named Time.zero)
  reportingDevice_mem := by simp [newOutOfScopeNeighbour]

/-- Short printable ASCII is a label value as it is. -/
theorem sanitizeLabel_plain (table : Nat → Bool) {text : GoString} (hplain : Plain 128 text) :
    sanitizeLabel table text = text := by
  have hprint : ∀ rune ∈ runes text, Unicode.isPrint table rune = true := by
    intro rune hrune
    rw [runes_ascii hplain.ascii] at hrune
    obtain ⟨byte, hbyte, rfl⟩ := List.mem_map.mp hrune
    obtain ⟨hlow, hhigh⟩ := hplain.graphic byte hbyte
    rw [Unicode.isPrint, if_pos (by omega)]
    exact decide_eq_true (Or.inl ⟨hlow, by omega⟩)
  have hkept : (runes text).filterMap
      (fun rune => if Unicode.isPrint table rune then some rune else none) = runes text := by
    conv_rhs => rw [← List.filterMap_some (l := runes text)]
    refine List.filterMap_congr fun rune hrune => ?_
    rw [if_pos (hprint rune hrune)]
  have hlength : (text.length : Int) ≤ maxLabelLen := by
    have hbound := hplain.length_le
    simp only [maxLabelLen]
    omega
  rw [sanitizeLabel, Strings.mapRunes, hkept, encode_runes hplain.valid, truncateAtRuneBoundary,
    if_neg (by decide), if_pos hlength]

/-- Records with such names can be told by their labels. -/
theorem legible_linked (table : Nat → Bool) {device named : GoString} {ports : List GoString}
    (hplain : ∀ text ∈ discoveryProtocolLLDP :: device :: named :: ports, Plain 128 text) :
    Legible table device named discoveryProtocolLLDP (linked device named ports) := by
  simp only [List.forall_mem_cons] at hplain
  obtain ⟨hproto, hdevice, hnamed, hports⟩ := hplain
  have hrecord : ∀ neighbour ∈ (linked device named ports).observed, ∃ port ∈ ports,
      neighbour = newOutOfScopeNeighbour discoveryProtocolLLDP device port named Time.zero := by
    intro neighbour hmem
    obtain ⟨port, hport, rfl⟩ := List.mem_map.mp hmem
    exact ⟨port, hport, rfl⟩
  refine ⟨?_, ?_, fun _ => ⟨.nil, .nil, ?_⟩⟩
  · intro neighbour hmem
    obtain ⟨port, -, rfl⟩ := hrecord neighbour hmem
    refine iff_of_true ?_ ⟨Or.inl ⟨rfl, rfl⟩, rfl⟩
    simp [isObservation, boundaryObsLabels, newOutOfScopeNeighbour,
      sanitizeLabel_plain table hdevice, sanitizeLabel_plain table hnamed,
      sanitizeLabel_plain table hproto]
  · intro neighbour hmem _
    cases hfind : (linked device named ports).observed.find?
        (fun other => neighbourKey other = neighbourKey neighbour) with
    | none => simpa using List.find?_eq_none.mp hfind neighbour hmem
    | some found =>
        obtain ⟨port, -, rfl⟩ := hrecord found (List.mem_of_find?_eq_some hfind)
        rfl
  · intro first hfirst second hsecond hsame
    obtain ⟨port, hport, rfl⟩ := hrecord first hfirst
    obtain ⟨other, hother, rfl⟩ := hrecord second hsecond
    have hlabels := hsame.2.1
    simp only [newOutOfScopeNeighbour, sanitizeLabel_plain table (hports port hport),
      sanitizeLabel_plain table (hports other hother)] at hlabels
    rw [hlabels]

/-- One link between two devices, reported from both sides, is confirmed. -/
theorem two_sides_confirm :
    (linked (str "a") (str "b") [str "e1"]).reporting.Disjoint
        (linked (str "b") (str "a") [str "e1"]).reporting ∧
      ∀ table, ((linked (str "a") (str "b") [str "e1"]).observations table
            (canonicalPair (str "a") (str "b")) discoveryProtocolLLDP).length +
          ((linked (str "b") (str "a") [str "e1"]).observations table
            (canonicalPair (str "a") (str "b")) discoveryProtocolLLDP).length = 2 := by
  have hdisjoint : (linked (str "a") (str "b") [str "e1"]).reporting.Disjoint
      (linked (str "b") (str "a") [str "e1"]).reporting := by
    unfold List.Disjoint
    decide
  have hreports : Reports (linked (str "a") (str "b") [str "e1"]).observed (str "a") (str "b")
      discoveryProtocolLLDP := ⟨_, List.mem_cons_self .., rfl, rfl, rfl⟩
  have hback : Reports (linked (str "b") (str "a") [str "e1"]).observed (str "b") (str "a")
      discoveryProtocolLLDP := ⟨_, List.mem_cons_self .., rfl, rfl, rfl⟩
  refine ⟨hdisjoint, fun table => ?_⟩
  exact ((two_observations_confirm_iff table _ _ hdisjoint (str "a") (str "b") (by decide)
    (by decide) discoveryProtocolLLDP (legible_linked table (by decide))
    (legible_linked table (by decide))).mpr (Or.inl (by decide))).mpr ⟨hreports, hback⟩

/-- Two links that one device reports and the other does not are counted as a link
that both reported. -/
theorem two_links_of_one_side_confirm :
    (linked (str "a") (str "b") [str "e1", str "e2"]).reporting.Disjoint
        (linked (str "b") (str "a") []).reporting ∧
      ¬ Reports (linked (str "b") (str "a") []).observed (str "b") (str "a")
        discoveryProtocolLLDP ∧
      ∀ table, ((linked (str "a") (str "b") [str "e1", str "e2"]).observations table
            (canonicalPair (str "a") (str "b")) discoveryProtocolLLDP).length +
          ((linked (str "b") (str "a") []).observations table
            (canonicalPair (str "a") (str "b")) discoveryProtocolLLDP).length = 2 := by
  refine ⟨?_, ?_, fun table => ?_⟩
  · unfold List.Disjoint
    decide
  · rintro ⟨neighbour, hmem, -⟩
    cases hmem
  · rw [(legible_linked table (by decide)).length_observations (by decide), canonicalPair_comm,
      (legible_linked table (by decide)).length_observations (by decide)]
    decide

end TopologyExporter.Metrics
