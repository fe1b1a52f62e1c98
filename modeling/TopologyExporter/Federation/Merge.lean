import TopologyExporter.Federation.Validate
import TopologyExporter.Foundation.Selection
import TopologyExporter.Graph.Reconcile

/-! # The combined graph

The hub folds the payloads of all spokes into one graph: the devices of every
spoke, the edges they pushed, the links that two spokes see from their own side
of a domain boundary, and the links the operator configured. A second
reconciliation then leaves one edge per link.
-/

namespace TopologyExporter.Federation

open Go Utf8 Discovery Selection TopologyExporter.Graph

structure InterDomainLink where
  localDevice : GoString
  localPort : GoString
  remoteDevice : GoString
  remotePort : GoString
  linkKind : GoString

structure FederationHubConfig where
  maxGraphEdges : Int
  maxGraphDevices : Int
  looseDeviceNameMatching : Bool
  minPushInterval : Duration

structure FederationConfig where
  spokeTimeout : Duration
  knownInterDomainLinks : List InterDomainLink
  hub : FederationHubConfig

abbrev CallID := Nat

/-- What the registry holds for a spoke. The call that pushed the payload is
recorded to tell entries apart; the hub does not read it. -/
structure SpokeEntry where
  payload : SpokePayload
  lastSeen : Time
  call : CallID
deriving DecidableEq

abbrev Spokes := Map GoString SpokeEntry

/-! ## Devices and pushed edges -/

/-- The entries in the order of the spoke names. -/
def sortedSpokes (order : RangeOrder) (spokes : Spokes) : List SpokeEntry :=
  (((spokes.range order 4).map Prod.fst).insertionSort (· ≤ ·)).filterMap
    (fun name => spokes.lookup name)

/-- A device whose ID was seen before is dropped. -/
def addDevice (devices : List Device) (device : Device) : List Device :=
  if device.id ∈ devices.map Device.id then devices else devices ++ [device]

/-- The devices of all spokes, in the order of the spoke names. -/
def listedDevices (order : RangeOrder) (spokes : Spokes) : List Device :=
  (sortedSpokes order spokes).flatMap (fun entry => entry.payload.devices)

def allDevices (order : RangeOrder) (spokes : Spokes) : List Device :=
  (listedDevices order spokes).foldl addDevice []

def reversed (edge : Edge) : Edge :=
  { edge with
    srcDevice := edge.dstDevice, srcPort := edge.dstPort
    dstDevice := edge.srcDevice, dstPort := edge.srcPort }

/-- A bidirectional edge was seen from both sides inside its own domain, so the
observation of the other side is added back. -/
def observedSides (edge : Edge) : List Edge :=
  if edge.direction = directionBidirectional then [edge, reversed edge] else [edge]

def pushedEdges (order : RangeOrder) (spokes : Spokes) : List Edge :=
  (sortedSpokes order spokes).flatMap (fun entry => entry.payload.edges.flatMap observedSides)

/-! ## Links across domain boundaries -/

/-- The lower-cased name up to its first dot. -/
def normalizeDeviceName (name : GoString) : GoString :=
  let lower := Strings.toLower name
  match Strings.cutByte 0x2E lower with
  | some (host, _) => host
  | none => lower

def canonicalizeDeviceName (cfg : FederationConfig) (name : GoString) : GoString :=
  if cfg.hub.looseDeviceNameMatching then normalizeDeviceName name else Strings.toLower name

structure OOSKey where
  device : GoString
  hint : GoString
deriving DecidableEq

structure OOSVal where
  reportingPort : GoString
  proto : GoString
deriving DecidableEq

def oosKey (cfg : FederationConfig) (neighbour : OutOfScopeNeighbour) : OOSKey :=
  ⟨canonicalizeDeviceName cfg neighbour.reportingDevice,
    canonicalizeDeviceName cfg neighbour.neighbourHint⟩

def oosVal (neighbour : OutOfScopeNeighbour) : OOSVal :=
  ⟨neighbour.reportingPort, neighbour.proto⟩

/-- A device pair may have several links, so a key holds a list. -/
def oosIndex (cfg : FederationConfig) (order : RangeOrder) (spokes : Spokes) :
    Map OOSKey (List OOSVal) :=
  Map.groupBy (fun neighbour => some (oosKey cfg neighbour))
    (fun held neighbour => held.getD [] ++ [oosVal neighbour])
    ((spokes.range order 5).flatMap (fun (_, entry) => entry.payload.outOfScope))

/-- A link to be entered as one observation from each side. -/
structure LinkPair where
  src : GoString
  srcPort : GoString
  dst : GoString
  dstPort : GoString
  proto : DiscoveryProtocol
  linkKind : LinkKind
  confidence : Confidence
  rank : Int
deriving DecidableEq

/-- The port pairs that were handled, each with its device pair in order. -/
abbrev Visited := List ((GoString × GoString) × (GoString × GoString))

structure Matching where
  visited : Visited
  pairs : List LinkPair
  unmatched : Nat

/-- The ports of a match under the smaller device name first, so that both
directions of the pair give the same one. -/
def portPair (found : OOSKey) (here there : OOSVal) :
    (GoString × GoString) × (GoString × GoString) :=
  if found.hint < found.device then
    ((found.hint, found.device), (there.reportingPort, here.reportingPort))
  else ((found.device, found.hint), (here.reportingPort, there.reportingPort))

def oosPair (found : OOSKey) (here there : OOSVal) : LinkPair where
  src := found.device
  srcPort := here.reportingPort
  dst := found.hint
  dstPort := there.reportingPort
  proto := if here.proto = [] then there.proto else here.proto
  linkKind := linkKindEthernet
  confidence := confidenceMedium
  rank := 2

def matchPorts (found : OOSKey) (state : Matching) (ports : OOSVal × OOSVal) : Matching :=
  if portPair found ports.1 ports.2 ∈ state.visited then state
  else
    { state with
      visited := state.visited ++ [portPair found ports.1 ports.2]
      pairs := state.pairs ++ [oosPair found ports.1 ports.2] }

def matchKey (index : Map OOSKey (List OOSVal)) (state : Matching)
    (entry : OOSKey × List OOSVal) : Matching :=
  match index.lookup ⟨entry.1.hint, entry.1.device⟩ with
  | none => { state with unmatched := state.unmatched + 1 }
  | some remotes =>
      (entry.2.flatMap (fun here => remotes.map (fun there => (here, there)))).foldl
        (matchPorts entry.1) state

def matchOutOfScope (cfg : FederationConfig) (order : RangeOrder) (spokes : Spokes) : Matching :=
  let index := oosIndex cfg order spokes
  (index.range order 6).foldl (matchKey index) ⟨[], [], 0⟩

/-! ## The merge -/

def knownLinkPair (devices : List Device) (link : InterDomainLink) : Option LinkPair :=
  if link.localDevice ∈ devices.map Device.id ∧ link.remoteDevice ∈ devices.map Device.id then
    some {
      src := link.localDevice
      srcPort := link.localPort
      dst := link.remoteDevice
      dstPort := link.remotePort
      proto := discoveryProtocolConfigured
      linkKind := if link.linkKind = [] then linkKindEthernet else link.linkKind
      confidence := confidenceHigh
      rank := 0 }
  else none

def forwardEdge (now : Time) (pair : LinkPair) : Edge where
  srcDevice := pair.src
  srcPort := pair.srcPort
  dstDevice := pair.dst
  dstPort := pair.dstPort
  discoveryProto := pair.proto
  direction := directionUnidirectional
  confidence := pair.confidence
  adjacency := adjacencyUnknown
  precedenceRank := pair.rank
  linkKind := pair.linkKind
  observedAt := now
  metadata := ∅

def edgePair (now : Time) (pair : LinkPair) : List Edge :=
  [forwardEdge now pair, reversed (forwardEdge now pair)]

/-- Everything the second reconciliation gets to see. Each pair that is entered
reads the clock anew. -/
def observations (cfg : FederationConfig) (order : RangeOrder) (clock : Nat → Time)
    (spokes : Spokes) : List Edge :=
  let pairs := (matchOutOfScope cfg order spokes).pairs ++
    cfg.knownInterDomainLinks.filterMap (knownLinkPair (allDevices order spokes))
  pushedEdges order spokes ++
    pairs.zipIdx.flatMap (fun (pair, index) => edgePair (clock index) pair)

/-- The combined graph, and the number of out-of-scope keys without a reverse
one. -/
def buildCombinedGraph (cfg : FederationConfig) (order : RangeOrder) (clock : Nat → Time)
    (spokes : Spokes) : Discovery.Graph × Nat :=
  (⟨allDevices order spokes, (reconcile order (observations cfg order clock spokes)).1, []⟩,
    (matchOutOfScope cfg order spokes).unmatched)

/-! ## The devices of the combined graph -/

variable {order : RangeOrder} {spokes : Spokes} {device : Device} {cfg : FederationConfig}
  {matched : List (OOSKey × OOSVal × OOSVal)} {state : Matching} {entry : SpokeEntry}
  {devices listed : List Device} {edge : Edge}

theorem mem_sortedSpokes :
    entry ∈ sortedSpokes order spokes ↔ ∃ name, spokes.lookup name = some entry := by
  simp only [sortedSpokes, List.mem_filterMap, List.mem_insertionSort, List.mem_map]
  constructor
  · rintro ⟨name, -, hlookup⟩
    exact ⟨name, hlookup⟩
  · rintro ⟨name, hlookup⟩
    exact ⟨name, ⟨(name, entry), Map.mem_range.mpr hlookup, rfl⟩, hlookup⟩

/-- The device is the first one listed under its ID. -/
def FirstListed (listed : List Device) (device : Device) : Prop :=
  ∃ front back, listed = front ++ device :: back ∧ device.id ∉ front.map Device.id

theorem firstListed_cons {first : Device} {rest : List Device} :
    FirstListed (first :: rest) device ↔
      device = first ∨ (FirstListed rest device ∧ device.id ≠ first.id) := by
  constructor
  · rintro ⟨front, back, hlisted, hnew⟩
    cases front with
    | nil =>
        cases hlisted
        exact Or.inl rfl
    | cons head front =>
        cases hlisted
        rw [List.map_cons, List.mem_cons, not_or] at hnew
        exact Or.inr ⟨⟨front, back, rfl, hnew.2⟩, hnew.1⟩
  · rintro (rfl | ⟨⟨front, back, rfl, hnew⟩, hdiffer⟩)
    · exact ⟨[], rest, rfl, by simp⟩
    · refine ⟨first :: front, back, rfl, ?_⟩
      rw [List.map_cons, List.mem_cons, not_or]
      exact ⟨hdiffer, hnew⟩

/-- What was there before stays; of the rest the first device with each unseen
ID is appended. -/
theorem mem_foldl_addDevice :
    device ∈ listed.foldl addDevice devices ↔
      device ∈ devices ∨ (FirstListed listed device ∧ device.id ∉ devices.map Device.id) := by
  induction listed generalizing devices with
  | nil => simp [FirstListed]
  | cons first rest ih =>
      rw [List.foldl_cons, ih, firstListed_cons, addDevice]
      by_cases hseen : first.id ∈ devices.map Device.id
      · rw [if_pos hseen]
        constructor
        · rintro (hold | ⟨hfirst, hnew⟩)
          · exact Or.inl hold
          · refine Or.inr ⟨Or.inr ⟨hfirst, fun heq => hnew ?_⟩, hnew⟩
            rwa [heq]
        · rintro (hold | ⟨rfl | ⟨hfirst, -⟩, hnew⟩)
          · exact Or.inl hold
          · exact absurd hseen hnew
          · exact Or.inr ⟨hfirst, hnew⟩
      · rw [if_neg hseen, List.mem_append, List.mem_singleton, List.map_append, List.mem_append,
          not_or, List.map_singleton, List.mem_singleton]
        constructor
        · rintro ((hold | rfl) | ⟨hfirst, hnew, hdiffer⟩)
          · exact Or.inl hold
          · exact Or.inr ⟨Or.inl rfl, hseen⟩
          · exact Or.inr ⟨Or.inr ⟨hfirst, hdiffer⟩, hnew⟩
        · rintro (hold | ⟨rfl | ⟨hfirst, hdiffer⟩, hnew⟩)
          · exact Or.inl (Or.inl hold)
          · exact Or.inl (Or.inr rfl)
          · exact Or.inr ⟨hfirst, hnew, hdiffer⟩

theorem mem_allDevices :
    device ∈ allDevices order spokes ↔ FirstListed (listedDevices order spokes) device := by
  rw [allDevices, mem_foldl_addDevice]
  simp

theorem mem_ids_foldl_addDevice {id : GoString} :
    id ∈ (listed.foldl addDevice devices).map Device.id ↔
      id ∈ devices.map Device.id ∨ id ∈ listed.map Device.id := by
  induction listed generalizing devices with
  | nil => simp
  | cons first rest ih =>
      rw [List.foldl_cons, ih, addDevice, List.map_cons, List.mem_cons]
      by_cases hseen : first.id ∈ devices.map Device.id
      · rw [if_pos hseen]
        constructor
        · rintro (hold | hnew)
          · exact Or.inl hold
          · exact Or.inr (Or.inr hnew)
        · rintro (hold | rfl | hnew)
          · exact Or.inl hold
          · exact Or.inl hseen
          · exact Or.inr hnew
      · rw [if_neg hseen, List.map_append, List.mem_append, List.map_singleton,
          List.mem_singleton, or_assoc]

/-- Every device ID that a spoke lists occurs in the combined graph. -/
theorem device_mem_buildCombinedGraph (cfg : FederationConfig) (order : RangeOrder)
    (clock : Nat → Time) {name : GoString} (hentry : spokes.lookup name = some entry)
    (hdevice : device ∈ entry.payload.devices) :
    device.id ∈ (buildCombinedGraph cfg order clock spokes).1.devices.map Device.id := by
  refine mem_ids_foldl_addDevice.mpr (Or.inr (List.mem_map_of_mem ?_))
  exact List.mem_flatMap.mpr ⟨entry, mem_sortedSpokes.mpr ⟨name, hentry⟩, hdevice⟩

/-! ## The observations behind the combined graph -/

theorem mem_pushedEdges :
    edge ∈ pushedEdges order spokes ↔
      ∃ name entry pushed, spokes.lookup name = some entry ∧ pushed ∈ entry.payload.edges ∧
        (edge = pushed ∨ (pushed.direction = directionBidirectional ∧ edge = reversed pushed)) := by
  have hsides : ∀ pushed, edge ∈ observedSides pushed ↔
      edge = pushed ∨ (pushed.direction = directionBidirectional ∧ edge = reversed pushed) := by
    intro pushed
    unfold observedSides
    split_ifs with hdirection
    · simp [hdirection]
    · simp [hdirection]
  simp only [pushedEdges, List.mem_flatMap, mem_sortedSpokes, hsides]
  constructor
  · rintro ⟨entry, ⟨name, hlookup⟩, pushed, hpushed, hside⟩
    exact ⟨name, entry, pushed, hlookup, hpushed, hside⟩
  · rintro ⟨name, entry, pushed, hlookup, hpushed, hside⟩
    exact ⟨entry, ⟨name, hlookup⟩, pushed, hpushed, hside⟩

/-- The links that are entered as a pair of observations. -/
def enteredPairs (cfg : FederationConfig) (order : RangeOrder) (spokes : Spokes) :
    List LinkPair :=
  (matchOutOfScope cfg order spokes).pairs ++
    cfg.knownInterDomainLinks.filterMap (knownLinkPair (allDevices order spokes))

theorem mem_observations {clock : Nat → Time} :
    edge ∈ observations cfg order clock spokes ↔
      edge ∈ pushedEdges order spokes ∨
        ∃ pair index, (enteredPairs cfg order spokes)[index]? = some pair ∧
          edge ∈ edgePair (clock index) pair := by
  simp only [observations, List.mem_append, List.mem_flatMap, Prod.exists,
    List.mk_mem_zipIdx_iff_getElem?]
  rfl

/-! ## The matched links -/

/-- Some spoke pushed the record. -/
def Recorded (spokes : Spokes) (neighbour : OutOfScopeNeighbour) : Prop :=
  ∃ name entry, spokes.lookup name = some entry ∧ neighbour ∈ entry.payload.outOfScope

/-- Two records that name each other's device. -/
def Matched (cfg : FederationConfig) (here there : OutOfScopeNeighbour) : Prop :=
  oosKey cfg there = ⟨(oosKey cfg here).hint, (oosKey cfg here).device⟩

theorem Matched.symm {cfg : FederationConfig} {here there : OutOfScopeNeighbour}
    (hmatched : Matched cfg here there) : Matched cfg there here := by
  unfold Matched at hmatched ⊢
  rw [hmatched]

theorem getD_foldl_append (neighbours : List OutOfScopeNeighbour) (held : Option (List OOSVal)) :
    (neighbours.foldl (fun held neighbour =>
        some (held.getD [] ++ [oosVal neighbour])) held).getD [] =
      held.getD [] ++ neighbours.map oosVal := by
  induction neighbours generalizing held with
  | nil => simp
  | cons neighbour rest ih =>
      rw [List.foldl_cons, ih, Option.getD_some, List.append_assoc, List.singleton_append,
        List.map_cons]

/-- A key holds the values of its records in the order they were gathered in. -/
theorem lookup_oosIndex (cfg : FederationConfig) (order : RangeOrder) (spokes : Spokes)
    (found : OOSKey) :
    ((oosIndex cfg order spokes).lookup found).getD [] =
      (((spokes.range order 5).flatMap (fun (_, entry) => entry.payload.outOfScope)).filter
        (fun neighbour => oosKey cfg neighbour = found)).map oosVal := by
  rw [oosIndex, Map.lookup_groupBy]
  refine (getD_foldl_append _ none).trans ?_
  simp only [Option.getD_none, List.nil_append, Option.some.injEq]

/-- The index holds every record under its key. -/
theorem mem_oosIndex {cfg : FederationConfig} {order : RangeOrder} {spokes : Spokes}
    {found : OOSKey} {value : OOSVal} :
    value ∈ ((oosIndex cfg order spokes).lookup found).getD [] ↔
      ∃ neighbour, Recorded spokes neighbour ∧ oosKey cfg neighbour = found ∧
        oosVal neighbour = value := by
  simp only [lookup_oosIndex, List.mem_map, List.mem_filter, List.mem_flatMap, decide_eq_true_eq]
  constructor
  · rintro ⟨neighbour, ⟨⟨⟨name, entry⟩, hentry, hmem⟩, hkey⟩, hvalue⟩
    exact ⟨neighbour, ⟨name, entry, Map.mem_range.mp hentry, hmem⟩, hkey, hvalue⟩
  · rintro ⟨neighbour, ⟨name, entry, hentry, hmem⟩, hkey, hvalue⟩
    exact ⟨neighbour, ⟨⟨(name, entry), Map.mem_range.mpr hentry, hmem⟩, hkey⟩, hvalue⟩

/-- The device pair and port pair of a link, smaller device first. -/
def LinkPair.ends (pair : LinkPair) : (GoString × GoString) × (GoString × GoString) :=
  if pair.dst < pair.src then ((pair.dst, pair.src), (pair.dstPort, pair.srcPort))
  else ((pair.src, pair.dst), (pair.srcPort, pair.dstPort))

/-- The pairs found so far come from the given matches, and every match has its
ends among them. -/
structure Matching.Covers (state : Matching) (matched : List (OOSKey × OOSVal × OOSVal)) :
    Prop where
  visited : state.visited = state.pairs.map LinkPair.ends
  sound : ∀ pair ∈ state.pairs, ∃ found ∈ matched, pair = oosPair found.1 found.2.1 found.2.2
  complete : ∀ found ∈ matched, portPair found.1 found.2.1 found.2.2 ∈ state.visited

/-- The matches of one key of the index. -/
def keyMatches (index : Map OOSKey (List OOSVal)) (entry : OOSKey × List OOSVal) :
    List (OOSKey × OOSVal × OOSVal) :=
  (entry.2.flatMap (fun here => ((index.lookup ⟨entry.1.hint, entry.1.device⟩).getD []).map
    (fun there => (here, there)))).map (fun pair => (entry.1, pair))

def matchPair (found : OOSKey × OOSVal × OOSVal) : LinkPair :=
  oosPair found.1 found.2.1 found.2.2

theorem ends_matchPair (found : OOSKey × OOSVal × OOSVal) :
    (matchPair found).ends = portPair found.1 found.2.1 found.2.2 := rfl

/-- Of the matches with the same ends the first one is entered. -/
structure Matching.Keeps (state : Matching) (matched : List (OOSKey × OOSVal × OOSVal)) :
    Prop where
  visited : state.visited = state.pairs.map LinkPair.ends
  pairs : state.pairs = keepFirst LinkPair.ends (matched.map matchPair)

theorem Matching.Keeps.matchPorts (hkeeps : state.Keeps matched) (found : OOSKey)
    (ports : OOSVal × OOSVal) :
    (matchPorts found state ports).Keeps (matched ++ [(found, ports)]) := by
  have hseen : portPair found ports.1 ports.2 ∈ state.visited ↔
      (keepFirst LinkPair.ends (matched.map matchPair)).any
        (fun kept => kept.ends = (matchPair (found, ports)).ends) = true := by
    rw [hkeeps.visited, hkeeps.pairs, ends_matchPair, List.mem_map, List.any_eq_true]
    simp only [decide_eq_true_eq]
  unfold Federation.matchPorts
  by_cases hvisited : portPair found ports.1 ports.2 ∈ state.visited
  · rw [if_pos hvisited]
    refine ⟨hkeeps.visited, ?_⟩
    rw [List.map_append, List.map_singleton, keepFirst_concat, if_pos (hseen.mp hvisited)]
    exact hkeeps.pairs
  · rw [if_neg hvisited]
    refine ⟨?_, ?_⟩
    · simp only [List.map_append, hkeeps.visited, List.map_singleton]
      rfl
    · rw [List.map_append, List.map_singleton, keepFirst_concat, if_neg (mt hseen.mpr hvisited),
        ← hkeeps.pairs]
      rfl

theorem Matching.Keeps.foldl_matchPorts (hkeeps : state.Keeps matched) (found : OOSKey)
    (ports : List (OOSVal × OOSVal)) :
    (ports.foldl (Federation.matchPorts found) state).Keeps
      (matched ++ ports.map (fun pair => (found, pair))) := by
  induction ports generalizing state matched with
  | nil => simpa using hkeeps
  | cons first rest ih => simpa using ih (hkeeps.matchPorts found first)

theorem Matching.Keeps.matchKey (hkeeps : state.Keeps matched) (index : Map OOSKey (List OOSVal))
    (entry : OOSKey × List OOSVal) :
    (matchKey index state entry).Keeps (matched ++ keyMatches index entry) := by
  unfold Federation.matchKey keyMatches
  cases index.lookup ⟨entry.1.hint, entry.1.device⟩ with
  | none =>
      -- an unmatched key is only counted
      have hnone : entry.2.flatMap (fun here =>
          ((none : Option (List OOSVal)).getD []).map (fun there => (here, there))) = [] := by simp
      rw [hnone, List.map_nil, List.append_nil]
      exact ⟨hkeeps.visited, hkeeps.pairs⟩
  | some remotes => exact hkeeps.foldl_matchPorts entry.1 _

theorem Matching.Keeps.foldl_matchKey (hkeeps : state.Keeps matched)
    (index : Map OOSKey (List OOSVal)) (entries : List (OOSKey × List OOSVal)) :
    (entries.foldl (Federation.matchKey index) state).Keeps
      (matched ++ entries.flatMap (keyMatches index)) := by
  induction entries generalizing state matched with
  | nil => simpa using hkeeps
  | cons first rest ih => simpa using ih (hkeeps.matchKey index first)

theorem keeps_matchOutOfScope (cfg : FederationConfig) (order : RangeOrder) (spokes : Spokes) :
    (matchOutOfScope cfg order spokes).Keeps
      (((oosIndex cfg order spokes).range order 6).flatMap
        (keyMatches (oosIndex cfg order spokes))) := by
  have hempty : (Matching.mk [] [] 0).Keeps [] := ⟨rfl, rfl⟩
  exact hempty.foldl_matchKey (oosIndex cfg order spokes)
    ((oosIndex cfg order spokes).range order 6)

theorem covers_matchOutOfScope (cfg : FederationConfig) (order : RangeOrder) (spokes : Spokes) :
    (matchOutOfScope cfg order spokes).Covers
      (((oosIndex cfg order spokes).range order 6).flatMap
        (keyMatches (oosIndex cfg order spokes))) := by
  have hkeeps := keeps_matchOutOfScope cfg order spokes
  refine ⟨hkeeps.visited, ?_, ?_⟩
  · intro pair hpair
    rw [hkeeps.pairs, mem_keepFirst] at hpair
    obtain ⟨found, hfound, rfl⟩ := List.mem_map.mp (List.mem_of_find?_eq_some hpair)
    exact ⟨found, hfound, rfl⟩
  · intro found hfound
    obtain ⟨pair, hpair, hends⟩ :=
      exists_mem_keepFirst LinkPair.ends (List.mem_map_of_mem (f := matchPair) hfound)
    rw [hkeeps.visited, hkeeps.pairs, ← ends_matchPair, ← hends]
    exact List.mem_map_of_mem hpair

/-- The matches the hub goes through are the pairs of matching records. -/
theorem mem_keyMatches {found : OOSKey} {here there : OOSVal} :
    (found, here, there) ∈ ((oosIndex cfg order spokes).range order 6).flatMap
        (keyMatches (oosIndex cfg order spokes)) ↔
      ∃ first second, Recorded spokes first ∧ Recorded spokes second ∧ Matched cfg first second ∧
        oosKey cfg first = found ∧ oosVal first = here ∧ oosVal second = there := by
  simp only [List.mem_flatMap, keyMatches, List.mem_map]
  constructor
  · rintro ⟨⟨key, values⟩, hentry, pair, ⟨local_, hlocal, remote, hremote, rfl⟩, heq⟩
    cases heq
    have hlookup := Map.mem_range.mp hentry
    have hhere : here ∈ ((oosIndex cfg order spokes).lookup key).getD [] := by
      rw [hlookup]
      exact hlocal
    obtain ⟨first, hfirst, hkey, hvalue⟩ := mem_oosIndex.mp hhere
    obtain ⟨second, hsecond, hreverse, hother⟩ := mem_oosIndex.mp hremote
    refine ⟨first, second, hfirst, hsecond, ?_, hkey, hvalue, hother⟩
    rw [Matched, hkey, hreverse]
  · rintro ⟨first, second, hfirst, hsecond, hmatched, rfl, rfl, rfl⟩
    have hhere := (@mem_oosIndex cfg order spokes _ _).mpr ⟨first, hfirst, rfl, rfl⟩
    have hthere := (@mem_oosIndex cfg order spokes _ _).mpr ⟨second, hsecond, hmatched, rfl⟩
    cases hlookup : (oosIndex cfg order spokes).lookup (oosKey cfg first) with
    | none =>
        rw [hlookup] at hhere
        cases hhere
    | some values =>
        rw [hlookup] at hhere
        exact ⟨(oosKey cfg first, values), Map.mem_range.mpr hlookup, (oosVal first, oosVal second),
          ⟨oosVal first, hhere, oosVal second, hthere, rfl⟩, rfl⟩

/-- Every pair that is entered comes from two matching records. -/
theorem mem_pairs_matchOutOfScope {pair : LinkPair}
    (hpair : pair ∈ (matchOutOfScope cfg order spokes).pairs) :
    ∃ first second, Recorded spokes first ∧ Recorded spokes second ∧ Matched cfg first second ∧
      pair = oosPair (oosKey cfg first) (oosVal first) (oosVal second) := by
  obtain ⟨⟨found, here, there⟩, hfound, rfl⟩ :=
    (covers_matchOutOfScope cfg order spokes).sound pair hpair
  obtain ⟨first, second, hfirst, hsecond, hmatched, rfl, rfl, rfl⟩ := mem_keyMatches.mp hfound
  exact ⟨first, second, hfirst, hsecond, hmatched, rfl⟩

/-- Every two matching records have their ends entered. -/
theorem exists_pair_of_matched (order : RangeOrder) {first second : OutOfScopeNeighbour}
    (hfirst : Recorded spokes first) (hsecond : Recorded spokes second)
    (hmatched : Matched cfg first second) :
    ∃ pair ∈ (matchOutOfScope cfg order spokes).pairs,
      pair.ends = portPair (oosKey cfg first) (oosVal first) (oosVal second) := by
  have hcovers := covers_matchOutOfScope cfg order spokes
  have hvisited := hcovers.complete _
    (mem_keyMatches.mpr ⟨first, second, hfirst, hsecond, hmatched, rfl, rfl, rfl⟩)
  rw [hcovers.visited] at hvisited
  exact List.mem_map.mp hvisited

/-! ## Plain values -/

/-- No budgets, no rate limit, no configured links. -/
def plainConfig : FederationConfig where
  spokeTimeout := 900 * Time.second
  knownInterDomainLinks := []
  hub := ⟨0, 0, false, 0⟩

def plainDevice (id : GoString) : Device where
  id := id
  vendor := []
  model := []
  osVersion := []
  site := []
  uptime := 0
  labels := ∅

end TopologyExporter.Federation
