import TopologyExporter.Discovery.Walk

/-! # CDP neighbours

The walk of the CDP cache table, indexed by interface and neighbour number.
-/

namespace TopologyExporter.Discovery.Cdp

open Go Utf8 Strconv

def oidCDPCacheTable : GoString := str "1.3.6.1.4.1.9.9.23.1.2.1"
def precedenceRank : Int := 3

def colAddressType : Int := 3
def colAddress : Int := 4
def colDeviceID : Int := 6
def colDevicePort : Int := 7

structure CacheKey where
  ifIndex : Int
  neighIndex : Int
deriving DecidableEq

structure CacheEntry where
  addrType : Int := 0
  addr : List UInt8 := []
  deviceID : GoString := []
  devPort : GoString := []

def cacheColumn (col : Int) (pdu : Pdu) (entry : CacheEntry) : CacheEntry :=
  if col = colAddressType then { entry with addrType := pduInt pdu }
  else if col = colAddress then { entry with addr := pduBytes pdu }
  else if col = colDeviceID then { entry with deviceID := normaliseName (pduString pdu) }
  else if col = colDevicePort then { entry with devPort := sanitisePortName (pduString pdu) }
  else entry

/-- The row index is `col.ifIndex.neighIndex`, both positive. -/
def cacheRow (pdu : Pdu) : Option (CacheKey × (CacheEntry → CacheEntry)) := do
  let suffix ← trimOIDPrefix pdu.name (0x2E :: oidCDPCacheTable ++ str ".1.")
  let (col, rest) ← splitOIDComponent suffix
  let (ifIndex, neighStr) ← splitOIDComponent rest
  if ifIndex ≤ 0 then none
  else
    let neighIndex ← atoi neighStr
    if neighIndex ≤ 0 then none
    else some (⟨ifIndex, neighIndex⟩, cacheColumn col pdu)

def walkCacheTable (agent : Agent) : Except WalkError (Map CacheKey CacheEntry × Bool) := do
  let pdus ← agent.bulkWalk oidCDPCacheTable
  return (Map.updateRows {} ∅ (pdus.filterMap cacheRow), !pdus.isEmpty)

/-- The neighbour's address, for the two address types that carry one. -/
def cdpNeighborIP (entry : CacheEntry) : Option Net.IP :=
  if entry.addrType = 1 ∧ entry.addr.length = 4 then some entry.addr
  else if entry.addrType = 20 ∧ entry.addr.length = 16 then some entry.addr
  else none

def newEdge (localDevice port : GoString) (entry : CacheEntry) (now : Time) : Edge :=
  { srcDevice := localDevice
    srcPort := port
    dstDevice := entry.deviceID
    dstPort := entry.devPort
    discoveryProto := discoveryProtocolCDP
    direction := directionUnidirectional
    confidence := confidenceHigh
    adjacency := adjacencyDirect
    precedenceRank := precedenceRank
    linkKind := linkKindEthernet
    observedAt := now
    metadata := ∅ }

def rowOutcome (localDevice : GoString) (ifNames : Map Int GoString)
    (allowedNets : List Net.IPNet) (now : Time) (key : CacheKey) (entry : CacheEntry) :
    RowOutcome :=
  let port := interfaceName ifNames key.ifIndex
  if entry.deviceID = [] ∨ entry.devPort = [] then .rejected
  else match cdpNeighborIP entry with
    | none =>
        if allowedNets ≠ [] ∧ isCatchAll allowedNets = false then .dropped
        else .edge (newEdge localDevice port entry now)
    | some remIP =>
        if outOfScope remIP allowedNets then
          .outOfScope (newOutOfScopeNeighbour discoveryProtocolCDP localDevice port
            entry.deviceID now)
        else .edge (newEdge localDevice port entry now)

def buildEdges (order : RangeOrder) (localDevice : GoString) (ifNames : Map Int GoString)
    (entries : Map CacheKey CacheEntry) (allowedNets : List Net.IPNet) (now : Time) :
    List RowOutcome :=
  (entries.range order 0).map (fun (key, entry) =>
    rowOutcome localDevice ifNames allowedNets now key entry)

def walk (agent : Agent) (order : RangeOrder) (localDevice : GoString)
    (allowedNets : List Net.IPNet) (now : Time) : Except WalkError WalkResult := do
  let ifNames ← walkIfNamesWithFallback agent
  let (entries, hadPDUs) ← walkCacheTable agent
  let rows := buildEdges order localDevice ifNames entries allowedNets now
  return collectRows (rowsOutcome (str "cdp") hadPDUs rows) rows

/-! ## The edges of a CDP walk -/

theorem cacheRow_column {pdu : Pdu} {row : CacheKey × (CacheEntry → CacheEntry)}
    (hrow : cacheRow pdu = some row) :
    InRange row.1.ifIndex ∧ ∃ col, row.2 = cacheColumn col pdu := by
  simp only [cacheRow, Option.bind_eq_bind, Option.bind_eq_some_iff] at hrow
  obtain ⟨_, _, column, _, index, hindex, hrow⟩ := hrow
  split_ifs at hrow
  simp only [Option.bind_eq_some_iff] at hrow
  obtain ⟨_, _, hrow⟩ := hrow
  split_ifs at hrow
  cases hrow
  exact ⟨splitOIDComponent_inRange hindex, column.1, rfl⟩

theorem cacheColumn_deviceID (col : Int) (pdu : Pdu) (entry : CacheEntry) :
    (cacheColumn col pdu entry).deviceID = entry.deviceID ∨
      (cacheColumn col pdu entry).deviceID = normaliseName (pduString pdu) := by
  unfold cacheColumn
  split_ifs <;> simp

theorem cacheColumn_devPort (col : Int) (pdu : Pdu) (entry : CacheEntry) :
    (cacheColumn col pdu entry).devPort = entry.devPort ∨
      (cacheColumn col pdu entry).devPort = sanitisePortName (pduString pdu) := by
  unfold cacheColumn
  split_ifs <;> simp

/-- The names in a cache row are clean. -/
structure CleanEntry (entry : CacheEntry) : Prop where
  deviceID : Clean entry.deviceID
  devPort : Clean entry.devPort

variable {entry : CacheEntry} {localDevice : GoString} {now : Time}

theorem cleanEntry_cacheColumn (col : Int) (pdu : Pdu) (hentry : CleanEntry entry) :
    CleanEntry (cacheColumn col pdu entry) := by
  constructor
  · rcases cacheColumn_deviceID col pdu entry with hsame | hname
    · rw [hsame]
      exact hentry.deviceID
    · rw [hname]
      exact clean_normaliseName _
  · rcases cacheColumn_devPort col pdu entry with hsame | hname
    · rw [hsame]
      exact hentry.devPort
    · rw [hname]
      exact clean_sanitisePortName _

variable {agent : Agent} {key : CacheKey} {allowedNets : List Net.IPNet}

theorem walkCacheTable_entries {entries : Map CacheKey CacheEntry} {hadPDUs : Bool}
    (hwalk : walkCacheTable agent = .ok (entries, hadPDUs))
    (hentry : entries.lookup key = some entry) : InRange key.ifIndex ∧ CleanEntry entry := by
  obtain ⟨pdus, -, hentries⟩ := bind_eq_ok.mp hwalk
  cases hentries
  constructor
  · rcases Map.updateRows_key hentry with ⟨row, hrow, rfl⟩ | ⟨held, hempty⟩
    · obtain ⟨pdu, -, hdecode⟩ := List.mem_filterMap.mp hrow
      exact (cacheRow_column hdecode).1
    · simp at hempty
  · refine Map.updateRows_forall CleanEntry ⟨clean_nil, clean_nil⟩ ?_ (by simp) key entry hentry
    intro row hrow entry hclean
    obtain ⟨pdu, -, hdecode⟩ := List.mem_filterMap.mp hrow
    obtain ⟨-, col, hcolumn⟩ := cacheRow_column hdecode
    rw [hcolumn]
    exact cleanEntry_cacheColumn col pdu hclean

theorem rowOutcome_edge {ifNames : Map Int GoString} {edge : Edge}
    (hedge : rowOutcome localDevice ifNames allowedNets now key entry = .edge edge) :
    entry.deviceID ≠ [] ∧ entry.devPort ≠ [] ∧
      edge = newEdge localDevice (interfaceName ifNames key.ifIndex) entry now := by
  simp only [rowOutcome] at hedge
  split at hedge
  · cases hedge
  next hnames =>
      rw [not_or] at hnames
      refine ⟨hnames.1, hnames.2, ?_⟩
      split at hedge
      · split_ifs at hedge
        exact (RowOutcome.edge.inj hedge).symm
      · split_ifs at hedge
        exact (RowOutcome.edge.inj hedge).symm

theorem walkedEdge_newEdge {port : GoString} (hport : Clean port) (hentry : CleanEntry entry) :
    WalkedEdge localDevice (newEdge localDevice port entry now) where
  srcDevice_eq := rfl
  srcPort := hport
  dstDevice := hentry.deviceID.valid
  dstPort := hentry.devPort
  discoveryProto := show Plain 16 discoveryProtocolCDP by decide
  linkKind := show Plain 16 linkKindEthernet by decide
  metadata := publishableMetadata_empty
  ranked := show (discoveryProtocolCDP, precedenceRank) ∈ protocolRanks by decide
  fdb_dstPort := fun hfdb =>
    absurd hfdb (show discoveryProtocolCDP ≠ discoveryProtocolFDB by decide)

theorem walk_edges {order : RangeOrder} {result : WalkResult}
    (hwalk : walk agent order localDevice allowedNets now = .ok result) :
    ∀ edge ∈ result.edges, WalkedEdge localDevice edge := by
  obtain ⟨ifNames, hnames, hwalk⟩ := bind_eq_ok.mp hwalk
  obtain ⟨⟨entries, hadPDUs⟩, hentries, hresult⟩ := bind_eq_ok.mp hwalk
  cases hresult
  intro edge hedge
  obtain ⟨⟨key, entry⟩, hmem, hrow⟩ := List.mem_map.mp (mem_collectRows.mp hedge)
  obtain ⟨-, -, rfl⟩ := rowOutcome_edge hrow
  obtain ⟨hindex, hclean⟩ := walkCacheTable_entries hentries (Map.mem_range.mp hmem)
  exact walkedEdge_newEdge
    (clean_interfaceName (fun _ _ => clean_walkIfNamesWithFallback hnames) hindex) hclean

end TopologyExporter.Discovery.Cdp
