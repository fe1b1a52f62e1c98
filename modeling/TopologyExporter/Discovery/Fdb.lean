import TopologyExporter.Discovery.Walk

/-! # Forwarding tables

A bridge port behind which exactly one address was learned has a direct
neighbour. The learned addresses come from the bridge table, the VLAN-aware
bridge table and, for community-based access, one bridge table per VLAN.
-/

namespace TopologyExporter.Discovery.Fdb

open Go Utf8 Strconv

def oidFdbTable : GoString := str "1.3.6.1.2.1.17.4.3"
def oidBasePortTable : GoString := str "1.3.6.1.2.1.17.1.4"
def oidStpPortTable : GoString := str "1.3.6.1.2.1.17.2.15"
def oidQBridgeFdbTable : GoString := str "1.3.6.1.2.1.17.7.1.2.2"
def oidVlanCurrentTable : GoString := str "1.3.6.1.2.1.17.7.1.4.2"
def precedenceRank : Int := 4
def fdbStatusLearned : Int := 3
def stpStateForwarding : Int := 5

def colFdbAddress : Int := 1
def colFdbPort : Int := 2
def colFdbStatus : Int := 3
def colQBridgePort : Int := 2
def colQBridgeStatus : Int := 3
def colBasePortIfIndex : Int := 2
def colStpPortState : Int := 3

/-- A nil address is not the same as an empty one: only the former is filled in
from the index of the VLAN-aware table. -/
structure FdbEntry where
  mac : Option (List UInt8) := none
  port : Int := 0
  status : Int := 0

/-- The address in a binding; copying an empty octet string yields nil. -/
def entryMac (pdu : Pdu) : Option (List UInt8) :=
  match pdu.value with
  | .octets value => if value = [] then none else some value
  | .text value => some value
  | _ => none

def setPort (pdu : Pdu) (entry : FdbEntry) : FdbEntry :=
  if 0 < pduInt pdu then { entry with port := pduInt pdu } else entry

/-- The prefix of the row indexes of a table. -/
def rowPrefix (oid : GoString) : GoString := 0x2E :: oid ++ str ".1."

def fdbColumn (col : Int) (pdu : Pdu) (entry : FdbEntry) : FdbEntry :=
  if col = colFdbAddress then { entry with mac := entryMac pdu }
  else if col = colFdbPort then setPort pdu entry
  else if col = colFdbStatus then
    match pduIntStrict pdu with
    | some status => { entry with status }
    | none => entry
  else entry

def fdbRow (pdu : Pdu) : Option (GoString × (FdbEntry → FdbEntry)) := do
  let suffix ← trimOIDPrefix pdu.name (rowPrefix oidFdbTable)
  let (col, macKey) ← splitOIDComponent suffix
  if macKey = [] then none else some (macKey, fdbColumn col pdu)

def fdbTable (pdus : List Pdu) : Map GoString FdbEntry :=
  Map.updateRows {} ∅ (pdus.filterMap fdbRow)

def walkFdbTable (agent : Agent) : Except WalkError (Map GoString FdbEntry × Bool) := do
  let pdus ← agent.bulkWalk oidFdbTable
  return (fdbTable pdus, !pdus.isEmpty)

/-! ## The VLAN-aware table -/

/-- The address at the end of an index, as a key and as bytes. -/
def parseQBridgeIndex (rest : GoString) : Option (GoString × List UInt8) := do
  let parts := Strings.split 0x2E rest
  if parts.length < 7 then none
  else
    let macParts := parts.drop (parts.length - 6)
    let mac ← macParts.mapM decimalOctet
    some (Strings.join 0x2E macParts, mac)

def fillMac (mac : List UInt8) (entry : FdbEntry) : FdbEntry :=
  if entry.mac = none then { entry with mac := some mac } else entry

def qBridgeColumn (col : Int) (mac : List UInt8) (pdu : Pdu) (entry : FdbEntry) : FdbEntry :=
  if col = colQBridgePort then fillMac mac (setPort pdu entry)
  else match pduIntStrict pdu with
    | some status => fillMac mac { entry with status }
    -- the loop moves on to the next binding before it fills in the address
    | none => entry

def qBridgeRow (pdu : Pdu) : Option (GoString × (FdbEntry → FdbEntry)) := do
  let suffix ← trimOIDPrefix pdu.name (rowPrefix oidQBridgeFdbTable)
  let (col, rest) ← splitOIDComponent suffix
  if rest = [] then none
  else if col ≠ colQBridgePort ∧ col ≠ colQBridgeStatus then none
  else
    let (macKey, mac) ← parseQBridgeIndex rest
    some (macKey, qBridgeColumn col mac pdu)

/-- A failed walk of this table leaves the entries as they are. -/
def walkQBridgeFdbTable (agent : Agent) (entries : Map GoString FdbEntry) :
    Map GoString FdbEntry :=
  match agent.bulkWalk oidQBridgeFdbTable with
  | .error _ => entries
  | .ok pdus => Map.updateRows {} entries (pdus.filterMap qBridgeRow)

/-! ## One table per VLAN -/

def vlanRow (pdu : Pdu) : Option Int := do
  let suffix ← trimOIDPrefix pdu.name (rowPrefix oidVlanCurrentTable)
  let (_, rest) ← splitOIDComponent suffix
  let (_, vlanStr) ← splitOIDComponent rest
  let vlanID ← atoi vlanStr
  if vlanID < 1 ∨ 4094 < vlanID then none else some vlanID

def discoverVlanIDs (agent : Agent) : List Int :=
  match agent.bulkWalk oidVlanCurrentTable with
  | .error _ => []
  | .ok pdus => (pdus.filterMap vlanRow).dedup.insertionSort (· ≤ ·)

def vlanEntries (agent : Agent) (vlan : Int) : Map GoString FdbEntry :=
  match agent.vlanFdbWalk vlan with
  | .error _ => ∅
  | .ok pdus => fdbTable pdus

/-- Adds the entries of one VLAN; an entry that is already there stays. -/
def mergeVlan (order : RangeOrder) (agent : Agent) (entries : Map GoString FdbEntry)
    (vlan : Int) : Map GoString FdbEntry :=
  ((vlanEntries agent vlan).range order 0).foldl Map.insertNew entries

def defaultMaxVlans : Int := 100

def walkVlanCommunityFdbs (agent : Agent) (order : RangeOrder) (params : Params)
    (entries : Map GoString FdbEntry) : Map GoString FdbEntry :=
  if params.v3 ∨ params.community = [] ∨ 0x40 ∈ params.community then entries
  else
    let maxVlans := if params.maxVlans ≤ 0 then defaultMaxVlans else params.maxVlans
    ((discoverVlanIDs agent).take maxVlans.toNat).foldl (mergeVlan order agent) entries

/-! ## Bridge ports -/

/-- The number of a bridge port in the given column, and its value. -/
def bridgePortRow (oid : GoString) (column : Int) (pdu : Pdu) : Option (Int × Int) := do
  let suffix ← trimOIDPrefix pdu.name (rowPrefix oid)
  let (col, portStr) ← splitOIDComponent suffix
  if col ≠ column then none
  else
    let portNum ← atoi portStr
    some (portNum, pduInt pdu)

/-- Bridge ports to interface indexes; ports are numbered from one. -/
def walkBasePortTable (agent : Agent) : Except WalkError (Map Int Int) := do
  let pdus ← agent.bulkWalk oidBasePortTable
  let rows := (pdus.filterMap (bridgePortRow oidBasePortTable colBasePortIfIndex)).filter
    (fun row => 0 < row.1)
  return rows.foldl (fun table row => table.insert row.1 row.2) ∅

def walkStpPortStates (agent : Agent) : Except WalkError (Map Int Int) := do
  let pdus ← agent.bulkWalk oidStpPortTable
  return (pdus.filterMap (bridgePortRow oidStpPortTable colStpPortState)).foldl
    (fun table row => table.insert row.1 row.2) ∅

/-! ## Edges -/

/-- Multicast, broadcast and all-zero addresses. -/
def isSpecialMAC (mac : List UInt8) : Bool :=
  (mac.headD 0) &&& 0x01 != 0 || mac.all (· == 0)

def entryDecoded (entry : FdbEntry) : Bool :=
  (entry.mac.getD []).length == 6 && 0 < entry.port

/-- The bridge port an entry speaks for. -/
def learnedPort (stpStates : Map Int Int) (entry : FdbEntry) : Option Int :=
  if entryDecoded entry = false then none
  else if entry.status ≠ fdbStatusLearned then none
  else if isSpecialMAC (entry.mac.getD []) then none
  else if (stpStates.lookup entry.port).any (· ≠ stpStateForwarding) then none
  else some entry.port

def portMACs (order : RangeOrder) (entries : Map GoString FdbEntry) (stpStates : Map Int Int) :
    Map Int (List Net.HardwareAddr) :=
  Map.groupBy (fun row => learnedPort stpStates row.2)
    (fun held row => held.getD [] ++ [row.2.mac.getD []]) (entries.range order 0)

def newEdge (localDevice localPort : GoString) (mac : Net.HardwareAddr) (now : Time) : Edge :=
  { srcDevice := localDevice
    srcPort := localPort
    dstDevice := Net.hardwareAddrString mac
    dstPort := []
    discoveryProto := discoveryProtocolFDB
    direction := directionUnidirectional
    confidence := confidenceMedium
    adjacency := adjacencyDirect
    precedenceRank := precedenceRank
    linkKind := linkKindEthernet
    observedAt := now
    metadata := ∅ }

def portEdge (localDevice : GoString) (bridgePorts : Map Int Int) (ifNames : Map Int GoString)
    (now : Time) (bridgePort : Int) (macs : List Net.HardwareAddr) : Option Edge := do
  let ifIdx ← bridgePorts.lookup bridgePort
  match macs with
  | [mac] => some (newEdge localDevice (interfaceName ifNames ifIdx) mac now)
  | _ => none

def buildEdges (order : RangeOrder) (localDevice : GoString) (entries : Map GoString FdbEntry)
    (bridgePorts : Map Int Int) (ifNames : Map Int GoString) (stpStates : Map Int Int)
    (now : Time) : List Edge :=
  ((portMACs order entries stpStates).range order 1).filterMap (fun (bridgePort, macs) =>
    portEdge localDevice bridgePorts ifNames now bridgePort macs)

def walk (agent : Agent) (order : RangeOrder) (params : Params) (localDevice : GoString)
    (now : Time) : Except WalkError WalkResult := do
  let (bridgeEntries, hadBridgePDUs) ← walkFdbTable agent
  let entries := walkVlanCommunityFdbs agent order params
    (walkQBridgeFdbTable agent bridgeEntries)
  let hadFdbPDUs := hadBridgePDUs || !entries.entries.isEmpty
  let bridgePorts ← walkBasePortTable agent
  let stpStates ← walkStpPortStates agent
  let ifNames ← walkIfNamesWithFallback agent
  let edges := buildEdges order localDevice entries bridgePorts ifNames stpStates now
  let decoded := entries.entries.any (fun entry => entryDecoded entry.2)
  return { edges
           outOfScope := []
           outcomes := [(str "fdb", classifyNeighbourOutcome edges.length hadFdbPDUs decoded)] }

/-! ## The edges of a forwarding table -/

variable {agent : Agent} {bridgePort : Int} {bridgePorts : Map Int Int}

theorem walkBasePortTable_inRange (hwalk : walkBasePortTable agent = .ok bridgePorts) {ifIdx : Int}
    (hlookup : bridgePorts.lookup bridgePort = some ifIdx) : InRange ifIdx := by
  obtain ⟨pdus, -, hports⟩ := bind_eq_ok.mp hwalk
  cases hports
  have hmem := List.mem_of_mem_filter (mem_of_lookup_foldl_insert hlookup)
  obtain ⟨pdu, -, hrow⟩ := List.mem_filterMap.mp hmem
  simp only [bridgePortRow, Option.bind_eq_bind, Option.bind_eq_some_iff] at hrow
  obtain ⟨suffix, -, column, -, hrow⟩ := hrow
  split_ifs at hrow
  obtain ⟨portNum, -, hrow⟩ := Option.bind_eq_some_iff.mp hrow
  cases hrow
  exact pduInt_inRange pdu

variable {localDevice : GoString} {now : Time}

theorem portEdge_eq {ifNames : Map Int GoString} {macs : List Net.HardwareAddr} {edge : Edge}
    (hedge : portEdge localDevice bridgePorts ifNames now bridgePort macs = some edge) :
    ∃ ifIdx mac, bridgePorts.lookup bridgePort = some ifIdx ∧ macs = [mac] ∧
      edge = newEdge localDevice (interfaceName ifNames ifIdx) mac now := by
  obtain ⟨ifIdx, hport, hedge⟩ := Option.bind_eq_some_iff.mp hedge
  split at hedge
  · cases hedge
    exact ⟨ifIdx, _, hport, rfl, rfl⟩
  · cases hedge

theorem walkedEdge_newEdge {localDevice localPort : GoString} (hport : Clean localPort)
    {mac : Net.HardwareAddr} {now : Time} :
    WalkedEdge localDevice (newEdge localDevice localPort mac now) where
  srcDevice_eq := rfl
  srcPort := hport
  dstDevice := valid_of_graphic (Net.graphic_hardwareAddrString mac)
  dstPort := clean_nil
  discoveryProto := show Plain 16 discoveryProtocolFDB by decide
  linkKind := show Plain 16 linkKindEthernet by decide
  metadata := publishableMetadata_empty
  ranked := show (discoveryProtocolFDB, precedenceRank) ∈ protocolRanks by decide
  fdb_dstPort := fun _ => rfl

theorem walk_edges {order : RangeOrder} {params : Params} {result : WalkResult}
    (hwalk : walk agent order params localDevice now = .ok result) :
    ∀ edge ∈ result.edges, WalkedEdge localDevice edge := by
  obtain ⟨⟨bridgeEntries, hadPDUs⟩, -, hwalk⟩ := bind_eq_ok.mp hwalk
  obtain ⟨bridgePorts, hports, hwalk⟩ := bind_eq_ok.mp hwalk
  obtain ⟨stpStates, -, hwalk⟩ := bind_eq_ok.mp hwalk
  obtain ⟨ifNames, hnames, hresult⟩ := bind_eq_ok.mp hwalk
  cases hresult
  intro edge hedge
  obtain ⟨⟨bridgePort, macs⟩, -, hedge⟩ := List.mem_filterMap.mp hedge
  obtain ⟨ifIdx, mac, hport, -, rfl⟩ := portEdge_eq hedge
  apply walkedEdge_newEdge
  exact clean_interfaceName (fun _ _ => clean_walkIfNamesWithFallback hnames)
    (walkBasePortTable_inRange hports hport)

end TopologyExporter.Discovery.Fdb
