import TopologyExporter.Discovery.Walk

/-! # OSPF neighbours

The walk of the OSPF neighbour table. A neighbour is known by its address; an
OSPF adjacency names no port on either side.
-/

namespace TopologyExporter.Discovery.Ospf

open Go Utf8 Strconv

def oidOspfNbrTable : GoString := str "1.3.6.1.2.1.14.10"
def precedenceRank : Int := 6

def colNbrIPAddr : Int := 1
def colNbrState : Int := 6

def stateTwoWay : Int := 4
def stateFull : Int := 8

structure NbrRow where
  nbrIP : Net.IP := []
  state : Int := 0

/-- The column and the row key of `col.ip0.ip1.ip2.ip3.addressLessIndex`. -/
def parseNbrOID (oid stem : GoString) : Option (Int × GoString) := do
  if Strings.hasPrefix oid stem then
    let (colStr, key) ← Strings.cutByte 0x2E (oid.drop stem.length)
    let col ← atoi colStr
    match Strings.split 0x2E key with
    | [ip0, ip1, ip2, ip3, addressLessIndex] =>
        let _ ← [ip0, ip1, ip2, ip3].mapM decimalOctet
        let _ ← atoi addressLessIndex
        some (col, key)
    | _ => none
  else none

def nbrColumn (col : Int) (pdu : Pdu) (row : NbrRow) : NbrRow :=
  if col = colNbrIPAddr then { row with nbrIP := pduIPv4 pdu }
  else if col = colNbrState then
    match pduIntStrict pdu with
    | some state => { row with state }
    -- an undecodable state leaves the row as it was
    | none => row
  else row

def nbrTableRow (pdu : Pdu) : Option (GoString × (NbrRow → NbrRow)) := do
  let (col, key) ← parseNbrOID pdu.name (0x2E :: oidOspfNbrTable ++ str ".1.")
  some (key, nbrColumn col pdu)

def walkOspfNbrTable (agent : Agent) : Except WalkError (Map GoString NbrRow × Bool) := do
  let pdus ← agent.bulkWalk oidOspfNbrTable
  return (Map.updateRows {} ∅ (pdus.filterMap nbrTableRow), !pdus.isEmpty)

def newEdge (localDevice : GoString) (nbrIP : Net.IP) (now : Time) : Edge :=
  { srcDevice := localDevice
    srcPort := []
    dstDevice := Net.ipString nbrIP
    dstPort := []
    discoveryProto := discoveryProtocolOSPF
    direction := directionUnidirectional
    confidence := confidenceMedium
    adjacency := adjacencyDirect
    precedenceRank := precedenceRank
    linkKind := linkKindIP
    observedAt := now
    metadata := ∅ }

def rowOutcome (localDevice : GoString) (allowedNets : List Net.IPNet) (now : Time)
    (row : NbrRow) : RowOutcome :=
  if row.nbrIP = [] then .rejected
  else if Net.isUnspecified row.nbrIP || Net.isLinkLocalUnicast row.nbrIP ||
      Net.isLoopback row.nbrIP then .rejected
  else if row.state ≠ stateFull ∧ row.state ≠ stateTwoWay then .dropped
  else if outOfScope row.nbrIP allowedNets then
    .outOfScope (newOutOfScopeNeighbour (str "ospf") localDevice [] (Net.ipString row.nbrIP) now)
  else .edge (newEdge localDevice row.nbrIP now)

def buildEdges (order : RangeOrder) (localDevice : GoString) (rows : Map GoString NbrRow)
    (allowedNets : List Net.IPNet) (now : Time) : List RowOutcome :=
  (rows.range order 0).map (fun entry => rowOutcome localDevice allowedNets now entry.2)

def walk (agent : Agent) (order : RangeOrder) (localDevice : GoString)
    (allowedNets : List Net.IPNet) (now : Time) : Except WalkError WalkResult := do
  let (table, hadPDUs) ← walkOspfNbrTable agent
  let rows := buildEdges order localDevice table allowedNets now
  return collectRows (rowsOutcome (str "ospf") hadPDUs rows) rows

/-! ## The edges of an OSPF walk -/

variable {allowedNets : List Net.IPNet} {localDevice : GoString} {now : Time}

theorem rowOutcome_edge {row : NbrRow} {edge : Edge}
    (hedge : rowOutcome localDevice allowedNets now row = .edge edge) :
    edge = newEdge localDevice row.nbrIP now := by
  unfold rowOutcome at hedge
  split_ifs at hedge
  exact (RowOutcome.edge.inj hedge).symm

theorem walkedEdge_newEdge (localDevice : GoString) (nbrIP : Net.IP) (now : Time) :
    WalkedEdge localDevice (newEdge localDevice nbrIP now) where
  srcDevice_eq := rfl
  srcPort := clean_nil
  dstDevice := valid_of_graphic (Net.graphic_ipString nbrIP)
  dstPort := clean_nil
  discoveryProto := show Plain 16 discoveryProtocolOSPF by decide
  linkKind := show Plain 16 linkKindIP by decide
  metadata := publishableMetadata_empty
  ranked := show (discoveryProtocolOSPF, precedenceRank) ∈ protocolRanks by decide
  fdb_dstPort := fun _ => rfl

theorem walk_edges {agent : Agent} {order : RangeOrder} {result : WalkResult}
    (hwalk : walk agent order localDevice allowedNets now = .ok result) :
    ∀ edge ∈ result.edges, WalkedEdge localDevice edge := by
  obtain ⟨⟨table, hadPDUs⟩, -, hresult⟩ := bind_eq_ok.mp hwalk
  cases hresult
  intro edge hedge
  obtain ⟨⟨key, row⟩, -, hrow⟩ := List.mem_map.mp (mem_collectRows.mp hedge)
  rw [rowOutcome_edge hrow]
  exact walkedEdge_newEdge localDevice row.nbrIP now

end TopologyExporter.Discovery.Ospf
