import TopologyExporter.Discovery.System

/-! # BGP peers

Established sessions become edges. The peers come from a vendor table where the
device has one that decodes, and from the standard table otherwise. A BGP
session names no port on either side.
-/

namespace TopologyExporter.Discovery.Bgp

open Go Utf8 Strconv

def walkerVendorCisco : GoString := str "vendor_cisco"
def walkerVendorArista : GoString := str "vendor_arista"
def walkerVendorJuniper : GoString := str "vendor_juniper"
def walkerVendorNokia : GoString := str "vendor_nokia"
def walkerRFC4273 : GoString := str "rfc4273"

def outcomeNoPeers : GoString := str "no_peers"
def outcomeMalformedIndex : GoString := str "malformed_index"
def outcomeError : GoString := str "error"

def oidBgpPeerTable : GoString := str "1.3.6.1.2.1.15.3"
def precedenceRank : Int := 7

def colBgpPeerState : Int := 2
def colBgpPeerRemoteAddr : Int := 7
def colBgpPeerRemoteAs : Int := 9

def bgpStateEstablished : Int := 6
def metaKeyRemoteAs : GoString := str "bgp.remote_as"

/-- A row of a peer table, whichever table it comes from. -/
structure PeerRecord where
  ip : Net.IP := []
  state : Int := 0
  remoteAs : Int := 0

/-! ## Edges from peers -/

def peerMetadata (remoteAs : Int) : Map GoString GoString :=
  if 0 < remoteAs then AList.insert metaKeyRemoteAs (itoa remoteAs) ∅ else ∅

def newEdge (localDevice : GoString) (peer : PeerRecord) (now : Time) : Edge :=
  { srcDevice := localDevice
    srcPort := []
    dstDevice := Net.ipString peer.ip
    dstPort := []
    discoveryProto := discoveryProtocolBGP
    direction := directionUnidirectional
    confidence := confidenceLow
    adjacency := adjacencyUnknown
    precedenceRank := precedenceRank
    linkKind := linkKindIP
    observedAt := now
    metadata := peerMetadata peer.remoteAs }

def rowOutcome (localDevice : GoString) (allowedNets : List Net.IPNet) (now : Time)
    (peer : PeerRecord) : RowOutcome :=
  if peer.state ≠ bgpStateEstablished then .dropped
  else if peer.ip = [] then .rejected
  else if Net.isUnspecified peer.ip || Net.isLinkLocalUnicast peer.ip then .dropped
  else if outOfScope peer.ip allowedNets then
    .outOfScope (newOutOfScopeNeighbour (str "bgp") localDevice [] (Net.ipString peer.ip) now)
  else .edge (newEdge localDevice peer now)

def buildPeerEdges (order : RangeOrder) (localDevice : GoString) (peers : Map GoString PeerRecord)
    (allowedNets : List Net.IPNet) (now : Time) : List RowOutcome :=
  (peers.range order 0).map (fun entry => rowOutcome localDevice allowedNets now entry.2)

/-! ## The standard table -/

def peerColumn (col : Int) (pdu : Pdu) (peer : PeerRecord) : PeerRecord :=
  if col = colBgpPeerState then
    match pduIntStrict pdu with
    | some state => { peer with state }
    -- an undecodable state leaves the peer as it was
    | none => peer
  else if col = colBgpPeerRemoteAddr then { peer with ip := pduIPv4 pdu }
  else if col = colBgpPeerRemoteAs then { peer with remoteAs := pduInt pdu }
  else peer

def peerRow (pdu : Pdu) : Option (GoString × (PeerRecord → PeerRecord)) := do
  let suffix ← trimOIDPrefix pdu.name (0x2E :: oidBgpPeerTable ++ str ".1.")
  let (col, ipKey) ← splitOIDComponent suffix
  if ipKey = [] then none else some (ipKey, peerColumn col pdu)

def walkBgpPeerTable (agent : Agent) : Except WalkError (Map GoString PeerRecord × Bool) := do
  let pdus ← agent.bulkWalk oidBgpPeerTable
  return (Map.updateRows {} ∅ (pdus.filterMap peerRow), !pdus.isEmpty)

/-! ## Vendor tables -/

def inetAddrTypeIPv4 : Int := 1
def inetAddrTypeIPv6 : Int := 2

def inetAddrWidth (addrType : Int) : Option Nat :=
  if addrType = inetAddrTypeIPv4 then some 4
  else if addrType = inetAddrTypeIPv6 then some 16
  else none

/-- An address of `want` octets at the front of the index. -/
def readOctets (parts : List Int) (want : Nat) : Option Net.IP :=
  if parts.length < want then none
  else (parts.take want).mapM (fun part =>
    if part < 0 ∨ 255 < part then none else some (UInt8.ofNat part.toNat))

/-- The address whose type and length stand at `pos`, and the position after it. -/
def readInetAddrAt (parts : List Int) (pos : Nat) : Option (Net.IP × Nat) :=
  match parts.drop pos with
  | addrType :: addrLen :: rest => do
      let want ← inetAddrWidth addrType
      if addrLen ≠ want then none
      else
        let ip ← readOctets rest want
        some (ip, pos + 2 + want)
  | _ => none

/-- The address whose type stands at `pos` and whose length the type implies. -/
def readInetAddrImplicitAt (parts : List Int) (pos : Nat) : Option (Net.IP × Nat) :=
  match parts.drop pos with
  | addrType :: rest => do
      let want ← inetAddrWidth addrType
      let ip ← readOctets rest want
      some (ip, pos + 1 + want)
  | [] => none

def splitOIDParts (suffix : GoString) : Option (List Int) :=
  if suffix = [] then some [] else (Strings.split 0x2E suffix).mapM atoi

def decodeCiscoCbgpPeer2Index (suffix : GoString) : Option Net.IP := do
  let parts ← splitOIDParts suffix
  let (ip, _) ← readInetAddrAt parts 0
  some ip

/-- Behind an instance number; the Arista and the Nokia decoder are the same. -/
def decodeInstanceIndex (suffix : GoString) : Option Net.IP := do
  let parts ← splitOIDParts suffix
  if parts.length < 1 then none
  else
    let (ip, _) ← readInetAddrAt parts 1
    some ip

def decodeAristaBgp4v2Index : GoString → Option Net.IP := decodeInstanceIndex
def decodeNokiaTBgpPeerNgIndex : GoString → Option Net.IP := decodeInstanceIndex

def decodeJuniperJnxBgpM2Index (suffix : GoString) : Option Net.IP := do
  let parts ← splitOIDParts suffix
  if parts.length < 1 then none
  else
    let (_, pos) ← readInetAddrImplicitAt parts 1
    let (remoteIP, _) ← readInetAddrImplicitAt parts pos
    some remoteIP

structure VendorTableSpec where
  walker : GoString
  root : GoString
  colState : Int
  colRemoteAs : Int
  decodeIndex : GoString → Option Net.IP

def ciscoCbgpPeer2Spec : VendorTableSpec :=
  ⟨walkerVendorCisco, str "1.3.6.1.4.1.9.9.187.1.2.5", 3, 11, decodeCiscoCbgpPeer2Index⟩
def aristaBgp4v2Spec : VendorTableSpec :=
  ⟨walkerVendorArista, str "1.3.6.1.4.1.30065.4.1.1.2", 13, 10, decodeAristaBgp4v2Index⟩
def juniperJnxBgpM2PeerSpec : VendorTableSpec :=
  ⟨walkerVendorJuniper, str "1.3.6.1.4.1.2636.5.1.1.2.1.1", 2, 13, decodeJuniperJnxBgpM2Index⟩
def nokiaTBgpPeerSpec : VendorTableSpec :=
  ⟨walkerVendorNokia, str "1.3.6.1.4.1.6527.3.1.2.14.4.7", 59, 66, decodeNokiaTBgpPeerNgIndex⟩

def vendorSpecFor (vendor : GoString) : Option VendorTableSpec :=
  if vendor = str "cisco" then some ciscoCbgpPeer2Spec
  else if vendor = str "arista" then some aristaBgp4v2Spec
  else if vendor = str "juniper" then some juniperJnxBgpM2PeerSpec
  else if vendor = str "nokia" ∨ vendor = str "alcatel-lucent" then some nokiaTBgpPeerSpec
  else none

def vendorColumn (spec : VendorTableSpec) (col : Int) (pdu : Pdu) (peer : PeerRecord) :
    PeerRecord :=
  if col = spec.colState then { peer with state := pduInt pdu }
  else if col = spec.colRemoteAs then { peer with remoteAs := pduInt pdu }
  else peer

/-- The column and index of a binding of the table. -/
def vendorIndex (spec : VendorTableSpec) (pdu : Pdu) : Option (Int × GoString) := do
  let suffix ← trimOIDPrefix pdu.name (0x2E :: spec.root ++ str ".1.")
  let (col, rest) ← splitOIDComponent suffix
  if rest = [] then none else some (col, rest)

/-- The address of a peer is a function of its index, so every column of the
row may set it. -/
def vendorRow (spec : VendorTableSpec) (pdu : Pdu) :
    Option (GoString × (PeerRecord → PeerRecord)) := do
  let (col, rest) ← vendorIndex spec pdu
  let ip ← spec.decodeIndex rest
  some (rest, fun peer => vendorColumn spec col pdu { peer with ip })

def malformedIndex (spec : VendorTableSpec) (pdu : Pdu) : Bool :=
  (vendorIndex spec pdu).any (fun index => (spec.decodeIndex index.2).isNone)

structure VendorTable where
  peers : Map GoString PeerRecord
  hadPDUs : Bool
  malformed : Nat

def walkVendorPeerTable (agent : Agent) (spec : VendorTableSpec) :
    Except WalkError VendorTable := do
  let pdus ← agent.bulkWalk spec.root
  return { peers := Map.updateRows {} ∅ (pdus.filterMap (vendorRow spec))
           hadPDUs := !pdus.isEmpty
           malformed := pdus.countP (malformedIndex spec) }

/-- The outcomes recorded for a vendor table, and its rows if it had peers.
Every binding with a malformed index is recorded on its own. -/
def walkAndBuildVendorEdges (agent : Agent) (order : RangeOrder) (spec : VendorTableSpec)
    (localDevice : GoString) (allowedNets : List Net.IPNet) (now : Time) :
    List (GoString × GoString) × Option (List RowOutcome) :=
  match walkVendorPeerTable agent spec with
  | .error _ => ([(spec.walker, outcomeError)], none)
  | .ok table =>
      let malformed := List.replicate table.malformed (spec.walker, outcomeMalformedIndex)
      if table.peers.entries = [] then
        let outcome :=
          if !table.hadPDUs then outcomeMIBUnimplemented
          else if 0 < table.malformed then outcomeWalkerDrift
          else outcomeNoPeers
        (malformed ++ [(spec.walker, outcome)], none)
      else
        let rows := buildPeerEdges order localDevice table.peers allowedNets now
        let outcome :=
          if 0 < (rows.filterMap RowOutcome.edge?).length then outcomeEdges else outcomeNoPeers
        (malformed ++ [(spec.walker, outcome)], some rows)

/-! ## The walk -/

def vendorEdges (agent : Agent) (order : RangeOrder) (params : Params) (localDevice : GoString)
    (allowedNets : List Net.IPNet) (now : Time) :
    List (GoString × GoString) × Option (List RowOutcome) :=
  if params.useBGPV2MIB then
    match vendorSpecFor (resolveVendor agent params) with
    | some spec => walkAndBuildVendorEdges agent order spec localDevice allowedNets now
    | none => ([], none)
  else ([], none)

def rfc4273Outcome (rows : List RowOutcome) (hadPDUs : Bool) : GoString :=
  if 0 < (rows.filterMap RowOutcome.edge?).length then outcomeEdges
  else if hadPDUs then outcomeNoPeers
  else outcomeMIBUnimplemented

def walk (agent : Agent) (order : RangeOrder) (params : Params) (localDevice : GoString)
    (allowedNets : List Net.IPNet) (now : Time) : Except WalkError WalkResult := do
  match vendorEdges agent order params localDevice allowedNets now with
  | (outcomes, some rows) => return collectRows outcomes rows
  | (outcomes, none) =>
      let (peers, hadPDUs) ← walkBgpPeerTable agent
      let rows := buildPeerEdges order localDevice peers allowedNets now
      return collectRows (outcomes ++ [(walkerRFC4273, rfc4273Outcome rows hadPDUs)]) rows

/-! ## The edges of a BGP walk -/

/-- The autonomous system number of a peer is a machine integer. -/
def NumberedPeers (peers : Map GoString PeerRecord) : Prop :=
  ∀ key peer, peers.lookup key = some peer → InRange peer.remoteAs

variable {peer : PeerRecord} {agent : Agent} {peers : Map GoString PeerRecord}
  {allowedNets : List Net.IPNet} {localDevice : GoString} {now : Time} {order : RangeOrder}

theorem peerColumn_remoteAs (col : Int) (pdu : Pdu) (hpeer : InRange peer.remoteAs) :
    InRange (peerColumn col pdu peer).remoteAs := by
  unfold peerColumn
  split_ifs
  · split <;> exact hpeer
  · exact hpeer
  · exact pduInt_inRange pdu
  · exact hpeer

theorem vendorColumn_remoteAs (spec : VendorTableSpec) (col : Int) (pdu : Pdu)
    (hpeer : InRange peer.remoteAs) : InRange (vendorColumn spec col pdu peer).remoteAs := by
  unfold vendorColumn
  split_ifs
  · exact hpeer
  · exact pduInt_inRange pdu
  · exact hpeer

theorem walkBgpPeerTable_numbered {hadPDUs : Bool}
    (hwalk : walkBgpPeerTable agent = .ok (peers, hadPDUs)) : NumberedPeers peers := by
  obtain ⟨pdus, -, hpeers⟩ := bind_eq_ok.mp hwalk
  cases hpeers
  refine Map.updateRows_forall (fun peer : PeerRecord => InRange peer.remoteAs) (by decide) ?_
    (by simp)
  intro row hrow peer hpeer
  obtain ⟨pdu, -, hdecode⟩ := List.mem_filterMap.mp hrow
  simp only [peerRow, Option.bind_eq_bind, Option.bind_eq_some_iff] at hdecode
  obtain ⟨_, -, column, -, hdecode⟩ := hdecode
  split_ifs at hdecode
  cases hdecode
  exact peerColumn_remoteAs column.1 pdu hpeer

theorem walkVendorPeerTable_numbered {spec : VendorTableSpec} {table : VendorTable}
    (hwalk : walkVendorPeerTable agent spec = .ok table) : NumberedPeers table.peers := by
  obtain ⟨pdus, -, htable⟩ := bind_eq_ok.mp hwalk
  cases htable
  refine Map.updateRows_forall (fun peer : PeerRecord => InRange peer.remoteAs) (by decide) ?_
    (by simp)
  intro row hrow peer hpeer
  obtain ⟨pdu, -, hdecode⟩ := List.mem_filterMap.mp hrow
  simp only [vendorRow, Option.bind_eq_bind, Option.bind_eq_some_iff] at hdecode
  obtain ⟨index, -, ip, -, hdecode⟩ := hdecode
  cases hdecode
  exact vendorColumn_remoteAs spec index.1 pdu hpeer

theorem rowOutcome_edge {edge : Edge}
    (hedge : rowOutcome localDevice allowedNets now peer = .edge edge) :
    edge = newEdge localDevice peer now := by
  unfold rowOutcome at hedge
  split_ifs at hedge
  exact (RowOutcome.edge.inj hedge).symm

theorem publishable_peerMetadata {remoteAs : Int} (hremoteAs : InRange remoteAs) :
    PublishableMetadata (peerMetadata remoteAs) := by
  unfold peerMetadata
  split
  · exact publishableMetadata_empty.insert (by decide) (by decide)
      ((plain_itoa hremoteAs).mono (by decide))
  · exact publishableMetadata_empty

theorem walkedEdge_newEdge (hpeer : InRange peer.remoteAs) :
    WalkedEdge localDevice (newEdge localDevice peer now) where
  srcDevice_eq := rfl
  srcPort := clean_nil
  dstDevice := valid_of_graphic (Net.graphic_ipString peer.ip)
  dstPort := clean_nil
  discoveryProto := show Plain 16 discoveryProtocolBGP by decide
  linkKind := show Plain 16 linkKindIP by decide
  metadata := publishable_peerMetadata hpeer
  ranked := show (discoveryProtocolBGP, precedenceRank) ∈ protocolRanks by decide
  fdb_dstPort := fun _ => rfl

theorem buildPeerEdges_edges (hpeers : NumberedPeers peers) {edge : Edge}
    (hedge : RowOutcome.edge edge ∈ buildPeerEdges order localDevice peers allowedNets now) :
    WalkedEdge localDevice edge := by
  obtain ⟨⟨key, peer⟩, hmem, hrow⟩ := List.mem_map.mp hedge
  rw [rowOutcome_edge hrow]
  exact walkedEdge_newEdge (hpeers key peer (Map.mem_range.mp hmem))

/-- Rows of a vendor table are built from its peers. -/
theorem vendorEdges_rows {params : Params} {outcomes : List (GoString × GoString)}
    {rows : List RowOutcome}
    (hrows : vendorEdges agent order params localDevice allowedNets now = (outcomes, some rows)) :
    ∃ peers, NumberedPeers peers ∧
      rows = buildPeerEdges order localDevice peers allowedNets now := by
  unfold vendorEdges at hrows
  by_cases henabled : params.useBGPV2MIB
  · rw [if_pos henabled] at hrows
    split at hrows
    next spec _ =>
        unfold walkAndBuildVendorEdges at hrows
        split at hrows
        · cases hrows
        next table htable =>
            simp only at hrows
            split at hrows
            · cases hrows
            · cases hrows
              exact ⟨table.peers, walkVendorPeerTable_numbered htable, rfl⟩
    · cases hrows
  · rw [if_neg henabled] at hrows
    cases hrows

theorem walk_edges {params : Params} {result : WalkResult}
    (hwalk : walk agent order params localDevice allowedNets now = .ok result) :
    ∀ edge ∈ result.edges, WalkedEdge localDevice edge := by
  intro edge hedge
  unfold walk at hwalk
  split at hwalk
  next outcomes rows hrows =>
      cases hwalk
      obtain ⟨peers, hpeers, rfl⟩ := vendorEdges_rows hrows
      exact buildPeerEdges_edges hpeers (mem_collectRows.mp hedge)
  next =>
      obtain ⟨⟨peers, hadPDUs⟩, hpeers, hresult⟩ := bind_eq_ok.mp hwalk
      cases hresult
      exact buildPeerEdges_edges (walkBgpPeerTable_numbered hpeers) (mem_collectRows.mp hedge)

end TopologyExporter.Discovery.Bgp
