import TopologyExporter.GoLib.Maps
import TopologyExporter.GoLib.Time

/-! # Devices, edges and graphs

The value types every protocol module produces. Protocols, link kinds,
directions, confidences and adjacencies are named strings: the constants are
the values the exporter itself writes, but a payload read from the wire may
carry any text in these fields.
-/

namespace TopologyExporter.Discovery

open Go

structure Device where
  id : GoString
  vendor : GoString
  model : GoString
  osVersion : GoString
  site : GoString
  uptime : Duration
  labels : Map GoString GoString
deriving DecidableEq

abbrev DiscoveryProtocol := GoString

def discoveryProtocolLLDP : DiscoveryProtocol := str "lldp"
def discoveryProtocolCDP : DiscoveryProtocol := str "cdp"
def discoveryProtocolBGP : DiscoveryProtocol := str "bgp"
def discoveryProtocolOSPF : DiscoveryProtocol := str "ospf"
def discoveryProtocolFDB : DiscoveryProtocol := str "fdb"
def discoveryProtocolISIS : DiscoveryProtocol := str "isis"
def discoveryProtocolMPLSTE : DiscoveryProtocol := str "mpls_te"
def discoveryProtocolConfigured : DiscoveryProtocol := str "configured"

abbrev LinkKind := GoString

def linkKindEthernet : LinkKind := str "ethernet"
def linkKindMPLSTE : LinkKind := str "mpls-te"
def linkKindIP : LinkKind := str "ip"

abbrev Direction := GoString

def directionBidirectional : Direction := str "bidirectional"
def directionUnidirectional : Direction := str "unidirectional"

abbrev Confidence := GoString

def confidenceHigh : Confidence := str "high"
def confidenceMedium : Confidence := str "medium"
def confidenceLow : Confidence := str "low"

abbrev Adjacency := GoString

def adjacencyDirect : Adjacency := str "direct"
def adjacencyUnknown : Adjacency := str "unknown"

def metadataKeyDegraded : GoString := str "degraded"
def metadataKeyDegradedReason : GoString := str "degraded_reason"
def metadataKeyPeerChassisMac : GoString := str "peer_chassis_mac"

def degradedReasonRequiredTablePartialDecode : GoString := str "required_table_partial_decode"
def degradedReasonMissingSrcPortMapping : GoString := str "missing_srcport_mapping"
def degradedReasonMissingAdminStatusWalk : GoString := str "missing_admin_status_walk"
def degradedReasonInvalidAdminStatusDecode : GoString := str "invalid_admin_status_decode"

/-- One observation of a link between two devices. A nil metadata map is the
empty one: reading and ranging do not tell them apart. -/
structure Edge where
  srcDevice : GoString
  srcPort : GoString
  dstDevice : GoString
  dstPort : GoString
  discoveryProto : DiscoveryProtocol
  direction : Direction
  confidence : Confidence
  adjacency : Adjacency
  precedenceRank : Int
  linkKind : LinkKind
  observedAt : Time
  metadata : Map GoString GoString
deriving DecidableEq

structure OutOfScopeNeighbour where
  reportingDevice : GoString
  reportingPort : GoString
  neighbourHint : GoString
  proto : GoString
  firstSeen : Time
  lastSeen : Time
deriving DecidableEq

structure Graph where
  devices : List Device
  edges : List Edge
  outOfScope : List OutOfScopeNeighbour
deriving DecidableEq

/-- A deduplicated comma list of reason codes, in order of first appearance. -/
def joinReasonCodes (reasons : List GoString) : GoString :=
  Strings.join 0x2C (reasons.foldl (fun ordered reason =>
    if reason = [] ∨ reason ∈ ordered then ordered else ordered ++ [reason]) [])

end TopologyExporter.Discovery
