import TopologyExporter.Discovery.Walk

/-! # MPLS-TE tunnels

Every tunnel that is operationally up is an edge from its ingress to the egress
address in its index. The administrative state is metadata only.
-/

namespace TopologyExporter.Discovery.Mpls

open Go Utf8 Strconv

def oidMplsTunnelOperStatus : GoString := str "1.3.6.1.2.1.10.166.3.2.2.1.17"
def oidMplsTunnelAdminStatus : GoString := str "1.3.6.1.2.1.10.166.3.2.2.1.13"
def mplsTunnelOperUp : Int := 1
def metaKeyAdminStatus : GoString := str "mpls_te.admin_status"
def requiredMinValidRows : Nat := 0
def requiredMaxInvalidRatio : ℚ := 1 / 2
def precedenceRank : Int := 8

def mplsAdminStatusString (status : Int) : GoString :=
  if status = 1 then str "up"
  else if status = 2 then str "down"
  else if status = 3 then str "testing"
  else str "unknown"

def parseIPFromParts (parts : List GoString) : Option Net.IP :=
  if parts.length ≠ 4 then none else parts.mapM decimalOctet

/-- The tunnel index and egress address of an index with ten components. -/
def parseTunnelSuffix (suffix : GoString) : Option (Int × Net.IP) := do
  let parts := Strings.split 0x2E (Strings.trimPrefix suffix (str "."))
  if parts.length ≠ 10 then none
  else
    let idx ← atoi (parts.headD [])
    if idx ≤ 0 then none
    else
      let ip ← parseIPFromParts ((parts.drop 6).take 4)
      some (idx, ip)

/-- The operational states, and whether some rows failed to decode. -/
def walkOperStatuses (agent : Agent) : Except WalkError (Map GoString Int × Bool) := do
  let (operStatuses, stats) ← walkToIntMapStrict agent oidMplsTunnelOperStatus
  match evaluateRequiredTablePolicy stats ⟨requiredMinValidRows, requiredMaxInvalidRatio⟩ with
  | .hardFail reason => throw (.policy (str "mpls_te") reason)
  | .degraded => return (operStatuses, true)
  | .ok => return (operStatuses, false)

/-- The administrative states, with a reason when they are incomplete. -/
def adminStatuses (agent : Agent) : Map GoString Int × List GoString :=
  match walkToIntMapStrict agent oidMplsTunnelAdminStatus with
  | .error _ => (∅, [degradedReasonMissingAdminStatusWalk])
  | .ok (statuses, stats) =>
      (statuses,
        if 0 < stats.invalidRows then [degradedReasonInvalidAdminStatusDecode] else [])

def tunnelPort (tunnelIdx : Int) : GoString := str "te-tunnel" ++ itoa tunnelIdx

def newEdge (localDevice : GoString) (tunnelIdx : Int) (egressIP : Net.IP) (adminStatus : Int)
    (degradedReason : GoString) (now : Time) : Edge :=
  { srcDevice := localDevice
    srcPort := tunnelPort tunnelIdx
    dstDevice := Net.ipString egressIP
    dstPort := []
    discoveryProto := discoveryProtocolMPLSTE
    direction := directionUnidirectional
    confidence := confidenceMedium
    adjacency := adjacencyUnknown
    precedenceRank := precedenceRank
    linkKind := linkKindMPLSTE
    observedAt := now
    metadata := markDegraded degradedReason
      (AList.insert metaKeyAdminStatus (mplsAdminStatusString adminStatus) ∅) }

def rowOutcome (localDevice : GoString) (admin : Map GoString Int) (degradedReason : GoString)
    (allowedNets : List Net.IPNet) (now : Time) (suffix : GoString) (operStatus : Int) :
    RowOutcome :=
  if operStatus ≠ mplsTunnelOperUp then .dropped
  else match parseTunnelSuffix suffix with
    | none => .rejected
    | some (tunnelIdx, egressIP) =>
        if Net.isUnspecified egressIP || Net.isLinkLocalUnicast egressIP then .dropped
        else if outOfScope egressIP allowedNets then
          .outOfScope (newOutOfScopeNeighbour (str "mpls_te") localDevice (tunnelPort tunnelIdx)
            (Net.ipString egressIP) now)
        else .edge (newEdge localDevice tunnelIdx egressIP ((admin.lookup suffix).getD 0)
          degradedReason now)

def walk (agent : Agent) (order : RangeOrder) (localDevice : GoString)
    (allowedNets : List Net.IPNet) (now : Time) : Except WalkError WalkResult := do
  let (operStatuses, operDegraded) ← walkOperStatuses agent
  let (admin, adminReasons) := adminStatuses agent
  let degradedReason := joinReasonCodes
    ((if operDegraded then [degradedReasonRequiredTablePartialDecode] else []) ++ adminReasons)
  return collectRows [] ((operStatuses.range order 0).map (fun (suffix, operStatus) =>
    rowOutcome localDevice admin degradedReason allowedNets now suffix operStatus))

/-! ## The edges of a tunnel walk -/

variable {egressIP : Net.IP} {suffix degradedReason : GoString} {tunnelIdx : Int}
  {allowedNets : List Net.IPNet}

theorem parseTunnelSuffix_inRange (hparse : parseTunnelSuffix suffix = some (tunnelIdx, egressIP)) :
    InRange tunnelIdx := by
  simp only [parseTunnelSuffix, Option.bind_eq_bind] at hparse
  split_ifs at hparse with hlength
  obtain ⟨idx, hidx, hparse⟩ := Option.bind_eq_some_iff.mp hparse
  split_ifs at hparse with hpositive
  obtain ⟨ip, -, hparse⟩ := Option.bind_eq_some_iff.mp hparse
  cases hparse
  exact atoi_inRange hidx

theorem adminStatuses_reasons (agent : Agent) :
    (adminStatuses agent).2 ⊆ degradedReasons ∧ (adminStatuses agent).2.length ≤ 1 := by
  unfold adminStatuses
  split
  · simp [degradedReasons]
  · simp only
    split_ifs
    · simp [degradedReasons]
    · simp

theorem plain_mplsAdminStatusString (status : Int) :
    Plain 1024 (mplsAdminStatusString status) := by
  unfold mplsAdminStatusString
  split_ifs <;> decide

variable {localDevice : GoString} {now : Time}

theorem walkedEdge_newEdge (hindex : InRange tunnelIdx) {adminStatus : Int}
    (hreason : Plain 1024 degradedReason) :
    WalkedEdge localDevice
      (newEdge localDevice tunnelIdx egressIP adminStatus degradedReason now) where
  srcDevice_eq := rfl
  srcPort := clean_numbered (by decide) hindex
  dstDevice := valid_of_graphic (Net.graphic_ipString egressIP)
  dstPort := clean_nil
  discoveryProto := show Plain 16 discoveryProtocolMPLSTE by decide
  linkKind := show Plain 16 linkKindMPLSTE by decide
  metadata := (publishableMetadata_empty.insert (by decide) (by decide)
    (plain_mplsAdminStatusString adminStatus)).markDegraded hreason
  ranked := show (discoveryProtocolMPLSTE, precedenceRank) ∈ protocolRanks by decide
  fdb_dstPort := fun _ => rfl

theorem rowOutcome_edge {admin : Map GoString Int} {operStatus : Int} {edge : Edge}
    (hedge : rowOutcome localDevice admin degradedReason allowedNets now suffix operStatus =
      .edge edge) :
    ∃ tunnelIdx egressIP, parseTunnelSuffix suffix = some (tunnelIdx, egressIP) ∧
      edge = newEdge localDevice tunnelIdx egressIP ((admin.lookup suffix).getD 0) degradedReason
        now := by
  unfold rowOutcome at hedge
  split at hedge
  · cases hedge
  · split at hedge
    · cases hedge
    next tunnelIdx egressIP hparse =>
        split_ifs at hedge
        exact ⟨tunnelIdx, egressIP, hparse, (RowOutcome.edge.inj hedge).symm⟩

theorem walk_edges {agent : Agent} {order : RangeOrder} {result : WalkResult}
    (hwalk : walk agent order localDevice allowedNets now = .ok result) :
    ∀ edge ∈ result.edges, WalkedEdge localDevice edge := by
  obtain ⟨⟨operStatuses, operDegraded⟩, -, hresult⟩ := bind_eq_ok.mp hwalk
  cases hresult
  intro edge hedge
  obtain ⟨⟨suffix, operStatus⟩, -, hrow⟩ := List.mem_map.mp (mem_collectRows.mp hedge)
  obtain ⟨tunnelIdx, egressIP, hparse, rfl⟩ := rowOutcome_edge hrow
  apply walkedEdge_newEdge (parseTunnelSuffix_inRange hparse)
  obtain ⟨hcodes, hlength⟩ := adminStatuses_reasons agent
  exact plain_degradedReasonCodes operDegraded hcodes hlength

end TopologyExporter.Discovery.Mpls
