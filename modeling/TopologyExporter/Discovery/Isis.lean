import TopologyExporter.Discovery.Walk

/-! # IS-IS adjacencies

The adjacency address table is joined with the adjacency state table, which is
required, and with the circuit table, which only names the local port. The
neighbour is known by its address alone; it has no port name.
-/

namespace TopologyExporter.Discovery.Isis

open Go Utf8 Strconv

def oidISISAdjState : GoString := str "1.3.6.1.2.1.138.1.6.1.1.2"
def oidISISAdjIPAddr : GoString := str "1.3.6.1.2.1.138.1.6.2.1.2"
def oidISISCircIfIndex : GoString := str "1.3.6.1.2.1.138.1.4.1.1.3"
def requiredMinValidRows : Nat := 0
def requiredMaxInvalidRatio : ℚ := 1 / 2
def precedenceRank : Int := 5
def isisAdjStateUp : Int := 3

/-- The adjacency states, and whether some rows failed to decode. -/
def walkAdjStates (agent : Agent) : Except WalkError (Map GoString Int × Bool) := do
  let (states, stats) ← walkToIntMapStrict agent oidISISAdjState
  match evaluateRequiredTablePolicy stats ⟨requiredMinValidRows, requiredMaxInvalidRatio⟩ with
  | .hardFail reason => throw (.policy (str "isis") reason)
  | .degraded => return (states, true)
  | .ok => return (states, false)

/-- Circuit keys to interface names, with a reason when rows failed to decode. -/
def walkCircuitIfNames (agent : Agent) :
    Except WalkError (Map GoString GoString × Option GoString) := do
  let (circIfIndex, stats) ← walkToIntMapStrict agent oidISISCircIfIndex
  let ifNames ← walkIfDescr agent
  let named := circIfIndex.entries.filterMap (fun entry =>
    (ifNames.lookup entry.2).map (fun name => (entry.1, name)))
  return (named.foldl (fun table row => table.insert row.1 row.2) ∅,
    if 0 < stats.invalidRows then some degradedReasonMissingSrcPortMapping else none)

/-- The names of the circuits and the reasons why they may be incomplete. They
are only looked up when there is an adjacency. -/
def circuits (agent : Agent) (states : Map GoString Int) :
    Map GoString GoString × List GoString :=
  if states.entries = [] then (∅, [])
  else match walkCircuitIfNames agent with
    | .error _ => (∅, [degradedReasonMissingSrcPortMapping])
    | .ok (names, reason) => (names, reason.toList)

def isisMetadata (degradedReason : GoString) : Map GoString GoString :=
  markDegraded degradedReason ∅

def newEdge (localDevice ifName : GoString) (ip : Net.IP) (degradedReason : GoString)
    (now : Time) : Edge :=
  { srcDevice := localDevice
    srcPort := ifName
    dstDevice := Net.ipString ip
    dstPort := []
    discoveryProto := discoveryProtocolISIS
    direction := directionUnidirectional
    confidence := confidenceMedium
    adjacency := adjacencyDirect
    precedenceRank := precedenceRank
    linkKind := linkKindIP
    observedAt := now
    metadata := isisMetadata degradedReason }

def ipv4TailLen : Nat := 6
def ipv6TailLen : Nat := 18

/-- Whether an index ends in an address of the given type and width. -/
def hasAddressTail (parts : List GoString) (tailLen : Nat) (addrType addrLen : GoString) : Bool :=
  tailLen < parts.length && (parts.drop (parts.length - tailLen)).take 2 == [addrType, addrLen]

/-- The first two components of an adjacency key, empty when there are fewer. -/
def circuitKey (adjKey : GoString) : GoString :=
  match Strings.splitN 0x2E 3 adjKey with
  | sysInst :: circIdx :: _ => sysInst ++ 0x2E :: circIdx
  | _ => []

def rowOutcome (localDevice : GoString) (states : Map GoString Int)
    (circIfNames : Map GoString GoString) (degradedReason : GoString)
    (allowedNets : List Net.IPNet) (now : Time) (pdu : Pdu) : RowOutcome :=
  match trimOIDPrefix pdu.name (instancePrefix oidISISAdjIPAddr) with
  | none => .rejected
  | some suffix =>
      let parts := Strings.split 0x2E suffix
      if hasAddressTail parts ipv6TailLen (str "2") (str "16") then .rejected
      else if hasAddressTail parts ipv4TailLen (str "1") (str "4") = false then .rejected
      else
        let adjKey := Strings.join 0x2E (parts.take (parts.length - ipv4TailLen))
        let ip := pduIPv4 pdu
        if states.lookup adjKey ≠ some isisAdjStateUp then .dropped
        else if ip = [] then .dropped
        else if Net.isUnspecified ip || Net.isLinkLocalUnicast ip then .dropped
        else
          let circKey := circuitKey adjKey
          let ifName := (circIfNames.lookup circKey).getD []
          let edgeDegradedReason :=
            if degradedReason = [] ∧ (circKey = [] ∨ ifName = []) then
              degradedReasonMissingSrcPortMapping
            else degradedReason
          if outOfScope ip allowedNets then
            .outOfScope (newOutOfScopeNeighbour (str "isis") localDevice ifName
              (Net.ipString ip) now)
          else .edge (newEdge localDevice ifName ip edgeDegradedReason now)

def walk (agent : Agent) (localDevice : GoString) (allowedNets : List Net.IPNet) (now : Time) :
    Except WalkError WalkResult := do
  let (states, stateDegraded) ← walkAdjStates agent
  let (circIfNames, circuitReasons) := circuits agent states
  let degradedReasons :=
    (if stateDegraded then [degradedReasonRequiredTablePartialDecode] else []) ++ circuitReasons
  let pdus ← agent.bulkWalk oidISISAdjIPAddr
  return collectRows [] (pdus.map (rowOutcome localDevice states circIfNames
    (joinReasonCodes degradedReasons) allowedNets now))

/-! ## The edges of an IS-IS walk -/

variable {agent : Agent} {states : Map GoString Int} {allowedNets : List Net.IPNet}
  {localDevice : GoString} {now : Time}

theorem clean_circuits {key name : GoString}
    (hname : (circuits agent states).1.lookup key = some name) : Clean name := by
  unfold circuits at hname
  split at hname
  · simp at hname
  · split at hname
    · simp at hname
    next names reason hwalk =>
        obtain ⟨⟨circIfIndex, stats⟩, -, hwalk⟩ := bind_eq_ok.mp hwalk
        obtain ⟨ifNames, hnames, hwalk⟩ := bind_eq_ok.mp hwalk
        cases hwalk
        obtain ⟨entry, -, hentry⟩ := List.mem_filterMap.mp (mem_of_lookup_foldl_insert hname)
        obtain ⟨found, hfound, heq⟩ := Option.map_eq_some_iff.mp hentry
        cases heq
        exact clean_walkIntIndexedStrings hnames hfound

theorem circuits_reasons (agent : Agent) (states : Map GoString Int) :
    (circuits agent states).2 ⊆ degradedReasons ∧ (circuits agent states).2.length ≤ 1 := by
  unfold circuits
  split
  · simp
  · split
    · simp [degradedReasons]
    next names reason hwalk =>
        obtain ⟨⟨circIfIndex, stats⟩, -, hwalk⟩ := bind_eq_ok.mp hwalk
        obtain ⟨ifNames, -, hwalk⟩ := bind_eq_ok.mp hwalk
        cases hwalk
        simp only
        split_ifs
        · simp [degradedReasons]
        · simp

variable {degradedReason : GoString} {edge : Edge} {result : WalkResult}

/-- What an edge of the walk looks like: the local port is a circuit name or
empty, the neighbour is an address, and there is no remote port. -/
theorem rowOutcome_edge {circIfNames : Map GoString GoString} {pdu : Pdu}
    (hedge : rowOutcome localDevice states circIfNames degradedReason allowedNets now pdu =
      .edge edge) :
    ∃ circKey reason, (reason = degradedReason ∨ reason = degradedReasonMissingSrcPortMapping) ∧
      edge = newEdge localDevice ((circIfNames.lookup circKey).getD []) (pduIPv4 pdu) reason
        now := by
  unfold rowOutcome at hedge
  split at hedge
  · cases hedge
  next suffix _ =>
      simp only at hedge
      split_ifs at hedge with _ _ _ _ _ hreason
      · exact ⟨_, _, Or.inr rfl, (RowOutcome.edge.inj hedge).symm⟩
      · exact ⟨_, _, Or.inl rfl, (RowOutcome.edge.inj hedge).symm⟩

theorem walkedEdge_newEdge {ifName : GoString} {ip : Net.IP} (hport : Clean ifName)
    (hreason : Plain 1024 degradedReason) :
    WalkedEdge localDevice (newEdge localDevice ifName ip degradedReason now) where
  srcDevice_eq := rfl
  srcPort := hport
  dstDevice := valid_of_graphic (Net.graphic_ipString ip)
  dstPort := clean_nil
  discoveryProto := show Plain 16 discoveryProtocolISIS by decide
  linkKind := show Plain 16 linkKindIP by decide
  metadata := publishableMetadata_empty.markDegraded hreason
  ranked := show (discoveryProtocolISIS, precedenceRank) ∈ protocolRanks by decide
  fdb_dstPort := fun _ => rfl

theorem walk_newEdge (hwalk : walk agent localDevice allowedNets now = .ok result)
    (hedge : edge ∈ result.edges) :
    ∃ ifName ip reason, edge = newEdge localDevice ifName ip reason now ∧ Clean ifName ∧
      Plain 1024 reason := by
  obtain ⟨⟨states, degraded⟩, -, hwalk⟩ := bind_eq_ok.mp hwalk
  obtain ⟨pdus, -, hresult⟩ := bind_eq_ok.mp hwalk
  cases hresult
  obtain ⟨pdu, -, hrow⟩ := List.mem_map.mp (mem_collectRows.mp hedge)
  obtain ⟨circKey, reason, hreason, rfl⟩ := rowOutcome_edge hrow
  refine ⟨((circuits agent states).1.lookup circKey).getD [], pduIPv4 pdu, reason, rfl, ?_, ?_⟩
  · cases hname : (circuits agent states).1.lookup circKey with
    | none => exact clean_nil
    | some name => exact clean_circuits hname
  · rcases hreason with rfl | rfl
    · obtain ⟨hcodes, hlength⟩ := circuits_reasons agent states
      exact plain_degradedReasonCodes degraded hcodes hlength
    · decide

theorem walk_edges (hwalk : walk agent localDevice allowedNets now = .ok result) :
    ∀ edge ∈ result.edges, WalkedEdge localDevice edge := by
  intro edge hedge
  obtain ⟨ifName, ip, reason, rfl, hport, hreason⟩ := walk_newEdge hwalk hedge
  exact walkedEdge_newEdge hport hreason

end TopologyExporter.Discovery.Isis
