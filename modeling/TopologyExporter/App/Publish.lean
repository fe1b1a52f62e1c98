import TopologyExporter.App.Cycle
import TopologyExporter.Federation.Validate

/-! # Publishing a cycle

What an exporter does with the graph of a cycle. A spoke hands it to the pusher;
the question is whether the hub will take it.
-/

namespace TopologyExporter.App

open Go Utf8 Discovery Federation

/-- What the discovery loop carries from cycle to cycle. -/
structure CycleState where
  prevGraph : Graph
  ages : Option (Map Graph.EdgeKey Int)

/-- A graph over its size budget is not published, but the ages advance. -/
def publish (cfg : Config) (state : CycleState) (cycle : CycleResult) (now : Time) :
    CycleState × Option SpokePayload :=
  if (0 < cfg.maxGraphDevices ∧ cfg.maxGraphDevices < cycle.graph.devices.length) ∨
      (0 < cfg.maxGraphEdges ∧ cfg.maxGraphEdges < cycle.graph.edges.length) then
    ({ state with ages := cycle.ages }, none)
  else
    ({ prevGraph := cycle.graph, ages := cycle.ages },
      cfg.spokeID.map (fun spokeID =>
        { spokeID
          cycleAt := now
          devices := cycle.graph.devices
          edges := cycle.graph.edges
          outOfScope := cycle.graph.outOfScope }))

/-- A neighbour that was known before keeps the time it was first seen. -/
def mergeOOSFirstSeen (newOOS prevOOS : List OutOfScopeNeighbour) : List OutOfScopeNeighbour :=
  let prevFirstSeen : Map (GoString × GoString × GoString) Time :=
    prevOOS.foldl (fun table neighbour => table.insert
      (neighbour.reportingDevice, neighbour.reportingPort, neighbour.neighbourHint)
      neighbour.firstSeen) ∅
  newOOS.map (fun neighbour =>
    match prevFirstSeen.lookup
      (neighbour.reportingDevice, neighbour.reportingPort, neighbour.neighbourHint) with
    | some time => { neighbour with firstSeen := time }
    | none => neighbour)

/-- The result of a cycle as the loop hands it to be published. -/
def completedCycle (cfg : Config) (order : RangeOrder) (arrivals : List Arrival)
    (state : CycleState) : CycleResult :=
  let cycle := runCycle cfg order arrivals state.ages
  { cycle with
    graph :=
      { cycle.graph with
        outOfScope := mergeOOSFirstSeen cycle.graph.outOfScope state.prevGraph.outOfScope } }

/-- One round of the discovery loop. -/
def discoveryStep (cfg : Config) (order : RangeOrder) (arrivals : List Arrival)
    (state : CycleState) (now : Time) : CycleState × Option SpokePayload :=
  publish cfg state (completedCycle cfg order arrivals state) now

variable {cfg : Config} {probe : Probe} {arp : Map GoString GoString} {result : ProbeResult}
  {arrivals : List Arrival} {edge seen : Edge} {order : RangeOrder} {link : Graph.EdgeKey}

theorem publish_edges {state : CycleState} {cycle : CycleResult} {now : Time}
    {payload : SpokePayload} (hpublish : (publish cfg state cycle now).2 = some payload) :
    payload.edges = cycle.graph.edges := by
  unfold publish at hpublish
  split at hpublish
  · cases hpublish
  · obtain ⟨spokeID, -, rfl⟩ := Option.map_eq_some_iff.mp hpublish
    rfl

/-! ## Walked edges -/

theorem walkModule_edges {params : Params} {localDevice proto : GoString} {result : WalkResult}
    (hwalk : walkModule cfg probe params localDevice proto = .ok result) :
    ∀ edge ∈ result.edges, WalkedEdge localDevice edge := by
  unfold walkModule at hwalk
  split_ifs at hwalk
  · exact Lldp.walk_edges hwalk
  · exact Cdp.walk_edges hwalk
  · exact Fdb.walk_edges hwalk
  · exact Ospf.walk_edges hwalk
  · exact Bgp.walk_edges hwalk
  · exact Isis.walk_edges hwalk
  · exact Mpls.walk_edges hwalk

/-- What a target that answers hands in. -/
structure Answered (cfg : Config) (targetIdx : Nat) (probe : Probe) (result : ProbeResult)
    (arp : Map GoString GoString) : Prop where
  targetIdx : result.targetIdx = targetIdx
  device : ∃ ip system, probe.ip = some ip ∧ walkSystem probe.agent ip = .ok system ∧
    result.device = configuredDevice probe system
  edges : ∀ edge ∈ result.edges, ∃ params proto walked,
    walkModule cfg probe params result.device.id proto = .ok walked ∧ edge ∈ walked.edges
  arp : ∀ mac address, arp.lookup mac = some address →
    ∃ table, walkARPTable probe.agent = .ok table ∧ table.lookup mac = some address

theorem answered_of_probeTarget {targetIdx : Nat}
    (hprobe : probeTarget cfg targetIdx probe = some (result, arp)) :
    Answered cfg targetIdx probe result arp := by
  unfold probeTarget at hprobe
  split at hprobe
  · cases hprobe
  next ip hip =>
      split at hprobe
      · cases hprobe
      · split at hprobe
        · cases hprobe
        next system hsystem =>
            cases hprobe
            refine ⟨rfl, ⟨ip, system, hip, hsystem, rfl⟩, ?_, ?_⟩
            · intro edge hedge
              obtain ⟨walk, hwalk, hedge⟩ := List.mem_flatMap.mp hedge
              obtain ⟨proto, -, hmodule⟩ := List.mem_filterMap.mp hwalk
              split at hmodule
              next walked hwalked =>
                  cases hmodule
                  exact ⟨_, proto, walked, hwalked, hedge⟩
              next => cases hmodule
            · intro mac address hrow
              split_ifs at hrow
              · split at hrow
                next table htable => exact ⟨table, htable, hrow⟩
                next => cases hrow
              · cases hrow

theorem probeTarget_walked {targetIdx : Nat}
    (hprobe : probeTarget cfg targetIdx probe = some (result, arp)) :
    validString result.device.id = true ∧
      ∀ edge ∈ result.edges, WalkedEdge result.device.id edge := by
  have hanswered := answered_of_probeTarget hprobe
  constructor
  · obtain ⟨ip, system, -, hsystem, hdevice⟩ := hanswered.device
    have hid : validString system.id = true := valid_walkSystem_id hsystem
    rw [hdevice]
    exact hid
  · intro edge hedge
    obtain ⟨params, proto, walked, hwalked, hedge⟩ := hanswered.edges edge hedge
    exact walkModule_edges hwalked edge hedge

/-- The edges of the cycle as the walkers made them. -/
def walkedEdges (cfg : Config) (arrivals : List Arrival) : List Edge :=
  (probeResults cfg arrivals).flatMap ProbeResult.edges

theorem mem_probeResults (hresult : result ∈ probeResults cfg arrivals) :
    ∃ targetIdx probe arp, probeTarget cfg targetIdx probe = some (result, arp) := by
  rw [probeResults, List.mem_insertionSort] at hresult
  obtain ⟨⟨found, arp⟩, hmem, rfl⟩ := List.mem_map.mp hresult
  obtain ⟨arrival, -, houtcome⟩ := List.mem_filterMap.mp hmem
  obtain ⟨probe, -, hprobe⟩ := Option.bind_eq_some_iff.mp houtcome
  exact ⟨arrival.targetIdx, probe, arp, hprobe⟩

/-! ## Observations

An observation is a walked edge with its neighbour resolved. -/

/-- What all observations have in common. The length and the control characters
of the device names are open, and so is whether a port is named. -/
structure ObservedEdge (edge : Edge) : Prop where
  srcDevice : validString edge.srcDevice = true
  srcPort : Clean edge.srcPort
  dstDevice : validString edge.dstDevice = true
  dstPort : Clean edge.dstPort
  discoveryProto : Plain 16 edge.discoveryProto
  linkKind : Plain 16 edge.linkKind
  metadata : PublishableMetadata edge.metadata

theorem observedEdge_of_walked (hedge : edge ∈ walkedEdges cfg arrivals) : ObservedEdge edge := by
  obtain ⟨result, hresult, hedge⟩ := List.mem_flatMap.mp hedge
  obtain ⟨targetIdx, probe, arp, hprobe⟩ := mem_probeResults hresult
  obtain ⟨hid, hwalked⟩ := probeTarget_walked hprobe
  have hwalk := hwalked edge hedge
  exact ⟨hwalk.srcDevice_eq ▸ hid, hwalk.srcPort, hwalk.dstDevice, hwalk.dstPort,
    hwalk.discoveryProto, hwalk.linkKind, hwalk.metadata⟩

theorem valid_managementIDs {address id : GoString}
    (hlookup : (managementIDs (probeResults cfg arrivals)).lookup address = some id) :
    validString id = true := by
  rw [managementIDs, Map.lookup_foldl_insertNew, AList.lookup_empty, Option.none_or] at hlookup
  obtain ⟨row, hfind, rfl⟩ := Option.map_eq_some_iff.mp hlookup
  obtain ⟨result, hresult, rfl⟩ := List.mem_map.mp (List.mem_of_find?_eq_some hfind)
  obtain ⟨targetIdx, probe, arp, hprobe⟩ := mem_probeResults (List.mem_of_mem_filter hresult)
  exact (probeTarget_walked hprobe).1

section Resolution

variable {order : RangeOrder} {rawEdges : List Edge} {ipToID arpMACToIP : Map GoString GoString}

theorem chassisIdentity_device {edge : Edge} {row : GoString × GoString}
    (hrow : chassisIdentity edge = some row) : row.2 = edge.dstDevice := by
  unfold chassisIdentity at hrow
  split at hrow
  · cases hrow
  · obtain ⟨mac, -, hrow⟩ := Option.bind_eq_some_iff.mp hrow
    split at hrow
    · cases hrow
    · obtain ⟨hw, -, hrow⟩ := Option.bind_eq_some_iff.mp hrow
      split_ifs at hrow
      cases hrow
      rfl

/-- A MAC address leads to a device that LLDP names or that is polled. -/
theorem valid_macIdentity (hraw : ∀ edge ∈ rawEdges, ObservedEdge edge)
    (hids : ∀ address id, ipToID.lookup address = some id → validString id = true)
    {mac id : GoString} (hmac : macIdentity order rawEdges ipToID arpMACToIP mac = some id) :
    validString id = true := by
  rcases Option.or_eq_some_iff.mp hmac with hlldp | ⟨-, harp⟩
  · obtain ⟨row, hfind, rfl⟩ := Option.map_eq_some_iff.mp hlldp
    obtain ⟨edge, hedge, hrow⟩ := List.mem_filterMap.mp (List.mem_of_find?_eq_some hfind)
    rw [chassisIdentity_device hrow]
    exact (hraw edge hedge).dstDevice
  · obtain ⟨row, hfind, rfl⟩ := Option.map_eq_some_iff.mp harp
    obtain ⟨entry, -, hrow⟩ := List.mem_filterMap.mp (List.mem_of_find?_eq_some hfind)
    obtain ⟨hw, -, hrow⟩ := Option.bind_eq_some_iff.mp hrow
    obtain ⟨found, hfound, hrow⟩ := Option.bind_eq_some_iff.mp hrow
    cases hrow
    exact hids entry.2 found hfound

variable {edge : Edge}

theorem valid_peerDevice (hraw : ∀ edge ∈ rawEdges, ObservedEdge edge)
    (hids : ∀ address id, ipToID.lookup address = some id → validString id = true)
    (hedge : ObservedEdge edge) {device : GoString}
    (hdevice : peerDevice order rawEdges ipToID arpMACToIP edge = some device) :
    validString device = true := by
  unfold peerDevice at hdevice
  split at hdevice
  · cases hdevice
    cases hlookup : ipToID.lookup edge.dstDevice with
    | none => exact hedge.dstDevice
    | some id => exact hids edge.dstDevice id hlookup
  · split at hdevice
    · cases hdevice
      exact hedge.dstDevice
    · rcases Option.or_eq_some_iff.mp hdevice with hmac | ⟨-, hkept⟩
      · exact valid_macIdentity hraw hids hmac
      · split at hkept
        · cases hkept
        · cases hkept
          exact hedge.dstDevice

theorem clean_peerPort (hraw : ∀ edge ∈ rawEdges, ObservedEdge edge) (hedge : ObservedEdge edge)
    (device : GoString) : Clean (peerPort order rawEdges ipToID arpMACToIP edge device) := by
  unfold peerPort
  split
  · cases hport : lldpPort order rawEdges ipToID arpMACToIP edge.srcDevice edge.srcPort device with
    | none => exact clean_nil
    | some port =>
        obtain ⟨reporter, hfind, rfl⟩ := Option.map_eq_some_iff.mp hport
        have hmem := List.mem_reverse.mp (List.mem_of_find?_eq_some hfind)
        exact (hraw reporter hmem).dstPort
  · exact hedge.dstPort

theorem observedEdge_resolved (hraw : ∀ edge ∈ rawEdges, ObservedEdge edge)
    (hids : ∀ address id, ipToID.lookup address = some id → validString id = true)
    {edge seen : Edge} (hedge : ObservedEdge edge)
    (hseen : resolved order rawEdges ipToID arpMACToIP edge = some seen) : ObservedEdge seen := by
  obtain ⟨device, hdevice, rfl⟩ := Option.map_eq_some_iff.mp hseen
  exact ⟨hedge.srcDevice, hedge.srcPort, valid_peerDevice hraw hids hedge hdevice,
    clean_peerPort hraw hedge device, hedge.discoveryProto, hedge.linkKind, hedge.metadata⟩

end Resolution

/-- What a walked edge of the cycle is an observation of. -/
def observation (cfg : Config) (order : RangeOrder) (arrivals : List Arrival) (edge : Edge) :
    Option Edge :=
  resolved order (walkedEdges cfg arrivals) (managementIDs (probeResults cfg arrivals))
    (mergedARP order cfg arrivals) edge

def observations (cfg : Config) (order : RangeOrder) (arrivals : List Arrival) : List Edge :=
  (walkedEdges cfg arrivals).filterMap (observation cfg order arrivals)

theorem observedEdge_of_mem (hseen : seen ∈ observations cfg order arrivals) :
    ObservedEdge seen := by
  obtain ⟨edge, hedge, hresolved⟩ := List.mem_filterMap.mp hseen
  exact observedEdge_resolved (fun _ => observedEdge_of_walked)
    (fun _ _ => valid_managementIDs) (observedEdge_of_walked hedge) hresolved

/-! ## What the hub will take

The hub requires a port at the first endpoint of every edge, which for a
reconciled edge is the endpoint with the smaller device name. Whether that
endpoint has one depends on which side reported the link and on its protocol. -/

/-- The counter of an unconfirmed link reaches its limit in this cycle. -/
def LinkExpires (cfg : Config) (seen : List Edge) (ages : Option (Map Graph.EdgeKey Int))
    (link : Graph.EdgeKey) : Prop :=
  ¬ Graph.BothReported seen link ∧
    ∃ held, ages = some held ∧ ∃ age, held.lookup link = some age ∧
      cfg.unconfirmedLinkTTLCycles ≤ Graph.increment age

/-- A link the hub accepts, given what all observations have in common. -/
structure SendableLink (link : Graph.EdgeKey) : Prop where
  srcPort_ne : link.srcPort ≠ []
  srcDevice_length : link.srcDevice.length ≤ maxPortNameBytes
  srcDevice_unforbidden : Unforbidden link.srcDevice
  dstDevice_length : link.dstDevice.length ≤ maxPortNameBytes
  dstDevice_unforbidden : Unforbidden link.dstDevice
  srcPort_valid : validString link.srcPort = true
  dstPort_valid : validString link.dstPort = true

/-- Every link that the walked edges lead to, and that does not expire, is
sendable. -/
def EveryLinkSendable (cfg : Config) (order : RangeOrder) (arrivals : List Arrival)
    (ages : Option (Map Graph.EdgeKey Int)) : Prop :=
  ∀ edge ∈ walkedEdges cfg arrivals, ∀ seen link,
    observation cfg order arrivals edge = some seen → Graph.groupKey seen = some link →
    ¬ LinkExpires cfg (observations cfg order arrivals) ages link → SendableLink link

theorem runCycle_edges (cfg : Config) (order : RangeOrder) (arrivals : List Arrival)
    (ages : Option (Map Graph.EdgeKey Int)) :
    (runCycle cfg order arrivals ages).graph.edges =
      (Graph.reconcile order (observations cfg order arrivals)).1.filter (fun edge =>
        Graph.key edge ∉ (Graph.ageUnconfirmed order
          (Graph.reconcile order (observations cfg order arrivals)).1 ages
          cfg.unconfirmedLinkTTLCycles).1) := by
  simp only [runCycle, synthesizeEdges_eq]
  rfl

theorem directionUnidirectional_ne : directionUnidirectional ≠ directionBidirectional := by
  decide

/-- The edge of a link is published unless the link expires. -/
theorem mem_runCycle_edges {ages : Option (Map Graph.EdgeKey Int)} :
    edge ∈ (runCycle cfg order arrivals ages).graph.edges ↔
      edge ∈ (Graph.reconcile order (observations cfg order arrivals)).1 ∧
        ¬ LinkExpires cfg (observations cfg order arrivals) ages (Graph.key edge) := by
  rw [runCycle_edges, List.mem_filter]
  refine and_congr_right ?_
  intro hedge
  have hstands := Graph.standsFor_of_mem_reconcile hedge
  rw [decide_eq_true_iff,
    Graph.mem_expired_ageUnconfirmed (Graph.reconcile_nodup_keys order _) hedge]
  refine not_congr ?_
  have hdirection : edge.direction ≠ directionBidirectional ↔
      ¬ Graph.BothReported (observations cfg order arrivals) (Graph.key edge) := by
    rw [hstands.direction_eq]
    split
    next hboth => simp [hboth]
    next hone => simp [hone, directionUnidirectional_ne]
  unfold LinkExpires Graph.Expires
  rw [hdirection]
  constructor
  · rintro ⟨held, rfl, hone, age, hage, httl⟩
    exact ⟨hone, held, rfl, age, hage, httl⟩
  · rintro ⟨hone, held, rfl, age, hage, httl⟩
    exact ⟨held, rfl, hone, age, hage, httl⟩

theorem fits_of_plain {bound wider : Nat} {text : GoString} (hplain : Plain bound text)
    (hbound : bound ≤ wider) : Fits wider text := by
  refine ⟨hplain.length_le.trans hbound, hplain.valid, ?_⟩
  intro byte hbyte
  obtain ⟨hlow, hhigh⟩ := hplain.graphic byte hbyte
  exact ⟨by omega, by omega⟩

theorem acceptedMetadata_of_publishable {metadata : Map GoString GoString}
    (hmetadata : PublishableMetadata metadata) : AcceptedMetadata metadata := by
  intro key value hlookup
  obtain ⟨hkey, hplain, hvalue⟩ := hmetadata key value hlookup
  exact ⟨hkey, fits_of_plain hplain (by decide), fits_of_plain hvalue (by decide)⟩

theorem fits_normalizedPort {port : GoString} (hport : Clean port)
    (hvalid : validString (Graph.normalizePortName port) = true) :
    Fits maxPortNameBytes (Graph.normalizePortName port) := by
  obtain ⟨hlength, hbytes⟩ := Graph.normalizePortName_clean hport
  exact ⟨hlength.trans (by decide), hvalid, hbytes⟩

/-- Both ports of a link are normalised ports of its observations. -/
theorem fits_ports (hseen : ObservedEdge seen) (hkey : Graph.groupKey seen = some link)
    (hsendable : SendableLink link) :
    Fits maxPortNameBytes link.srcPort ∧ Fits maxPortNameBytes link.dstPort := by
  have hsrc := hsendable.srcPort_valid
  have hdst := hsendable.dstPort_valid
  rcases Graph.devices_of_groupKey hkey with ⟨rfl, -⟩ | ⟨rfl, -⟩
  · dsimp only [Graph.normalizedEndpoints] at hsrc hdst ⊢
    exact ⟨fits_normalizedPort hseen.srcPort hsrc, fits_normalizedPort hseen.dstPort hdst⟩
  · dsimp only [Graph.normalizedEndpoints, Graph.EdgeKey.swap] at hsrc hdst ⊢
    exact ⟨fits_normalizedPort hseen.dstPort hsrc, fits_normalizedPort hseen.srcPort hdst⟩

theorem valid_devices (hseen : ObservedEdge seen) (hkey : Graph.groupKey seen = some link) :
    validString link.srcDevice = true ∧ validString link.dstDevice = true := by
  rcases Graph.devices_of_groupKey hkey with ⟨rfl, -⟩ | ⟨rfl, -⟩
  · exact ⟨hseen.srcDevice, hseen.dstDevice⟩
  · exact ⟨hseen.dstDevice, hseen.srcDevice⟩

/-- A reconciled edge is acceptable exactly when its link is sendable. -/
theorem acceptedEdge_iff (hstands : Graph.StandsFor (observations cfg order arrivals) link edge) :
    AcceptedEdge edge ↔ SendableLink link := by
  obtain ⟨chosen, hchosen, -, -, hproto, hkind, -, -, -, hmetadata⟩ := hstands.chosen
  obtain ⟨hmem, hkey⟩ := Graph.mem_observationsOf.mp hchosen
  have hseen := observedEdge_of_mem hmem
  have hlink := hstands.endpoints_eq
  constructor
  · intro haccepted
    subst hlink
    exact ⟨haccepted.srcPort_ne, haccepted.srcDevice.length_le, haccepted.srcDevice.unforbidden,
      haccepted.dstDevice.length_le, haccepted.dstDevice.unforbidden, haccepted.srcPort.valid,
      haccepted.dstPort.valid⟩
  · intro hsendable
    obtain ⟨hsrcPort, hdstPort⟩ := fits_ports hseen hkey hsendable
    obtain ⟨hsrcValid, hdstValid⟩ := valid_devices hseen hkey
    obtain ⟨hsrc, hdst, hdistinct⟩ := Graph.link_devices hkey
    subst hlink
    exact {
      srcDevice_ne := hsrc
      srcPort_ne := hsendable.srcPort_ne
      dstDevice_ne := hdst
      distinct := hdistinct
      srcDevice := ⟨hsendable.srcDevice_length, hsrcValid, hsendable.srcDevice_unforbidden⟩
      srcPort := hsrcPort
      dstDevice := ⟨hsendable.dstDevice_length, hdstValid, hsendable.dstDevice_unforbidden⟩
      dstPort := hdstPort
      discoveryProto := hproto ▸ fits_of_plain hseen.discoveryProto (by decide)
      linkKind := hkind ▸ fits_of_plain hseen.linkKind (by decide)
      metadata := hmetadata ▸ acceptedMetadata_of_publishable hseen.metadata }

/-- The hub takes the edges of a published payload exactly when every link the
walked edges lead to is sendable. -/
theorem published_edges_accepted_iff {cfg : Config} {order hubOrder : RangeOrder}
    {arrivals : List Arrival} {state : CycleState} {now : Time} {payload : SpokePayload}
    (hpublished : (discoveryStep cfg order arrivals state now).2 = some payload) :
    validateEdges hubOrder payload.edges = none ↔
      EveryLinkSendable cfg order arrivals state.ages := by
  rw [validateEdges_eq_none, publish_edges hpublished]
  change (∀ edge ∈ (runCycle cfg order arrivals state.ages).graph.edges, AcceptedEdge edge) ↔ _
  constructor
  · intro haccepted edge hedge seen link hseen hkey hstays
    have hmem : seen ∈ observations cfg order arrivals :=
      List.mem_filterMap.mpr ⟨edge, hedge, hseen⟩
    obtain ⟨found, hfound, hstands⟩ := Graph.exists_mem_reconcile order hmem hkey
    have hkept : found ∈ (runCycle cfg order arrivals state.ages).graph.edges := by
      rw [mem_runCycle_edges, hstands.key_eq]
      exact ⟨hfound, hstays⟩
    exact (acceptedEdge_iff hstands).mp (haccepted found hkept)
  · intro hsendable edge hedge
    obtain ⟨hreconciled, hstays⟩ := mem_runCycle_edges.mp hedge
    have hstands := Graph.standsFor_of_mem_reconcile hreconciled
    obtain ⟨seen, hseen, -⟩ := hstands.chosen
    obtain ⟨hmem, hkey⟩ := Graph.mem_observationsOf.mp hseen
    obtain ⟨walked, hwalked, hobservation⟩ := List.mem_filterMap.mp hmem
    exact (acceptedEdge_iff hstands).mpr
      (hsendable walked hwalked seen (Graph.key edge) hobservation hkey hstays)

/-! ### Two small networks -/

/-- A spoke that runs only the BGP and CDP modules. -/
def labConfig : Config where
  lldp := false
  cdp := true
  fdb := false
  ospf := false
  bgp := true
  isis := false
  mplsTE := false
  arp := false
  maxVlans := 100
  disableV2MIB := true
  modulesForIP := fun _ => none
  allowedNets := []
  unconfirmedLinkTTLCycles := 3
  maxGraphDevices := 0
  maxGraphEdges := 0
  spokeID := some (str "spoke-a")

/-- The router `r1` with the given tables. -/
def labRouter (tables : List (GoString × List Pdu)) : Probe where
  site := str "lab"
  labels := ∅
  ip := some [10, 0, 0, 1]
  community := str "public"
  v3 := false
  agent :=
    { systemGroup := .ok [⟨dotOIDSysName, .text (str "r1")⟩]
      sysObjectID := none
      bulkWalk := fun oid =>
        .ok (((tables.find? (fun table => table.1 = oid)).map Prod.snd).getD [])
      vlanFdbWalk := fun _ => .ok [] }
  order := fun _ => .insertion
  clock := fun _ => Time.zero

/-- An established session with 10.0.0.2. -/
def bgpRouter : Probe :=
  labRouter [(Bgp.oidBgpPeerTable,
    [⟨str ".1.3.6.1.2.1.15.3.1.2.10.0.0.2", .signed 6⟩,
      ⟨str ".1.3.6.1.2.1.15.3.1.7.10.0.0.2", .octets [10, 0, 0, 2]⟩])]

/-- The switch `sw1` behind interface 1. -/
def cdpRouter : Probe :=
  labRouter [(Cdp.oidCDPCacheTable,
    [⟨str ".1.3.6.1.4.1.9.9.23.1.2.1.1.6.1.1", .text (str "sw1")⟩,
      ⟨str ".1.3.6.1.4.1.9.9.23.1.2.1.1.7.1.1", .text (str "Gi0/2")⟩])]

/-- The state of a loop that has not run yet. -/
def firstCycle : CycleState := ⟨⟨[], [], []⟩, some ∅⟩

/-- The first payload of a spoke that polls one router. -/
def firstPayload (router : Probe) : Option SpokePayload :=
  (discoveryStep labConfig .insertion [⟨0, some router⟩] firstCycle Time.zero).2

/-- The link to a CDP neighbour has both ports and is sendable. -/
theorem cdpRouter_sendable :
    EveryLinkSendable labConfig .insertion [⟨0, some cdpRouter⟩] firstCycle.ages ∧
      ∃ payload, firstPayload cdpRouter = some payload ∧ payload.edges.length = 1 := by
  have hchecks : (firstPayload cdpRouter).map (fun payload =>
      (validateEdges .insertion payload.edges, payload.edges.length)) = some (none, 1) := by
    decide +kernel
  obtain ⟨payload, hpayload, hedges⟩ := Option.map_eq_some_iff.mp hchecks
  rw [Prod.mk.injEq] at hedges
  exact ⟨(published_edges_accepted_iff hpayload).mp hedges.1, payload, hpayload, hedges.2⟩

/-- A BGP session has no ports, and the hub rejects the whole payload for it. -/
theorem bgpRouter_rejected : ∃ payload, firstPayload bgpRouter = some payload ∧
    validateEdges .insertion payload.edges ≠ none ∧
    validateSpokePayload .insertion payload =
      some ⟨.structuralInvalid, ⟨str "edge", 0, []⟩, .required⟩ := by
  have hchecks : (firstPayload bgpRouter).map (fun payload =>
      (decide (validateEdges .insertion payload.edges ≠ none),
        validateSpokePayload .insertion payload)) =
      some (true, some ⟨.structuralInvalid, ⟨str "edge", 0, []⟩, .required⟩) := by
    decide +kernel
  obtain ⟨payload, hpayload, hrejected⟩ := Option.map_eq_some_iff.mp hchecks
  rw [Prod.mk.injEq] at hrejected
  exact ⟨payload, hpayload, of_decide_eq_true hrejected.1, hrejected.2⟩

end TopologyExporter.App
