import TopologyExporter.GoLib.Net
import TopologyExporter.Discovery.Types

/-! # Resolution of neighbours

Walkers name a neighbour as its protocol does: by name, by address or by MAC.
Before reconciliation the names are resolved to the IDs of the polled devices,
and forwarding-table observations borrow the remote port that LLDP reports for
the same neighbour.

The loop over maps is `synthesizeEdges`. What it does to a single observation
is `resolved`, which does not mention the maps; `synthesizeEdges_eq` says that
the two agree.
-/

namespace TopologyExporter.App

open Go Discovery

/-! ## The loops -/

/-- The MAC address an LLDP observation gives for a neighbour it names, in
canonical spelling, with that name. -/
def chassisIdentity (edge : Edge) : Option (GoString × GoString) := do
  if edge.discoveryProto ≠ discoveryProtocolLLDP then none
  else
    let mac ← edge.metadata.lookup metadataKeyPeerChassisMac
    if edge.dstDevice = [] then none
    else
      let hw ← Net.parseMAC mac
      if (Net.parseIP edge.dstDevice).isSome then none
      else if (Net.parseMAC edge.dstDevice).isSome then none
      else some (Net.hardwareAddrString hw, edge.dstDevice)

/-- The device behind a row of an ARP table. -/
def arpIdentity (ipToID : Map GoString GoString) (row : GoString × GoString) :
    Option (GoString × GoString) := do
  let hw ← Net.parseMAC row.1
  let id ← ipToID.lookup row.2
  some (Net.hardwareAddrString hw, id)

/-- MAC addresses to device IDs; LLDP takes precedence over ARP. -/
def macIndex (order : RangeOrder) (rawEdges : List Edge)
    (ipToID arpMACToIP : Map GoString GoString) :
    Map GoString GoString :=
  ((arpMACToIP.range order 0).filterMap (arpIdentity ipToID)).foldl Map.insertNew
    ((rawEdges.filterMap chassisIdentity).foldl Map.insertNew ∅)

def resolveEdge (ipToID macToID : Map GoString GoString) (edge : Edge) : Option Edge :=
  if (Net.parseIP edge.dstDevice).isSome then
    match ipToID.lookup edge.dstDevice with
    | some id => some { edge with dstDevice := id }
    | none => some edge
  else match Net.parseMAC edge.dstDevice with
    | none => some edge
    | some hw =>
        match macToID.lookup (Net.hardwareAddrString hw) with
        | some id => some { edge with dstDevice := id }
        | none =>
            -- an unknown address in a forwarding table is most likely a host
            if edge.discoveryProto ≠ discoveryProtocolFDB then some edge else none

def resolveEdgeDstDevices (edges : List Edge) (ipToID macToID : Map GoString GoString) :
    List Edge :=
  edges.filterMap (resolveEdge ipToID macToID)

/-- The remote port LLDP reports for a port and neighbour. -/
def lldpPortRow (edge : Edge) : Option ((GoString × GoString × GoString) × GoString) :=
  if edge.discoveryProto = discoveryProtocolLLDP ∧ edge.dstPort ≠ [] then
    some ((edge.srcDevice, edge.srcPort, edge.dstDevice), edge.dstPort)
  else none

def lldpDstPorts (edges : List Edge) : Map (GoString × GoString × GoString) GoString :=
  (edges.filterMap lldpPortRow).foldl (fun table row => table.insert row.1 row.2) ∅

def backfillDstPort (ports : Map (GoString × GoString × GoString) GoString) (edge : Edge) : Edge :=
  if edge.discoveryProto = discoveryProtocolFDB ∧ edge.dstPort = [] then
    match ports.lookup (edge.srcDevice, edge.srcPort, edge.dstDevice) with
    | some port => { edge with dstPort := port }
    | none => edge
  else edge

def synthesizeEdges (order : RangeOrder) (rawEdges : List Edge)
    (ipToID arpMACToIP : Map GoString GoString) : List Edge :=
  let edges := resolveEdgeDstDevices rawEdges ipToID (macIndex order rawEdges ipToID arpMACToIP)
  edges.map (backfillDstPort (lldpDstPorts edges))

/-! ## One observation at a time -/

section Resolved

variable (order : RangeOrder) (rawEdges : List Edge) (ipToID arpMACToIP : Map GoString GoString)

/-- The device with a MAC address: the first one LLDP names, or the first one
the ARP tables lead to. -/
def macIdentity (mac : GoString) : Option GoString :=
  (((rawEdges.filterMap chassisIdentity).find? (fun row => row.1 = mac)).map Prod.snd).or
    ((((arpMACToIP.range order 0).filterMap (arpIdentity ipToID)).find?
      (fun row => row.1 = mac)).map Prod.snd)

/-- The device an observation points at, unless it is to be suppressed. -/
def peerDevice (edge : Edge) : Option GoString :=
  if (Net.parseIP edge.dstDevice).isSome then
    some ((ipToID.lookup edge.dstDevice).getD edge.dstDevice)
  else match Net.parseMAC edge.dstDevice with
    | none => some edge.dstDevice
    | some hw =>
        (macIdentity order rawEdges ipToID arpMACToIP (Net.hardwareAddrString hw)).or
          (if edge.discoveryProto = discoveryProtocolFDB then none else some edge.dstDevice)

/-- The remote port in the last LLDP observation of a neighbour on a port. -/
def lldpPort (srcDevice srcPort dstDevice : GoString) : Option GoString :=
  (rawEdges.reverse.find? (fun edge =>
    edge.discoveryProto = discoveryProtocolLLDP ∧ edge.dstPort ≠ [] ∧
      edge.srcDevice = srcDevice ∧ edge.srcPort = srcPort ∧
      peerDevice order rawEdges ipToID arpMACToIP edge = some dstDevice)).map Edge.dstPort

/-- The remote port of an observation that points at `device`. -/
def peerPort (edge : Edge) (device : GoString) : GoString :=
  if edge.discoveryProto = discoveryProtocolFDB ∧ edge.dstPort = [] then
    (lldpPort order rawEdges ipToID arpMACToIP edge.srcDevice edge.srcPort device).getD []
  else edge.dstPort

/-- What becomes of an observation. -/
def resolved (edge : Edge) : Option Edge :=
  (peerDevice order rawEdges ipToID arpMACToIP edge).map (fun device =>
    { edge with
      dstDevice := device
      dstPort := peerPort order rawEdges ipToID arpMACToIP edge device })

theorem lookup_macIndex (mac : GoString) :
    (macIndex order rawEdges ipToID arpMACToIP).lookup mac =
      macIdentity order rawEdges ipToID arpMACToIP mac := by
  rw [macIndex, Map.lookup_foldl_insertNew, Map.lookup_foldl_insertNew, AList.lookup_empty,
    Option.none_or]
  rfl

theorem resolveEdge_eq (edge : Edge) :
    resolveEdge ipToID (macIndex order rawEdges ipToID arpMACToIP) edge =
      (peerDevice order rawEdges ipToID arpMACToIP edge).map (fun device =>
        { edge with dstDevice := device }) := by
  unfold resolveEdge peerDevice
  split
  · cases ipToID.lookup edge.dstDevice with
    | none => rfl
    | some id => rfl
  · split
    · rfl
    next hw _ =>
        rw [lookup_macIndex]
        cases macIdentity order rawEdges ipToID arpMACToIP (Net.hardwareAddrString hw) with
        | some id => rfl
        | none =>
            by_cases hfdb : edge.discoveryProto = discoveryProtocolFDB
            · simp [hfdb]
            · simp [hfdb]

theorem lookup_lldpDstPorts (srcDevice srcPort dstDevice : GoString) :
    (lldpDstPorts (resolveEdgeDstDevices rawEdges ipToID
      (macIndex order rawEdges ipToID arpMACToIP))).lookup (srcDevice, srcPort, dstDevice) =
      lldpPort order rawEdges ipToID arpMACToIP srcDevice srcPort dstDevice := by
  rw [lldpDstPorts, Map.lookup_foldl_insert, AList.lookup_empty, Option.or_none,
    resolveEdgeDstDevices, List.filterMap_filterMap, ← List.filterMap_reverse,
    List.find?_filterMap, lldpPort]
  -- a row of the port table and the observation it comes from
  have hrow : ∀ edge : Edge,
      ((resolveEdge ipToID (macIndex order rawEdges ipToID arpMACToIP) edge).bind
        lldpPortRow).any (fun row => row.1 = (srcDevice, srcPort, dstDevice)) =
      decide (edge.discoveryProto = discoveryProtocolLLDP ∧ edge.dstPort ≠ [] ∧
        edge.srcDevice = srcDevice ∧ edge.srcPort = srcPort ∧
        peerDevice order rawEdges ipToID arpMACToIP edge = some dstDevice) := by
    intro edge
    rw [resolveEdge_eq]
    cases peerDevice order rawEdges ipToID arpMACToIP edge with
    | none => simp
    | some device =>
        by_cases hport : edge.discoveryProto = discoveryProtocolLLDP ∧ edge.dstPort ≠ []
        · simp [lldpPortRow, hport]
        · simp only [Option.map_some, Option.bind_some, lldpPortRow, if_neg hport,
            Option.any_none]
          exact (decide_eq_false (fun hall => hport ⟨hall.1, hall.2.1⟩)).symm
  simp only [hrow]
  cases hfind : rawEdges.reverse.find? (fun edge =>
    edge.discoveryProto = discoveryProtocolLLDP ∧ edge.dstPort ≠ [] ∧
      edge.srcDevice = srcDevice ∧ edge.srcPort = srcPort ∧
      peerDevice order rawEdges ipToID arpMACToIP edge = some dstDevice) with
  | none => simp
  | some edge =>
      have hfound := List.find?_some hfind
      have hedge := of_decide_eq_true hfound
      simp [resolveEdge_eq, hedge, lldpPortRow]

/-- The loops resolve each observation on its own. -/
theorem synthesizeEdges_eq : synthesizeEdges order rawEdges ipToID arpMACToIP =
    rawEdges.filterMap (resolved order rawEdges ipToID arpMACToIP) := by
  unfold synthesizeEdges
  extract_lets edges
  generalize hports : lldpDstPorts edges = ports
  rw [show edges = resolveEdgeDstDevices rawEdges ipToID
    (macIndex order rawEdges ipToID arpMACToIP) from rfl, resolveEdgeDstDevices,
    List.map_filterMap]
  apply List.filterMap_congr
  intro edge _
  rw [resolveEdge_eq, Option.map_map, resolved]
  congr 1
  funext device
  simp only [Function.comp_apply, backfillDstPort, peerPort]
  split
  next hfdb =>
      rw [← hports, lookup_lldpDstPorts]
      cases lldpPort order rawEdges ipToID arpMACToIP edge.srcDevice edge.srcPort device with
      | none => simp [hfdb.2]
      | some port => rfl
  next => rfl

end Resolved

/-! ## Tables that agree -/

section Agreement

variable {order order' : RangeOrder} {rawEdges : List Edge}
  {ipToID arp arp' : Map GoString GoString}

/-- Under keys in canonical spelling, a MAC address has one row in the table, so
the order of the rows does not matter. -/
theorem find?_arpIdentity (hcanonical : ∀ mac address, arp.lookup mac = some address →
      (Net.parseMAC mac).map Net.hardwareAddrString = some mac) (mac : GoString) :
    (((arp.range order 0).filterMap (arpIdentity ipToID)).find? (fun row => row.1 = mac)).map
        Prod.snd =
      (arp.lookup mac).bind (fun address => ipToID.lookup address) := by
  have hidentity : ∀ key address, (key, address) ∈ arp.range order 0 →
      arpIdentity ipToID (key, address) = (ipToID.lookup address).map (fun id => (key, id)) := by
    intro key address hrow
    obtain ⟨hw, hparse, hprint⟩ := Option.map_eq_some_iff.mp
      (hcanonical key address (Map.mem_range.mp hrow))
    cases hlookup : ipToID.lookup address with
    | none => simp [arpIdentity, hparse, hlookup]
    | some id => simp [arpIdentity, hparse, hprint, hlookup]
  have hnodup : (((arp.range order 0).filterMap (arpIdentity ipToID)).map Prod.fst).Nodup := by
    refine List.Sublist.nodup (map_filterMap_sublist ?_) (Map.range_nodup arp order 0)
    intro row hrow identity hfound
    rw [hidentity row.1 row.2 hrow] at hfound
    obtain ⟨id, -, rfl⟩ := Option.map_eq_some_iff.mp hfound
    rfl
  apply Option.ext
  intro id
  rw [Map.find?_eq_some_iff_of_nodup hnodup, List.mem_filterMap, Option.bind_eq_some_iff]
  constructor
  · intro hfound
    obtain ⟨⟨key, address⟩, hrow, hfound⟩ := hfound
    rw [hidentity key address hrow] at hfound
    obtain ⟨found, hlookup, hsame⟩ := Option.map_eq_some_iff.mp hfound
    cases hsame
    exact ⟨address, Map.mem_range.mp hrow, hlookup⟩
  · intro hstored
    obtain ⟨address, hrow, hlookup⟩ := hstored
    refine ⟨(mac, address), Map.mem_range.mpr hrow, ?_⟩
    rw [hidentity mac address (Map.mem_range.mpr hrow), hlookup, Option.map_some]

/-- Tables that lead to the same devices resolve every observation alike. -/
theorem resolved_congr (hsame : ∀ mac, macIdentity order rawEdges ipToID arp mac =
      macIdentity order' rawEdges ipToID arp' mac) :
    resolved order rawEdges ipToID arp = resolved order' rawEdges ipToID arp' := by
  have hdevice : peerDevice order rawEdges ipToID arp = peerDevice order' rawEdges ipToID arp' := by
    funext edge
    simp only [peerDevice, hsame]
  have hport : peerPort order rawEdges ipToID arp = peerPort order' rawEdges ipToID arp' := by
    funext edge device
    simp only [peerPort, lldpPort, hdevice]
  funext edge
  simp only [resolved, hdevice, hport]

end Agreement

end TopologyExporter.App
