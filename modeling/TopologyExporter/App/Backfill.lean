import TopologyExporter.App.Publish

/-! # Forwarding-table sightings of LLDP links

A forwarding-table edge names no remote port. It borrows the one that LLDP
reports for the same port and neighbour, and then stands for the same link and
loses to the LLDP edge. The ports are compared as they are spelled when the
remote port is borrowed, but by their normalised names when links are told
apart. Under another spelling the sighting keeps an empty remote port and
becomes a link of its own.
-/

namespace TopologyExporter.App

open Go Discovery

section Backfill

variable (cfg : Config) (order : RangeOrder) (arrivals : List Arrival)

/-- The edges of the cycle as they are reconciled. -/
def synthesizedEdges : List Edge :=
  synthesizeEdges order (walkedEdges cfg arrivals) (managementIDs (probeResults cfg arrivals))
    (mergedARP order cfg arrivals)

/-- The device that a walked edge of the cycle points at. -/
def neighbour (edge : Edge) : Option GoString :=
  peerDevice order (walkedEdges cfg arrivals) (managementIDs (probeResults cfg arrivals))
    (mergedARP order cfg arrivals) edge

/-- What a walked edge that points at `peer` becomes: only the neighbour changes,
and the remote port of a forwarding-table edge. -/
def seenAs (edge : Edge) (peer : GoString) : Edge :=
  { edge with
    dstDevice := peer
    dstPort := peerPort order (walkedEdges cfg arrivals)
      (managementIDs (probeResults cfg arrivals)) (mergedARP order cfg arrivals) edge peer }

/-- An edge that joins a device at a port to another device. -/
def JoinedAt (device port peer : GoString) (edge : Edge) : Prop :=
  ∃ remote, Graph.endpoints edge = ⟨device, port, peer, remote⟩ ∨
    Graph.endpoints edge = ⟨peer, remote, device, port⟩

/-- LLDP reports a remote port for the same spelling of the port and the same
neighbour. -/
def Backfilled (fdb : Edge) (peer : GoString) : Prop :=
  ∃ lldp ∈ walkedEdges cfg arrivals, lldp.discoveryProto = discoveryProtocolLLDP ∧
    lldp.dstPort ≠ [] ∧ lldp.srcDevice = fdb.srcDevice ∧ lldp.srcPort = fdb.srcPort ∧
    neighbour cfg order arrivals lldp = some peer

/-- The endpoints of a walked edge that points at the given device. -/
def endsAt (edge : Edge) (peer : GoString) : Graph.EdgeKey :=
  ⟨edge.srcDevice, Graph.normalizePortName edge.srcPort, peer,
    Graph.normalizePortName edge.dstPort⟩

/-- LLDP or CDP reports a link with these endpoints, from either side. -/
def Outranked (ends : Graph.EdgeKey) : Prop :=
  ∃ better ∈ walkedEdges cfg arrivals,
    (better.discoveryProto = discoveryProtocolLLDP ∨
      better.discoveryProto = discoveryProtocolCDP) ∧
    ∃ peer, neighbour cfg order arrivals better = some peer ∧
      (endsAt better peer = ends ∨ endsAt better peer = ends.swap)

/-- A forwarding-table edge that is about the device at the port and the peer. It
names no port of the peer, so from the peer's side it is about the device at no
port. -/
def SightingAt (device port peer : GoString) (fdb : Edge) (found : GoString) : Prop :=
  (fdb.srcDevice = device ∧ Graph.normalizePortName fdb.srcPort = port ∧ found = peer) ∨
    (fdb.srcDevice = peer ∧ found = device ∧ port = [])

end Backfill

section Links

variable {cfg : Config} {order : RangeOrder} {arrivals : List Arrival}

@[simp] theorem seenAs_discoveryProto (edge : Edge) (peer : GoString) :
    (seenAs cfg order arrivals edge peer).discoveryProto = edge.discoveryProto := rfl

@[simp] theorem seenAs_precedenceRank (edge : Edge) (peer : GoString) :
    (seenAs cfg order arrivals edge peer).precedenceRank = edge.precedenceRank := rfl

theorem synthesizedEdges_eq :
    synthesizedEdges cfg order arrivals = observations cfg order arrivals :=
  synthesizeEdges_eq ..

variable {edge fdb : Edge} {peer found : GoString}

theorem walkedEdge_of_mem (hedge : edge ∈ walkedEdges cfg arrivals) :
    ∃ localDevice, WalkedEdge localDevice edge := by
  obtain ⟨result, hresult, hedge⟩ := List.mem_flatMap.mp hedge
  obtain ⟨targetIdx, probe, arp, hprobe⟩ := mem_probeResults hresult
  exact ⟨result.device.id, (probeTarget_walked hprobe).2 edge hedge⟩

/-! ## Ranks -/

theorem rank_of_fdb (hedge : edge ∈ walkedEdges cfg arrivals)
    (hfdb : edge.discoveryProto = discoveryProtocolFDB) : edge.precedenceRank = 4 := by
  obtain ⟨localDevice, hwalked⟩ := walkedEdge_of_mem hedge
  have hranks : ∀ row ∈ protocolRanks, row.1 = discoveryProtocolFDB → row.2 = 4 := by decide
  exact hranks _ hwalked.ranked hfdb

/-- Only LLDP and CDP rank before forwarding tables. -/
theorem rank_lt_iff (hedge : edge ∈ walkedEdges cfg arrivals) :
    edge.precedenceRank < 4 ↔ edge.discoveryProto = discoveryProtocolLLDP ∨
      edge.discoveryProto = discoveryProtocolCDP := by
  obtain ⟨localDevice, hwalked⟩ := walkedEdge_of_mem hedge
  have hranks : ∀ row ∈ protocolRanks, row.2 < 4 ↔
      row.1 = discoveryProtocolLLDP ∨ row.1 = discoveryProtocolCDP := by
    decide
  exact hranks _ hwalked.ranked

theorem rank_lt_of_le (hedge : edge ∈ walkedEdges cfg arrivals) (hle : edge.precedenceRank ≤ 4)
    (hfdb : edge.discoveryProto ≠ discoveryProtocolFDB) : edge.precedenceRank < 4 := by
  obtain ⟨localDevice, hwalked⟩ := walkedEdge_of_mem hedge
  have hranks : ∀ row ∈ protocolRanks, row.2 ≤ 4 → row.1 ≠ discoveryProtocolFDB → row.2 < 4 := by
    decide
  exact hranks _ hwalked.ranked hle hfdb

/-! ## Observations -/

theorem mem_observations {seen : Edge} :
    seen ∈ observations cfg order arrivals ↔
      ∃ edge ∈ walkedEdges cfg arrivals, ∃ peer, neighbour cfg order arrivals edge = some peer ∧
        seen = seenAs cfg order arrivals edge peer := by
  rw [observations, List.mem_filterMap]
  refine exists_congr fun edge => and_congr_right fun _ => ?_
  rw [observation, resolved, Option.map_eq_some_iff]
  exact exists_congr fun peer => and_congr_right fun _ => eq_comm

/-- A forwarding-table edge has no remote port, so it gets the one of LLDP. -/
theorem peerPort_of_fdb (hedge : edge ∈ walkedEdges cfg arrivals)
    (hfdb : edge.discoveryProto = discoveryProtocolFDB) (peer : GoString) :
    peerPort order (walkedEdges cfg arrivals) (managementIDs (probeResults cfg arrivals))
        (mergedARP order cfg arrivals) edge peer =
      (lldpPort order (walkedEdges cfg arrivals) (managementIDs (probeResults cfg arrivals))
        (mergedARP order cfg arrivals) edge.srcDevice edge.srcPort peer).getD [] := by
  obtain ⟨localDevice, hwalked⟩ := walkedEdge_of_mem hedge
  rw [peerPort, if_pos ⟨hfdb, hwalked.fdb_dstPort hfdb⟩]

theorem peerPort_of_ne_fdb (hfdb : edge.discoveryProto ≠ discoveryProtocolFDB) (peer : GoString) :
    peerPort order (walkedEdges cfg arrivals) (managementIDs (probeResults cfg arrivals))
      (mergedARP order cfg arrivals) edge peer = edge.dstPort := by
  rw [peerPort, if_neg (fun hboth => hfdb hboth.1)]

theorem lldpPort_eq_none :
    lldpPort order (walkedEdges cfg arrivals) (managementIDs (probeResults cfg arrivals))
        (mergedARP order cfg arrivals) fdb.srcDevice fdb.srcPort peer = none ↔
      ¬ Backfilled cfg order arrivals fdb peer := by
  rw [lldpPort, Option.map_eq_none_iff, List.find?_eq_none]
  simp only [List.mem_reverse, decide_eq_true_eq, Backfilled, not_exists, not_and, neighbour]

theorem exists_of_lldpPort {srcDevice srcPort remote : GoString}
    (hport : lldpPort order (walkedEdges cfg arrivals) (managementIDs (probeResults cfg arrivals))
      (mergedARP order cfg arrivals) srcDevice srcPort peer = some remote) :
    ∃ lldp ∈ walkedEdges cfg arrivals, lldp.discoveryProto = discoveryProtocolLLDP ∧
      lldp.srcDevice = srcDevice ∧ lldp.srcPort = srcPort ∧ lldp.dstPort = remote ∧
      neighbour cfg order arrivals lldp = some peer := by
  obtain ⟨lldp, hfind, hremote⟩ := Option.map_eq_some_iff.mp hport
  have hfound := List.find?_some hfind
  obtain ⟨hproto, -, hdevice, hsrcPort, hpeer⟩ := of_decide_eq_true hfound
  exact ⟨lldp, List.mem_reverse.mp (List.mem_of_find?_eq_some hfind), hproto, hdevice, hsrcPort,
    hremote, hpeer⟩

/-! ## Which links LLDP and CDP take -/

theorem endpoints_seenAs_of_ne_fdb {edge : Edge}
    (hfdb : edge.discoveryProto ≠ discoveryProtocolFDB) (peer : GoString) :
    Graph.normalizedEndpoints (seenAs cfg order arrivals edge peer) = endsAt edge peer := by
  rw [Graph.normalizedEndpoints, seenAs, peerPort_of_ne_fdb hfdb, endsAt]

/-- Without a remote port to borrow a sighting keeps its own ends. -/
theorem endpoints_seenAs_of_not_backfilled (hmem : fdb ∈ walkedEdges cfg arrivals)
    (hfdb : fdb.discoveryProto = discoveryProtocolFDB)
    (hback : ¬ Backfilled cfg order arrivals fdb found) :
    Graph.normalizedEndpoints (seenAs cfg order arrivals fdb found) = endsAt fdb found := by
  obtain ⟨localDevice, hwalked⟩ := walkedEdge_of_mem hmem
  rw [Graph.normalizedEndpoints, seenAs, peerPort_of_fdb hmem hfdb, lldpPort_eq_none.mpr hback,
    endsAt, hwalked.fdb_dstPort hfdb, Option.getD_none]

/-- With a remote port to borrow a sighting has the ends of the LLDP edge. -/
theorem outranked_of_backfilled (hmem : fdb ∈ walkedEdges cfg arrivals)
    (hfdb : fdb.discoveryProto = discoveryProtocolFDB)
    (hback : Backfilled cfg order arrivals fdb found) :
    Outranked cfg order arrivals
      (Graph.normalizedEndpoints (seenAs cfg order arrivals fdb found)) := by
  have hsome := mt lldpPort_eq_none.mp (not_not.mpr hback)
  obtain ⟨remote, hremote⟩ := Option.ne_none_iff_exists'.mp hsome
  obtain ⟨lldp, hlldp, hproto, hdevice, hport, hdst, hpeer⟩ := exists_of_lldpPort hremote
  refine ⟨lldp, hlldp, Or.inl hproto, found, hpeer, Or.inl ?_⟩
  rw [Graph.normalizedEndpoints, seenAs, peerPort_of_fdb hmem hfdb, hremote, endsAt, hdevice, hport,
    hdst, Option.getD_some]

/-- A link that was sighted in a forwarding table is not attributed to it
exactly when LLDP or CDP reports the link. -/
theorem winner_ne_fdb_iff {ends : Graph.EdgeKey} (hjoins : Graph.Joins ends)
    {observed seen : Edge}
    (hwinner : Graph.winner (observations cfg order arrivals) (Graph.canonical ends) =
      some observed)
    (hseen : seen ∈ Graph.observationsOf (observations cfg order arrivals) (Graph.canonical ends))
    (hfdb : seen.discoveryProto = discoveryProtocolFDB) :
    observed.discoveryProto ≠ discoveryProtocolFDB ↔ Outranked cfg order arrivals ends := by
  obtain ⟨hobserved, hkey⟩ := Graph.mem_observationsOf.mp (Graph.winner_mem hwinner)
  obtain ⟨edge, hedge, peer, hpeer, rfl⟩ := mem_observations.mp hobserved
  rw [seenAs_discoveryProto]
  constructor
  · intro hproto
    obtain ⟨sighted, hsighted, found, -, rfl⟩ :=
      mem_observations.mp (Graph.mem_observationsOf.mp hseen).1
    have hle := Graph.rank_winner_le hwinner hseen
    rw [seenAs_precedenceRank, seenAs_precedenceRank, rank_of_fdb hsighted hfdb] at hle
    have hlt := rank_lt_of_le hedge hle hproto
    refine ⟨edge, hedge, (rank_lt_iff hedge).mp hlt, peer, hpeer, ?_⟩
    rw [← @endpoints_seenAs_of_ne_fdb cfg order arrivals _ hproto peer]
    exact (Graph.groupKey_eq_canonical hjoins).mp hkey
  · rintro ⟨better, hbetter, hproto, other, hother, hends⟩ hown
    have hlt := (rank_lt_iff hbetter).mpr hproto
    have hne : better.discoveryProto ≠ discoveryProtocolFDB := by
      intro hsame
      rw [rank_of_fdb hbetter hsame] at hlt
      exact absurd hlt (lt_irrefl 4)
    -- the better edge is an observation of the same link
    have hgroup : seenAs cfg order arrivals better other ∈
        Graph.observationsOf (observations cfg order arrivals) (Graph.canonical ends) := by
      refine Graph.mem_observationsOf.mpr
        ⟨mem_observations.mpr ⟨better, hbetter, other, hother, rfl⟩, ?_⟩
      rw [Graph.groupKey_eq_canonical hjoins, endpoints_seenAs_of_ne_fdb hne]
      exact hends
    have hle := Graph.rank_winner_le hwinner hgroup
    rw [seenAs_precedenceRank, seenAs_precedenceRank, rank_of_fdb hedge hown] at hle
    exact absurd hlt (not_lt.mpr hle)

/-! ## Links seen only in a forwarding table -/

/-- An edge with the ends of a sighting joins what the sighting is about. -/
theorem joinedAt_iff_sightingAt {device port : GoString} (hport : fdb.dstPort = [])
    (hends : Graph.endpoints edge = endsAt fdb found ∨
      Graph.endpoints edge = (endsAt fdb found).swap) :
    JoinedAt device port peer edge ↔ SightingAt device port peer fdb found := by
  rcases hends with hends | hends
  · simp only [JoinedAt, hends, SightingAt, endsAt, hport, Graph.normalizePortName_nil,
      Graph.EdgeKey.mk.injEq]
    grind
  · simp only [JoinedAt, hends, SightingAt, endsAt, hport, Graph.normalizePortName_nil,
      Graph.EdgeKey.swap, Graph.EdgeKey.mk.injEq]
    grind

end Links

/-- A link between a device at a port and another device is attributed to a
forwarding table unless, for each sighting of it, LLDP reports the neighbour
under the same spelling of the port, or LLDP or CDP reports the link without a
remote port. -/
theorem no_fdb_link_iff (cfg : Config) (order : RangeOrder) (arrivals : List Arrival)
    (device port peer : GoString) :
    (∀ edge ∈ (Graph.reconcile order (synthesizedEdges cfg order arrivals)).1,
        JoinedAt device port peer edge → edge.discoveryProto ≠ discoveryProtocolFDB) ↔
      ∀ fdb ∈ walkedEdges cfg arrivals, fdb.discoveryProto = discoveryProtocolFDB →
        ∀ found, neighbour cfg order arrivals fdb = some found →
          Graph.Joins (endsAt fdb found) → SightingAt device port peer fdb found →
            Backfilled cfg order arrivals fdb found ∨
              Outranked cfg order arrivals (endsAt fdb found) := by
  rw [synthesizedEdges_eq]
  constructor
  · intro hnone fdb hmem hfdb found hfound hjoins hsighting
    by_cases hback : Backfilled cfg order arrivals fdb found
    · exact Or.inl hback
    · -- the sighting is grouped under its own ends, and their winner is published
      apply Or.inr
      obtain ⟨localDevice, hwalked⟩ := walkedEdge_of_mem hmem
      have hseen := mem_observations.mpr ⟨fdb, hmem, found, hfound, rfl⟩
      have hkey := (Graph.groupKey_eq_canonical hjoins).mpr
        (Or.inl (endpoints_seenAs_of_not_backfilled hmem hfdb hback))
      obtain ⟨observed, hwinner⟩ := Graph.exists_winner hseen hkey
      obtain ⟨-, hown⟩ := Graph.mem_observationsOf.mp (Graph.winner_mem hwinner)
      have hpublished := (@Graph.mem_reconcile_iff_winner order _ _).mpr
        ⟨_, observed, hwinner, rfl⟩
      have hends := Graph.canonical_cases (endsAt fdb found)
      rw [← @Graph.endpoints_linkEdge (observations cfg order arrivals) _ _ hown] at hends
      have hproto := hnone _ hpublished
        ((joinedAt_iff_sightingAt (hwalked.fdb_dstPort hfdb) hends).mpr hsighting)
      rw [(Graph.linkEdge_fields ..).2] at hproto
      exact (winner_ne_fdb_iff hjoins hwinner
        (Graph.mem_observationsOf.mpr ⟨hseen, hkey⟩) hfdb).mp hproto
  · intro hsightings edge hedge hjoined hfdb
    obtain ⟨link, observed, hwinner, rfl⟩ := Graph.mem_reconcile_iff_winner.mp hedge
    have hobserved := Graph.winner_mem hwinner
    obtain ⟨hseen, hkey⟩ := Graph.mem_observationsOf.mp hobserved
    rw [(Graph.linkEdge_fields ..).2] at hfdb
    obtain ⟨fdb, hmem, found, hfound, rfl⟩ := mem_observations.mp hseen
    have hends := @Graph.endpoints_linkEdge (observations cfg order arrivals) _ _ hkey
    obtain ⟨hsrc, hdst, hdistinct, rfl⟩ := Graph.groupKey_eq_some.mp hkey
    have hjoins : Graph.Joins
        (Graph.normalizedEndpoints (seenAs cfg order arrivals fdb found)) :=
      ⟨hsrc, hdst, hdistinct⟩
    -- the winner is a sighting of its own link, so the condition on sightings applies to it
    refine (winner_ne_fdb_iff hjoins hwinner hobserved hfdb).mpr ?_ hfdb
    by_cases hback : Backfilled cfg order arrivals fdb found
    · exact outranked_of_backfilled hmem hfdb hback
    · obtain ⟨localDevice, hwalked⟩ := walkedEdge_of_mem hmem
      have hown := endpoints_seenAs_of_not_backfilled hmem hfdb hback
      have hsides := Graph.canonical_cases
        (Graph.normalizedEndpoints (seenAs cfg order arrivals fdb found))
      rw [← Graph.normalizedGroupKey, ← hends, hown] at hsides
      rw [hown] at hjoins ⊢
      have hsighting := (joinedAt_iff_sightingAt (hwalked.fdb_dstPort hfdb) hsides).mp hjoined
      exact (hsightings fdb hmem hfdb found hfound hjoins hsighting).resolve_left hback

/-! ### A port with two spellings -/

/-- A spoke that runs the LLDP and forwarding-table modules. -/
def bridgeConfig : Config :=
  { labConfig with lldp := true, cdp := false, fdb := true, bgp := false }

/-- The router `r1` with the switch `sw1` behind port 1. LLDP spells the port out,
the interface table abbreviates it. -/
def bridgeRouter : Probe :=
  labRouter
    [(Lldp.oidLocPortTable,
      [⟨str ".1.0.8802.1.1.2.1.3.7.1.2.1", .signed 5⟩,
        ⟨str ".1.0.8802.1.1.2.1.3.7.1.3.1", .octets (str "GigabitEthernet0/1")⟩]),
    (Lldp.oidRemTable,
      [⟨str ".1.0.8802.1.1.2.1.4.1.1.4.0.1.1", .signed 4⟩,
        ⟨str ".1.0.8802.1.1.2.1.4.1.1.5.0.1.1", .octets [2, 0, 0, 0, 0, 1]⟩,
        ⟨str ".1.0.8802.1.1.2.1.4.1.1.6.0.1.1", .signed 5⟩,
        ⟨str ".1.0.8802.1.1.2.1.4.1.1.7.0.1.1", .octets (str "Gi0/24")⟩,
        ⟨str ".1.0.8802.1.1.2.1.4.1.1.9.0.1.1", .text (str "sw1")⟩]),
    (Fdb.oidFdbTable,
      [⟨str ".1.3.6.1.2.1.17.4.3.1.1.2.0.0.0.0.1", .octets [2, 0, 0, 0, 0, 1]⟩,
        ⟨str ".1.3.6.1.2.1.17.4.3.1.2.2.0.0.0.0.1", .signed 1⟩,
        ⟨str ".1.3.6.1.2.1.17.4.3.1.3.2.0.0.0.0.1", .signed 3⟩]),
    (Fdb.oidBasePortTable, [⟨str ".1.3.6.1.2.1.17.1.4.1.2.1", .signed 1⟩]),
    (oidIfNameTable, [⟨str ".1.3.6.1.2.1.31.1.1.1.1.1", .text (str "Gi0/1")⟩])]

def bridgeCycle : List Arrival := [⟨0, some bridgeRouter⟩]

/-- LLDP and the forwarding table see `sw1` behind one port, and the port is
published with two links to `sw1`, one of them seen in the forwarding table. -/
theorem respelled_port_second_link :
    ∃ lldp ∈ walkedEdges bridgeConfig bridgeCycle, ∃ fdb ∈ walkedEdges bridgeConfig bridgeCycle,
      (lldp.discoveryProto = discoveryProtocolLLDP ∧ fdb.discoveryProto = discoveryProtocolFDB) ∧
      fdb.srcDevice = lldp.srcDevice ∧
      Graph.normalizePortName fdb.srcPort = Graph.normalizePortName lldp.srcPort ∧
      neighbour bridgeConfig .insertion bridgeCycle lldp = some (str "sw1") ∧
      neighbour bridgeConfig .insertion bridgeCycle fdb = some (str "sw1") ∧
      ∃ edge ∈ (Graph.reconcile .insertion
          (synthesizedEdges bridgeConfig .insertion bridgeCycle)).1,
        JoinedAt lldp.srcDevice (Graph.normalizePortName lldp.srcPort) (str "sw1") edge ∧
          edge.discoveryProto = discoveryProtocolFDB := by
  obtain ⟨hwalked, hpublished⟩ :
      (∃ lldp ∈ walkedEdges bridgeConfig bridgeCycle,
        ∃ fdb ∈ walkedEdges bridgeConfig bridgeCycle,
          (lldp.discoveryProto = discoveryProtocolLLDP ∧
            fdb.discoveryProto = discoveryProtocolFDB) ∧
          (lldp.srcDevice = str "r1" ∧ fdb.srcDevice = str "r1") ∧
          (lldp.srcPort = str "GigabitEthernet0/1" ∧ fdb.srcPort = str "Gi0/1") ∧
          neighbour bridgeConfig .insertion bridgeCycle lldp = some (str "sw1") ∧
          neighbour bridgeConfig .insertion bridgeCycle fdb = some (str "sw1")) ∧
      ∃ edge ∈ (Graph.reconcile .insertion
          (synthesizedEdges bridgeConfig .insertion bridgeCycle)).1,
        Graph.endpoints edge = ⟨str "r1", str "Gi0/1", str "sw1", []⟩ ∧
          edge.discoveryProto = discoveryProtocolFDB := by
    decide +kernel
  obtain ⟨hlong, hshort⟩ : Graph.normalizePortName (str "GigabitEthernet0/1") = str "Gi0/1" ∧
      Graph.normalizePortName (str "Gi0/1") = str "Gi0/1" := by
    decide +kernel
  obtain ⟨lldp, hlldp, fdb, hfdb, hprotos, ⟨hsrc, hfdbSrc⟩, ⟨hport, hfdbPort⟩, hpeers⟩ := hwalked
  obtain ⟨edge, hedge, hends, hproto⟩ := hpublished
  refine ⟨lldp, hlldp, fdb, hfdb, hprotos, hfdbSrc.trans hsrc.symm, ?_, hpeers.1, hpeers.2,
    edge, hedge, ⟨[], Or.inl ?_⟩, hproto⟩
  · rw [hfdbPort, hport, hlong, hshort]
  · rw [hends, hsrc, hport, hlong]

end TopologyExporter.App
