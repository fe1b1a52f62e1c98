import TopologyExporter.Discovery.Bgp

/-! # The outcome of a peer table

A walk of a peer table records one outcome. `no_peers` is the one that pages: it
is meant to say that the table has peers and none of them is established. The walk
derives it from the edges that are left after the address and scope filters.
-/

namespace TopologyExporter.Discovery.Bgp

open Go

/-! ## The rows of the two kinds of table -/

/-- The peers of the standard table. -/
def standardPeers (pdus : List Pdu) : Map GoString PeerRecord :=
  Map.updateRows {} ∅ (pdus.filterMap peerRow)

/-- The peers of a vendor table whose index decodes. -/
def vendorPeers (spec : VendorTableSpec) (pdus : List Pdu) : Map GoString PeerRecord :=
  Map.updateRows {} ∅ (pdus.filterMap (vendorRow spec))

def Established (peer : PeerRecord) : Prop := peer.state = bgpStateEstablished

/-- The filters let the address of the peer through. -/
def Admissible (allowedNets : List Net.IPNet) (peer : PeerRecord) : Prop :=
  peer.ip ≠ [] ∧ Net.isUnspecified peer.ip = false ∧ Net.isLinkLocalUnicast peer.ip = false ∧
    outOfScope peer.ip allowedNets = false

/-- There are peers, and none of them is established. -/
def AllDown (peers : Map GoString PeerRecord) : Prop :=
  (∃ key peer, peers.lookup key = some peer) ∧
    ∀ key peer, peers.lookup key = some peer → ¬ Established peer

/-- Unless all sessions are down, the filters leave one that is not. -/
def Witnessed (allowedNets : List Net.IPNet) (peers : Map GoString PeerRecord) : Prop :=
  (∃ key peer, peers.lookup key = some peer ∧ Established peer) →
    ∃ key peer, peers.lookup key = some peer ∧ Established peer ∧ Admissible allowedNets peer

section Edges

variable {order : RangeOrder} {localDevice : GoString} {peers : Map GoString PeerRecord}
  {allowedNets : List Net.IPNet} {now : Time}

theorem rowOutcome_edge?_isSome {peer : PeerRecord} :
    (rowOutcome localDevice allowedNets now peer).edge?.isSome ↔
      Established peer ∧ Admissible allowedNets peer := by
  unfold rowOutcome Established Admissible
  by_cases hstate : peer.state = bgpStateEstablished
  · by_cases hip : peer.ip = []
    · simp [hstate, hip, RowOutcome.edge?]
    · cases hunspecified : Net.isUnspecified peer.ip with
      | true => simp [hstate, hip, RowOutcome.edge?]
      | false =>
          cases hlocal : Net.isLinkLocalUnicast peer.ip with
          | true => simp [hstate, hip, RowOutcome.edge?]
          | false =>
              cases hscope : outOfScope peer.ip allowedNets with
              | true => simp [hstate, hip, RowOutcome.edge?]
              | false => simp [hstate, hip, RowOutcome.edge?]
  · simp [hstate, RowOutcome.edge?]

theorem exists_edge_iff :
    0 < ((buildPeerEdges order localDevice peers allowedNets now).filterMap
      RowOutcome.edge?).length ↔
      ∃ key peer, peers.lookup key = some peer ∧ Established peer ∧
        Admissible allowedNets peer := by
  rw [List.length_pos_iff_exists_mem]
  simp only [List.mem_filterMap, buildPeerEdges, List.mem_map]
  constructor
  · intro hedge
    obtain ⟨edge, row, ⟨⟨key, peer⟩, hmem, rfl⟩, hrow⟩ := hedge
    have husable := rowOutcome_edge?_isSome.mp (Option.isSome_iff_exists.mpr ⟨edge, hrow⟩)
    exact ⟨key, peer, Map.mem_range.mp hmem, husable⟩
  · intro hpeer
    obtain ⟨key, peer, hlookup, husable⟩ := hpeer
    obtain ⟨edge, hedge⟩ := Option.isSome_iff_exists.mp (rowOutcome_edge?_isSome.mpr husable)
    exact ⟨edge, _, ⟨(key, peer), Map.mem_range.mpr hlookup, rfl⟩, hedge⟩

/-- The lack of edges says that all sessions are down unless the filters hide the
only ones that are up. -/
theorem down_iff_witnessed :
    ((¬ 0 < ((buildPeerEdges order localDevice peers allowedNets now).filterMap
        RowOutcome.edge?).length) →
      ∀ key peer, peers.lookup key = some peer → ¬ Established peer) ↔
      Witnessed allowedNets peers := by
  rw [exists_edge_iff, Witnessed, not_imp_comm]
  apply imp_congr_left
  push Not
  rfl

end Edges

/-! ## What each walk records -/

/-- A table has a row when one of the bindings belongs to one. -/
theorem exists_row_iff {decode : Pdu → Option (GoString × (PeerRecord → PeerRecord))}
    {pdus : List Pdu} :
    (∃ key peer, (Map.updateRows {} ∅ (pdus.filterMap decode)).lookup key = some peer) ↔
      ∃ pdu ∈ pdus, (decode pdu).isSome := by
  have hnone : ∀ key, (Map.updateRows {} ∅ (pdus.filterMap decode)).lookup key = none ↔
      ∀ row ∈ pdus.filterMap decode, row.1 ≠ key := by
    intro key
    rw [Map.updateRows, ← Map.groupBy, Map.lookup_groupBy_eq_none]
    simp only [ne_eq, Option.some.injEq]
  constructor
  · intro hrow
    obtain ⟨key, peer, hlookup⟩ := hrow
    have hsome : ¬ ∀ row ∈ pdus.filterMap decode, row.1 ≠ key := by
      rw [← hnone key, hlookup]
      exact Option.some_ne_none peer
    push Not at hsome
    obtain ⟨row, hmem, -⟩ := hsome
    obtain ⟨pdu, hpdu, hdecode⟩ := List.mem_filterMap.mp hmem
    exact ⟨pdu, hpdu, Option.isSome_iff_exists.mpr ⟨row, hdecode⟩⟩
  · intro hpdu
    obtain ⟨pdu, hpdu, hdecode⟩ := hpdu
    obtain ⟨row, hdecode⟩ := Option.isSome_iff_exists.mp hdecode
    refine ⟨row.1, Option.ne_none_iff_exists'.mp ?_⟩
    intro hempty
    exact (hnone row.1).mp hempty row (List.mem_filterMap.mpr ⟨pdu, hpdu, hdecode⟩) rfl

theorem entries_eq_nil_iff {peers : Map GoString PeerRecord} :
    peers.entries = [] ↔ ¬ ∃ key peer, peers.lookup key = some peer := by
  constructor
  · intro hempty hrow
    obtain ⟨key, peer, hlookup⟩ := hrow
    have hmem := AList.mem_lookup_iff.mp hlookup
    rw [hempty] at hmem
    cases hmem
  · intro hnone
    apply List.eq_nil_iff_forall_not_mem.mpr
    intro entry hentry
    exact hnone ⟨entry.1, entry.2, AList.mem_lookup_iff.mpr hentry⟩

section Walks

variable {agent : Agent} {order : RangeOrder} {localDevice : GoString}
  {allowedNets : List Net.IPNet} {now : Time} {pdus : List Pdu}

theorem outcome_labels_distinct : outcomeMIBUnimplemented ≠ outcomeNoPeers ∧
    outcomeWalkerDrift ≠ outcomeNoPeers ∧ outcomeEdges ≠ outcomeNoPeers ∧
    outcomeMalformedIndex ≠ outcomeNoPeers := by
  decide

theorem rfc4273Outcome_eq_noPeers_iff {rows : List RowOutcome} {hadPDUs : Bool} :
    rfc4273Outcome rows hadPDUs = outcomeNoPeers ↔
      ¬ 0 < (rows.filterMap RowOutcome.edge?).length ∧ hadPDUs = true := by
  obtain ⟨hunimplemented, -, hedges, -⟩ := outcome_labels_distinct
  unfold rfc4273Outcome
  split_ifs with hedge hpdus
  · exact iff_of_false hedges (fun h => h.1 hedge)
  · exact iff_of_true rfl ⟨hedge, hpdus⟩
  · exact iff_of_false hunimplemented (fun h => hpdus h.2)

variable {spec : VendorTableSpec} {outcomes : List (GoString × GoString)}

/-- A binding of a vendor table either decodes or is malformed. -/
theorem vendorIndex_isSome_iff {pdu : Pdu} :
    (vendorIndex spec pdu).isSome ↔
      (vendorRow spec pdu).isSome ∨ malformedIndex spec pdu = true := by
  unfold vendorRow malformedIndex
  cases vendorIndex spec pdu with
  | none => simp
  | some index =>
      cases hdecode : spec.decodeIndex index.2 with
      | none => simp [hdecode]
      | some ip => simp [hdecode]

/-- A vendor walk records `no_peers` if it has no edges, and either has peers or
has no row that it tried to decode. -/
theorem vendor_noPeers_iff (hwalk : agent.bulkWalk spec.root = .ok pdus) :
    (spec.walker, outcomeNoPeers) ∈
        (walkAndBuildVendorEdges agent order spec localDevice allowedNets now).1 ↔
      (pdus ≠ [] ∧ ¬ ∃ pdu ∈ pdus, (vendorIndex spec pdu).isSome) ∨
        (∃ pdu ∈ pdus, (vendorRow spec pdu).isSome) ∧
          ¬ 0 < ((buildPeerEdges order localDevice (vendorPeers spec pdus) allowedNets
            now).filterMap RowOutcome.edge?).length := by
  obtain ⟨hunimplemented, hdrift, hedges, hmalformed⟩ := outcome_labels_distinct
  have htable : walkVendorPeerTable agent spec =
      .ok ⟨vendorPeers spec pdus, !pdus.isEmpty, pdus.countP (malformedIndex spec)⟩ := by
    rw [walkVendorPeerTable, hwalk]
    rfl
  -- only the outcome of the walk as a whole can be this one, malformed rows have their own
  have hlast : ∀ count outcome, (spec.walker, outcomeNoPeers) ∈
      List.replicate count (spec.walker, outcomeMalformedIndex) ++ [(spec.walker, outcome)] ↔
        outcome = outcomeNoPeers := by
    intro count outcome
    rw [List.mem_append, List.mem_replicate, List.mem_singleton, Prod.mk.injEq, Prod.mk.injEq]
    simp only [hmalformed.symm, and_false, false_or, true_and]
    exact eq_comm
  have hindexed : (∃ pdu ∈ pdus, (vendorIndex spec pdu).isSome) ↔
      (∃ pdu ∈ pdus, (vendorRow spec pdu).isSome) ∨ 0 < pdus.countP (malformedIndex spec) := by
    simp only [vendorIndex_isSome_iff, and_or_left, exists_or, List.countP_pos_iff]
  have hpeers : (∃ key peer, (vendorPeers spec pdus).lookup key = some peer) ↔
      ∃ pdu ∈ pdus, (vendorRow spec pdu).isSome :=
    exists_row_iff
  rw [walkAndBuildVendorEdges, htable]
  simp only [entries_eq_nil_iff, hpeers, hindexed]
  by_cases hrow : ∃ pdu ∈ pdus, (vendorRow spec pdu).isSome
  · simp only [hrow, not_true_eq_false, if_false, hlast, true_or, and_false, false_or, true_and]
    split_ifs with hedge
    · exact iff_of_false hedges (fun h => h hedge)
    · exact iff_of_true rfl hedge
  · simp only [hrow, not_false_eq_true, if_true, hlast, false_or, false_and, or_false]
    cases pdus with
    | nil => simpa using hunimplemented
    | cons pdu rest =>
        simp only [List.isEmpty_cons, Bool.not_false, Bool.not_true, Bool.false_eq_true, if_false,
          ne_eq, reduceCtorEq, not_false_eq_true, true_and]
        split_ifs with hpositive
        · exact iff_of_false hdrift (fun h => h hpositive)
        · exact iff_of_true rfl hpositive

/-- The outcomes of a vendor walk carry the label of its table. -/
theorem walkAndBuildVendorEdges_walker :
    ∀ outcome ∈ (walkAndBuildVendorEdges agent order spec localDevice allowedNets now).1,
      outcome.1 = spec.walker := by
  intro outcome houtcome
  have hlabel : ∀ {count : Nat} {label : GoString}, outcome ∈
      List.replicate count (spec.walker, outcomeMalformedIndex) ++ [(spec.walker, label)] →
      outcome.1 = spec.walker := by
    intro count label hmem
    rcases List.mem_append.mp hmem with hrow | hlast
    · rw [List.eq_of_mem_replicate hrow]
    · rw [List.mem_singleton.mp hlast]
  unfold walkAndBuildVendorEdges at houtcome
  split at houtcome
  · rw [List.mem_singleton.mp houtcome]
  · simp only at houtcome
    split at houtcome
    · exact hlabel houtcome
    · exact hlabel houtcome

theorem vendorSpecFor_walker {vendor : GoString} (hspec : vendorSpecFor vendor = some spec) :
    spec.walker ≠ walkerRFC4273 := by
  unfold vendorSpecFor at hspec
  split_ifs at hspec
  · cases hspec
    decide
  · cases hspec
    decide
  · cases hspec
    decide
  · cases hspec
    decide

theorem vendorEdges_walker {params : Params} :
    ∀ outcome ∈ (vendorEdges agent order params localDevice allowedNets now).1,
      outcome.1 ≠ walkerRFC4273 := by
  intro outcome houtcome
  unfold vendorEdges at houtcome
  split at houtcome
  · split at houtcome
    next spec hspec =>
        rw [walkAndBuildVendorEdges_walker outcome houtcome]
        exact vendorSpecFor_walker hspec
    next => cases houtcome
  · cases houtcome

/-- The walk records the outcome of the standard table after those of the vendor table. -/
theorem standard_noPeers_iff {params : Params}
    (hvendor : vendorEdges agent order params localDevice allowedNets now = (outcomes, none))
    (hwalk : agent.bulkWalk oidBgpPeerTable = .ok pdus) :
    ∃ result, walk agent order params localDevice allowedNets now = .ok result ∧
      ((walkerRFC4273, outcomeNoPeers) ∈ result.outcomes ↔
        pdus ≠ [] ∧ ¬ 0 < ((buildPeerEdges order localDevice (standardPeers pdus) allowedNets
          now).filterMap RowOutcome.edge?).length) := by
  let rows := buildPeerEdges order localDevice (standardPeers pdus) allowedNets now
  have htable : walkBgpPeerTable agent = .ok (standardPeers pdus, !pdus.isEmpty) := by
    rw [walkBgpPeerTable, hwalk]
    rfl
  refine ⟨collectRows (outcomes ++ [(walkerRFC4273, rfc4273Outcome rows (!pdus.isEmpty))]) rows,
    ?_, ?_⟩
  · rw [walk, hvendor]
    simp only [htable]
    rfl
  · have hlabels : (walkerRFC4273, outcomeNoPeers) ∉ outcomes := by
      intro hmem
      have hwalker := @vendorEdges_walker agent order localDevice allowedNets now params
      rw [hvendor] at hwalker
      exact hwalker _ hmem rfl
    have hlast : (walkerRFC4273, outcomeNoPeers) ∈
        outcomes ++ [(walkerRFC4273, rfc4273Outcome rows (!pdus.isEmpty))] ↔
          rfc4273Outcome rows (!pdus.isEmpty) = outcomeNoPeers := by
      rw [List.mem_append, List.mem_singleton, Prod.mk.injEq, or_iff_right hlabels]
      exact ⟨fun h => h.2.symm, fun h => ⟨rfl, h.symm⟩⟩
    refine hlast.trans (rfc4273Outcome_eq_noPeers_iff.trans ?_)
    rw [and_comm, Bool.not_eq_true', List.isEmpty_eq_false_iff]

theorem vendor_means_down_iff (hwalk : agent.bulkWalk spec.root = .ok pdus) :
    ((spec.walker, outcomeNoPeers) ∈
        (walkAndBuildVendorEdges agent order spec localDevice allowedNets now).1 →
      AllDown (vendorPeers spec pdus)) ↔
      (pdus ≠ [] → (∃ pdu ∈ pdus, (vendorIndex spec pdu).isSome) ∧
        Witnessed allowedNets (vendorPeers spec pdus)) := by
  have hpeers : (∃ key peer, (vendorPeers spec pdus).lookup key = some peer) ↔
      ∃ pdu ∈ pdus, (vendorRow spec pdu).isSome :=
    exists_row_iff
  have hwitness := @down_iff_witnessed order localDevice (vendorPeers spec pdus) allowedNets now
  rw [vendor_noPeers_iff hwalk, AllDown, hpeers]
  constructor
  · intro hdown hbindings
    refine ⟨?_, hwitness.mp ?_⟩
    · by_contra hunread
      obtain ⟨⟨pdu, hpdu, hrow⟩, -⟩ := hdown (Or.inl ⟨hbindings, hunread⟩)
      exact hunread ⟨pdu, hpdu, vendorIndex_isSome_iff.mpr (Or.inl hrow)⟩
    · intro hedges key peer hlookup
      exact (hdown (Or.inr ⟨hpeers.mp ⟨key, peer, hlookup⟩, hedges⟩)).2 key peer hlookup
  · intro hcondition hrecorded
    rcases hrecorded with ⟨hbindings, hunread⟩ | ⟨⟨pdu, hpdu, hrow⟩, hedges⟩
    · exact absurd (hcondition hbindings).1 hunread
    · have hwitnessed := (hcondition (List.ne_nil_of_mem hpdu)).2
      exact ⟨⟨pdu, hpdu, hrow⟩, hwitness.mpr hwitnessed hedges⟩

theorem standard_means_down_iff {params : Params}
    (hvendor : vendorEdges agent order params localDevice allowedNets now = (outcomes, none))
    (hwalk : agent.bulkWalk oidBgpPeerTable = .ok pdus) :
    ∃ result, walk agent order params localDevice allowedNets now = .ok result ∧
      (((walkerRFC4273, outcomeNoPeers) ∈ result.outcomes → AllDown (standardPeers pdus)) ↔
      (pdus ≠ [] → (∃ pdu ∈ pdus, (peerRow pdu).isSome) ∧
        Witnessed allowedNets (standardPeers pdus))) := by
  obtain ⟨result, hresult, hrecorded⟩ := standard_noPeers_iff hvendor hwalk
  have hpeers : (∃ key peer, (standardPeers pdus).lookup key = some peer) ↔
      ∃ pdu ∈ pdus, (peerRow pdu).isSome :=
    exists_row_iff
  have hwitness := @down_iff_witnessed order localDevice (standardPeers pdus) allowedNets now
  refine ⟨result, hresult, ?_⟩
  rw [hrecorded, AllDown, hpeers]
  constructor
  · intro hdown hbindings
    refine ⟨?_, hwitness.mp fun hedges => (hdown ⟨hbindings, hedges⟩).2⟩
    by_contra hunread
    refine hunread (hdown ⟨hbindings, ?_⟩).1
    intro hedges
    obtain ⟨key, peer, hlookup, -⟩ := exists_edge_iff.mp hedges
    exact hunread (hpeers.mp ⟨key, peer, hlookup⟩)
  · intro hcondition hrecorded
    obtain ⟨hrow, hwitnessed⟩ := hcondition hrecorded.1
    exact ⟨hrow, hwitness.mpr hwitnessed hrecorded.2⟩

end Walks

/-- A walk of a vendor table or of the standard one records `no_peers` for a table
all of whose sessions are down, provided that a binding it got belongs to a row and
that, if sessions are up, the filters leave one of them. -/
theorem noPeers_means_down_iff (agent : Agent) (order : RangeOrder) (localDevice : GoString)
    (allowedNets : List Net.IPNet) (now : Time) :
    (∀ spec pdus, agent.bulkWalk spec.root = .ok pdus →
      (((spec.walker, outcomeNoPeers) ∈
          (walkAndBuildVendorEdges agent order spec localDevice allowedNets now).1 →
        AllDown (vendorPeers spec pdus)) ↔
      (pdus ≠ [] → (∃ pdu ∈ pdus, (vendorIndex spec pdu).isSome) ∧
        Witnessed allowedNets (vendorPeers spec pdus)))) ∧
    (∀ params outcomes pdus, vendorEdges agent order params localDevice allowedNets now =
        (outcomes, none) → agent.bulkWalk oidBgpPeerTable = .ok pdus →
      ∃ result, walk agent order params localDevice allowedNets now = .ok result ∧
        (((walkerRFC4273, outcomeNoPeers) ∈ result.outcomes → AllDown (standardPeers pdus)) ↔
        (pdus ≠ [] → (∃ pdu ∈ pdus, (peerRow pdu).isSome) ∧
          Witnessed allowedNets (standardPeers pdus)))) := by
  refine ⟨?_, ?_⟩
  · intro spec pdus hwalk
    exact vendor_means_down_iff hwalk
  · intro params outcomes pdus hvendor hwalk
    exact standard_means_down_iff hvendor hwalk

/-! ## A router with one session -/

/-- One session in the given state, as the vendor table has it. -/
def vendorBindings (state : Int64) : List Pdu :=
  [⟨str ".1.3.6.1.4.1.9.9.187.1.2.5.1.3.1.4.10.0.0.2", .signed state⟩]

/-- The same session in the standard table. -/
def standardBindings (state : Int64) : List Pdu :=
  [⟨str ".1.3.6.1.2.1.15.3.1.2.10.0.0.2", .signed state⟩,
    ⟨str ".1.3.6.1.2.1.15.3.1.7.10.0.0.2", .octets [10, 0, 0, 2]⟩]

def sessionRouter (state : Int64) : Agent where
  systemGroup := .ok []
  sysObjectID := none
  bulkWalk oid :=
    if oid = ciscoCbgpPeer2Spec.root then .ok (vendorBindings state)
    else .ok (standardBindings state)
  vlanFdbWalk _ := .ok []

/-- A network that the session's peer is not in. -/
def elsewhere : List Net.IPNet := [⟨[192, 168, 0, 0], [255, 255, 0, 0]⟩]

/-- The alarm about an idle session is raised, and rightly. -/
theorem idle_session_reported_down :
    (walkerVendorCisco, outcomeNoPeers) ∈
        (walkAndBuildVendorEdges (sessionRouter 1) .insertion ciscoCbgpPeer2Spec (str "r1")
          elsewhere Time.zero).1 ∧
      AllDown (vendorPeers ciscoCbgpPeer2Spec (vendorBindings 1)) := by
  obtain ⟨hrecorded, hindex, hstates⟩ :
      (walkerVendorCisco, outcomeNoPeers) ∈
        (walkAndBuildVendorEdges (sessionRouter 1) .insertion ciscoCbgpPeer2Spec (str "r1")
          elsewhere Time.zero).1 ∧
      (∀ pdu ∈ vendorBindings 1, (vendorIndex ciscoCbgpPeer2Spec pdu).isSome = true) ∧
      (vendorPeers ciscoCbgpPeer2Spec (vendorBindings 1)).entries.all
        (fun entry => entry.2.state == 1) = true := by
    decide
  refine ⟨hrecorded, ?_⟩
  refine ((noPeers_means_down_iff (sessionRouter 1) .insertion (str "r1") elsewhere Time.zero).1
    ciscoCbgpPeer2Spec _ rfl).mpr ?_ hrecorded
  intro _
  refine ⟨⟨_, List.mem_singleton_self _, hindex _ (List.mem_singleton_self _)⟩, ?_⟩
  intro hup
  obtain ⟨key, peer, hlookup, hestablished⟩ := hup
  have hstate := List.all_eq_true.mp hstates _ (AList.mem_lookup_iff.mp hlookup)
  rw [beq_iff_eq] at hstate
  rw [Established, hstate] at hestablished
  exact absurd hestablished (by decide)

/-- An established session outside the scope raises the alarm in both tables. -/
theorem up_session_reported_down :
    ((sessionRouter 6).bulkWalk ciscoCbgpPeer2Spec.root = .ok (vendorBindings 6) ∧
      (walkerVendorCisco, outcomeNoPeers) ∈
        (walkAndBuildVendorEdges (sessionRouter 6) .insertion ciscoCbgpPeer2Spec (str "r1")
          elsewhere Time.zero).1 ∧
      ((vendorPeers ciscoCbgpPeer2Spec (vendorBindings 6)).lookup (str "1.4.10.0.0.2")).map
        PeerRecord.state = some bgpStateEstablished) ∧
    ((sessionRouter 6).bulkWalk oidBgpPeerTable = .ok (standardBindings 6) ∧
      (walk (sessionRouter 6) .insertion ⟨str "public", false, 0, [], false⟩ (str "r1") elsewhere
        Time.zero).toOption.map WalkResult.outcomes = some [(walkerRFC4273, outcomeNoPeers)] ∧
      ((standardPeers (standardBindings 6)).lookup (str "10.0.0.2")).map PeerRecord.state =
        some bgpStateEstablished) := by
  obtain ⟨hvendor, hvendorState, hstandard, hstandardState⟩ :
      (walkerVendorCisco, outcomeNoPeers) ∈
        (walkAndBuildVendorEdges (sessionRouter 6) .insertion ciscoCbgpPeer2Spec (str "r1")
          elsewhere Time.zero).1 ∧
      ((vendorPeers ciscoCbgpPeer2Spec (vendorBindings 6)).lookup (str "1.4.10.0.0.2")).map
        PeerRecord.state = some bgpStateEstablished ∧
      (walk (sessionRouter 6) .insertion ⟨str "public", false, 0, [], false⟩ (str "r1") elsewhere
        Time.zero).toOption.map WalkResult.outcomes = some [(walkerRFC4273, outcomeNoPeers)] ∧
      ((standardPeers (standardBindings 6)).lookup (str "10.0.0.2")).map PeerRecord.state =
        some bgpStateEstablished := by
    decide
  exact ⟨⟨rfl, hvendor, hvendorState⟩, rfl, hstandard, hstandardState⟩

end TopologyExporter.Discovery.Bgp
