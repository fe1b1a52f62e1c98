import TopologyExporter.App.Cycle
import TopologyExporter.Graph.Reconcile

/-! # Links seen from both ends

Two devices that report each other are one link only if their reports agree on
both endpoints. An IS-IS report names the local port and leaves the remote one
empty, so the reports of the two ends never do.
-/

namespace TopologyExporter.App

open Go Discovery

/-- The edge joins the two devices, in either order. -/
def Joins (first second : GoString) (edge : Edge) : Prop :=
  (edge.srcDevice = first ∧ edge.dstDevice = second) ∨
    (edge.srcDevice = second ∧ edge.dstDevice = first)

instance (first second : GoString) (edge : Edge) : Decidable (Joins first second edge) :=
  inferInstanceAs (Decidable (_ ∨ _))

def edgesBetween (first second : GoString) (edges : List Edge) : List Edge :=
  edges.filter (Joins first second)

/-- The two devices are joined by one edge, and it is bidirectional. -/
def ConfirmedOnce (first second : GoString) (edges : List Edge) : Prop :=
  ∃ edge, edgesBetween first second edges = [edge] ∧ edge.direction = directionBidirectional

variable {edge : Edge}

/-- A link joins the devices of its observations. -/
theorem joins_of_groupKey {seen : Edge} {link : Graph.EdgeKey} {first second : GoString}
    (hkey : Graph.groupKey seen = some link) (hendpoints : Graph.endpoints edge = link) :
    Joins first second edge ↔ Joins first second seen := by
  rcases Graph.devices_of_groupKey hkey with ⟨rfl, -⟩ | ⟨rfl, -⟩
  · simp only [Graph.endpoints, Graph.normalizedEndpoints, Graph.EdgeKey.mk.injEq] at hendpoints
    unfold Joins
    rw [hendpoints.1, hendpoints.2.2.1]
  · simp only [Graph.endpoints, Graph.normalizedEndpoints, Graph.EdgeKey.swap,
      Graph.EdgeKey.mk.injEq] at hendpoints
    unfold Joins
    rw [hendpoints.1, hendpoints.2.2.1]
    tauto

/-! ## Reports without a remote port -/

/-- One of two reports about the same pair of devices, with a local port and no
remote one. -/
structure OneSided (edge : Edge) (src port dst : GoString) : Prop where
  srcDevice : edge.srcDevice = src
  srcPort : edge.srcPort = port
  dstDevice : edge.dstDevice = dst
  dstPort : edge.dstPort = []

variable {first second firstPort secondPort : GoString} {forth back : Edge}

theorem OneSided.groupKey {src port dst : GoString} (hedge : OneSided edge src port dst)
    (hsrc : src ≠ []) (hdst : dst ≠ []) (hne : src ≠ dst) :
    Graph.groupKey edge =
      some (Graph.canonical ⟨src, Graph.normalizePortName port, dst, []⟩) := by
  rw [Graph.groupKey_eq_some, hedge.srcDevice, hedge.dstDevice, Graph.normalizedGroupKey,
    Graph.normalizedEndpoints, hedge.srcDevice, hedge.srcPort, hedge.dstDevice, hedge.dstPort,
    Graph.normalizePortName_nil]
  exact ⟨hsrc, hdst, hne, rfl⟩

/-- The two ends do not agree on the link: each leaves empty what the other
fills in. -/
theorem canonical_ne_canonical (hne : first ≠ second) (hport : firstPort ≠ []) :
    Graph.canonical ⟨first, firstPort, second, []⟩ ≠
      Graph.canonical ⟨second, secondPort, first, []⟩ := by
  rcases lt_or_gt_of_ne hne with hlt | hgt
  · rw [Graph.canonical_of_lt hlt, Graph.canonical_of_gt hlt]
    intro heq
    exact hport (congrArg Graph.EdgeKey.srcPort heq)
  · rw [Graph.canonical_of_gt hgt, Graph.canonical_of_lt hgt]
    intro heq
    exact hport (congrArg Graph.EdgeKey.dstPort heq)

section Reconciled

variable {order : RangeOrder} {seen : List Edge} {edge : Edge}

/-- A reconciled edge joins the devices of each observation of its link. -/
theorem joins_iff_of_mem_observationsOf {other : Edge}
    (hedge : edge ∈ (Graph.reconcile order seen).1)
    (hother : other ∈ Graph.observationsOf seen (Graph.key edge)) :
    Joins first second edge ↔ Joins first second other := by
  apply joins_of_groupKey (Graph.mem_observationsOf.mp hother).2
  exact (Graph.standsFor_of_mem_reconcile hedge).endpoints_eq

/-- A report between two devices leaves an edge of its link between them. -/
theorem exists_mem_edgesBetween {report : Edge} {link : Graph.EdgeKey} (order : RangeOrder)
    (hreport : report ∈ seen) (hkey : Graph.groupKey report = some link)
    (hjoins : Joins first second report) :
    ∃ edge ∈ edgesBetween first second (Graph.reconcile order seen).1, Graph.key edge = link := by
  obtain ⟨edge, hedge, hstands⟩ := Graph.exists_mem_reconcile order hreport hkey
  refine ⟨edge, List.mem_filter.mpr ⟨hedge, decide_eq_true ?_⟩, hstands.key_eq⟩
  exact (joins_of_groupKey hkey hstands.endpoints_eq).mpr hjoins

/-- A link that a single report is about stays unconfirmed. -/
theorem unidirectional_of_single_report (report : Edge)
    (hedge : edge ∈ (Graph.reconcile order seen).1)
    (hsingle : ∀ other ∈ Graph.observationsOf seen (Graph.key edge), other = report) :
    edge.direction = directionUnidirectional := by
  rw [(Graph.standsFor_of_mem_reconcile hedge).direction_eq, if_neg]
  rintro ⟨⟨fromSrc, hfromSrc, hsrc⟩, ⟨fromDst, hfromDst, hdst⟩⟩
  obtain ⟨-, -, hdistinct⟩ := Graph.link_devices (Graph.mem_observationsOf.mp hfromSrc).2
  apply hdistinct
  rw [← hsrc, ← hdst, hsingle fromSrc hfromSrc, hsingle fromDst hfromDst]

end Reconciled

/-- Two one-sided reports that are alone between their devices are reconciled
into two edges, neither of them confirmed. -/
theorem oneSided_pair_unconfirmed (order : RangeOrder) {seen : List Edge}
    (hfirst : first ≠ []) (hsecond : second ≠ []) (hne : first ≠ second)
    (hforth : OneSided forth first firstPort second)
    (hback : OneSided back second secondPort first)
    (hport : Graph.normalizePortName firstPort ≠ [])
    (hforthMem : forth ∈ seen) (hbackMem : back ∈ seen)
    (honly : ∀ edge ∈ seen, Joins first second edge → edge = forth ∨ edge = back) :
    (edgesBetween first second (Graph.reconcile order seen).1).length = 2 ∧
      ∀ edge ∈ edgesBetween first second (Graph.reconcile order seen).1,
        edge.direction = directionUnidirectional := by
  have hforthKey := hforth.groupKey hfirst hsecond hne
  have hbackKey := hback.groupKey hsecond hfirst hne.symm
  have hdiffer := @canonical_ne_canonical first second
    (Graph.normalizePortName firstPort) (Graph.normalizePortName secondPort) hne hport
  set forthLink := Graph.canonical ⟨first, Graph.normalizePortName firstPort, second, []⟩
  set backLink := Graph.canonical ⟨second, Graph.normalizePortName secondPort, first, []⟩
  -- what is observed of an edge between the devices is one of the two reports
  have hreports : ∀ edge ∈ edgesBetween first second (Graph.reconcile order seen).1,
      ∀ other ∈ Graph.observationsOf seen (Graph.key edge), other = forth ∨ other = back := by
    intro edge hedge other hother
    obtain ⟨hmem, hjoins⟩ := List.mem_filter.mp hedge
    apply honly other (Graph.mem_observationsOf.mp hother).1
    exact (joins_iff_of_mem_observationsOf hmem hother).mp (of_decide_eq_true hjoins)
  -- the reports are about different links, so each edge has one of them only
  have hbetween : ∀ edge ∈ edgesBetween first second (Graph.reconcile order seen).1,
      Graph.key edge = forthLink ∨ Graph.key edge = backLink := by
    intro edge hedge
    obtain ⟨chosen, hchosen, -⟩ :=
      (Graph.standsFor_of_mem_reconcile (List.mem_filter.mp hedge).1).chosen
    have hkey := (Graph.mem_observationsOf.mp hchosen).2
    rcases hreports edge hedge chosen hchosen with rfl | rfl
    · exact Or.inl (Option.some.inj (hkey.symm.trans hforthKey))
    · exact Or.inr (Option.some.inj (hkey.symm.trans hbackKey))
  constructor
  · have hkeys : ((edgesBetween first second (Graph.reconcile order seen).1).map
        Graph.key).Perm [forthLink, backLink] := by
      refine (List.perm_ext_iff_of_nodup ?_ (by simpa using hdiffer)).mpr ?_
      · exact (Graph.reconcile_nodup_keys order seen).sublist
          (List.filter_sublist.map Graph.key)
      · intro link
        simp only [List.mem_map, List.mem_cons, List.not_mem_nil, or_false]
        constructor
        · rintro ⟨edge, hedge, rfl⟩
          exact hbetween edge hedge
        · rintro (rfl | rfl)
          · exact exists_mem_edgesBetween order hforthMem hforthKey
              (Or.inl ⟨hforth.srcDevice, hforth.dstDevice⟩)
          · exact exists_mem_edgesBetween order hbackMem hbackKey
              (Or.inr ⟨hback.srcDevice, hback.dstDevice⟩)
    simpa using hkeys.length_eq
  · intro edge hedge
    have hmem := (List.mem_filter.mp hedge).1
    rcases hbetween edge hedge with hlink | hlink
    · apply unidirectional_of_single_report forth hmem
      intro other hother
      have hkey := (Graph.mem_observationsOf.mp hother).2
      rcases hreports edge hedge other hother with rfl | rfl
      · rfl
      · exact absurd (hlink.symm.trans (Option.some.inj (hkey.symm.trans hbackKey))) hdiffer
    · apply unidirectional_of_single_report back hmem
      intro other hother
      have hkey := (Graph.mem_observationsOf.mp hother).2
      rcases hreports edge hedge other hother with rfl | rfl
      · exact absurd ((Option.some.inj (hforthKey.symm.trans hkey)).trans hlink) hdiffer
      · rfl

/-! ## IS-IS adjacencies -/

section Isis

variable {order : RangeOrder} {rawEdges : List Edge} {ipToID arpMACToIP : Map GoString GoString}

/-- Resolution turns an IS-IS edge into a one-sided report about its peer. -/
theorem oneSided_resolved {agent : Agent} {localDevice peer : GoString}
    {allowedNets : List Net.IPNet} {now : Time} {result : WalkResult}
    (hwalk : Isis.walk agent localDevice allowedNets now = .ok result) {edge : Edge}
    (hedge : edge ∈ result.edges)
    (hpeer : peerDevice order rawEdges ipToID arpMACToIP edge = some peer) :
    ∃ seen, resolved order rawEdges ipToID arpMACToIP edge = some seen ∧
      OneSided seen localDevice edge.srcPort peer := by
  obtain ⟨ifName, ip, reason, rfl, -, -⟩ := Isis.walk_newEdge hwalk hedge
  have hproto : discoveryProtocolISIS ≠ discoveryProtocolFDB := by decide
  have hdstPort : peerPort order rawEdges ipToID arpMACToIP
      (Isis.newEdge localDevice ifName ip reason now) peer = [] := by
    simp [peerPort, Isis.newEdge, hproto]
  unfold resolved
  rw [hpeer, Option.map_some]
  exact ⟨_, rfl, rfl, rfl, rfl, hdstPort⟩

/-- The two ends of an IS-IS adjacency are never recognised as one link: with no
other observation between the devices, reconciliation returns two edges and
both count as unconfirmed. -/
theorem isis_adjacency_never_confirmed {firstAgent secondAgent : Agent}
    {first second : GoString} {allowedNets : List Net.IPNet} {firstNow secondNow : Time}
    {firstWalk secondWalk : WalkResult} {forth back : Edge}
    (hfirstWalk : Isis.walk firstAgent first allowedNets firstNow = .ok firstWalk)
    (hsecondWalk : Isis.walk secondAgent second allowedNets secondNow = .ok secondWalk)
    (hfirst : first ≠ []) (hsecond : second ≠ []) (hne : first ≠ second)
    (hforth : forth ∈ firstWalk.edges) (hback : back ∈ secondWalk.edges)
    (hport : forth.srcPort ≠ [])
    (hforthRaw : forth ∈ rawEdges) (hbackRaw : back ∈ rawEdges)
    (hforthPeer : peerDevice order rawEdges ipToID arpMACToIP forth = some second)
    (hbackPeer : peerDevice order rawEdges ipToID arpMACToIP back = some first)
    (honly : ∀ edge ∈ rawEdges, ∀ seen, resolved order rawEdges ipToID arpMACToIP edge =
      some seen → Joins first second seen → edge = forth ∨ edge = back) :
    let reconciled :=
      (Graph.reconcile order (synthesizeEdges order rawEdges ipToID arpMACToIP)).1
    ¬ ConfirmedOnce first second reconciled ∧
      (edgesBetween first second reconciled).length = 2 ∧
      ∀ edge ∈ edgesBetween first second reconciled,
        edge.direction = directionUnidirectional := by
  intro reconciled
  obtain ⟨forthSeen, hforthSeen, hforthOne⟩ := oneSided_resolved hfirstWalk hforth hforthPeer
  obtain ⟨backSeen, hbackSeen, hbackOne⟩ := oneSided_resolved hsecondWalk hback hbackPeer
  -- names of interfaces arrive without control characters, so normalising leaves something
  have hnormal : Graph.normalizePortName forth.srcPort ≠ [] := by
    obtain ⟨ifName, ip, reason, rfl, hclean, -⟩ := Isis.walk_newEdge hfirstWalk hforth
    have hname : Clean (Isis.newEdge first ifName ip reason firstNow).srcPort := hclean
    rw [ne_eq, Graph.normalizePortName_eq_nil, stripControl_eq_self hname.valid hname.noControl]
    exact hport
  have hpair := oneSided_pair_unconfirmed order hfirst hsecond hne hforthOne hbackOne hnormal
    (List.mem_filterMap.mpr ⟨forth, hforthRaw, hforthSeen⟩)
    (List.mem_filterMap.mpr ⟨back, hbackRaw, hbackSeen⟩) (by
      intro seen hseen hjoins
      obtain ⟨edge, hedge, hresolved⟩ := List.mem_filterMap.mp hseen
      rcases honly edge hedge seen hresolved hjoins with rfl | rfl
      · exact Or.inl (Option.some.inj (hresolved.symm.trans hforthSeen))
      · exact Or.inr (Option.some.inj (hresolved.symm.trans hbackSeen)))
  rw [← synthesizeEdges_eq] at hpair
  refine ⟨?_, hpair⟩
  rintro ⟨edge, hone, -⟩
  have htwo := hpair.1
  rw [show edgesBetween first second (Graph.reconcile order
    (synthesizeEdges order rawEdges ipToID arpMACToIP)).1 = [edge] from hone] at htwo
  simp at htwo

end Isis

/-! ### Two routers -/

/-- A router with one IS-IS adjacency on interface 7. -/
def isisRouter (ifName peer : GoString) (peerIP : List UInt8) : Agent where
  systemGroup := .ok []
  sysObjectID := none
  bulkWalk := fun oid =>
    if oid = Isis.oidISISAdjState then .ok [⟨instancePrefix oid ++ str "1.1.1", .signed 3⟩]
    else if oid = Isis.oidISISAdjIPAddr then
      .ok [⟨instancePrefix oid ++ str "1.1.1.1.4." ++ peer, .octets peerIP⟩]
    else if oid = Isis.oidISISCircIfIndex then .ok [⟨instancePrefix oid ++ str "1.1", .signed 7⟩]
    else if oid = oidIfDescr then .ok [⟨instancePrefix oid ++ str "7", .text ifName⟩]
    else .ok []
  vlanFdbWalk := fun _ => .ok []

def isisWalk (ifName peer : GoString) (peerIP : List UInt8) (localDevice : GoString) :
    List Edge :=
  match Isis.walk (isisRouter ifName peer peerIP) localDevice [] Time.zero with
  | .ok result => result.edges
  | .error _ => []

/-- What `r1` and `r2` report of each other. -/
def isisReports : List Edge :=
  isisWalk (str "Gi0/1") (str "10.0.0.2") [10, 0, 0, 2] (str "r1") ++
    isisWalk (str "Gi0/2") (str "10.0.0.1") [10, 0, 0, 1] (str "r2")

def isisAddresses : Map GoString GoString :=
  AList.insert (str "10.0.0.1") (str "r1") (AList.insert (str "10.0.0.2") (str "r2") ∅)

theorem exists_isisWalk {ifName peer localDevice : GoString} {peerIP : List UInt8}
    (hedges : isisWalk ifName peer peerIP localDevice = [edge]) :
    ∃ result, Isis.walk (isisRouter ifName peer peerIP) localDevice [] Time.zero = .ok result ∧
      edge ∈ result.edges := by
  unfold isisWalk at hedges
  split at hedges
  next result hwalk => exact ⟨result, hwalk, by simp [hedges]⟩
  next => cases hedges

def r1Report : Edge :=
  Isis.newEdge (str "r1") (str "Gi0/1") [10, 0, 0, 2] [] Time.zero

def r2Report : Edge :=
  Isis.newEdge (str "r2") (str "Gi0/2") [10, 0, 0, 1] [] Time.zero

theorem isisWalk_eq :
    isisWalk (str "Gi0/1") (str "10.0.0.2") [10, 0, 0, 2] (str "r1") = [r1Report] ∧
      isisWalk (str "Gi0/2") (str "10.0.0.1") [10, 0, 0, 1] (str "r2") = [r2Report] := by
  decide +kernel

theorem isis_routers_unconfirmed :
    (edgesBetween (str "r1") (str "r2") (Graph.reconcile .insertion
      (synthesizeEdges .insertion [r1Report, r2Report] isisAddresses ∅)).1).length = 2 := by
  obtain ⟨firstWalk, hfirstWalk, hforth⟩ := exists_isisWalk isisWalk_eq.1
  obtain ⟨secondWalk, hsecondWalk, hback⟩ := exists_isisWalk isisWalk_eq.2
  exact (isis_adjacency_never_confirmed hfirstWalk hsecondWalk (by decide) (by decide)
    (by decide) hforth hback (by decide) (by simp) (by simp) (by decide +kernel)
    (by decide +kernel) (by simp)).2.1

/-- Each router's report is an edge of its own, and neither is confirmed. -/
theorem isisReports_unconfirmed :
    (edgesBetween (str "r1") (str "r2") (Graph.reconcile .insertion
      (synthesizeEdges .insertion isisReports isisAddresses ∅)).1).map
      (fun edge => (edge.srcPort, edge.dstPort, edge.direction)) =
      [([], str "Gi0/2", directionUnidirectional), (str "Gi0/1", [], directionUnidirectional)] := by
  rw [isisReports, isisWalk_eq.1, isisWalk_eq.2]
  decide +kernel

end TopologyExporter.App
