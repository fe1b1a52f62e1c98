import TopologyExporter.Discovery.Types
import TopologyExporter.GoLib.Decimal
import TopologyExporter.Foundation.FreshName

/-! # The YANG document

A graph is rendered as a network of nodes, termination points and links. Link ids are
put together from the names of the ends with separators that the names may contain,
so different links may ask for one id; all but the first get a suffix.
-/

namespace TopologyExporter.Yang

open Go Discovery

/-! ## Documents -/

structure TerminationPoint where
  tpID : GoString
deriving DecidableEq

structure Node where
  nodeID : GoString
  terminationPoint : List TerminationPoint
  vendor : GoString
  model : GoString
  osVersion : GoString
  site : GoString
deriving DecidableEq

structure Source where
  sourceNode : GoString
  sourceTP : GoString
deriving DecidableEq

structure Destination where
  destNode : GoString
  destTP : GoString
deriving DecidableEq

structure Link where
  linkID : GoString
  source : Source
  destination : Destination
  discoveryProtocol : GoString
  linkKind : GoString
  confidence : GoString
  adjacency : GoString
deriving DecidableEq

structure Network where
  networkID : GoString
  node : List Node
  link : List Link
deriving DecidableEq

structure Document where
  network : List Network
deriving DecidableEq

structure Config where
  networkID : GoString

def defaultNetworkID : GoString := str "network-topology-exporter"

/-! ## Nodes -/

/-- What is known of a node: its device, if it has one, and the ports in use. -/
structure NodeAcc where
  dev : Option Device := none
  tps : Map GoString Bool := ∅

/-- Applies a change to the entry of a node, which is made if there is none. -/
def ensure (nodes : Map GoString NodeAcc) (id : GoString) (change : NodeAcc → NodeAcc) :
    Map GoString NodeAcc :=
  if id = [] then nodes else nodes.insert id (change ((nodes.lookup id).getD {}))

def addDevice (nodes : Map GoString NodeAcc) (device : Device) : Map GoString NodeAcc :=
  if device.id = [] then nodes
  else ensure nodes device.id (fun acc => { acc with dev := some device })

def markPort (port : GoString) (acc : NodeAcc) : NodeAcc :=
  if port ≠ [] then { acc with tps := acc.tps.insert port true } else acc

def addEnds (nodes : Map GoString NodeAcc) (edge : Edge) : Map GoString NodeAcc :=
  if edge.srcDevice = [] ∨ edge.dstDevice = [] then nodes
  else
    ensure (ensure nodes edge.srcDevice (markPort edge.srcPort)) edge.dstDevice
      (markPort edge.dstPort)

def accumulate (graph : Graph) : Map GoString NodeAcc :=
  graph.edges.foldl addEnds (graph.devices.foldl addDevice ∅)

def outNode (order : RangeOrder) (id : GoString) (acc : NodeAcc) : Node where
  nodeID := id
  terminationPoint :=
    (((acc.tps.range order 1).map Prod.fst).insertionSort (· ≤ ·)).map TerminationPoint.mk
  vendor := (acc.dev.map Device.vendor).getD []
  model := (acc.dev.map Device.model).getD []
  osVersion := (acc.dev.map Device.osVersion).getD []
  site := (acc.dev.map Device.site).getD []

def outNodes (order : RangeOrder) (nodes : Map GoString NodeAcc) : List Node :=
  (((nodes.range order 0).map Prod.fst).insertionSort (· ≤ ·)).filterMap (fun id =>
    (nodes.lookup id).map (outNode order id))

/-! ## Links -/

/-- The links so far, and the ids that are in use. -/
structure LinkState where
  used : Map GoString Bool
  outLinks : List Link

/-- The id a link asks for. -/
def baseID (sn stp dn dtp : GoString) : GoString :=
  sn ++ str ":" ++ stp ++ str "-" ++ dn ++ str ":" ++ dtp

def numberedID (base proto : GoString) (number : Nat) : GoString :=
  base ++ str "#" ++ proto ++ str "#" ++ Strconv.natToDecimal number

/-- The id of a link; `none` if the loop over the suffixes has not ended after `fuel`
rounds. -/
def mkLinkID (fuel : Nat) (used : Map GoString Bool) (sn stp dn dtp proto : GoString) :
    Option GoString :=
  let base := baseID sn stp dn dtp
  let id := if used.lookup base = some true then base ++ str "#" ++ proto else base
  FreshName.search (fun id => used.lookup id = some true) (numberedID base proto) fuel 2 id

def addLink (fuel : Nat) (state : LinkState) (sn stp dn dtp : GoString) (edge : Edge) :
    Option LinkState :=
  (mkLinkID fuel state.used sn stp dn dtp edge.discoveryProto).map (fun id =>
    { used := state.used.insert id true
      outLinks := state.outLinks ++
        [{ linkID := id
           source := ⟨sn, stp⟩
           destination := ⟨dn, dtp⟩
           discoveryProtocol := edge.discoveryProto
           linkKind := edge.linkKind
           confidence := edge.confidence
           adjacency := edge.adjacency }] })

/-- The links of an edge: one for each direction it was seen in. -/
def addLinks (fuel : Nat) (state : LinkState) (edge : Edge) : Option LinkState :=
  if edge.srcDevice = [] ∨ edge.dstDevice = [] then some state
  else
    (addLink fuel state edge.srcDevice edge.srcPort edge.dstDevice edge.dstPort edge).bind
      (fun forward =>
        if edge.direction = directionBidirectional then
          addLink fuel forward edge.dstDevice edge.dstPort edge.srcDevice edge.srcPort edge
        else some forward)

def sortKey (edge : Edge) : GoString :=
  edge.srcDevice ++ [0] ++ edge.srcPort ++ [0] ++ edge.dstDevice ++ [0] ++ edge.dstPort ++ [0] ++
    edge.discoveryProto

def render (fuel : Nat) (order : RangeOrder) (graph : Graph) (cfg : Config) : Option Document :=
  ((graph.edges.insertionSort (fun first second => sortKey first ≤ sortKey second)).foldlM
    (addLinks fuel) ⟨∅, []⟩).map (fun state =>
      { network :=
          [{ networkID := if cfg.networkID = [] then defaultNetworkID else cfg.networkID
             node := outNodes order (accumulate graph)
             link := state.outLinks }] })

/-! ## Declared ends -/

/-- The node has an entry, with the port unless that is empty. -/
def Declares (nodes : Map GoString NodeAcc) (device port : GoString) : Prop :=
  ∃ acc, nodes.lookup device = some acc ∧ (port ≠ [] → port ∈ acc.tps)

variable {port device : GoString} {nodes : Map GoString NodeAcc} {edge : Edge} {fuel : Nat}
  {state : LinkState}

theorem mem_markPort {acc : NodeAcc} {other : GoString} :
    other ∈ (markPort port acc).tps ↔ port ≠ [] ∧ other = port ∨ other ∈ acc.tps := by
  unfold markPort
  split
  next hport => simp [hport, AList.mem_insert]
  next hport => simp [not_not.mp hport]

theorem declares_ensure_self (nodes : Map GoString NodeAcc) (hdevice : device ≠ [])
    (port : GoString) : Declares (ensure nodes device (markPort port)) device port := by
  rw [ensure, if_neg hdevice]
  refine ⟨_, AList.lookup_insert _, ?_⟩
  exact fun hport => mem_markPort.mpr (Or.inl ⟨hport, rfl⟩)

theorem Declares.ensure (hdeclares : Declares nodes device port) (id other : GoString) :
    Declares (ensure nodes id (markPort other)) device port := by
  obtain ⟨acc, hlookup, hport⟩ := hdeclares
  unfold Yang.ensure
  split
  next => exact ⟨acc, hlookup, hport⟩
  next =>
    by_cases hsame : device = id
    · subst hsame
      refine ⟨_, AList.lookup_insert _, ?_⟩
      rw [hlookup, Option.getD_some]
      exact fun hne => mem_markPort.mpr (Or.inr (hport hne))
    · exact ⟨acc, (AList.lookup_insert_ne hsame).trans hlookup, hport⟩

theorem Declares.addEnds (hdeclares : Declares nodes device port) (edge : Edge) :
    Declares (addEnds nodes edge) device port := by
  unfold Yang.addEnds
  split
  next => exact hdeclares
  next => exact (hdeclares.ensure _ _).ensure _ _

/-- Both ends of the edge have a device. -/
def Joined (edge : Edge) : Prop := edge.srcDevice ≠ [] ∧ edge.dstDevice ≠ []

instance decidableJoined (edge : Edge) : Decidable (Joined edge) :=
  inferInstanceAs (Decidable (_ ∧ _))

theorem not_joined : ¬ Joined edge ↔ edge.srcDevice = [] ∨ edge.dstDevice = [] := by
  rw [Joined, not_and_or, not_not, not_not]

theorem declares_addEnds (nodes : Map GoString NodeAcc) (hjoined : Joined edge) :
    Declares (addEnds nodes edge) edge.srcDevice edge.srcPort ∧
      Declares (addEnds nodes edge) edge.dstDevice edge.dstPort := by
  rw [addEnds, if_neg (fun hempty => not_joined.mpr hempty hjoined)]
  exact ⟨(declares_ensure_self nodes hjoined.1 _).ensure _ _,
    declares_ensure_self _ hjoined.2 _⟩

/-- The ends of the edges are declared. -/
theorem declares_accumulate {graph : Graph} (hedge : edge ∈ graph.edges) (hjoined : Joined edge) :
    Declares (accumulate graph) edge.srcDevice edge.srcPort ∧
      Declares (accumulate graph) edge.dstDevice edge.dstPort := by
  obtain ⟨front, back, hedges⟩ := List.append_of_mem hedge
  rw [accumulate, hedges, List.foldl_append, List.foldl_cons]
  have hkept : ∀ (rest : List Edge) (nodes : Map GoString NodeAcc) (device port : GoString),
      Declares nodes device port → Declares (rest.foldl addEnds nodes) device port := by
    intro rest
    induction rest with
    | nil => exact fun _ _ _ hdeclares => hdeclares
    | cons next rest ih =>
        intro nodes device port hdeclares
        exact ih _ _ _ (hdeclares.addEnds next)
  have hdeclares := declares_addEnds
    (front.foldl addEnds (graph.devices.foldl addDevice ∅)) hjoined
  exact ⟨hkept _ _ _ _ hdeclares.1, hkept _ _ _ _ hdeclares.2⟩

/-! ## Nodes of the document -/

section Nodes

variable (order : RangeOrder) (nodes : Map GoString NodeAcc)

theorem nodup_nodeIDs : ((outNodes order nodes).map Node.nodeID).Nodup := by
  have hnodup : (((nodes.range order 0).map Prod.fst).insertionSort (· ≤ ·)).Nodup :=
    (List.perm_insertionSort _ _).nodup_iff.mpr (Map.range_nodup nodes order 0)
  refine List.Sublist.nodup ?_ hnodup
  have hsublist := @map_filterMap_sublist _ _ _ (fun id => (nodes.lookup id).map (outNode order id))
    id Node.nodeID (((nodes.range order 0).map Prod.fst).insertionSort (· ≤ ·)) ?_
  · rwa [List.map_id] at hsublist
  · intro id _ node hnode
    obtain ⟨acc, -, rfl⟩ := Option.map_eq_some_iff.mp hnode
    rfl

theorem nodup_tpIDs (id : GoString) (acc : NodeAcc) :
    ((outNode order id acc).terminationPoint.map TerminationPoint.tpID).Nodup := by
  have hids : (outNode order id acc).terminationPoint.map TerminationPoint.tpID =
      ((acc.tps.range order 1).map Prod.fst).insertionSort (· ≤ ·) := by
    rw [outNode, List.map_map]
    exact List.map_id _
  rw [hids, (List.perm_insertionSort _ _).nodup_iff]
  exact Map.range_nodup acc.tps order 1

theorem mem_outNodes {node : Node} :
    node ∈ outNodes order nodes ↔
      ∃ id acc, nodes.lookup id = some acc ∧ outNode order id acc = node := by
  rw [outNodes, List.mem_filterMap]
  constructor
  · rintro ⟨id, -, hnode⟩
    obtain ⟨acc, hacc, hnode⟩ := Option.map_eq_some_iff.mp hnode
    exact ⟨id, acc, hacc, hnode⟩
  · rintro ⟨id, acc, hacc, hnode⟩
    refine ⟨id, ?_, Option.map_eq_some_iff.mpr ⟨acc, hacc, hnode⟩⟩
    rw [List.mem_insertionSort, List.mem_map]
    exact ⟨(id, acc), Map.mem_range.mpr hacc, rfl⟩

end Nodes

/-- A node with the given id has the given termination point, if one is given. -/
def Declared (network : Network) (nodeID tpID : GoString) : Prop :=
  ∃ node ∈ network.node, node.nodeID = nodeID ∧
    (tpID ≠ [] → ⟨tpID⟩ ∈ node.terminationPoint)

theorem Declares.declared (hdeclares : Declares nodes device port) {order : RangeOrder}
    {network : Network} (hnetwork : network.node = outNodes order nodes) :
    Declared network device port := by
  obtain ⟨acc, hacc, hport⟩ := hdeclares
  refine ⟨outNode order device acc, ?_, rfl, ?_⟩
  · rw [hnetwork]
    exact (mem_outNodes order nodes).mpr ⟨device, acc, hacc, rfl⟩
  · intro hne
    obtain ⟨marked, hmarked⟩ := Option.isSome_iff_exists.mp (AList.lookup_isSome.mpr (hport hne))
    refine List.mem_map_of_mem ?_
    rw [List.mem_insertionSort, List.mem_map]
    exact ⟨(port, marked), Map.mem_range.mpr hmarked, rfl⟩

/-! ## Links of the document -/

theorem numberedID_injective (base proto : GoString) :
    Function.Injective (numberedID base proto) := by
  intro first second heq
  exact Strconv.natToDecimal_injective (List.append_cancel_left heq)

/-- The ids in use are those of the links, and no two links have one. -/
structure Filed (state : LinkState) : Prop where
  used : ∀ id, state.used.lookup id = some true ↔ id ∈ state.outLinks.map Link.linkID
  nodup : (state.outLinks.map Link.linkID).Nodup

theorem exists_mkLinkID (hfiled : Filed state) (hfuel : state.outLinks.length < fuel)
    (sn stp dn dtp proto : GoString) :
    ∃ id, mkLinkID fuel state.used sn stp dn dtp proto = some id ∧
      id ∉ state.outLinks.map Link.linkID := by
  rw [← List.length_map (f := Link.linkID)] at hfuel
  obtain ⟨id, hid⟩ := FreshName.exists_search (numberedID_injective (baseID sn stp dn dtp) proto)
    (fun id => (hfiled.used id).mp) hfuel 2 _
  have hfree := FreshName.not_taken_of_search hid
  exact ⟨id, hid, fun hmem => hfree ((hfiled.used id).mpr hmem)⟩

/-- The link runs from the first end to the second. -/
def Runs (link : Link) (sn stp dn dtp : GoString) : Prop :=
  link.source = ⟨sn, stp⟩ ∧ link.destination = ⟨dn, dtp⟩

theorem exists_addLink (hfiled : Filed state) (hfuel : state.outLinks.length < fuel)
    (sn stp dn dtp : GoString) (edge : Edge) :
    ∃ next link, addLink fuel state sn stp dn dtp edge = some next ∧ Filed next ∧
      next.outLinks = state.outLinks ++ [link] ∧ Runs link sn stp dn dtp := by
  obtain ⟨id, hid, hfree⟩ := exists_mkLinkID hfiled hfuel sn stp dn dtp edge.discoveryProto
  refine ⟨_, _, Option.map_eq_some_iff.mpr ⟨id, hid, rfl⟩, ⟨?_, ?_⟩, rfl, rfl, rfl⟩
  · intro other
    rw [List.map_append, List.mem_append, ← hfiled.used, List.map_singleton, List.mem_singleton]
    by_cases hsame : other = id
    · rw [hsame, AList.lookup_insert]
      exact iff_of_true rfl (Or.inr rfl)
    · rw [AList.lookup_insert_ne hsame]
      exact (or_iff_left hsame).symm
  · rw [List.map_append, List.map_singleton]
    exact hfiled.nodup.append (List.nodup_singleton _) (List.disjoint_singleton.mpr hfree)

/-- How many links an edge gives. -/
def linkCount (edge : Edge) : Nat :=
  (if Joined edge then 1 else 0) +
    (if Joined edge ∧ edge.direction = directionBidirectional then 1 else 0)

/-- The link runs from one end of the edge to the other. -/
def Renders (edge : Edge) (link : Link) : Prop :=
  Joined edge ∧ (Runs link edge.srcDevice edge.srcPort edge.dstDevice edge.dstPort ∨
    Runs link edge.dstDevice edge.dstPort edge.srcDevice edge.srcPort)

theorem exists_addLinks (hfiled : Filed state) (hfuel : state.outLinks.length + 2 ≤ fuel)
    (edge : Edge) :
    ∃ next added, addLinks fuel state edge = some next ∧ Filed next ∧
      next.outLinks = state.outLinks ++ added ∧ added.length = linkCount edge ∧
      ∀ link ∈ added, Renders edge link := by
  unfold addLinks linkCount
  by_cases hjoined : Joined edge
  · rw [if_neg (fun hempty => not_joined.mpr hempty hjoined), if_pos hjoined]
    have hroom : state.outLinks.length < fuel := by omega
    obtain ⟨forward, first, hforward, hfiledForward, hfirst, hruns⟩ := exists_addLink hfiled
      hroom edge.srcDevice edge.srcPort edge.dstDevice edge.dstPort edge
    rw [hforward, Option.bind_some]
    by_cases hboth : edge.direction = directionBidirectional
    · rw [if_pos hboth, if_pos ⟨hjoined, hboth⟩]
      have hlength : forward.outLinks.length < fuel := by
        rw [hfirst, List.length_append, List.length_singleton]
        omega
      obtain ⟨final, second, hfinal, hfiledFinal, hsecond, hback⟩ := exists_addLink hfiledForward
        hlength edge.dstDevice edge.dstPort edge.srcDevice edge.srcPort edge
      refine ⟨final, [first, second], hfinal, hfiledFinal, ?_, rfl, ?_⟩
      · rw [hsecond, hfirst, List.append_assoc, List.singleton_append]
      · intro link hlink
        rcases List.mem_pair.mp hlink with rfl | rfl
        · exact ⟨hjoined, Or.inl hruns⟩
        · exact ⟨hjoined, Or.inr hback⟩
    · rw [if_neg hboth, if_neg (fun hand => hboth hand.2)]
      refine ⟨forward, [first], rfl, hfiledForward, hfirst, rfl, ?_⟩
      intro link hlink
      rw [List.mem_singleton.mp hlink]
      exact ⟨hjoined, Or.inl hruns⟩
  · rw [if_pos (not_joined.mp hjoined), if_neg hjoined, if_neg (fun hand => hjoined hand.1)]
    exact ⟨state, [], rfl, hfiled, (List.append_nil _).symm, rfl, fun _ hlink => by cases hlink⟩

theorem linkCount_le (edge : Edge) : linkCount edge ≤ 2 := by
  unfold linkCount
  split_ifs <;> omega

/-- The loop over the edges comes to its end. -/
theorem exists_foldlM_addLinks {fuel : Nat} (edges : List Edge) {state : LinkState}
    (hfiled : Filed state) (hfuel : state.outLinks.length + 2 * edges.length ≤ fuel) :
    ∃ final added, edges.foldlM (addLinks fuel) state = some final ∧ Filed final ∧
      final.outLinks = state.outLinks ++ added ∧
      added.length = (edges.map linkCount).sum ∧
      ∀ link ∈ added, ∃ edge ∈ edges, Renders edge link := by
  induction edges generalizing state with
  | nil =>
      exact ⟨state, [], rfl, hfiled, (List.append_nil _).symm, rfl, fun _ hlink => by cases hlink⟩
  | cons edge rest ih =>
      rw [List.length_cons] at hfuel
      have hfirst : state.outLinks.length + 2 ≤ fuel := by omega
      obtain ⟨next, added, hnext, hfiledNext, hadded, hlength, hrenders⟩ :=
        exists_addLinks hfiled hfirst edge
      have hcount := linkCount_le edge
      have hroom : next.outLinks.length + 2 * rest.length ≤ fuel := by
        rw [hadded, List.length_append, hlength]
        omega
      obtain ⟨final, later, hfinal, hfiledFinal, hlater, hlengths, hrest⟩ := ih hfiledNext hroom
      refine ⟨final, added ++ later, ?_, hfiledFinal, ?_, ?_, ?_⟩
      · rw [List.foldlM_cons, hnext]
        exact hfinal
      · rw [hlater, hadded, List.append_assoc]
      · rw [List.length_append, hlength, hlengths, List.map_cons, List.sum_cons]
      · intro link hlink
        rcases List.mem_append.mp hlink with hfirst | hsecond
        · exact ⟨edge, List.mem_cons_self, hrenders link hfirst⟩
        · obtain ⟨other, hother, hrendered⟩ := hrest link hsecond
          exact ⟨other, List.mem_cons_of_mem _ hother, hrendered⟩

/-- More rounds than needed make no difference. -/
theorem foldlM_addLinks_mono {more : Nat} (hmore : fuel ≤ more) {edges : List Edge}
    {final : LinkState} (hfinal : edges.foldlM (addLinks fuel) state = some final) :
    edges.foldlM (addLinks more) state = some final := by
  have hone : ∀ {state next : LinkState} {sn stp dn dtp : GoString} {edge : Edge},
      addLink fuel state sn stp dn dtp edge = some next →
        addLink more state sn stp dn dtp edge = some next := by
    intro state next sn stp dn dtp edge hnext
    obtain ⟨id, hid, hlink⟩ := Option.map_eq_some_iff.mp hnext
    exact Option.map_eq_some_iff.mpr ⟨id, FreshName.search_mono hmore hid, hlink⟩
  induction edges generalizing state with
  | nil => exact hfinal
  | cons edge rest ih =>
      rw [List.foldlM_cons] at hfinal ⊢
      obtain ⟨next, hnext, hrest⟩ := Option.bind_eq_some_iff.mp hfinal
      refine Option.bind_eq_some_iff.mpr ⟨next, ?_, ih hrest⟩
      unfold addLinks at hnext ⊢
      split at hnext
      next hempty => rwa [if_pos hempty]
      next hjoined =>
        rw [if_neg hjoined]
        obtain ⟨forward, hforward, hback⟩ := Option.bind_eq_some_iff.mp hnext
        refine Option.bind_eq_some_iff.mpr ⟨forward, hone hforward, ?_⟩
        split at hback
        next hboth =>
          rw [if_pos hboth]
          exact hone hback
        next hboth => rwa [if_neg hboth]

/-! ## The document as a whole -/

/-- Ids are unique, the ends of links are declared, and there are as many links as the
edges call for. -/
structure WellFormed (graph : Graph) (network : Network) : Prop where
  nodeIDs : (network.node.map Node.nodeID).Nodup
  tpIDs : ∀ node ∈ network.node, (node.terminationPoint.map TerminationPoint.tpID).Nodup
  linkIDs : (network.link.map Link.linkID).Nodup
  sources : ∀ link ∈ network.link, Declared network link.source.sourceNode link.source.sourceTP
  destinations : ∀ link ∈ network.link,
    Declared network link.destination.destNode link.destination.destTP
  length : network.link.length = (graph.edges.filter (fun edge => Joined edge)).length +
    (graph.edges.filter (fun edge => Joined edge ∧ edge.direction = directionBidirectional)).length

theorem sum_linkCount (edges : List Edge) :
    (edges.map linkCount).sum = (edges.filter (fun edge => Joined edge)).length +
      (edges.filter (fun edge =>
        Joined edge ∧ edge.direction = directionBidirectional)).length := by
  induction edges with
  | nil => rfl
  | cons edge rest ih =>
      rw [List.map_cons, List.sum_cons, ih, List.filter_cons, List.filter_cons, linkCount]
      split_ifs <;> simp_all <;> omega

/-- Every graph is rendered: no search for a free link id goes on for more rounds than
there are links, and the document is well formed. -/
theorem rendered_document_wellFormed (order : RangeOrder) (graph : Graph) (cfg : Config) :
    ∃ network : Network,
      (∀ fuel, 2 * graph.edges.length ≤ fuel → render fuel order graph cfg = some ⟨[network]⟩) ∧
      WellFormed graph network := by
  let sorted := graph.edges.insertionSort (fun first second => sortKey first ≤ sortKey second)
  have hperm : sorted.Perm graph.edges := List.perm_insertionSort _ _
  have hempty : Filed ⟨∅, []⟩ := ⟨fun id => by simp, List.nodup_nil⟩
  obtain ⟨final, added, hfinal, hfiled, hadded, hlength, hrenders⟩ :=
    @exists_foldlM_addLinks (2 * graph.edges.length) sorted ⟨∅, []⟩ hempty
      (by rw [hperm.length_eq]; simp)
  rw [List.nil_append] at hadded
  subst hadded
  refine ⟨⟨if cfg.networkID = [] then defaultNetworkID else cfg.networkID,
    outNodes order (accumulate graph), final.outLinks⟩, ?_, ?_⟩
  · intro fuel hfuel
    exact Option.map_eq_some_iff.mpr ⟨final, foldlM_addLinks_mono hfuel hfinal, rfl⟩
  · have hends : ∀ link ∈ final.outLinks,
        Declares (accumulate graph) link.source.sourceNode link.source.sourceTP ∧
          Declares (accumulate graph) link.destination.destNode link.destination.destTP := by
      intro link hlink
      obtain ⟨edge, hedge, hjoined, hruns⟩ := hrenders link hlink
      have hdeclares := declares_accumulate (hperm.mem_iff.mp hedge) hjoined
      rcases hruns with ⟨hsource, hdestination⟩ | ⟨hsource, hdestination⟩
      · rw [hsource, hdestination]
        exact hdeclares
      · rw [hsource, hdestination]
        exact hdeclares.symm
    refine ⟨nodup_nodeIDs _ _, ?_, hfiled.nodup,
      fun link hlink => (hends link hlink).1.declared rfl,
      fun link hlink => (hends link hlink).2.declared rfl, ?_⟩
    · intro node hnode
      obtain ⟨id, acc, -, rfl⟩ := (mem_outNodes order _).mp hnode
      exact nodup_tpIDs order id acc
    · rw [hlength, (hperm.map linkCount).sum_eq, sum_linkCount]

end TopologyExporter.Yang
