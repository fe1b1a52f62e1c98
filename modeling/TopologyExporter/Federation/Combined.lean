import TopologyExporter.Federation.Merge

/-! # What the combined graph holds

The merge goes through devices, pushed edges, matched records and configured
links in several loops. Here its result is described by the payloads and the
configuration alone: which endpoints get an edge, in which direction, and which
spoke a device is taken from.
-/

namespace TopologyExporter.Federation

open Go Utf8 Discovery TopologyExporter.Graph

/-! ## Devices -/

/-- Some spoke lists a device under the ID. -/
def Listed (spokes : Spokes) (id : GoString) : Prop :=
  ∃ name entry, spokes.lookup name = some entry ∧ id ∈ entry.payload.devices.map Device.id

variable {order : RangeOrder} {spokes : Spokes} {device : Device} {cfg : FederationConfig}
  {link : InterDomainLink}

theorem mem_ids_allDevices {id : GoString} :
    id ∈ (allDevices order spokes).map Device.id ↔ Listed spokes id := by
  rw [allDevices, mem_ids_foldl_addDevice]
  simp only [List.map_nil, List.not_mem_nil, false_or, listedDevices, List.map_flatMap,
    List.mem_flatMap, mem_sortedSpokes]
  constructor
  · rintro ⟨entry, ⟨name, hlookup⟩, hid⟩
    exact ⟨name, entry, hlookup, hid⟩
  · rintro ⟨name, entry, hlookup, hid⟩
    exact ⟨entry, ⟨name, hlookup⟩, hid⟩

theorem nodup_ids_foldl_addDevice {listed devices : List Device}
    (hdevices : (devices.map Device.id).Nodup) :
    ((listed.foldl addDevice devices).map Device.id).Nodup := by
  induction listed generalizing devices with
  | nil => exact hdevices
  | cons first rest ih =>
      rw [List.foldl_cons]
      apply ih
      unfold addDevice
      split_ifs with hseen
      · exact hdevices
      · rw [List.map_append, List.map_singleton, List.nodup_append]
        refine ⟨hdevices, List.nodup_singleton _, ?_⟩
        intro id hid other hother
        rw [List.mem_singleton] at hother
        rw [hother]
        exact fun heq => hseen (heq ▸ hid)

theorem nodup_ids_allDevices (order : RangeOrder) (spokes : Spokes) :
    ((allDevices order spokes).map Device.id).Nodup :=
  nodup_ids_foldl_addDevice List.nodup_nil

theorem firstListed_append {front back : List Device} :
    FirstListed (front ++ back) device ↔
      FirstListed front device ∨ (FirstListed back device ∧ device.id ∉ front.map Device.id) := by
  induction front with
  | nil => simp [FirstListed]
  | cons first rest ih =>
      rw [List.cons_append, firstListed_cons, firstListed_cons, ih, List.map_cons, List.mem_cons,
        not_or]
      tauto

/-- The device is the one of the spoke whose name comes first among those that
list its ID. -/
structure TakenFrom (spokes : Spokes) (name : GoString) (device : Device) : Prop where
  listed : ∃ entry, spokes.lookup name = some entry ∧ FirstListed entry.payload.devices device
  first : ∀ other entry, spokes.lookup other = some entry →
    device.id ∈ entry.payload.devices.map Device.id → name ≤ other

/-- Going through the spokes in the order of their names, the first device
listed under an ID is that of the first name. -/
theorem exists_first_name {names : List GoString} (hsorted : names.Pairwise (· ≤ ·))
    (hfirst : FirstListed ((names.filterMap (fun name => spokes.lookup name)).flatMap
      (fun entry => entry.payload.devices)) device) :
    ∃ name entry, spokes.lookup name = some entry ∧ FirstListed entry.payload.devices device ∧
      ∀ other ∈ names, ∀ entry, spokes.lookup other = some entry →
        device.id ∈ entry.payload.devices.map Device.id → name ≤ other := by
  induction names with
  | nil => simp [FirstListed] at hfirst
  | cons head rest ih =>
      rw [List.pairwise_cons] at hsorted
      obtain ⟨hhead, hrest⟩ := hsorted
      cases hlookup : spokes.lookup head with
      | none =>
          simp only [List.filterMap_cons, hlookup] at hfirst
          obtain ⟨name, entry, hname, hlisted, hleast⟩ := ih hrest hfirst
          refine ⟨name, entry, hname, hlisted, List.forall_mem_cons.mpr ⟨?_, hleast⟩⟩
          intro found hfound
          rw [hlookup] at hfound
          cases hfound
      | some entry =>
          simp only [List.filterMap_cons, hlookup, List.flatMap_cons, firstListed_append] at hfirst
          rcases hfirst with hown | ⟨hlater, hnew⟩
          · refine ⟨head, entry, hlookup, hown, List.forall_mem_cons.mpr ⟨?_, ?_⟩⟩
            · exact fun _ _ _ => le_refl head
            · exact fun other hother _ _ _ => hhead other hother
          · obtain ⟨name, found, hname, hlisted, hleast⟩ := ih hrest hlater
            refine ⟨name, found, hname, hlisted, List.forall_mem_cons.mpr ⟨?_, hleast⟩⟩
            -- the head does not list the ID at all
            intro own hown hid
            rw [hlookup] at hown
            cases hown
            exact absurd hid hnew

theorem takenFrom_of_mem (hdevice : device ∈ allDevices order spokes) :
    ∃ name, TakenFrom spokes name device := by
  rw [mem_allDevices, listedDevices, sortedSpokes] at hdevice
  obtain ⟨name, entry, hname, hlisted, hleast⟩ :=
    exists_first_name (List.pairwise_insertionSort (· ≤ ·) _) hdevice
  refine ⟨name, ⟨entry, hname, hlisted⟩, ?_⟩
  intro other found hother hid
  apply hleast other _ found hother hid
  rw [List.mem_insertionSort]
  exact List.mem_map_of_mem (Map.mem_range.mpr hother)

/-! ## Sources of an edge -/

/-- Some payload holds the edge. -/
def Pushed (spokes : Spokes) (edge : Edge) : Prop :=
  ∃ name entry, spokes.lookup name = some entry ∧ edge ∈ entry.payload.edges

/-- The edge has the endpoints, in one of the two orders. -/
def At (ends : EdgeKey) (edge : Edge) : Prop :=
  normalizedEndpoints edge = ends ∨ normalizedEndpoints edge = ends.swap

/-- Out-of-scope records in both directions between the two device names, made
on the two ports. -/
def MatchedAt (cfg : FederationConfig) (spokes : Spokes) (ends : EdgeKey) : Prop :=
  ∃ here there, Recorded spokes here ∧ Recorded spokes there ∧
    oosKey cfg here = ⟨ends.srcDevice, ends.dstDevice⟩ ∧
    oosKey cfg there = ⟨ends.dstDevice, ends.srcDevice⟩ ∧
    normalizePortName here.reportingPort = ends.srcPort ∧
    normalizePortName there.reportingPort = ends.dstPort

/-- The endpoints of a configured link. -/
def linkEnds (link : InterDomainLink) : EdgeKey :=
  ⟨link.localDevice, normalizePortName link.localPort, link.remoteDevice,
    normalizePortName link.remotePort⟩

/-- A configured link between two listed devices. -/
def ConfiguredAt (cfg : FederationConfig) (spokes : Spokes) (ends : EdgeKey) : Prop :=
  ∃ link ∈ cfg.knownInterDomainLinks, Listed spokes link.localDevice ∧
    Listed spokes link.remoteDevice ∧ (linkEnds link = ends ∨ linkEnds link = ends.swap)

variable {ends : EdgeKey}

theorem MatchedAt.swap (hmatched : MatchedAt cfg spokes ends) : MatchedAt cfg spokes ends.swap := by
  obtain ⟨here, there, hhere, hthere, hkey, hreverse, hport, hother⟩ := hmatched
  exact ⟨there, here, hthere, hhere, hreverse, hkey, hother, hport⟩

theorem ConfiguredAt.swap (hconfigured : ConfiguredAt cfg spokes ends) :
    ConfiguredAt cfg spokes ends.swap := by
  obtain ⟨link, hlink, hlocal, hremote, hends⟩ := hconfigured
  exact ⟨link, hlink, hlocal, hremote, hends.symm⟩

theorem normalizedEndpoints_reversed (edge : Edge) :
    normalizedEndpoints (reversed edge) = (normalizedEndpoints edge).swap := rfl

/-- The endpoints under which a pair is entered. -/
def LinkPair.endpoints (pair : LinkPair) : EdgeKey :=
  ⟨pair.src, normalizePortName pair.srcPort, pair.dst, normalizePortName pair.dstPort⟩

/-- A pair is entered from both of its sides. -/
theorem exists_mem_edgePair {now : Time} {pair : LinkPair} {ends : EdgeKey} :
    (∃ edge ∈ edgePair now pair, normalizedEndpoints edge = ends) ↔
      pair.endpoints = ends ∨ pair.endpoints = ends.swap := by
  have hforward : normalizedEndpoints (forwardEdge now pair) = pair.endpoints := rfl
  simp only [edgePair, List.mem_cons, List.not_mem_nil, or_false, exists_eq_or_imp,
    exists_eq_left, normalizedEndpoints_reversed, hforward]
  apply or_congr_right
  constructor
  · rintro rfl
    rfl
  · intro hswap
    rw [hswap, EdgeKey.swap_swap]

/-- Pairs with the same ends join the same ports, in either order. -/
theorem endpoints_of_ends {first second : LinkPair} (hends : first.ends = second.ends) :
    first.endpoints = second.endpoints ∨ first.endpoints = second.endpoints.swap := by
  unfold LinkPair.ends at hends
  by_cases hfirst : first.dst < first.src
  all_goals by_cases hsecond : second.dst < second.src
  all_goals simp only [hfirst, hsecond, if_true, if_false, Prod.mk.injEq] at hends
  all_goals obtain ⟨⟨hsrc, hdst⟩, hsrcPort, hdstPort⟩ := hends
  all_goals simp [LinkPair.endpoints, EdgeKey.swap, hsrc, hdst, hsrcPort, hdstPort]

theorem matchedAt_iff {cfg : FederationConfig} {order : RangeOrder} {spokes : Spokes}
    {ends : EdgeKey} :
    (∃ pair ∈ (matchOutOfScope cfg order spokes).pairs,
        pair.endpoints = ends ∨ pair.endpoints = ends.swap) ↔ MatchedAt cfg spokes ends := by
  constructor
  · rintro ⟨pair, hpair, hends⟩
    obtain ⟨first, second, hfirst, hsecond, hmatched, rfl⟩ := mem_pairs_matchOutOfScope hpair
    have hown : MatchedAt cfg spokes
        (oosPair (oosKey cfg first) (oosVal first) (oosVal second)).endpoints :=
      ⟨first, second, hfirst, hsecond, rfl, hmatched, rfl, rfl⟩
    rcases hends with hends | hends
    · rwa [hends] at hown
    · rw [hends] at hown
      exact hown.swap
  · rintro ⟨here, there, hhere, hthere, hkey, hreverse, hport, hother⟩
    have hmatched : Matched cfg here there := by
      rw [Matched, hkey, hreverse]
    obtain ⟨pair, hpair, hends⟩ := exists_pair_of_matched order hhere hthere hmatched
    have hsame : (oosPair (oosKey cfg here) (oosVal here) (oosVal there)).endpoints = ends := by
      simp only [LinkPair.endpoints, oosPair, oosVal, hkey, hport, hother]
    refine ⟨pair, hpair, ?_⟩
    rw [← hsame]
    exact endpoints_of_ends hends

theorem knownLinkPair_eq_some {pair : LinkPair} :
    knownLinkPair (allDevices order spokes) link = some pair →
      Listed spokes link.localDevice ∧ Listed spokes link.remoteDevice ∧
        pair.endpoints = linkEnds link ∧ pair.proto = discoveryProtocolConfigured ∧
        pair.rank = 0 := by
  unfold knownLinkPair
  by_cases hlisted : link.localDevice ∈ (allDevices order spokes).map Device.id ∧
      link.remoteDevice ∈ (allDevices order spokes).map Device.id
  · rw [if_pos hlisted, Option.some.injEq]
    rintro rfl
    exact ⟨mem_ids_allDevices.mp hlisted.1, mem_ids_allDevices.mp hlisted.2, rfl, rfl, rfl⟩
  · rw [if_neg hlisted]
    intro hpair
    cases hpair

theorem exists_knownLinkPair (order : RangeOrder) (hlocal : Listed spokes link.localDevice)
    (hremote : Listed spokes link.remoteDevice) :
    ∃ pair, knownLinkPair (allDevices order spokes) link = some pair := by
  unfold knownLinkPair
  rw [if_pos ⟨mem_ids_allDevices.mpr hlocal, mem_ids_allDevices.mpr hremote⟩]
  exact ⟨_, rfl⟩

theorem configuredAt_iff {cfg : FederationConfig} {order : RangeOrder} {spokes : Spokes}
    {ends : EdgeKey} :
    (∃ pair ∈ cfg.knownInterDomainLinks.filterMap (knownLinkPair (allDevices order spokes)),
        pair.endpoints = ends ∨ pair.endpoints = ends.swap) ↔ ConfiguredAt cfg spokes ends := by
  simp only [List.mem_filterMap]
  constructor
  · rintro ⟨pair, ⟨link, hlink, hpair⟩, hends⟩
    obtain ⟨hlocal, hremote, hsame, -⟩ := knownLinkPair_eq_some hpair
    rw [hsame] at hends
    exact ⟨link, hlink, hlocal, hremote, hends⟩
  · rintro ⟨link, hlink, hlocal, hremote, hends⟩
    obtain ⟨pair, hpair⟩ := exists_knownLinkPair order hlocal hremote
    rw [← (knownLinkPair_eq_some hpair).2.2.1] at hends
    exact ⟨pair, ⟨link, hlink, hpair⟩, hends⟩

/-! ## The combined edges -/

section Combined

variable {cfg : FederationConfig} {order : RangeOrder} {clock : Nat → Time} {spokes : Spokes}
  {ends : EdgeKey}

theorem reported_pushedEdges :
    Reported (pushedEdges order spokes) ends ↔
      (∃ pushed, Pushed spokes pushed ∧ normalizedEndpoints pushed = ends) ∨
        ∃ pushed, Pushed spokes pushed ∧ normalizedEndpoints pushed = ends.swap ∧
          pushed.direction = directionBidirectional := by
  constructor
  · rintro ⟨seen, hseen, rfl⟩
    obtain ⟨name, entry, pushed, hlookup, hpushed, hside⟩ := mem_pushedEdges.mp hseen
    rcases hside with rfl | ⟨hdirection, rfl⟩
    · exact Or.inl ⟨seen, ⟨name, entry, hlookup, hpushed⟩, rfl⟩
    · exact Or.inr ⟨pushed, ⟨name, entry, hlookup, hpushed⟩, rfl, hdirection⟩
  · rintro (⟨pushed, ⟨name, entry, hlookup, hpushed⟩, hends⟩ |
      ⟨pushed, ⟨name, entry, hlookup, hpushed⟩, hends, hdirection⟩)
    · exact ⟨pushed, mem_pushedEdges.mpr ⟨name, entry, pushed, hlookup, hpushed, Or.inl rfl⟩,
        hends⟩
    · refine ⟨reversed pushed, mem_pushedEdges.mpr
        ⟨name, entry, pushed, hlookup, hpushed, Or.inr ⟨hdirection, rfl⟩⟩, ?_⟩
      rw [normalizedEndpoints_reversed, hends, EdgeKey.swap_swap]

/-- What the second reconciliation sees of given endpoints, by its source. -/
theorem reported_observations :
    Reported (observations cfg order clock spokes) ends ↔
      Reported (pushedEdges order spokes) ends ∨ MatchedAt cfg spokes ends ∨
        ConfiguredAt cfg spokes ends := by
  have hpairs : (∃ pair ∈ enteredPairs cfg order spokes,
      pair.endpoints = ends ∨ pair.endpoints = ends.swap) ↔
      MatchedAt cfg spokes ends ∨ ConfiguredAt cfg spokes ends := by
    rw [← @matchedAt_iff cfg order, ← @configuredAt_iff cfg order]
    simp only [enteredPairs, List.mem_append, or_and_right, exists_or]
  rw [← hpairs]
  constructor
  · rintro ⟨seen, hseen, hends⟩
    rcases mem_observations.mp hseen with hpushed | ⟨pair, index, hpair, hside⟩
    · exact Or.inl ⟨seen, hpushed, hends⟩
    · exact Or.inr ⟨pair, List.mem_of_getElem? hpair, exists_mem_edgePair.mp ⟨seen, hside, hends⟩⟩
  · rintro (⟨seen, hseen, hends⟩ | ⟨pair, hpair, hends⟩)
    · exact ⟨seen, mem_observations.mpr (Or.inl hseen), hends⟩
    · obtain ⟨index, hindex⟩ := List.mem_iff_getElem?.mp hpair
      obtain ⟨seen, hseen, hside⟩ := (@exists_mem_edgePair (clock index) pair ends).mpr hends
      exact ⟨seen, mem_observations.mpr (Or.inr ⟨pair, index, hindex, hseen⟩), hside⟩

/-- Something names the endpoints: a pushed edge, two matching records or a
configured link. -/
def HasSource (cfg : FederationConfig) (spokes : Spokes) (ends : EdgeKey) : Prop :=
  (∃ pushed, Pushed spokes pushed ∧ At ends pushed) ∨ MatchedAt cfg spokes ends ∨
    ConfiguredAt cfg spokes ends

/-- The link is seen from both sides: by matching records, by configuration, in
one payload, or in two. -/
def Confirmed (cfg : FederationConfig) (spokes : Spokes) (ends : EdgeKey) : Prop :=
  MatchedAt cfg spokes ends ∨ ConfiguredAt cfg spokes ends ∨
    (∃ pushed, Pushed spokes pushed ∧ At ends pushed ∧
      pushed.direction = directionBidirectional) ∨
    ∃ first second, Pushed spokes first ∧ Pushed spokes second ∧ At ends first ∧ At ends second ∧
      first.srcDevice = ends.srcDevice ∧ second.srcDevice = ends.dstDevice

theorem MatchedAt.swap_iff : MatchedAt cfg spokes ends.swap ↔ MatchedAt cfg spokes ends :=
  ⟨MatchedAt.swap, MatchedAt.swap⟩

theorem ConfiguredAt.swap_iff : ConfiguredAt cfg spokes ends.swap ↔ ConfiguredAt cfg spokes ends :=
  ⟨ConfiguredAt.swap, ConfiguredAt.swap⟩

theorem hasSource_iff :
    HasSource cfg spokes ends ↔
      Reported (observations cfg order clock spokes) ends ∨
        Reported (observations cfg order clock spokes) ends.swap := by
  rw [reported_observations, reported_observations, reported_pushedEdges, reported_pushedEdges,
    MatchedAt.swap_iff, ConfiguredAt.swap_iff, EdgeKey.swap_swap]
  constructor
  · rintro (⟨pushed, hpushed, hends | hends⟩ | hentered)
    · exact Or.inl (Or.inl (Or.inl ⟨pushed, hpushed, hends⟩))
    · exact Or.inr (Or.inl (Or.inl ⟨pushed, hpushed, hends⟩))
    · exact Or.inl (Or.inr hentered)
  · rintro (((⟨pushed, hpushed, hends⟩ | ⟨pushed, hpushed, hends, -⟩) | hentered) |
      ((⟨pushed, hpushed, hends⟩ | ⟨pushed, hpushed, hends, -⟩) | hentered))
    · exact Or.inl ⟨pushed, hpushed, Or.inl hends⟩
    · exact Or.inl ⟨pushed, hpushed, Or.inr hends⟩
    · exact Or.inr hentered
    · exact Or.inl ⟨pushed, hpushed, Or.inr hends⟩
    · exact Or.inl ⟨pushed, hpushed, Or.inl hends⟩
    · exact Or.inr hentered

variable {edge seen : Edge}

/-- An edge at the endpoints that is reported from the source device has them
in their order. -/
theorem At.of_src (hjoins : Joins ends) (hat : At ends edge)
    (hsrc : edge.srcDevice = ends.srcDevice) : normalizedEndpoints edge = ends := by
  rcases hat with hends | hends
  · exact hends
  · have hother : edge.srcDevice = ends.dstDevice := congrArg EdgeKey.srcDevice hends
    exact absurd (hsrc.symm.trans hother) hjoins.distinct

theorem confirmed_iff (hjoins : Joins ends) :
    Confirmed cfg spokes ends ↔
      Reported (observations cfg order clock spokes) ends ∧
        Reported (observations cfg order clock spokes) ends.swap := by
  rw [reported_observations, reported_observations, reported_pushedEdges, reported_pushedEdges,
    MatchedAt.swap_iff, ConfiguredAt.swap_iff, EdgeKey.swap_swap]
  constructor
  · rintro (hmatched | hconfigured | ⟨pushed, hpushed, hends | hends, hdirection⟩ |
      ⟨first, second, hfirst, hsecond, hat, hother, hsrc, hdst⟩)
    · exact ⟨Or.inr (Or.inl hmatched), Or.inr (Or.inl hmatched)⟩
    · exact ⟨Or.inr (Or.inr hconfigured), Or.inr (Or.inr hconfigured)⟩
    · exact ⟨Or.inl (Or.inl ⟨pushed, hpushed, hends⟩),
        Or.inl (Or.inr ⟨pushed, hpushed, hends, hdirection⟩)⟩
    · exact ⟨Or.inl (Or.inr ⟨pushed, hpushed, hends, hdirection⟩),
        Or.inl (Or.inl ⟨pushed, hpushed, hends⟩)⟩
    · exact ⟨Or.inl (Or.inl ⟨first, hfirst, hat.of_src hjoins hsrc⟩),
        Or.inl (Or.inl ⟨second, hsecond, At.of_src hjoins.swap hother.symm hdst⟩)⟩
  · rintro ⟨(⟨first, hfirst, hends⟩ | ⟨pushed, hpushed, hends, hdirection⟩) | hentered, hback⟩
    · rcases hback with (⟨second, hsecond, hother⟩ | ⟨pushed, hpushed, hends, hdirection⟩) |
        hentered
      · exact Or.inr (Or.inr (Or.inr ⟨first, second, hfirst, hsecond, Or.inl hends, Or.inr hother,
          congrArg EdgeKey.srcDevice hends, congrArg EdgeKey.srcDevice hother⟩))
      · exact Or.inr (Or.inr (Or.inl ⟨pushed, hpushed, Or.inl hends, hdirection⟩))
      · exact hentered.imp_right Or.inl
    · exact Or.inr (Or.inr (Or.inl ⟨pushed, hpushed, Or.inr hends, hdirection⟩))
    · exact hentered.imp_right Or.inl

variable (cfg order clock spokes)

/-- The combined graph has exactly one edge for all endpoints with a source and
no other edges; an edge is bidirectional when its link is confirmed. It lists
every device ID once, from the first spoke in the order of the names. -/
theorem buildCombinedGraph_exact :
    (∀ ends, Joins ends → HasSource cfg spokes ends →
        ∃! edge, edge ∈ (buildCombinedGraph cfg order clock spokes).1.edges ∧
          (endpoints edge = ends ∨ endpoints edge = ends.swap)) ∧
      (buildCombinedGraph cfg order clock spokes).1.edges.Nodup ∧
      (∀ edge ∈ (buildCombinedGraph cfg order clock spokes).1.edges,
        Joins (endpoints edge) ∧ HasSource cfg spokes (endpoints edge) ∧
          (edge.direction = directionBidirectional ↔ Confirmed cfg spokes (endpoints edge))) ∧
      ((buildCombinedGraph cfg order clock spokes).1.devices.map Device.id).Nodup ∧
      (∀ id, id ∈ (buildCombinedGraph cfg order clock spokes).1.devices.map Device.id ↔
        Listed spokes id) ∧
      ∀ device ∈ (buildCombinedGraph cfg order clock spokes).1.devices,
        ∃ name, TakenFrom spokes name device := by
  refine ⟨?_, ?_, ?_, nodup_ids_allDevices order spokes, fun id => mem_ids_allDevices,
    fun device hdevice => takenFrom_of_mem hdevice⟩
  · intro ends hjoins hsource
    exact existsUnique_mem_reconcile order hjoins (hasSource_iff.mp hsource)
  · exact List.Nodup.of_map key (reconcile_nodup_keys order _)
  · intro edge hedge
    obtain ⟨hjoins, hreported, hdirection⟩ := reported_of_mem_reconcile hedge
    exact ⟨hjoins, hasSource_iff.mpr hreported, hdirection.trans (confirmed_iff hjoins).symm⟩

/-! ## Configured links -/

variable {cfg order clock spokes}

/-- A payload makes the observation: it holds the edge, or the same edge
bidirectional from the other side. -/
def Observed (spokes : Spokes) (seen : Edge) : Prop :=
  ∃ pushed, Pushed spokes pushed ∧
    (seen = pushed ∨ (pushed.direction = directionBidirectional ∧ seen = reversed pushed))

theorem mem_pushedEdges_iff : seen ∈ pushedEdges order spokes ↔ Observed spokes seen := by
  rw [mem_pushedEdges]
  constructor
  · rintro ⟨name, entry, pushed, hlookup, hpushed, hside⟩
    exact ⟨pushed, ⟨name, entry, hlookup, hpushed⟩, hside⟩
  · rintro ⟨pushed, ⟨name, entry, hlookup, hpushed⟩, hside⟩
    exact ⟨name, entry, pushed, hlookup, hpushed, hside⟩

/-- The place of a configured link among the observations, seen from its
canonical side. -/
def configuredPlace : Int ×ₗ Bool ×ₗ GoString :=
  toLex (0, toLex (false, discoveryProtocolConfigured))

/-- Whatever a payload says about the link before its configuration is preceded
by an observation that also calls it configured. -/
def Undisputed (spokes : Spokes) (link : EdgeKey) : Prop :=
  ∀ seen, Observed spokes seen → groupKey seen = some link →
    precedence link seen < configuredPlace →
    ∃ rival, Observed spokes rival ∧ groupKey rival = some link ∧
      precedence link rival ≤ precedence link seen ∧
      rival.discoveryProto = discoveryProtocolConfigured

instance (spokes : Spokes) (link : EdgeKey) : Decidable (Undisputed spokes link) :=
  decidable_of_iff
    (∀ seen ∈ pushedEdges .insertion spokes, groupKey seen = some link →
      precedence link seen < configuredPlace →
      ∃ rival ∈ pushedEdges .insertion spokes, groupKey rival = some link ∧
        precedence link rival ≤ precedence link seen ∧
        rival.discoveryProto = discoveryProtocolConfigured)
    (by simp only [mem_pushedEdges_iff]; rfl)

theorem id_ne_of_listed (haccepted : ∀ name entry, spokes.lookup name = some entry →
      validateSpokePayload order entry.payload = none) {id : GoString} (hid : Listed spokes id) :
    id ≠ [] := by
  obtain ⟨name, entry, hlookup, hmem⟩ := hid
  obtain ⟨device, hdevice, rfl⟩ := List.mem_map.mp hmem
  exact ((validateSpokePayload_eq_none.mp (haccepted name entry hlookup)).devices device
    hdevice).id_ne

/-- The observations of an entered pair carry its protocol and rank. -/
theorem fields_of_mem_edgePair {now : Time} {pair : LinkPair} (hedge : edge ∈ edgePair now pair) :
    edge.precedenceRank = pair.rank ∧ edge.discoveryProto = pair.proto := by
  simp only [edgePair, List.mem_cons, List.not_mem_nil, or_false] at hedge
  rcases hedge with rfl | rfl
  · exact ⟨rfl, rfl⟩
  · exact ⟨rfl, rfl⟩

/-- Of all observations only pushed ones can come before a configured link. -/
theorem configuredPlace_le {link : EdgeKey} (hseen : seen ∈ observations cfg order clock spokes)
    (hpushed : ¬Observed spokes seen) : configuredPlace ≤ precedence link seen := by
  rcases mem_observations.mp hseen with hown | ⟨pair, index, hpair, hside⟩
  · exact absurd (mem_pushedEdges_iff.mp hown) hpushed
  · obtain ⟨hrank, hproto⟩ := fields_of_mem_edgePair hside
    rw [configuredPlace, precedence, preference, Prod.Lex.toLex_le_toLex, hrank, hproto]
    rcases List.mem_append.mp (List.mem_of_getElem? hpair) with hmatched | hconfigured
    · obtain ⟨first, second, -, -, -, rfl⟩ := mem_pairs_matchOutOfScope hmatched
      exact Or.inl (by decide : (0 : Int) < 2)
    · obtain ⟨known, -, hknown⟩ := List.mem_filterMap.mp hconfigured
      obtain ⟨-, -, -, hconf, hzero⟩ := knownLinkPair_eq_some hknown
      rw [hconf, hzero, Prod.Lex.toLex_le_toLex]
      refine Or.inr ⟨rfl, ?_⟩
      cases decide (seen.srcDevice ≠ link.srcDevice) with
      | false => exact Or.inr ⟨rfl, le_refl _⟩
      | true => exact Or.inl (by decide)

/-- A configured link between two listed devices is observed at its place. -/
theorem exists_configured_observation {link : InterDomainLink}
    (hlink : link ∈ cfg.knownInterDomainLinks) (hlocal : Listed spokes link.localDevice)
    (hremote : Listed spokes link.remoteDevice) (hjoins : Joins (linkEnds link)) :
    ∃ seen ∈ observationsOf (observations cfg order clock spokes) (canonical (linkEnds link)),
      precedence (canonical (linkEnds link)) seen = configuredPlace := by
  obtain ⟨pair, hpair⟩ := exists_knownLinkPair order hlocal hremote
  obtain ⟨-, -, hends, hconf, hzero⟩ := knownLinkPair_eq_some hpair
  have hentered : pair ∈ enteredPairs cfg order spokes :=
    List.mem_append_right _ (List.mem_filterMap.mpr ⟨link, hlink, hpair⟩)
  obtain ⟨index, hindex⟩ := List.mem_iff_getElem?.mp hentered
  -- one of the two observations has the canonical side first
  have hcanonical : pair.endpoints = canonical (linkEnds link) ∨
      pair.endpoints = (canonical (linkEnds link)).swap := by
    rw [hends, ← canonical_eq_canonical, canonical_canonical]
  obtain ⟨seen, hside, hseen⟩ := (@exists_mem_edgePair (clock index) pair _).mpr hcanonical
  obtain ⟨hrank, hproto⟩ := fields_of_mem_edgePair hside
  refine ⟨seen, mem_observationsOf.mpr
    ⟨mem_observations.mpr (Or.inr ⟨pair, index, hindex, hside⟩), ?_⟩, ?_⟩
  · apply (groupKey_eq_canonical hjoins).mpr
    rw [hseen]
    exact canonical_cases _
  · have hsrc : seen.srcDevice = (canonical (linkEnds link)).srcDevice :=
      congrArg EdgeKey.srcDevice hseen
    simp [precedence, preference, configuredPlace, hrank, hproto, hconf, hzero, hsrc]

theorem proto_winner_iff_undisputed {link : EdgeKey} {observed configured : Edge}
    (hwinner : winner (observations cfg order clock spokes) link = some observed)
    (hconfigured : configured ∈ observationsOf (observations cfg order clock spokes) link)
    (hplace : precedence link configured = configuredPlace) :
    observed.discoveryProto = discoveryProtocolConfigured ↔ Undisputed spokes link := by
  obtain ⟨hmem, hkey⟩ := mem_observationsOf.mp (winner_mem hwinner)
  constructor
  · intro hproto seen hseen hlink hbefore
    have hle := precedence_winner_le hwinner
      (mem_observationsOf.mpr
        ⟨mem_observations.mpr (Or.inl (mem_pushedEdges_iff.mpr hseen)), hlink⟩)
    refine ⟨observed, ?_, hkey, hle, hproto⟩
    by_contra hpushed
    exact absurd (lt_of_le_of_lt hle hbefore) (not_lt.mpr (configuredPlace_le hmem hpushed))
  · intro hundisputed
    have hle := precedence_winner_le hwinner hconfigured
    rcases lt_or_eq_of_le hle with hbefore | hsame
    · rw [hplace] at hbefore
      have hpushed : Observed spokes observed := by
        by_contra hpushed
        exact absurd hbefore (not_lt.mpr (configuredPlace_le hmem hpushed))
      obtain ⟨rival, hrival, hown, hrank, hproto⟩ := hundisputed observed hpushed hkey hbefore
      -- nothing precedes the winner, so the rival shares its place
      have hleast := precedence_winner_le hwinner (mem_observationsOf.mpr
        ⟨mem_observations.mpr (Or.inl (mem_pushedEdges_iff.mpr hrival)), hown⟩)
      rw [proto_of_precedence_eq (le_antisymm hleast hrank), hproto]
    · exact congrArg (fun place => (ofLex (ofLex place).2).2) (hsame.trans hplace)

variable (cfg clock)

/-- An operator's link keeps its place in the combined graph exactly as long as
it is undisputed. Nothing in the validation of payloads keeps a spoke from
disputing it: ranks are not looked at, and protocol names only for their form. -/
theorem configured_link_kept_iff
    (haccepted : ∀ name entry, spokes.lookup name = some entry →
      validateSpokePayload order entry.payload = none)
    {link : InterDomainLink} (hlink : link ∈ cfg.knownInterDomainLinks)
    (hlocal : link.localDevice ∈
      (buildCombinedGraph cfg order clock spokes).1.devices.map Device.id)
    (hremote : link.remoteDevice ∈
      (buildCombinedGraph cfg order clock spokes).1.devices.map Device.id) :
    (∃ edge ∈ (buildCombinedGraph cfg order clock spokes).1.edges,
        key edge = canonical (linkEnds link) ∧ edge.direction = directionBidirectional ∧
          edge.discoveryProto = discoveryProtocolConfigured) ↔
      link.localDevice ≠ link.remoteDevice ∧ Undisputed spokes (canonical (linkEnds link)) := by
  have hlistedLocal : Listed spokes link.localDevice := mem_ids_allDevices.mp hlocal
  have hlistedRemote : Listed spokes link.remoteDevice := mem_ids_allDevices.mp hremote
  have hjoins : link.localDevice ≠ link.remoteDevice → Joins (linkEnds link) :=
    fun hdistinct => ⟨id_ne_of_listed haccepted hlistedLocal,
      id_ne_of_listed haccepted hlistedRemote, hdistinct⟩
  have hproto : ∀ {edge : Edge}, edge ∈ (buildCombinedGraph cfg order clock spokes).1.edges →
      key edge = canonical (linkEnds link) → link.localDevice ≠ link.remoteDevice →
      (edge.discoveryProto = discoveryProtocolConfigured ↔
        Undisputed spokes (canonical (linkEnds link))) := by
    intro edge hedge hkey hdistinct
    obtain ⟨observed, hwinner, rfl⟩ := mem_reconcile_and_key.mp ⟨hedge, hkey⟩
    obtain ⟨configured, hconfigured, hplace⟩ :=
      exists_configured_observation hlink hlistedLocal hlistedRemote (hjoins hdistinct)
    rw [(linkEdge_fields _ _ _).2]
    exact proto_winner_iff_undisputed hwinner hconfigured hplace
  constructor
  · rintro ⟨edge, hedge, hkey, -, hconfigured⟩
    have hdistinct : link.localDevice ≠ link.remoteDevice := by
      have hown := (reported_of_mem_reconcile hedge).1
      rcases canonical_eq_canonical.mp hkey with hends | hends
      · rw [hends] at hown
        exact hown.distinct
      · rw [hends] at hown
        exact hown.distinct.symm
    exact ⟨hdistinct, (hproto hedge hkey hdistinct).mp hconfigured⟩
  · rintro ⟨hdistinct, hundisputed⟩
    have hat : ConfiguredAt cfg spokes (linkEnds link) :=
      ⟨link, hlink, hlistedLocal, hlistedRemote, Or.inl rfl⟩
    have hsource : HasSource cfg spokes (linkEnds link) := Or.inr (Or.inr hat)
    obtain ⟨edge, ⟨hedge, hends⟩, -⟩ :=
      existsUnique_mem_reconcile order (hjoins hdistinct) (hasSource_iff.mp hsource)
    have hkey : key edge = canonical (linkEnds link) := canonical_eq_canonical.mpr hends
    refine ⟨edge, hedge, hkey, ?_, (hproto hedge hkey hdistinct).mpr hundisputed⟩
    obtain ⟨hown, -, hdirection⟩ := reported_of_mem_reconcile hedge
    apply hdirection.mpr
    apply (confirmed_iff hown).mp
    -- the link is configured, whichever end the edge puts first
    have hconfigured : ConfiguredAt cfg spokes (endpoints edge) := by
      rcases hends with hends | hends
      · rwa [hends]
      · rw [hends]
        exact hat.swap
    exact Or.inr (Or.inl hconfigured)

end Combined

/-! ## A disputed link -/

def operatorLink : InterDomainLink :=
  ⟨str "sw1", str "Gi0/1", str "sw2", str "Gi0/2", []⟩

def operatorConfig : FederationConfig :=
  { plainConfig with knownInterDomainLinks := [operatorLink] }

/-- One spoke that lists both devices and an edge at the configured ports. -/
def disputingPayload (rank : Int) : SpokePayload where
  spokeID := str "east"
  cycleAt := Time.zero
  devices := [plainDevice (str "sw1"), plainDevice (str "sw2")]
  edges := [{
    srcDevice := str "sw1"
    srcPort := str "GigabitEthernet0/1"
    dstDevice := str "sw2"
    dstPort := str "Gi0/2"
    discoveryProto := discoveryProtocolLLDP
    direction := directionUnidirectional
    confidence := confidenceHigh
    adjacency := adjacencyDirect
    precedenceRank := rank
    linkKind := linkKindEthernet
    observedAt := Time.zero
    metadata := ∅ }]
  outOfScope := []

def disputingSpokes (rank : Int) : Spokes :=
  (∅ : Spokes).insert (str "east") ⟨disputingPayload rank, Time.zero, 0⟩

/-- Against an edge with the rank of LLDP the configured link is kept. -/
theorem operatorLink_kept :
    Undisputed (disputingSpokes 2) (canonical (linkEnds operatorLink)) ∧
      ∃ edge ∈ (buildCombinedGraph operatorConfig .insertion (fun _ => Time.zero)
          (disputingSpokes 2)).1.edges,
        key edge = canonical (linkEnds operatorLink) ∧ edge.direction = directionBidirectional ∧
          edge.discoveryProto = discoveryProtocolConfigured := by
  have hundisputed : Undisputed (disputingSpokes 2) (canonical (linkEnds operatorLink)) := by
    decide
  refine ⟨hundisputed, ?_⟩
  apply (configured_link_kept_iff operatorConfig (fun _ => Time.zero) ?_
    (List.mem_singleton_self operatorLink) (by decide) (by decide)).mpr
  · exact ⟨by decide, hundisputed⟩
  · intro name entry hlookup
    obtain ⟨-, rfl⟩ := Map.lookup_insert_empty.mp hlookup
    decide

/-- An edge of rank -1 passes the checks of the hub and takes the place of the
configured link. -/
theorem operatorLink_displaced :
    validateSpokePayload .insertion (disputingPayload (-1)) = none ∧
      ((buildCombinedGraph operatorConfig .insertion (fun _ => Time.zero)
        (disputingSpokes (-1))).1.devices.map Device.id = [str "sw1", str "sw2"]) ∧
      ((buildCombinedGraph operatorConfig .insertion (fun _ => Time.zero)
        (disputingSpokes (-1))).1.edges.map (fun edge => (key edge, edge.discoveryProto)) =
          [(canonical (linkEnds operatorLink), discoveryProtocolLLDP)]) := by
  decide

end TopologyExporter.Federation
