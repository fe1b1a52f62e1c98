import TopologyExporter.Federation.Combined

/-! # The ends of the links across domain boundaries

Two spokes see a link between their domains as out-of-scope records that name
each other's device. The hub matches the names in their canonical form and
enters the link under these forms, while the devices keep the IDs the spokes
list. Both fit together where the canonical name of a matched device is an ID
of its own.
-/

namespace TopologyExporter.Federation

open Go Utf8 Discovery TopologyExporter.Graph

section Boundary

variable {cfg : FederationConfig} {order : RangeOrder} {clock : Nat → Time} {spokes : Spokes}

/-! ## What the matched records enter -/

/-- The edges made from matched out-of-scope records. -/
def synthesised (cfg : FederationConfig) (order : RangeOrder) (clock : Nat → Time)
    (spokes : Spokes) : List Edge :=
  (matchOutOfScope cfg order spokes).pairs.zipIdx.flatMap
    (fun (pair, index) => edgePair (clock index) pair)

variable {edge : Edge} {here there : OutOfScopeNeighbour}

theorem mem_synthesised :
    edge ∈ synthesised cfg order clock spokes ↔
      ∃ pair index, (matchOutOfScope cfg order spokes).pairs[index]? = some pair ∧
        edge ∈ edgePair (clock index) pair := by
  simp only [synthesised, List.mem_flatMap, Prod.exists, List.mk_mem_zipIdx_iff_getElem?]

/-- The far end of a matched record is the device that reports the other one. -/
theorem Matched.hint_eq (hmatched : Matched cfg here there) :
    (oosKey cfg here).hint = canonicalizeDeviceName cfg there.reportingDevice := by
  exact (congrArg OOSKey.device hmatched).symm

/-! ## The condition on the names -/

/-- The canonical name of every device that reports one of two matched records
is a listed device ID. -/
def ListsCanonicalNames (cfg : FederationConfig) (spokes : Spokes) : Prop :=
  ∀ here there, Recorded spokes here → Recorded spokes there → Matched cfg here there →
    Listed spokes (canonicalizeDeviceName cfg here.reportingDevice)

/-- Both ends of a pair from matched records are canonical names of devices that
report such records. -/
theorem ListsCanonicalNames.pair (hnames : ListsCanonicalNames cfg spokes) {pair : LinkPair}
    (hpair : pair ∈ (matchOutOfScope cfg order spokes).pairs) :
    Listed spokes pair.src ∧ Listed spokes pair.dst := by
  obtain ⟨first, second, hfirst, hsecond, hmatched, rfl⟩ := mem_pairs_matchOutOfScope hpair
  refine ⟨hnames first second hfirst hsecond hmatched, ?_⟩
  have hdst : (oosPair (oosKey cfg first) (oosVal first) (oosVal second)).dst =
      canonicalizeDeviceName cfg second.reportingDevice := hmatched.hint_eq
  rw [hdst]
  exact hnames second first hsecond hfirst hmatched.symm

/-- Each reporting device is one end of some pair that is entered. -/
theorem exists_pair_at_reporting (order : RangeOrder) (hhere : Recorded spokes here)
    (hthere : Recorded spokes there) (hmatched : Matched cfg here there) :
    ∃ pair ∈ (matchOutOfScope cfg order spokes).pairs,
      canonicalizeDeviceName cfg here.reportingDevice = pair.src ∨
        canonicalizeDeviceName cfg here.reportingDevice = pair.dst := by
  obtain ⟨pair, hpair, hends⟩ := exists_pair_of_matched order hhere hthere hmatched
  refine ⟨pair, hpair, ?_⟩
  -- of the matches with the same ends only the first is entered, perhaps from the other side
  have hsame : pair.ends = (oosPair (oosKey cfg here) (oosVal here) (oosVal there)).ends := hends
  rcases endpoints_of_ends hsame with heq | hswap
  · exact Or.inl (congrArg EdgeKey.srcDevice heq).symm
  · exact Or.inr (congrArg EdgeKey.dstDevice hswap).symm

theorem ends_of_mem_edgePair {now : Time} {pair : LinkPair} (hedge : edge ∈ edgePair now pair) :
    (edge.srcDevice = pair.src ∧ edge.dstDevice = pair.dst) ∨
      (edge.srcDevice = pair.dst ∧ edge.dstDevice = pair.src) := by
  rcases List.mem_pair.mp hedge with rfl | rfl
  · exact Or.inl ⟨rfl, rfl⟩
  · exact Or.inr ⟨rfl, rfl⟩

variable (cfg order clock spokes)

/-- The edges made from matched records join listed devices exactly when the
canonical names of the devices that report the records are listed IDs. -/
theorem synthesised_ends_listed_iff :
    (∀ edge ∈ synthesised cfg order clock spokes,
        edge.srcDevice ∈ (buildCombinedGraph cfg order clock spokes).1.devices.map Device.id ∧
          edge.dstDevice ∈ (buildCombinedGraph cfg order clock spokes).1.devices.map Device.id) ↔
      ListsCanonicalNames cfg spokes := by
  have hids : ∀ id, id ∈ (buildCombinedGraph cfg order clock spokes).1.devices.map Device.id ↔
      Listed spokes id := fun id => mem_ids_allDevices
  simp only [hids]
  constructor
  · intro hlisted here there hhere hthere hmatched
    obtain ⟨pair, hpair, hend⟩ := exists_pair_at_reporting order hhere hthere hmatched
    obtain ⟨index, hindex⟩ := List.mem_iff_getElem?.mp hpair
    have hforward : forwardEdge (clock index) pair ∈ synthesised cfg order clock spokes :=
      mem_synthesised.mpr ⟨pair, index, hindex, List.mem_cons_self⟩
    obtain ⟨hsrc, hdst⟩ := hlisted _ hforward
    rcases hend with hend | hend
    · rw [hend]
      exact hsrc
    · rw [hend]
      exact hdst
  · intro hnames edge hedge
    obtain ⟨pair, index, hindex, hside⟩ := mem_synthesised.mp hedge
    obtain ⟨hsrc, hdst⟩ := hnames.pair (List.mem_of_getElem? hindex)
    rcases ends_of_mem_edgePair hside with ⟨hfirst, hsecond⟩ | ⟨hfirst, hsecond⟩
    · rw [hfirst, hsecond]
      exact ⟨hsrc, hdst⟩
    · rw [hfirst, hsecond]
      exact ⟨hdst, hsrc⟩

variable {cfg order clock spokes}

/-- Every payload lists the devices its out-of-scope records are reported by. -/
def ListsReporting (spokes : Spokes) : Prop :=
  ∀ name entry, spokes.lookup name = some entry →
    ∀ neighbour ∈ entry.payload.outOfScope,
      neighbour.reportingDevice ∈ entry.payload.devices.map Device.id

end Boundary

/-! ## A link between devices that are not in the graph -/

/-- One device and the neighbour it sees beyond the boundary. -/
def facingPayload (spokeID device port hint : GoString) : SpokePayload where
  spokeID := spokeID
  cycleAt := Time.zero
  devices := [plainDevice device]
  edges := []
  outOfScope := [⟨device, port, hint, str "lldp", Time.zero, Time.zero⟩]

/-- Two spokes whose border devices see each other. -/
def facingSpokes (east west : GoString) : Spokes :=
  ((∅ : Spokes).insert (str "east")
    ⟨facingPayload (str "east") east (str "Gi0/1") west, Time.zero, 0⟩).insert (str "west")
    ⟨facingPayload (str "west") west (str "Gi0/2") east, Time.zero, 1⟩

def looseConfig : FederationConfig :=
  { plainConfig with hub := { plainConfig.hub with looseDeviceNameMatching := true } }

theorem facingSpokes_listsReporting (east west : GoString) :
    ListsReporting (facingSpokes east west) := by
  intro name entry hlookup neighbour hmem
  unfold facingSpokes at hlookup
  by_cases hname : name = str "west"
  · subst hname
    rw [AList.lookup_insert, Option.some.injEq] at hlookup
    subst hlookup
    rw [List.mem_singleton.mp hmem]
    exact List.mem_singleton_self west
  · rw [AList.lookup_insert_ne hname] at hlookup
    obtain ⟨-, rfl⟩ := Map.lookup_insert_empty.mp hlookup
    rw [List.mem_singleton.mp hmem]
    exact List.mem_singleton_self east

/-- The combined graph of two border devices. -/
def facingGraph (cfg : FederationConfig) (east west : GoString) : Discovery.Graph :=
  (buildCombinedGraph cfg .insertion (fun _ => Time.zero) (facingSpokes east west)).1

/-- A device named in capitals, or by its domain name under loose matching, gets
its link under a name that no device of the graph has. -/
theorem border_link_off_the_graph :
    (∀ east west, ListsReporting (facingSpokes east west)) ∧
      validateSpokePayload .insertion
        (facingPayload (str "east") (str "SW1") (str "Gi0/1") (str "sw2")) = none ∧
      validateSpokePayload .insertion
        (facingPayload (str "west") (str "sw2") (str "Gi0/2") (str "SW1")) = none ∧
      (facingGraph plainConfig (str "SW1") (str "sw2")).devices.map Device.id =
        [str "SW1", str "sw2"] ∧
      (facingGraph plainConfig (str "SW1") (str "sw2")).edges.map
        (fun edge => (edge.srcDevice, edge.dstDevice)) = [(str "sw1", str "sw2")] ∧
      (synthesised plainConfig .insertion (fun _ => Time.zero)
        (facingSpokes (str "SW1") (str "sw2"))).map (fun edge => edge.srcDevice) =
          [str "sw1", str "sw2"] ∧
      validateSpokePayload .insertion
        (facingPayload (str "east") (str "sw1.dc1") (str "Gi0/1") (str "sw2")) = none ∧
      validateSpokePayload .insertion
        (facingPayload (str "west") (str "sw2") (str "Gi0/2") (str "sw1.dc1")) = none ∧
      (facingGraph looseConfig (str "sw1.dc1") (str "sw2")).devices.map Device.id =
        [str "sw1.dc1", str "sw2"] ∧
      (facingGraph looseConfig (str "sw1.dc1") (str "sw2")).edges.map
        (fun edge => (edge.srcDevice, edge.dstDevice)) = [(str "sw1", str "sw2")] := by
  refine ⟨facingSpokes_listsReporting, ?_⟩
  decide

end TopologyExporter.Federation
