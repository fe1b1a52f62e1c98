import TopologyExporter.Federation.Merge
import TopologyExporter.Snapshot.File

/-! # Reading back the hub's snapshot

A hub persists the combined graph it published and loads it at the next start.
The payloads behind the graph passed one set of field caps, the document is
checked against another. Whether it loads is decided by the fields for which
the two differ, and by the names that only arise in the merge.
-/

namespace TopologyExporter.Federation

open Go Utf8 Discovery TopologyExporter.Graph Snapshot

/-- The document for a graph. Hubs have no credential cache and no counters of
unconfirmed links. -/
def snapshotFile (leaseEpoch : Nat) (graph : Discovery.Graph) : File where
  version := 0
  writtenAt := Time.zero
  devices := graph.devices
  edges := graph.edges
  outOfScope := []
  credentialCache := ∅
  unconfirmedAges := ∅
  holder := []
  leaseEpoch := leaseEpoch

/-- Every payload in the registry was accepted. -/
def AllAccepted (spokes : Spokes) : Prop :=
  ∀ name entry, spokes.lookup name = some entry → AcceptedPayload entry.payload

/-! ## Devices -/

theorem length_of_validateLabelKey {key : GoString} (hkey : validateLabelKey key = none) :
    key.length ≤ maxLabelKeyBytes := by
  unfold validateLabelKey at hkey
  by_contra hlong
  rw [not_le] at hlong
  have hne : key ≠ [] := by
    rintro rfl
    cases hlong
  rw [if_neg hne, if_pos hlong] at hkey
  cases hkey

theorem within_cappedItems {order : RangeOrder} {site : Nat} {name : GoString}
    {items : Map GoString GoString}
    (hitems : ∀ key value, items.lookup key = some value →
      key.length ≤ maxLabelKeyBytes ∧ value.length ≤ maxLabelValueBytes) :
    ∀ capped ∈ cappedItems order site name items, capped.text.length ≤ capped.limit := by
  intro capped hcapped
  simp only [cappedItems, List.mem_flatMap, Prod.exists, Map.mem_range, List.mem_cons,
    List.not_mem_nil, or_false] at hcapped
  obtain ⟨key, value, hlookup, rfl | rfl⟩ := hcapped
  · exact (hitems key value hlookup).1
  · exact (hitems key value hlookup).2

variable {order : RangeOrder} {spokes : Spokes} {edge : Edge} {cfg : FederationConfig}
  {first second : OutOfScopeNeighbour} {device : Device} {clock : Nat → Time}

/-- Of an accepted device only the inventory fields can be too long. -/
theorem within_cappedDevice (haccepted : AcceptedDevice device) :
    (∀ capped ∈ cappedDevice order device, capped.text.length ≤ capped.limit) ↔
      ∀ field ∈ inventoryFields device, field.2.length ≤ maxShortFieldBytes := by
  have hitems := @within_cappedItems order 7 (str "labels") device.labels
    (fun key value hlookup => ⟨length_of_validateLabelKey (haccepted.labels key value hlookup).1,
      (haccepted.labels key value hlookup).2.length_le⟩)
  have hid := haccepted.id.length_le
  rw [cappedDevice, List.forall_mem_append]
  simp only [inventoryFields, List.forall_mem_cons, List.not_mem_nil, false_implies, implies_true,
    and_true]
  constructor
  · rintro ⟨⟨-, hall⟩, -⟩
    exact hall
  · intro hall
    exact ⟨⟨hid, hall⟩, hitems⟩

theorem accepted_of_mem_allDevices (haccepted : AllAccepted spokes)
    (hdevice : FirstListed (listedDevices order spokes) device) : AcceptedDevice device := by
  obtain ⟨front, back, hlisted, -⟩ := hdevice
  have hmem : device ∈ listedDevices order spokes := by
    rw [hlisted]
    simp
  obtain ⟨entry, hentry, hdevice⟩ := List.mem_flatMap.mp hmem
  obtain ⟨name, hlookup⟩ := mem_sortedSpokes.mp hentry
  exact (haccepted name entry hlookup).devices device hdevice

/-! ## Edges -/

/-- What holds of every observation of the merge, whoever made it. -/
structure Bounded (edge : Edge) : Prop where
  srcPort : Fits maxPortNameBytes edge.srcPort
  dstPort : Fits maxPortNameBytes edge.dstPort
  metadata : AcceptedMetadata edge.metadata

theorem Bounded.reversed (hbounded : Bounded edge) : Bounded (reversed edge) :=
  ⟨hbounded.dstPort, hbounded.srcPort, hbounded.metadata⟩

theorem bounded_of_pushed {order : RangeOrder} {spokes : Spokes} (haccepted : AllAccepted spokes)
    {edge : Edge} (hedge : edge ∈ pushedEdges order spokes) :
    Bounded edge ∧ edge.srcDevice.length ≤ maxDeviceIDBytes ∧
      edge.dstDevice.length ≤ maxDeviceIDBytes := by
  obtain ⟨name, entry, pushed, hlookup, hpushed, hside⟩ := mem_pushedEdges.mp hedge
  have hfields := (haccepted name entry hlookup).edges pushed hpushed
  have hbounded : Bounded pushed := ⟨hfields.srcPort, hfields.dstPort, hfields.metadata⟩
  rcases hside with rfl | ⟨-, rfl⟩
  · exact ⟨hbounded, hfields.srcDevice.length_le, hfields.dstDevice.length_le⟩
  · exact ⟨hbounded.reversed, hfields.dstDevice.length_le, hfields.srcDevice.length_le⟩

theorem port_of_recorded (haccepted : AllAccepted spokes) {neighbour : OutOfScopeNeighbour}
    (hrecorded : Recorded spokes neighbour) : Fits maxPortNameBytes neighbour.reportingPort := by
  obtain ⟨name, entry, hlookup, hmem⟩ := hrecorded
  exact (haccepted name entry hlookup).outOfScope neighbour hmem
    (str "reporting_port", neighbour.reportingPort) (by simp [outOfScopeFields])

/-- An observation that was not pushed comes from two matching records. -/
theorem observation_cases (hlinks : cfg.knownInterDomainLinks = [])
    (hedge : edge ∈ observations cfg order clock spokes) :
    edge ∈ pushedEdges order spokes ∨
      ∃ first second now, Recorded spokes first ∧ Recorded spokes second ∧
        Matched cfg first second ∧
        edge ∈ edgePair now (oosPair (oosKey cfg first) (oosVal first) (oosVal second)) := by
  rcases mem_observations.mp hedge with hpushed | ⟨pair, index, hpair, hside⟩
  · exact Or.inl hpushed
  · rw [enteredPairs, hlinks, List.filterMap_nil, List.append_nil] at hpair
    obtain ⟨first, second, hfirst, hsecond, hmatched, rfl⟩ :=
      mem_pairs_matchOutOfScope (List.mem_of_getElem? hpair)
    exact Or.inr ⟨first, second, clock index, hfirst, hsecond, hmatched, hside⟩

theorem bounded_of_observed (hlinks : cfg.knownInterDomainLinks = [])
    (haccepted : AllAccepted spokes) (hedge : edge ∈ observations cfg order clock spokes) :
    Bounded edge := by
  rcases observation_cases hlinks hedge with
    hpushed | ⟨first, second, now, hfirst, hsecond, -, hside⟩
  · exact (bounded_of_pushed haccepted hpushed).1
  · have hforward : Bounded (forwardEdge now
        (oosPair (oosKey cfg first) (oosVal first) (oosVal second))) := by
      refine ⟨port_of_recorded haccepted hfirst, port_of_recorded haccepted hsecond, ?_⟩
      intro key value hlookup
      cases hlookup
    simp only [edgePair, List.mem_cons, List.not_mem_nil, or_false] at hside
    rcases hside with rfl | rfl
    · exact hforward
    · exact hforward.reversed

/-- Of the edge of a link only the device names, the protocol and the link kind
can be too long. -/
theorem within_cappedEdge {edges : List Edge} {link : EdgeKey} {observed : Edge}
    (hkey : groupKey observed = some link) (hbounded : Bounded observed) :
    (∀ capped ∈ cappedEdge order (linkEdge edges link observed),
        capped.text.length ≤ capped.limit) ↔
      (link.srcDevice.length ≤ maxDeviceIDBytes ∧ link.dstDevice.length ≤ maxDeviceIDBytes) ∧
        observed.discoveryProto.length ≤ maxProtoBytes ∧
        observed.linkKind.length ≤ maxProtoBytes := by
  obtain ⟨-, hproto, hkind, -, -, -, hmetadata⟩ := orient_fields link observed
  have hends := normalizedEndpoints_orient hkey
  have hsrcDevice : (orient link observed).srcDevice = link.srcDevice :=
    congrArg EdgeKey.srcDevice hends
  have hdstDevice : (orient link observed).dstDevice = link.dstDevice :=
    congrArg EdgeKey.dstDevice hends
  have hports : (normalizePortName (orient link observed).srcPort).length ≤ maxPortNameBytes ∧
      (normalizePortName (orient link observed).dstPort).length ≤ maxPortNameBytes := by
    have hsrc := length_normalizePortName_le hbounded.srcPort.valid hbounded.srcPort.length_le
      (by decide)
    have hdst := length_normalizePortName_le hbounded.dstPort.valid hbounded.dstPort.length_le
      (by decide)
    unfold orient
    split_ifs
    · exact ⟨hdst, hsrc⟩
    · exact ⟨hsrc, hdst⟩
  have hitems := @within_cappedItems order 8 (str "metadata") observed.metadata
    (fun key value hlookup => ⟨(hbounded.metadata key value hlookup).2.1.length_le,
      (hbounded.metadata key value hlookup).2.2.length_le⟩)
  simp only [cappedEdge, linkEdge, hsrcDevice, hdstDevice, hproto, hkind, hmetadata,
    List.forall_mem_append, List.forall_mem_cons, List.not_mem_nil, false_implies, implies_true,
    and_true]
  constructor
  · rintro ⟨⟨hsrc, hdst, -, -, hfields⟩, -⟩
    exact ⟨⟨hsrc, hdst⟩, hfields⟩
  · rintro ⟨⟨hsrc, hdst⟩, hfields⟩
    exact ⟨⟨hsrc, hdst, hports.1, hports.2, hfields⟩, hitems⟩

/-- The canonical names of matching records, as far as they form a link. -/
def NamesWithin (cfg : FederationConfig) (spokes : Spokes) : Prop :=
  ∀ first second, Recorded spokes first → Recorded spokes second → Matched cfg first second →
    (oosKey cfg first).device ≠ [] → (oosKey cfg first).hint ≠ [] →
    (oosKey cfg first).device ≠ (oosKey cfg first).hint →
    (oosKey cfg first).device.length ≤ maxDeviceIDBytes

/-- Both names of a match are bounded: the other one by the match read from its
own side. -/
theorem NamesWithin.both (hnames : NamesWithin cfg spokes) (hfirst : Recorded spokes first)
    (hsecond : Recorded spokes second) (hmatched : Matched cfg first second)
    (hdevice : (oosKey cfg first).device ≠ []) (hhint : (oosKey cfg first).hint ≠ [])
    (hdistinct : (oosKey cfg first).device ≠ (oosKey cfg first).hint) :
    (oosKey cfg first).device.length ≤ maxDeviceIDBytes ∧
      (oosKey cfg first).hint.length ≤ maxDeviceIDBytes := by
  refine ⟨hnames first second hfirst hsecond hmatched hdevice hhint hdistinct, ?_⟩
  have hother := hnames second first hsecond hfirst hmatched.symm
  rw [hmatched] at hother
  exact hother hhint hdevice hdistinct.symm

/-- The two devices of an entered pair, in either order. -/
theorem devices_of_ends {pair : LinkPair} {found : OOSKey} {here there : OOSVal}
    (hends : pair.ends = portPair found here there) :
    (pair.src = found.device ∧ pair.dst = found.hint) ∨
      (pair.src = found.hint ∧ pair.dst = found.device) := by
  unfold LinkPair.ends portPair at hends
  by_cases hpair : pair.dst < pair.src
  all_goals by_cases hfound : found.hint < found.device
  all_goals simp only [hpair, hfound, if_true, if_false, Prod.mk.injEq] at hends
  · exact Or.inl ⟨hends.1.2, hends.1.1⟩
  · exact Or.inr ⟨hends.1.2, hends.1.1⟩
  · exact Or.inr ⟨hends.1.1, hends.1.2⟩
  · exact Or.inl ⟨hends.1.1, hends.1.2⟩

section Links

variable {cfg : FederationConfig} {order : RangeOrder} {clock : Nat → Time} {spokes : Spokes}

/-- Every observed link has bounded device names. -/
def LinksWithin (cfg : FederationConfig) (order : RangeOrder) (clock : Nat → Time)
    (spokes : Spokes) : Prop :=
  ∀ link observed, winner (observations cfg order clock spokes) link = some observed →
    link.srcDevice.length ≤ maxDeviceIDBytes ∧ link.dstDevice.length ≤ maxDeviceIDBytes

theorem linksWithin_of_namesWithin (hlinks : cfg.knownInterDomainLinks = [])
    (haccepted : AllAccepted spokes) (hnames : NamesWithin cfg spokes) :
    LinksWithin cfg order clock spokes := by
  intro link observed hwinner
  obtain ⟨hobserved, hkey⟩ := mem_observationsOf.mp (winner_mem hwinner)
  apply (link_devices_iff hkey (fun name => name.length ≤ maxDeviceIDBytes)).mpr
  obtain ⟨hsrc, hdst, hdistinct, -⟩ := groupKey_eq_some.mp hkey
  rcases observation_cases hlinks hobserved with
    hpushed | ⟨first, second, now, hfirst, hsecond, hmatched, hside⟩
  · exact (bounded_of_pushed haccepted hpushed).2
  · simp only [edgePair, List.mem_cons, List.not_mem_nil, or_false] at hside
    rcases hside with rfl | rfl
    · exact hnames.both hfirst hsecond hmatched hsrc hdst hdistinct
    · exact (hnames.both hfirst hsecond hmatched hdst hsrc hdistinct.symm).symm

theorem namesWithin_of_linksWithin (hlinks : LinksWithin cfg order clock spokes) :
    NamesWithin cfg spokes := by
  intro first second hfirst hsecond hmatched hdevice hhint hdistinct
  obtain ⟨pair, hpair, hends⟩ := exists_pair_of_matched order hfirst hsecond hmatched
  have hentered : pair ∈ enteredPairs cfg order spokes := List.mem_append_left _ hpair
  obtain ⟨index, hindex⟩ := List.mem_iff_getElem?.mp hentered
  have hobserved : forwardEdge (clock index) pair ∈ observations cfg order clock spokes :=
    mem_observations.mpr (Or.inr ⟨pair, index, hindex, List.mem_cons_self ..⟩)
  have hdevices := devices_of_ends hends
  -- the pair names two different devices, so it forms a link
  have hkey : groupKey (forwardEdge (clock index) pair) =
      some (normalizedGroupKey (forwardEdge (clock index) pair)) := by
    apply groupKey_eq_some.mpr
    rcases hdevices with ⟨hsrc, hdst⟩ | ⟨hsrc, hdst⟩
    · simp only [forwardEdge, hsrc, hdst]
      exact ⟨hdevice, hhint, hdistinct, trivial⟩
    · simp only [forwardEdge, hsrc, hdst]
      exact ⟨hhint, hdevice, hdistinct.symm, trivial⟩
  obtain ⟨observed, hwinner⟩ := exists_winner hobserved hkey
  have hbounds := (link_devices_iff hkey (fun name => name.length ≤ maxDeviceIDBytes)).mp
    (hlinks _ observed hwinner)
  rcases hdevices with ⟨hsrc, -⟩ | ⟨-, hdst⟩
  · rw [← hsrc]
    exact hbounds.1
  · rw [← hdst]
    exact hbounds.2

end Links

/-! ## Loading the written document -/

/-- The fields that the push checks leave unbounded, or bound differently, are
within the caps of the document. -/
structure Reloadable (cfg : FederationConfig) (order : RangeOrder) (clock : Nat → Time)
    (spokes : Spokes) : Prop where
  inventory : ∀ device, FirstListed (listedDevices order spokes) device →
    ∀ field ∈ inventoryFields device, field.2.length ≤ maxShortFieldBytes
  texts : ∀ link observed, winner (observations cfg order clock spokes) link = some observed →
    observed.discoveryProto.length ≤ maxProtoBytes ∧ observed.linkKind.length ≤ maxProtoBytes
  names : NamesWithin cfg spokes

theorem within_devices_iff {order readOrder : RangeOrder} {spokes : Spokes}
    (haccepted : AllAccepted spokes) :
    Within (cappedDevice readOrder) (allDevices order spokes) ↔
      ∀ device, FirstListed (listedDevices order spokes) device →
        ∀ field ∈ inventoryFields device, field.2.length ≤ maxShortFieldBytes := by
  unfold Within
  refine forall_congr' fun device => ?_
  rw [mem_allDevices]
  refine imp_congr_right fun hdevice => ?_
  exact within_cappedDevice (accepted_of_mem_allDevices haccepted hdevice)

theorem within_edges_iff {cfg : FederationConfig} (hlinks : cfg.knownInterDomainLinks = [])
    {order readOrder : RangeOrder} {clock : Nat → Time} {spokes : Spokes}
    (haccepted : AllAccepted spokes) :
    Within (cappedEdge readOrder) (reconcile order (observations cfg order clock spokes)).1 ↔
      LinksWithin cfg order clock spokes ∧
        ∀ link observed, winner (observations cfg order clock spokes) link = some observed →
          observed.discoveryProto.length ≤ maxProtoBytes ∧
            observed.linkKind.length ≤ maxProtoBytes := by
  have hedge : ∀ link observed,
      winner (observations cfg order clock spokes) link = some observed →
      ((∀ capped ∈ cappedEdge readOrder
          (linkEdge (observations cfg order clock spokes) link observed),
          capped.text.length ≤ capped.limit) ↔ _) := fun link observed hwinner =>
    have hobserved := mem_observationsOf.mp (winner_mem hwinner)
    within_cappedEdge hobserved.2 (bounded_of_observed hlinks haccepted hobserved.1)
  constructor
  · intro hwithin
    have hall : ∀ link observed,
        winner (observations cfg order clock spokes) link = some observed → _ :=
      fun link observed hwinner => (hedge link observed hwinner).mp
        (hwithin _ (mem_reconcile_iff_winner.mpr ⟨link, observed, hwinner, rfl⟩))
    exact ⟨fun link observed hwinner => (hall link observed hwinner).1,
      fun link observed hwinner => (hall link observed hwinner).2⟩
  · intro hall edge hmem
    obtain ⟨link, observed, hwinner, rfl⟩ := mem_reconcile_iff_winner.mp hmem
    exact (hedge link observed hwinner).mpr
      ⟨hall.1 link observed hwinner, hall.2 link observed hwinner⟩

theorem write_ok {now : Time} {file : File} {disk : Disk}
    (hwrite : (write order now file disk).1 = .ok ()) :
    (write order now file disk).2 = some (.document (stamped now file)) := by
  unfold write at hwrite ⊢
  split_ifs at hwrite ⊢
  · split at hwrite
    · split_ifs at hwrite ⊢
      rfl
    · rfl
  · rfl

/-- A hub that restarts gets back what it wrote exactly when the fields that the
two validators treat differently are short enough. -/
theorem snapshot_reloads_iff (cfg : FederationConfig) (hlinks : cfg.knownInterDomainLinks = [])
    (order readOrder : RangeOrder) (pushOrder : GoString → RangeOrder) (clock : Nat → Time)
    (spokes : Spokes)
    (haccepted : ∀ name entry, spokes.lookup name = some entry →
      validateSpokePayload (pushOrder name) entry.payload = none)
    (leaseEpoch : Nat) (now : Time) (disk : Disk)
    (hwrite : (write order now
      (snapshotFile leaseEpoch (buildCombinedGraph cfg order clock spokes).1) disk).1 = .ok ()) :
    (load readOrder (write order now
        (snapshotFile leaseEpoch (buildCombinedGraph cfg order clock spokes).1) disk).2).1 =
        .ok (some (stamped now
          (snapshotFile leaseEpoch (buildCombinedGraph cfg order clock spokes).1))) ↔
      Reloadable cfg order clock spokes := by
  have hall : AllAccepted spokes := fun name entry hlookup =>
    validateSpokePayload_eq_none.mp (haccepted name entry hlookup)
  have hneighbours : Within cappedOutOfScope ([] : List OutOfScopeNeighbour) := by simp [Within]
  have hversion : (stamped now (snapshotFile leaseEpoch
      (buildCombinedGraph cfg order clock spokes).1)).version = currentVersion := rfl
  rw [write_ok hwrite, load_document, Loads, validateSnapshotFields_eq_nil]
  have hdevices := @within_devices_iff order readOrder spokes hall
  have hedges := @within_edges_iff cfg hlinks order readOrder clock spokes hall
  constructor
  · intro hloads
    obtain ⟨⟨-, hdevice, hedge, -⟩, -⟩ := hloads
    obtain ⟨hnames, htexts⟩ := hedges.mp hedge
    exact ⟨hdevices.mp hdevice, htexts, namesWithin_of_linksWithin hnames⟩
  · intro hreloadable
    refine ⟨⟨hversion, hdevices.mpr hreloadable.inventory, hedges.mpr ⟨?_, hreloadable.texts⟩,
      hneighbours⟩, rfl⟩
    exact linksWithin_of_namesWithin hlinks hall hreloadable.names

/-! ## Two hubs with one spoke -/

def pushOfVendor (vendor : GoString) : SpokePayload where
  spokeID := str "east"
  cycleAt := ⟨63900000000 * Time.second, none⟩
  devices := [{ plainDevice (str "sw1") with vendor := vendor }]
  edges := []
  outOfScope := []

def spokeWithVendor (vendor : GoString) : Spokes :=
  (∅ : Spokes).insert (str "east") ⟨pushOfVendor vendor, ⟨63900000001 * Time.second, none⟩, 0⟩

theorem spokeWithVendor_accepted {vendor : GoString}
    (hpush : validateSpokePayload .insertion (pushOfVendor vendor) = none) :
    ∀ name entry, (spokeWithVendor vendor).lookup name = some entry →
      validateSpokePayload .insertion entry.payload = none := by
  intro name entry hlookup
  obtain ⟨-, rfl⟩ := Map.lookup_insert_empty.mp hlookup
  exact hpush

theorem shortVendor_reloads :
    (load .insertion (write .insertion ⟨63900000002 * Time.second, none⟩ (snapshotFile 0
      (buildCombinedGraph plainConfig .insertion (fun _ => Time.zero)
        (spokeWithVendor (str "acme"))).1) none).2).1.isOk = true ∧
    Reloadable plainConfig .insertion (fun _ => Time.zero) (spokeWithVendor (str "acme")) := by
  refine ⟨by decide +kernel, ?_⟩
  exact (snapshot_reloads_iff plainConfig rfl .insertion .insertion (fun _ => .insertion)
    (fun _ => Time.zero) (spokeWithVendor (str "acme"))
    (spokeWithVendor_accepted (by decide +kernel)) 0 ⟨63900000002 * Time.second, none⟩ none
    rfl).mp (by rfl)

/-- A vendor of 257 bytes passes the push checks, and the document it ends up in
is not loaded. -/
theorem longVendor_discarded :
    validateSpokePayload .insertion (pushOfVendor (List.replicate 257 0x61)) = none ∧
      (load .insertion (write .insertion ⟨63900000002 * Time.second, none⟩ (snapshotFile 0
        (buildCombinedGraph plainConfig .insertion (fun _ => Time.zero)
          (spokeWithVendor (List.replicate 257 0x61))).1) none).2).1 =
        .error (.invalid [.exceeds ⟨⟨str "device", 0, str "vendor"⟩, none, 256, 257⟩]) := by
  decide +kernel

end TopologyExporter.Federation
