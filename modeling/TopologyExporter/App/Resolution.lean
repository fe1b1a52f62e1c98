import TopologyExporter.App.Synthesize

/-! # What resolution does to a list of observations

The observations come out in order, without those of a forwarding table that point
at a MAC address nobody is known to have. Who has a MAC address is said by the first
LLDP observation that names its neighbour and gives the address with the name, and
otherwise by the ARP tables. The order of the ARP table plays no part if its keys
are in canonical spelling.
-/

namespace TopologyExporter.App

open Go Discovery

/-- The LLDP observation gives the MAC address of its neighbour, in any spelling. -/
def AnnotatedWith (mac : GoString) (edge : Edge) : Prop :=
  edge.discoveryProto = discoveryProtocolLLDP ∧
    ((edge.metadata.lookup metadataKeyPeerChassisMac).bind Net.parseMAC).map
      Net.hardwareAddrString = some mac

instance decidableAnnotatedWith (mac : GoString) (edge : Edge) :
    Decidable (AnnotatedWith mac edge) :=
  inferInstanceAs (Decidable (_ ∧ _))

/-- The neighbour has a name, and it is neither an IP nor a MAC address. -/
def NamesNeighbour (edge : Edge) : Prop :=
  edge.dstDevice ≠ [] ∧ Net.parseIP edge.dstDevice = none ∧ Net.parseMAC edge.dstDevice = none

instance decidableNamesNeighbour (edge : Edge) : Decidable (NamesNeighbour edge) :=
  inferInstanceAs (Decidable (_ ∧ _ ∧ _))

section Identity

variable (rawEdges : List Edge) (ipToID arp : Map GoString GoString)

/-- The device that has a MAC address. -/
def identity (mac : GoString) : Option GoString :=
  ((rawEdges.find? (fun edge => AnnotatedWith mac edge ∧ NamesNeighbour edge)).map
    Edge.dstDevice).or ((arp.lookup mac).bind (fun address => ipToID.lookup address))

/-- The MAC address an observation points at. -/
def pointsAtMAC (edge : Edge) : Option GoString :=
  if (Net.parseIP edge.dstDevice).isSome then none
  else (Net.parseMAC edge.dstDevice).map Net.hardwareAddrString

/-- The device an observation points at, as far as it is known. -/
def destination (edge : Edge) : GoString :=
  if (Net.parseIP edge.dstDevice).isSome then
    (ipToID.lookup edge.dstDevice).getD edge.dstDevice
  else ((pointsAtMAC edge).bind (identity rawEdges ipToID arp)).getD edge.dstDevice

/-- A forwarding table has the MAC address, and no device is known to. -/
def Suppressed (edge : Edge) : Prop :=
  edge.discoveryProto = discoveryProtocolFDB ∧
    ∃ mac, pointsAtMAC edge = some mac ∧ identity rawEdges ipToID arp mac = none

end Identity

section Spec

variable {order : RangeOrder} {rawEdges : List Edge} {ipToID arp : Map GoString GoString}
  {edge : Edge}

theorem chassisIdentity_eq_some_iff {mac name : GoString} :
    chassisIdentity edge = some (mac, name) ↔
      AnnotatedWith mac edge ∧ NamesNeighbour edge ∧ edge.dstDevice = name := by
  unfold chassisIdentity AnnotatedWith NamesNeighbour
  by_cases hproto : edge.discoveryProto = discoveryProtocolLLDP
  · cases hchassis : edge.metadata.lookup metadataKeyPeerChassisMac with
    | none => simp [hproto]
    | some chassisMac =>
        by_cases hname : edge.dstDevice = []
        · simp [hproto, hname]
        · cases hmac : Net.parseMAC chassisMac with
          | none => simp [hproto, hname, hmac]
          | some hw =>
              cases hip : Net.parseIP edge.dstDevice with
              | some ip => simp [hproto, hname, hmac]
              | none =>
                  cases hnamed : Net.parseMAC edge.dstDevice with
                  | some address => simp [hproto, hname, hmac]
                  | none => simp [hproto, hname, hmac]
  · simp [hproto]

theorem find?_chassisIdentity (mac : GoString) :
    ((rawEdges.filterMap chassisIdentity).find? (fun row => row.1 = mac)).map Prod.snd =
      (rawEdges.find? (fun edge => AnnotatedWith mac edge ∧ NamesNeighbour edge)).map
        Edge.dstDevice := by
  have hrow : ∀ edge : Edge, (chassisIdentity edge).any (fun row => row.1 = mac) =
      decide (AnnotatedWith mac edge ∧ NamesNeighbour edge) := by
    intro edge
    rw [Bool.eq_iff_iff, decide_eq_true_eq, Option.any_eq_true]
    constructor
    · intro hidentity
      obtain ⟨⟨address, name⟩, hsome, heq⟩ := hidentity
      obtain ⟨hannotated, hnames, -⟩ := chassisIdentity_eq_some_iff.mp hsome
      exact ⟨of_decide_eq_true heq ▸ hannotated, hnames⟩
    · intro hedge
      exact ⟨(mac, edge.dstDevice), chassisIdentity_eq_some_iff.mpr ⟨hedge.1, hedge.2, rfl⟩,
        decide_eq_true rfl⟩
  rw [List.find?_filterMap]
  simp only [hrow]
  cases hfind : rawEdges.find?
      (fun edge => decide (AnnotatedWith mac edge ∧ NamesNeighbour edge)) with
  | none => rfl
  | some edge =>
      have hfound := List.find?_some hfind
      have hedge := of_decide_eq_true hfound
      rw [Option.bind_some, chassisIdentity_eq_some_iff.mpr ⟨hedge.1, hedge.2, rfl⟩]
      rfl

/-- The keys of the ARP table are MAC addresses in canonical spelling. -/
def CanonicalKeys (arp : Map GoString GoString) : Prop :=
  ∀ mac address, arp.lookup mac = some address →
    (Net.parseMAC mac).map Net.hardwareAddrString = some mac

theorem macIdentity_eq_identity (hcanonical : CanonicalKeys arp) (mac : GoString) :
    macIdentity order rawEdges ipToID arp mac = identity rawEdges ipToID arp mac := by
  rw [macIdentity, identity, find?_chassisIdentity, find?_arpIdentity hcanonical]

/-- An observation is dropped or points at its destination. -/
theorem peerDevice_eq (hcanonical : CanonicalKeys arp) (edge : Edge) :
    peerDevice order rawEdges ipToID arp edge = none ∧ Suppressed rawEdges ipToID arp edge ∨
      peerDevice order rawEdges ipToID arp edge = some (destination rawEdges ipToID arp edge) ∧
        ¬ Suppressed rawEdges ipToID arp edge := by
  unfold peerDevice destination Suppressed pointsAtMAC
  by_cases hip : (Net.parseIP edge.dstDevice).isSome
  · simp [hip]
  · cases hmac : Net.parseMAC edge.dstDevice with
    | none => simp [hip]
    | some hw =>
        simp only [hip, macIdentity_eq_identity hcanonical]
        cases hidentity : identity rawEdges ipToID arp (Net.hardwareAddrString hw) with
        | some id => simp [hidentity]
        | none =>
            by_cases hfdb : edge.discoveryProto = discoveryProtocolFDB
            · simp [hfdb, hidentity]
            · simp [hfdb, hidentity]

theorem resolved_eq_none_iff (hcanonical : CanonicalKeys arp) :
    resolved order rawEdges ipToID arp edge = none ↔ Suppressed rawEdges ipToID arp edge := by
  rw [resolved, Option.map_eq_none_iff]
  rcases @peerDevice_eq order rawEdges ipToID arp hcanonical edge with ⟨hnone, hdropped⟩ |
    ⟨hsome, hkept⟩
  · exact iff_of_true hnone hdropped
  · rw [hsome]
    exact iff_of_false (Option.some_ne_none _) hkept

theorem resolved_eq_some (hcanonical : CanonicalKeys arp) {kept : Edge}
    (hkept : resolved order rawEdges ipToID arp edge = some kept) :
    kept = { edge with
      dstDevice := destination rawEdges ipToID arp edge
      dstPort :=
        peerPort order rawEdges ipToID arp edge (destination rawEdges ipToID arp edge) } := by
  obtain ⟨device, hdevice, rfl⟩ := Option.map_eq_some_iff.mp hkept
  rcases @peerDevice_eq order rawEdges ipToID arp hcanonical edge with ⟨hnone, -⟩ | ⟨hsome, -⟩
  · rw [hnone] at hdevice
    cases hdevice
  · rw [hsome] at hdevice
    cases hdevice
    rfl

end Spec

/-- The observations come out in order, without exactly the suppressed ones. One
that comes out differs in its remote device, which is the one it points at, and in
its remote port if it is from a forwarding table and had none. The order of the ARP
table plays no part. -/
theorem synthesizeEdges_resolves (order : RangeOrder) (rawEdges : List Edge)
    (ipToID arp : Map GoString GoString) (hcanonical : CanonicalKeys arp) :
    synthesizeEdges order rawEdges ipToID arp =
        rawEdges.filterMap (resolved order rawEdges ipToID arp) ∧
      (∀ edge ∈ rawEdges, resolved order rawEdges ipToID arp edge = none ↔
        Suppressed rawEdges ipToID arp edge) ∧
      (∀ edge ∈ rawEdges, ∀ kept, resolved order rawEdges ipToID arp edge = some kept →
        kept = { edge with
          dstDevice := destination rawEdges ipToID arp edge
          dstPort := kept.dstPort } ∧
        (kept.dstPort = edge.dstPort ∨
          edge.discoveryProto = discoveryProtocolFDB ∧ edge.dstPort = [])) ∧
      ∀ order', synthesizeEdges order' rawEdges ipToID arp =
        synthesizeEdges order rawEdges ipToID arp := by
  refine ⟨synthesizeEdges_eq order rawEdges ipToID arp, ?_, ?_, ?_⟩
  · intro edge _
    exact resolved_eq_none_iff hcanonical
  · intro edge _ kept hkept
    have hresolved := resolved_eq_some hcanonical hkept
    refine ⟨by rw [hresolved], ?_⟩
    rw [hresolved]
    simp only [peerPort]
    split
    next hfdb => exact Or.inr hfdb
    next => exact Or.inl rfl
  · intro order'
    rw [synthesizeEdges_eq, synthesizeEdges_eq]
    apply congrArg (fun resolve => rawEdges.filterMap resolve)
    apply resolved_congr
    intro mac
    rw [macIdentity_eq_identity hcanonical, macIdentity_eq_identity hcanonical]

/-! ## Some observations -/

/-- An observation on port `e1` of `sw1`, with the MAC address of the neighbour if given. -/
def observed (proto dstDevice : GoString) (chassisMac : Option GoString) : Edge where
  srcDevice := str "sw1"
  srcPort := str "e1"
  dstDevice := dstDevice
  dstPort := []
  discoveryProto := proto
  direction := directionUnidirectional
  confidence := confidenceMedium
  adjacency := adjacencyDirect
  precedenceRank := 4
  linkKind := linkKindEthernet
  observedAt := Time.zero
  metadata := chassisMac.elim ∅ (fun mac => AList.insert metadataKeyPeerChassisMac mac ∅)

/-- An ARP table with one row. -/
def oneRow : Map GoString GoString := AList.insert (str "02:00:00:00:00:05") (str "10.0.0.5") ∅

theorem canonicalKeys_oneRow : CanonicalKeys oneRow := by
  intro mac address hrow
  obtain ⟨rfl, -⟩ := Map.lookup_insert_empty.mp hrow
  decide

/-- The table resolves the first address, and nothing the second. -/
theorem known_address_kept :
    (synthesizeEdges .insertion
      [observed discoveryProtocolFDB (str "02:00:00:00:00:05") none,
        observed discoveryProtocolFDB (str "02:00:00:00:00:06") none]
      (AList.insert (str "10.0.0.5") (str "sw5") ∅) oneRow).map Edge.dstDevice = [str "sw5"] ∧
    Suppressed [observed discoveryProtocolFDB (str "02:00:00:00:00:05") none,
        observed discoveryProtocolFDB (str "02:00:00:00:00:06") none]
      (AList.insert (str "10.0.0.5") (str "sw5") ∅) oneRow
      (observed discoveryProtocolFDB (str "02:00:00:00:00:06") none) := by
  obtain ⟨-, hdropped, -, -⟩ := synthesizeEdges_resolves .insertion
    [observed discoveryProtocolFDB (str "02:00:00:00:00:05") none,
      observed discoveryProtocolFDB (str "02:00:00:00:00:06") none]
    (AList.insert (str "10.0.0.5") (str "sw5") ∅) oneRow canonicalKeys_oneRow
  exact ⟨by decide, (hdropped _ (by simp)).mp (by decide)⟩

/-- An eight-byte MAC address reads as an IP address too, and is then kept although
nobody has it. A neighbour without a name does not count as the one who has a MAC
address, although its name is neither an IP nor a MAC address. -/
theorem long_address_kept_and_unnamed_skipped :
    ((Net.parseMAC (str "02:00:00:ff:fe:00:00:05")).isSome ∧
      synthesizeEdges .insertion
          [observed discoveryProtocolFDB (str "02:00:00:ff:fe:00:00:05") none] ∅ ∅ =
        [observed discoveryProtocolFDB (str "02:00:00:ff:fe:00:00:05") none]) ∧
    ([observed discoveryProtocolLLDP [] (some (str "02:00:00:00:00:05")),
        observed discoveryProtocolLLDP (str "sw5") (some (str "02:00:00:00:00:05"))].find?
      (fun edge => AnnotatedWith (str "02:00:00:00:00:05") edge ∧
        Net.parseIP edge.dstDevice = none ∧ Net.parseMAC edge.dstDevice = none)).map
          Edge.dstDevice = some [] ∧
    (synthesizeEdges .insertion
      [observed discoveryProtocolLLDP [] (some (str "02:00:00:00:00:05")),
        observed discoveryProtocolLLDP (str "sw5") (some (str "02:00:00:00:00:05")),
        observed discoveryProtocolFDB (str "02:00:00:00:00:05") none] ∅ ∅).map Edge.dstDevice =
      [[], str "sw5", str "sw5"] := by
  refine ⟨⟨?_, ?_⟩, ?_, ?_⟩
  · decide
  · decide
  · decide
  · decide

end TopologyExporter.App
