import TopologyExporter.Discovery.Bgp
import TopologyExporter.Discovery.Cdp
import TopologyExporter.Discovery.Lldp
import TopologyExporter.Discovery.Ospf

/-! # The discovery scope

An allow-list restricts discovery to some networks. A neighbour with an address
outside of them is recorded as out of scope and gives no edge; a neighbour
without an address gives none either, because its scope cannot be checked. Each
of the four neighbour walks applies this rule to its own rows, after filters of
its own.
-/

namespace TopologyExporter.Discovery

open Go

/-- The rule: what the allow-list makes of a row, given what becomes of the row
without one. -/
def applyScope (allowedNets : List Net.IPNet) (neighbourIP : Option Net.IP)
    (record : OutOfScopeNeighbour) (outcome : RowOutcome) : RowOutcome :=
  match outcome, neighbourIP with
  | .edge edge, some ip => if outOfScope ip allowedNets then .outOfScope record else .edge edge
  | .edge edge, none =>
      if allowedNets ≠ [] ∧ isCatchAll allowedNets = false then .dropped else .edge edge
  | other, _ => other

@[simp] theorem outOfScope_nil (ip : Net.IP) : outOfScope ip [] = false := rfl

theorem Lldp.rowOutcome_eq_applyScope (localDevice : GoString) (locPorts : Map Int Lldp.LocPort)
    (allowedNets : List Net.IPNet) (now : Time) (key : Lldp.RemKey) (rem : Lldp.RemEntry) :
    Lldp.rowOutcome localDevice locPorts allowedNets now key rem =
      applyScope allowedNets (Lldp.extractChassisIP rem.chassisSubtype rem.chassisID)
        (newOutOfScopeNeighbour discoveryProtocolLLDP localDevice
          (sanitisePortName (Lldp.resolveLocalPort key.portNum locPorts))
          (Lldp.resolveRemDevice rem) now)
        (Lldp.rowOutcome localDevice locPorts [] now key rem) := by
  unfold Lldp.rowOutcome
  by_cases hdecodes : Lldp.decodes rem
  · by_cases hresolved : Lldp.resolveRemDevice rem = [] ∨ Lldp.resolveRemPort rem = []
    · simp only [hdecodes, hresolved, not_true_eq_false, if_true, if_false]
      rfl
    · cases hip : Lldp.extractChassisIP rem.chassisSubtype rem.chassisID with
      | none => simp [hdecodes, hresolved, applyScope]
      | some ip =>
          cases hunspecified : Net.isUnspecified ip with
          | true => simp [hdecodes, hresolved, hunspecified, applyScope]
          | false => simp [hdecodes, hresolved, hunspecified, applyScope]
  · simp only [hdecodes, not_false_eq_true, if_true]
    rfl

theorem Cdp.rowOutcome_eq_applyScope (localDevice : GoString) (ifNames : Map Int GoString)
    (allowedNets : List Net.IPNet) (now : Time) (key : Cdp.CacheKey) (entry : Cdp.CacheEntry) :
    Cdp.rowOutcome localDevice ifNames allowedNets now key entry =
      applyScope allowedNets (Cdp.cdpNeighborIP entry)
        (newOutOfScopeNeighbour discoveryProtocolCDP localDevice
          (interfaceName ifNames key.ifIndex) entry.deviceID now)
        (Cdp.rowOutcome localDevice ifNames [] now key entry) := by
  unfold Cdp.rowOutcome
  by_cases hnamed : entry.deviceID = [] ∨ entry.devPort = []
  · simp only [hnamed, if_true]
    rfl
  · cases hip : Cdp.cdpNeighborIP entry with
    | none => simp [hnamed, applyScope]
    | some ip => simp [hnamed, applyScope]

/-- The address of a peer, if it has one. -/
def Bgp.peerIP (peer : Bgp.PeerRecord) : Option Net.IP :=
  if peer.ip = [] then none else some peer.ip

theorem Bgp.rowOutcome_eq_applyScope (localDevice : GoString) (allowedNets : List Net.IPNet)
    (now : Time) (peer : Bgp.PeerRecord) :
    Bgp.rowOutcome localDevice allowedNets now peer =
      applyScope allowedNets (Bgp.peerIP peer)
        (newOutOfScopeNeighbour (str "bgp") localDevice [] (Net.ipString peer.ip) now)
        (Bgp.rowOutcome localDevice [] now peer) := by
  unfold Bgp.rowOutcome Bgp.peerIP
  split_ifs <;> simp_all [applyScope]

def Ospf.nbrIP? (row : Ospf.NbrRow) : Option Net.IP :=
  if row.nbrIP = [] then none else some row.nbrIP

theorem Ospf.rowOutcome_eq_applyScope (localDevice : GoString) (allowedNets : List Net.IPNet)
    (now : Time) (row : Ospf.NbrRow) :
    Ospf.rowOutcome localDevice allowedNets now row =
      applyScope allowedNets (Ospf.nbrIP? row)
        (newOutOfScopeNeighbour (str "ospf") localDevice [] (Net.ipString row.nbrIP) now)
        (Ospf.rowOutcome localDevice [] now row) := by
  unfold Ospf.rowOutcome Ospf.nbrIP?
  split_ifs <;> simp_all [applyScope]

/-! ## Whole tables -/

/-- The builder gives one outcome for each row. An edge comes from a row whose
neighbour is in an allowed network, and a row whose neighbour is in none yields
its own record as out of scope if only the allow-list stands between it and an
edge. -/
structure KeepsScope {Row : Type} (rows : List Row) (neighbourIP : Row → Option Net.IP)
    (record : Row → OutOfScopeNeighbour) (build : List Net.IPNet → List RowOutcome)
    (allowedNets : List Net.IPNet) : Prop where
  length : (build allowedNets).length = rows.length
  edge : ∀ (index : Nat) (edge : Edge), (build allowedNets)[index]? = some (.edge edge) →
    ∃ row ip, rows[index]? = some row ∧ neighbourIP row = some ip ∧
      ∃ net ∈ allowedNets, Net.contains net ip = true
  excluded : ∀ (index : Nat) (row : Row) (ip : Net.IP) (edge : Edge), rows[index]? = some row →
    neighbourIP row = some ip → (build [])[index]? = some (.edge edge) →
    (∀ net ∈ allowedNets, Net.contains net ip = false) →
    (build allowedNets)[index]? = some (.outOfScope (record row))

/-- The prefix has length 0, so that the network has all addresses of its family. -/
def ZeroLength (net : Net.IPNet) : Prop :=
  (Net.maskSize net.mask).1 = 0 ∧ (Net.maskSize net.mask).2 ≠ 0

instance decidableZeroLength (net : Net.IPNet) : Decidable (ZeroLength net) :=
  inferInstanceAs (Decidable (_ ∧ _))

section Rows

variable {allowedNets : List Net.IPNet}

theorem isCatchAll_eq_false (hprefixes : ∀ net ∈ allowedNets, ¬ ZeroLength net) :
    isCatchAll allowedNets = false := by
  rw [isCatchAll, List.any_eq_false]
  intro net hnet
  simpa [ZeroLength] using hprefixes net hnet

theorem outOfScope_eq_false (hnets : allowedNets ≠ []) {ip : Net.IP} :
    outOfScope ip allowedNets = false ↔ ∃ net ∈ allowedNets, Net.contains net ip = true := by
  simp [outOfScope, ipInNets, hnets]

theorem applyScope_edge (hnets : allowedNets ≠ [])
    (hprefixes : ∀ net ∈ allowedNets, ¬ ZeroLength net) {neighbourIP : Option Net.IP}
    {record : OutOfScopeNeighbour} {outcome : RowOutcome} {edge : Edge}
    (hedge : applyScope allowedNets neighbourIP record outcome = .edge edge) :
    ∃ ip, neighbourIP = some ip ∧ ∃ net ∈ allowedNets, Net.contains net ip = true := by
  cases outcome with
  | edge found =>
      cases neighbourIP with
      | some ip =>
          simp only [applyScope] at hedge
          split_ifs at hedge with hscope
          exact ⟨ip, rfl, (outOfScope_eq_false hnets).mp (eq_false_of_ne_true hscope)⟩
      | none =>
          simp only [applyScope, hnets, ne_eq, not_false_eq_true, isCatchAll_eq_false hprefixes,
            and_self, if_true] at hedge
          cases hedge
  | rejected | dropped | outOfScope => cases hedge

theorem applyScope_excluded (hnets : allowedNets ≠ []) {ip : Net.IP}
    (houtside : ∀ net ∈ allowedNets, Net.contains net ip = false)
    (record : OutOfScopeNeighbour) (edge : Edge) :
    applyScope allowedNets (some ip) record (.edge edge) = .outOfScope record := by
  have hscope : outOfScope ip allowedNets = true := by
    rw [← Bool.not_eq_false, outOfScope_eq_false hnets]
    rintro ⟨net, hnet, hcontains⟩
    rw [houtside net hnet] at hcontains
    cases hcontains
  simp [applyScope, hscope]

/-- A builder that applies the rule row by row keeps to the allow-list. -/
theorem keepsScope_map {Row : Type} (rows : List Row) {neighbourIP : Row → Option Net.IP}
    {record : Row → OutOfScopeNeighbour} {outcome : List Net.IPNet → Row → RowOutcome}
    (hrule : ∀ row, outcome allowedNets row =
      applyScope allowedNets (neighbourIP row) (record row) (outcome [] row))
    (hnets : allowedNets ≠ []) (hprefixes : ∀ net ∈ allowedNets, ¬ ZeroLength net) :
    KeepsScope rows neighbourIP record (fun nets => rows.map (outcome nets)) allowedNets where
  length := List.length_map _
  edge := by
    intro index edge hedge
    rw [List.getElem?_map, Option.map_eq_some_iff] at hedge
    obtain ⟨row, hrow, hedge⟩ := hedge
    rw [hrule] at hedge
    obtain ⟨ip, hip, hcontains⟩ := applyScope_edge hnets hprefixes hedge
    exact ⟨row, ip, hrow, hip, hcontains⟩
  excluded := by
    intro index row ip edge hrow hip hedge houtside
    rw [List.getElem?_map, hrow, Option.map_some, Option.some.injEq] at hedge
    rw [List.getElem?_map, hrow, Option.map_some, hrule, hip, hedge,
      applyScope_excluded hnets houtside]

end Rows

/-- All four builders keep to an allow-list that is not empty and has no prefix of
length 0, whatever the rows of the table are. The rows of both kinds of BGP peer
tables go through the same builder. -/
theorem builders_keep_scope (allowedNets : List Net.IPNet) (hnets : allowedNets ≠ [])
    (hprefixes : ∀ net ∈ allowedNets, ¬ ZeroLength net) (order : RangeOrder)
    (localDevice : GoString) (now : Time) :
    (∀ (locPorts : Map Int Lldp.LocPort) (remEntries : Map Lldp.RemKey Lldp.RemEntry),
      KeepsScope (remEntries.range order 0)
        (fun row => Lldp.extractChassisIP row.2.chassisSubtype row.2.chassisID)
        (fun row => newOutOfScopeNeighbour discoveryProtocolLLDP localDevice
          (sanitisePortName (Lldp.resolveLocalPort row.1.portNum locPorts))
          (Lldp.resolveRemDevice row.2) now)
        (fun nets => Lldp.buildEdges order localDevice locPorts remEntries nets now)
        allowedNets) ∧
    (∀ (ifNames : Map Int GoString) (entries : Map Cdp.CacheKey Cdp.CacheEntry),
      KeepsScope (entries.range order 0) (fun row => Cdp.cdpNeighborIP row.2)
        (fun row => newOutOfScopeNeighbour discoveryProtocolCDP localDevice
          (interfaceName ifNames row.1.ifIndex) row.2.deviceID now)
        (fun nets => Cdp.buildEdges order localDevice ifNames entries nets now) allowedNets) ∧
    (∀ peers : Map GoString Bgp.PeerRecord,
      KeepsScope (peers.range order 0) (fun row => Bgp.peerIP row.2)
        (fun row => newOutOfScopeNeighbour (str "bgp") localDevice [] (Net.ipString row.2.ip) now)
        (fun nets => Bgp.buildPeerEdges order localDevice peers nets now) allowedNets) ∧
    ∀ rows : Map GoString Ospf.NbrRow,
      KeepsScope (rows.range order 0) (fun row => Ospf.nbrIP? row.2)
        (fun row => newOutOfScopeNeighbour (str "ospf") localDevice []
          (Net.ipString row.2.nbrIP) now)
        (fun nets => Ospf.buildEdges order localDevice rows nets now) allowedNets := by
  refine ⟨fun locPorts remEntries => ?_, fun ifNames entries => ?_, fun peers => ?_,
    fun rows => ?_⟩
  · exact keepsScope_map _ (fun row => Lldp.rowOutcome_eq_applyScope localDevice locPorts
      allowedNets now row.1 row.2) hnets hprefixes
  · exact keepsScope_map _ (fun row => Cdp.rowOutcome_eq_applyScope localDevice ifNames
      allowedNets now row.1 row.2) hnets hprefixes
  · exact keepsScope_map _ (fun row => Bgp.rowOutcome_eq_applyScope localDevice allowedNets now
      row.2) hnets hprefixes
  · exact keepsScope_map _ (fun row => Ospf.rowOutcome_eq_applyScope localDevice allowedNets now
      row.2) hnets hprefixes

/-- The network 10.0.0.0/8. -/
def tenNet : Net.IPNet := ⟨[10, 0, 0, 0], [255, 0, 0, 0]⟩

/-- An OSPF table with one neighbour in that network and one outside of it. -/
def twoNeighbours : Map GoString Ospf.NbrRow :=
  AList.insert (str "10.0.0.2.0") ⟨[10, 0, 0, 2], Ospf.stateFull⟩
    (AList.insert (str "192.0.2.2.0") ⟨[192, 0, 2, 2], Ospf.stateFull⟩ ∅)

theorem second_neighbour_out_of_scope :
    ¬ ZeroLength tenNet ∧
      (Ospf.buildEdges .insertion (str "r1") twoNeighbours [tenNet] Time.zero)[1]? =
        some (.outOfScope (newOutOfScopeNeighbour (str "ospf") (str "r1") []
          (Net.ipString [192, 0, 2, 2]) Time.zero)) := by
  have hpositive : ¬ ZeroLength tenNet := by decide
  refine ⟨hpositive, (builders_keep_scope [tenNet] (by simp) (by simpa using hpositive) .insertion
    (str "r1") Time.zero).2.2.2 twoNeighbours |>.excluded 1
      (str "192.0.2.2.0", ⟨[192, 0, 2, 2], Ospf.stateFull⟩) [192, 0, 2, 2]
      (Ospf.newEdge (str "r1") [192, 0, 2, 2] Time.zero) rfl rfl rfl ?_⟩
  decide

end TopologyExporter.Discovery
