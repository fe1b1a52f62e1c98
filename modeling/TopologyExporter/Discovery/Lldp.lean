import TopologyExporter.Discovery.Walk

/-! # LLDP neighbours

The walk of the LLDP local port and remote tables. The bytes of a chassis or
port identifier mean different things for different subtypes, so the subtype
column of a row is read together with the identifier column.
-/

namespace TopologyExporter.Discovery.Lldp

open Go Utf8 Strconv

def oidLocPortTable : GoString := str "1.0.8802.1.1.2.1.3.7"
def oidRemTable : GoString := str "1.0.8802.1.1.2.1.4.1"
def precedenceRank : Int := 2

def portSubtypeMACAddress : Int := 3
def portSubtypeNetworkAddress : Int := 4
def chassisSubtypeMACAddress : Int := 4
def chassisSubtypeNetworkAddress : Int := 5

def colLocPortIDSubtype : Int := 2
def colLocPortID : Int := 3
def colLocPortDesc : Int := 4

def colRemChassisIDSubtype : Int := 4
def colRemChassisID : Int := 5
def colRemPortIDSubtype : Int := 6
def colRemPortID : Int := 7
def colRemPortDesc : Int := 8
def colRemSysName : Int := 9

structure LocPort where
  idSubtype : Int := 0
  id : List UInt8 := []
  desc : GoString := []

structure RemKey where
  portNum : Int
  remIndex : Int
deriving DecidableEq

structure RemEntry where
  chassisSubtype : Int := 0
  chassisID : List UInt8 := []
  portSubtype : Int := 0
  portID : List UInt8 := []
  portDesc : GoString := []
  sysName : GoString := []

/-! ## Reading the tables -/

def locPortRow (pdu : Pdu) : Option (Int × (LocPort → LocPort)) := do
  let suffix ← trimOIDPrefix pdu.name (str ".1.0.8802.1.1.2.1.3.7.1.")
  let (col, rest) ← splitOIDComponent suffix
  let portNum ← atoi rest
  if col = colLocPortIDSubtype then
    let subtype ← pduIntStrict pdu
    some (portNum, fun port => { port with idSubtype := subtype })
  else if col = colLocPortID then
    some (portNum, fun port => { port with id := pduBytes pdu })
  else if col = colLocPortDesc then
    some (portNum, fun port => { port with desc := pduString pdu })
  else some (portNum, id)

def walkLocPorts (agent : Agent) : Except WalkError (Map Int LocPort) := do
  let pdus ← agent.bulkWalk oidLocPortTable
  return Map.updateRows {} ∅ (pdus.filterMap locPortRow)

def remColumn (col : Int) (pdu : Pdu) (entry : RemEntry) : RemEntry :=
  if col = colRemChassisIDSubtype then { entry with chassisSubtype := pduInt pdu }
  else if col = colRemChassisID then { entry with chassisID := pduBytes pdu }
  else if col = colRemPortIDSubtype then { entry with portSubtype := pduInt pdu }
  else if col = colRemPortID then { entry with portID := pduBytes pdu }
  else if col = colRemPortDesc then { entry with portDesc := pduString pdu }
  else if col = colRemSysName then { entry with sysName := normaliseName (pduString pdu) }
  else entry

/-- The row index is `col.timeMark.portNum.remIndex`; the time mark is skipped. -/
def remRow (pdu : Pdu) : Option (RemKey × (RemEntry → RemEntry)) := do
  let suffix ← trimOIDPrefix pdu.name (str ".1.0.8802.1.1.2.1.4.1.1.")
  let (col, rest) ← splitOIDComponent suffix
  let (_, rest) ← splitOIDComponent rest
  let (portNum, remStr) ← splitOIDComponent rest
  let remIndex ← atoi remStr
  some (⟨portNum, remIndex⟩, remColumn col pdu)

def walkRemEntries (agent : Agent) : Except WalkError (Map RemKey RemEntry × Bool) := do
  let pdus ← agent.bulkWalk oidRemTable
  return (Map.updateRows {} ∅ (pdus.filterMap remRow), !pdus.isEmpty)

/-! ## Identifiers -/

/-- The address in a network-address identifier: a family byte, then the address. -/
def extractChassisIP (subtype : Int) (raw : List UInt8) : Option Net.IP :=
  if subtype ≠ chassisSubtypeNetworkAddress then none
  else match raw with
    | 1 :: address => if address.length = 4 then some address else none
    | 2 :: address => if address.length = 16 then some address else none
    | _ => none

def fmtMAC (raw : List UInt8) : GoString :=
  if raw.length ≠ 6 then hexEncode raw else Net.hardwareAddrString raw

def fmtNetAddr (raw : List UInt8) : GoString :=
  match extractChassisIP chassisSubtypeNetworkAddress raw with
  | some ip => Net.ipString ip
  | none => hexEncode raw

/-- Decodes an identifier whose subtypes for hardware and network addresses are given. -/
def decodeID (macSubtype netSubtype subtype : Int) (raw : List UInt8) : GoString :=
  if raw = [] then []
  else if subtype = macSubtype then fmtMAC raw
  else if subtype = netSubtype then fmtNetAddr raw
  else if validString (Strings.trimRight 0 raw) then Strings.trimRight 0 raw
  else hexEncode raw

def decodePortID : Int → List UInt8 → GoString :=
  decodeID portSubtypeMACAddress portSubtypeNetworkAddress

def decodeChassisID : Int → List UInt8 → GoString :=
  decodeID chassisSubtypeMACAddress chassisSubtypeNetworkAddress

def resolveLocalPort (portNum : Int) (locPorts : Map Int LocPort) : GoString :=
  match locPorts.lookup portNum with
  | none => itoa portNum
  | some port =>
      if decodePortID port.idSubtype port.id ≠ [] then decodePortID port.idSubtype port.id
      else if port.desc ≠ [] then port.desc
      else itoa portNum

def resolveRemDevice (rem : RemEntry) : GoString :=
  if rem.sysName ≠ [] then rem.sysName else decodeChassisID rem.chassisSubtype rem.chassisID

def resolveRemPort (rem : RemEntry) : GoString :=
  let decoded := decodePortID rem.portSubtype rem.portID
  sanitisePortName (if decoded = [] then rem.portDesc else decoded)

/-! ## Building edges -/

def chassisAddrMalformed (raw : List UInt8) : Prop :=
  raw.length < 2 ∨ (raw.head? = some 1 ∧ raw.length ≠ 5) ∨
    (raw.head? = some 2 ∧ raw.length ≠ 17) ∨ (raw.head? ≠ some 1 ∧ raw.head? ≠ some 2)

instance (raw : List UInt8) : Decidable (chassisAddrMalformed raw) :=
  inferInstanceAs (Decidable (_ ∨ _ ∨ _ ∨ _))

/-- The identifiers of a row fit their subtypes. -/
def decodes (rem : RemEntry) : Prop :=
  (1 ≤ rem.chassisSubtype ∧ rem.chassisSubtype ≤ 7) ∧
    (1 ≤ rem.portSubtype ∧ rem.portSubtype ≤ 7) ∧
    ¬ (rem.chassisSubtype = chassisSubtypeMACAddress ∧ rem.chassisID.length ≠ 6) ∧
    ¬ (rem.chassisSubtype = chassisSubtypeNetworkAddress ∧ chassisAddrMalformed rem.chassisID) ∧
    ¬ (rem.portSubtype = portSubtypeMACAddress ∧ rem.portID.length ≠ 6) ∧
    rem.chassisID ≠ [] ∧ rem.portID ≠ []

instance (rem : RemEntry) : Decidable (decodes rem) :=
  inferInstanceAs (Decidable (_ ∧ _ ∧ _ ∧ _ ∧ _ ∧ _ ∧ _))

/-- The chassis address is recorded when the peer also gave a name, so that
forwarding table entries can be resolved to that name. -/
def edgeMetadata (rem : RemEntry) : Map GoString GoString :=
  if rem.chassisSubtype = chassisSubtypeMACAddress ∧ rem.sysName ≠ [] then
    AList.insert metadataKeyPeerChassisMac (fmtMAC rem.chassisID) ∅
  else ∅

def newEdge (localDevice localPort : GoString) (rem : RemEntry) (now : Time) : Edge :=
  { srcDevice := localDevice
    srcPort := localPort
    dstDevice := resolveRemDevice rem
    dstPort := resolveRemPort rem
    discoveryProto := discoveryProtocolLLDP
    direction := directionUnidirectional
    confidence := confidenceHigh
    adjacency := adjacencyDirect
    precedenceRank := precedenceRank
    linkKind := linkKindEthernet
    observedAt := now
    metadata := edgeMetadata rem }

def rowOutcome (localDevice : GoString) (locPorts : Map Int LocPort)
    (allowedNets : List Net.IPNet) (now : Time) (key : RemKey) (rem : RemEntry) : RowOutcome :=
  let localPort := sanitisePortName (resolveLocalPort key.portNum locPorts)
  if ¬ decodes rem then .rejected
  else if resolveRemDevice rem = [] ∨ resolveRemPort rem = [] then .dropped
  else match extractChassisIP rem.chassisSubtype rem.chassisID with
    | some remIP =>
        if Net.isUnspecified remIP then .dropped
        else if outOfScope remIP allowedNets then
          .outOfScope (newOutOfScopeNeighbour discoveryProtocolLLDP localDevice localPort
            (resolveRemDevice rem) now)
        else .edge (newEdge localDevice localPort rem now)
    | none =>
        -- without an address the scope cannot be checked
        if allowedNets ≠ [] ∧ isCatchAll allowedNets = false then .dropped
        else .edge (newEdge localDevice localPort rem now)

def buildEdges (order : RangeOrder) (localDevice : GoString) (locPorts : Map Int LocPort)
    (remEntries : Map RemKey RemEntry) (allowedNets : List Net.IPNet) (now : Time) :
    List RowOutcome :=
  (remEntries.range order 0).map (fun (key, rem) =>
    rowOutcome localDevice locPorts allowedNets now key rem)

def walk (agent : Agent) (order : RangeOrder) (localDevice : GoString)
    (allowedNets : List Net.IPNet) (now : Time) : Except WalkError WalkResult := do
  let locPorts ← walkLocPorts agent
  let (remEntries, hadPDUs) ← walkRemEntries agent
  let rows := buildEdges order localDevice locPorts remEntries allowedNets now
  return collectRows (rowsOutcome (str "lldp") hadPDUs rows) rows

/-! ## The edges of an LLDP walk -/

theorem validString_decodeID (macSubtype netSubtype subtype : Int) (raw : List UInt8) :
    validString (decodeID macSubtype netSubtype subtype raw) = true := by
  have hhex := valid_of_graphic (graphic_hexEncode raw)
  unfold decodeID
  split_ifs with hempty hmac hnet hvalid
  · rfl
  · unfold fmtMAC
    split_ifs
    · exact hhex
    · exact valid_of_graphic (Net.graphic_hardwareAddrString raw)
  · unfold fmtNetAddr
    split
    next ip _ => exact valid_of_graphic (Net.graphic_ipString ip)
    next => exact hhex
  · exact hvalid
  · exact hhex

theorem remRow_column {pdu : Pdu} {row : RemKey × (RemEntry → RemEntry)}
    (hrow : remRow pdu = some row) : ∃ col, row.2 = remColumn col pdu := by
  simp only [remRow, Option.bind_eq_bind, Option.bind_eq_some_iff, Option.some.injEq] at hrow
  obtain ⟨_, _, column, _, _, _, _, _, _, _, hrow⟩ := hrow
  exact ⟨column.1, congrArg Prod.snd hrow.symm⟩

theorem remColumn_sysName (col : Int) (pdu : Pdu) (rem : RemEntry) :
    (remColumn col pdu rem).sysName = rem.sysName ∨
      (remColumn col pdu rem).sysName = normaliseName (pduString pdu) := by
  unfold remColumn
  split_ifs <;> simp

theorem validString_sysName {agent : Agent} {remEntries : Map RemKey RemEntry} {hadPDUs : Bool}
    (hwalk : walkRemEntries agent = .ok (remEntries, hadPDUs)) :
    ∀ key rem, remEntries.lookup key = some rem → validString rem.sysName = true := by
  obtain ⟨pdus, -, hentries⟩ := bind_eq_ok.mp hwalk
  cases hentries
  refine Map.updateRows_forall (fun rem : RemEntry => validString rem.sysName = true) rfl ?_
    (by simp)
  intro row hrow rem hrem
  obtain ⟨pdu, -, hdecode⟩ := List.mem_filterMap.mp hrow
  obtain ⟨col, hcolumn⟩ := remRow_column hdecode
  rw [hcolumn]
  rcases remColumn_sysName col pdu rem with hsame | hname
  · rwa [hsame]
  · rw [hname]
    exact (clean_normaliseName _).valid

theorem plain_fmtMAC {raw : List UInt8} (hlength : raw.length = 6) : Plain 1024 (fmtMAC raw) := by
  rw [fmtMAC, if_neg (by simpa using hlength)]
  refine ⟨Net.graphic_hardwareAddrString raw, ?_⟩
  have hparts : ∀ part ∈ raw.map (fun byte => hexEncode [byte]), part.length ≤ 2 := by
    intro part hpart
    obtain ⟨byte, -, rfl⟩ := List.mem_map.mp hpart
    rw [hexEncode_length, List.length_singleton]
  have hjoin := Net.join_length 0x3A hparts
  rw [List.length_map, hlength] at hjoin
  exact hjoin.trans (by decide)

variable {rem : RemEntry} {localDevice : GoString} {now : Time}

theorem publishable_edgeMetadata (hdecodes : decodes rem) :
    PublishableMetadata (edgeMetadata rem) := by
  unfold edgeMetadata
  split_ifs with hmac
  · have hlength : rem.chassisID.length = 6 := by
      by_contra hlength
      exact hdecodes.2.2.1 ⟨hmac.1, hlength⟩
    exact publishableMetadata_empty.insert (by decide) (by decide)
      (plain_fmtMAC hlength)
  · exact publishableMetadata_empty

/-- An edge of the walk comes from a row that decoded. -/
theorem rowOutcome_edge {locPorts : Map Int LocPort} {allowedNets : List Net.IPNet} {key : RemKey}
    {edge : Edge} (hedge : rowOutcome localDevice locPorts allowedNets now key rem = .edge edge) :
    decodes rem ∧ resolveRemDevice rem ≠ [] ∧ resolveRemPort rem ≠ [] ∧
      edge = newEdge localDevice (sanitisePortName (resolveLocalPort key.portNum locPorts))
        rem now := by
  simp only [rowOutcome] at hedge
  split at hedge
  · cases hedge
  next hdecodes =>
      split at hedge
      · cases hedge
      next hempty =>
          rw [not_or] at hempty
          refine ⟨not_not.mp hdecodes, hempty.1, hempty.2, ?_⟩
          split at hedge
          · split_ifs at hedge
            exact (RowOutcome.edge.inj hedge).symm
          · split_ifs at hedge
            exact (RowOutcome.edge.inj hedge).symm

theorem walkedEdge_newEdge {localPort : GoString} (hport : Clean localPort)
    (hname : validString rem.sysName = true) (hdecodes : decodes rem) :
    WalkedEdge localDevice (newEdge localDevice localPort rem now) where
  srcDevice_eq := rfl
  srcPort := hport
  dstDevice := by
    simp only [newEdge, resolveRemDevice]
    split_ifs
    · exact hname
    · exact validString_decodeID ..
  dstPort := clean_sanitisePortName _
  discoveryProto := show Plain 16 discoveryProtocolLLDP by decide
  linkKind := show Plain 16 linkKindEthernet by decide
  metadata := publishable_edgeMetadata hdecodes
  ranked := show (discoveryProtocolLLDP, precedenceRank) ∈ protocolRanks by decide
  fdb_dstPort := fun hfdb =>
    absurd hfdb (show discoveryProtocolLLDP ≠ discoveryProtocolFDB by decide)

theorem walk_edges {agent : Agent} {order : RangeOrder} {allowedNets : List Net.IPNet}
    {result : WalkResult} (hwalk : walk agent order localDevice allowedNets now = .ok result) :
    ∀ edge ∈ result.edges, WalkedEdge localDevice edge := by
  obtain ⟨locPorts, -, hwalk⟩ := bind_eq_ok.mp hwalk
  obtain ⟨⟨remEntries, hadPDUs⟩, hentries, hresult⟩ := bind_eq_ok.mp hwalk
  cases hresult
  intro edge hedge
  obtain ⟨⟨key, rem⟩, hmem, hrow⟩ := List.mem_map.mp (mem_collectRows.mp hedge)
  obtain ⟨hdecodes, -, -, rfl⟩ := rowOutcome_edge hrow
  exact walkedEdge_newEdge (clean_sanitisePortName _)
    (validString_sysName hentries key rem (Map.mem_range.mp hmem)) hdecodes

end TopologyExporter.Discovery.Lldp
