import TopologyExporter.GoLib.Net
import TopologyExporter.Discovery.Types
import TopologyExporter.Discovery.Names

/-! # SNMP tables

Decoding of the variable bindings an agent returns for a table walk. An agent
is what the walkers see of a device: the bindings, or an error, for each table
they walk. Nothing is assumed about the bindings, neither their order nor that
their names lie below the walked table.
-/

namespace TopologyExporter.Discovery

open Go Utf8 Strconv

/-- The decoded value of a binding. All signed and all unsigned integer types
are treated alike by the decoders. -/
inductive PduValue where
  | text (value : GoString)
  | octets (value : List UInt8)
  | signed (value : Int64)
  | unsigned (value : UInt64)
  | other
deriving DecidableEq

structure Pdu where
  name : GoString
  value : PduValue
deriving DecidableEq

/-- Why a module walk yields nothing. -/
inductive WalkError where
  | transport (detail : GoString)
  | policy (module reason : GoString)
deriving DecidableEq

structure Agent where
  /-- The answer to a request for the system group. -/
  systemGroup : Except WalkError (List Pdu)
  /-- The system object identifier asked for alone, if it is one. -/
  sysObjectID : Option GoString
  bulkWalk : GoString → Except WalkError (List Pdu)
  /-- The forwarding table of one VLAN, read with an indexed community string. -/
  vlanFdbWalk : Int → Except WalkError (List Pdu)

/-- The settings of a walk that change what it does. -/
structure Params where
  community : GoString
  v3 : Bool
  maxVlans : Int
  vendor : GoString
  useBGPV2MIB : Bool

def pduString (pdu : Pdu) : GoString :=
  match pdu.value with
  | .text value => Strings.trimRight 0 value
  | .octets value => Strings.trimRight 0 value
  | _ => []

def pduIntStrict (pdu : Pdu) : Option Int :=
  match pdu.value with
  | .signed value => some value.toInt
  | .unsigned value => if maxInt < (value.toNat : Int) then none else some value.toNat
  | _ => none

def pduInt (pdu : Pdu) : Int := (pduIntStrict pdu).getD 0

def pduBytes (pdu : Pdu) : List UInt8 :=
  match pdu.value with
  | .octets value => value
  | .text value => value
  | _ => []

/-- The IPv4 address in a binding, empty when there is none. -/
def pduIPv4 (pdu : Pdu) : Net.IP :=
  match pdu.value with
  | .text value => ((Net.parseIP value).bind Net.to4).getD []
  | .octets value => if value.length = 4 then value else []
  | _ => []

/-- The leading numeric component of an OID suffix and what follows its dot. -/
def splitOIDComponent (suffix : GoString) : Option (Int × GoString) :=
  match Strings.cutByte 0x2E suffix with
  | none => (atoi suffix).map (·, [])
  | some (component, rest) => (atoi component).map (·, rest)

def trimOIDPrefix (name stem : GoString) : Option GoString :=
  if Strings.hasPrefix name stem then
    if name.drop stem.length = [] then none else some (name.drop stem.length)
  else none

/-- The prefix of the instance names of a column. -/
def instancePrefix (oid : GoString) : GoString := 0x2E :: oid ++ [0x2E]

/-- An index component that is a byte. -/
def decimalOctet (part : GoString) : Option UInt8 := do
  let value ← atoi part
  if value < 0 ∨ 255 < value then none else some (UInt8.ofNat value.toNat)

/-! ## Columns of integers -/

structure IntMapDecodeStats where
  totalRows : Nat
  validRows : Nat
  invalidRows : Nat
deriving DecidableEq

def IntMapDecodeStats.invalidRatio (stats : IntMapDecodeStats) : ℚ :=
  if stats.totalRows = 0 then 0 else stats.invalidRows / stats.totalRows

/-- The suffix and value of one row, `none` when either does not decode. -/
def decodeIntRow (stem : GoString) (pdu : Pdu) : Option (GoString × Int) := do
  let suffix ← trimOIDPrefix pdu.name stem
  let value ← pduIntStrict pdu
  some (suffix, value)

def intRows (oid : GoString) (pdus : List Pdu) : Map GoString Int :=
  (pdus.filterMap (decodeIntRow (instancePrefix oid))).foldl
    (fun table row => table.insert row.1 row.2) ∅

def walkToIntMapStrict (agent : Agent) (oid : GoString) :
    Except WalkError (Map GoString Int × IntMapDecodeStats) := do
  let pdus ← agent.bulkWalk oid
  let decoded := pdus.filterMap (decodeIntRow (instancePrefix oid))
  let table := intRows oid pdus
  return (table, ⟨pdus.length, table.entries.length, pdus.length - decoded.length⟩)

structure RequiredTablePolicy where
  minValidRows : Nat
  maxInvalidRatio : ℚ

inductive TableVerdict where
  | ok
  | degraded
  | hardFail (reason : GoString)
deriving DecidableEq

def evaluateRequiredTablePolicy (stats : IntMapDecodeStats) (policy : RequiredTablePolicy) :
    TableVerdict :=
  if stats.validRows < policy.minValidRows then .hardFail (str "required_table_no_valid_rows")
  else if 0 ≤ policy.maxInvalidRatio ∧ policy.maxInvalidRatio < stats.invalidRatio then
    .hardFail (str "required_table_invalid_ratio_exceeded")
  else if 0 < stats.invalidRows then .degraded
  else .ok

/-! ## Interface names -/

def oidIfNameTable : GoString := str "1.3.6.1.2.1.31.1.1.1.1"
def oidIfDescr : GoString := str "1.3.6.1.2.1.2.2.1.2"
def oidIPNetToMediaPhysAddr : GoString := str "1.3.6.1.2.1.4.22.1.2"

def decodeNameRow (stem : GoString) (pdu : Pdu) : Option (Int × GoString) := do
  let suffix ← trimOIDPrefix pdu.name stem
  let index ← atoi suffix
  some (index, sanitisePortName (pduString pdu))

def indexedStrings (oid : GoString) (pdus : List Pdu) : Map Int GoString :=
  (pdus.filterMap (decodeNameRow (instancePrefix oid))).foldl
    (fun table row => table.insert row.1 row.2) ∅

def walkIntIndexedStrings (agent : Agent) (oid : GoString) :
    Except WalkError (Map Int GoString) := do
  return indexedStrings oid (← agent.bulkWalk oid)

def walkIfNames (agent : Agent) : Except WalkError (Map Int GoString) :=
  walkIntIndexedStrings agent oidIfNameTable

def walkIfDescr (agent : Agent) : Except WalkError (Map Int GoString) :=
  walkIntIndexedStrings agent oidIfDescr

/-- Interface names, or descriptions where the name column is missing or empty. -/
def walkIfNamesWithFallback (agent : Agent) : Except WalkError (Map Int GoString) :=
  match walkIfNames agent with
  | .ok names =>
      if names.entries ≠ [] then .ok names
      else match walkIfDescr agent with
        | .ok descr => .ok descr
        | .error failure => .error failure
  | .error failure =>
      match walkIfDescr agent with
      | .ok descr => if descr.entries ≠ [] then .ok descr else .error failure
      | .error _ => .error failure

/-! ## The ARP table -/

def decodeArpRow (pdu : Pdu) : Option (GoString × GoString) := do
  let suffix ← trimOIDPrefix pdu.name (instancePrefix oidIPNetToMediaPhysAddr)
  let (_, address) ← Strings.cutByte 0x2E suffix
  let ip ← Net.parseIP address
  if (pduBytes pdu).length = 6 then
    some (Net.hardwareAddrString (pduBytes pdu), Net.ipString ip)
  else none

def walkARPTable (agent : Agent) : Except WalkError (Map GoString GoString) := do
  return ((← agent.bulkWalk oidIPNetToMediaPhysAddr).filterMap decodeArpRow).foldl
    (fun table row => table.insert row.1 row.2) ∅

/-! ## Discovery scope -/

def ipInNets (ip : Net.IP) (nets : List Net.IPNet) : Bool := nets.any (Net.contains · ip)

def isCatchAll (nets : List Net.IPNet) : Bool :=
  nets.any (fun net => (Net.maskSize net.mask).1 == 0 && (Net.maskSize net.mask).2 != 0)

def outOfScope (ip : Net.IP) (allowedNets : List Net.IPNet) : Bool :=
  allowedNets ≠ [] && !ipInNets ip allowedNets

def newOutOfScopeNeighbour (proto reportingDevice reportingPort hint : GoString) (now : Time) :
    OutOfScopeNeighbour :=
  { reportingDevice, reportingPort, neighbourHint := hint, proto, firstSeen := now,
    lastSeen := now }

/-! ## What the decoders guarantee -/

theorem pduIntStrict_inRange {pdu : Pdu} {value : Int} (hvalue : pduIntStrict pdu = some value) :
    InRange value := by
  unfold pduIntStrict at hvalue
  split at hvalue
  next signed _ =>
      cases hvalue
      exact ⟨signed.le_toInt, signed.toInt_le⟩
  next unsigned _ =>
      split at hvalue
      · cases hvalue
      next hsmall =>
          cases hvalue
          unfold InRange minInt
          omega
  next => cases hvalue

theorem pduInt_inRange (pdu : Pdu) : InRange (pduInt pdu) := by
  unfold pduInt
  cases hvalue : pduIntStrict pdu with
  | none => decide
  | some value => exact pduIntStrict_inRange hvalue

theorem splitOIDComponent_inRange {suffix : GoString} {component : Int × GoString}
    (hsplit : splitOIDComponent suffix = some component) : InRange component.1 := by
  unfold splitOIDComponent at hsplit
  split at hsplit <;>
    · obtain ⟨value, hvalue, rfl⟩ := Option.map_eq_some_iff.mp hsplit
      exact atoi_inRange hvalue

/-- What a table filled by insertion holds comes from one of its rows. -/
theorem mem_of_lookup_foldl_insert {Key Value : Type} [DecidableEq Key]
    {rows : List (Key × Value)} {key : Key} {value : Value}
    (hlookup : (rows.foldl (fun (table : Map Key Value) row => table.insert row.1 row.2)
      ∅).lookup key = some value) : (key, value) ∈ rows := by
  rw [Map.lookup_foldl_insert, AList.lookup_empty, Option.or_none] at hlookup
  obtain ⟨row, hfind, rfl⟩ := Option.map_eq_some_iff.mp hlookup
  have hkey := List.find?_some hfind
  have hmem := List.mem_reverse.mp (List.mem_of_find?_eq_some hfind)
  rw [← of_decide_eq_true hkey]
  exact hmem

variable {index : Int} {name : GoString} {agent : Agent} {names : Map Int GoString} {oid : GoString}

theorem clean_indexedStrings {pdus : List Pdu}
    (hname : (indexedStrings oid pdus).lookup index = some name) : Clean name := by
  obtain ⟨pdu, -, hdecode⟩ := List.mem_filterMap.mp (mem_of_lookup_foldl_insert hname)
  simp only [decodeNameRow, Option.bind_eq_bind, Option.bind_eq_some_iff, Option.some.injEq,
    Prod.mk.injEq] at hdecode
  obtain ⟨suffix, -, found, -, -, rfl⟩ := hdecode
  exact clean_sanitisePortName _

theorem clean_walkIntIndexedStrings (hnames : walkIntIndexedStrings agent oid = .ok names)
    (hname : names.lookup index = some name) : Clean name := by
  unfold walkIntIndexedStrings at hnames
  cases hwalk : agent.bulkWalk oid with
  | error failure => simp [hwalk, bind, Except.bind] at hnames
  | ok pdus =>
      simp only [hwalk, bind, Except.bind, pure, Except.pure, Except.ok.injEq] at hnames
      subst hnames
      exact clean_indexedStrings hname

theorem walkIfNamesWithFallback_cases (hnames : walkIfNamesWithFallback agent = .ok names) :
    walkIfNames agent = .ok names ∨ walkIfDescr agent = .ok names := by
  unfold walkIfNamesWithFallback at hnames
  split at hnames
  next found hfound =>
      split at hnames
      · cases hnames
        exact Or.inl hfound
      · split at hnames
        next hdescr =>
            cases hnames
            exact Or.inr hdescr
        next => cases hnames
  next =>
      split at hnames
      next hdescr =>
          split at hnames
          · cases hnames
            exact Or.inr hdescr
          · cases hnames
      next => cases hnames

theorem clean_walkIfNamesWithFallback (hnames : walkIfNamesWithFallback agent = .ok names)
    (hname : names.lookup index = some name) : Clean name := by
  rcases walkIfNamesWithFallback_cases hnames with hwalk | hwalk
  · exact clean_walkIntIndexedStrings hwalk hname
  · exact clean_walkIntIndexedStrings hwalk hname

end TopologyExporter.Discovery
