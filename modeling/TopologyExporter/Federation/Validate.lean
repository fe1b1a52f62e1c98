import TopologyExporter.Discovery.Walk

/-! # Validation of pushed payloads

What the hub checks of a payload before anything else. The first check that
fails decides the error; it carries the reject reason, the field it is about
and what is wrong with it.
-/

namespace TopologyExporter.Federation

open Go Utf8 Discovery

def maxDeviceIDBytes : Nat := 256
def maxPortNameBytes : Nat := 256
def maxLabelKeyBytes : Nat := 256
def maxLabelValueBytes : Nat := 4096

structure SpokePayload where
  spokeID : GoString
  cycleAt : Time
  devices : List Device
  edges : List Edge
  outOfScope : List OutOfScopeNeighbour
deriving DecidableEq

inductive RejectReason where
  | staleGeneration
  | sizeBudgetExceeded
  | invalidLabelKey
  | invalidLabelValue
  | structuralInvalid
deriving DecidableEq

/-- What is wrong with a field. -/
inductive Problem where
  | empty
  | required
  | selfEdge
  | duplicate
  | tooLong (limit : Nat)
  | notUTF8
  | controlChar (rune : Nat)
  | reservedKey
  | malformedKey
deriving DecidableEq

/-- A field of a list item of the payload, such as the source port of an edge. -/
structure FieldPath where
  list : GoString
  index : Nat
  field : GoString
deriving DecidableEq

structure ValidationError where
  reason : RejectReason
  path : FieldPath
  problem : Problem
deriving DecidableEq

/-! ## Labels -/

def isLabelLetter (byte : UInt8) : Bool :=
  (0x61 ≤ byte.toNat && byte.toNat ≤ 0x7A) || (0x41 ≤ byte.toNat && byte.toNat ≤ 0x5A) ||
    byte.toNat == 0x5F

def isLabelChar (byte : UInt8) : Bool :=
  isLabelLetter byte || (0x30 ≤ byte.toNat && byte.toNat ≤ 0x39)

/-- A letter or underscore, then letters, underscores and digits. -/
def matchesLabelKey (key : GoString) : Bool :=
  match key with
  | [] => false
  | first :: rest => isLabelLetter first && rest.all isLabelChar

def validateLabelKey (key : GoString) : Option Problem :=
  if key = [] then some .empty
  else if maxLabelKeyBytes < key.length then some (.tooLong maxLabelKeyBytes)
  else if Strings.hasPrefix key (str "__") then some .reservedKey
  else if matchesLabelKey key = false then some .malformedKey
  else none

def isForbidden (rune : Nat) : Bool := rune < 0x20 || rune == 0x7F

def validateLabelValue (value : GoString) : Option Problem :=
  if maxLabelValueBytes < value.length then some (.tooLong maxLabelValueBytes)
  else ((runes value).find? isForbidden).map .controlChar

def validateMetricLabelString (text : GoString) : Option Problem := validateLabelValue text

/-! ## Devices -/

/-- A text that becomes a label value. -/
def checkLabelText (path : FieldPath) (value : GoString) : Option ValidationError :=
  if validString value = false then some ⟨.invalidLabelValue, path, .notUTF8⟩
  else (validateMetricLabelString value).map (⟨.invalidLabelValue, path, ·⟩)

def checkLabel (path : FieldPath) (label : GoString × GoString) : Option ValidationError :=
  ((validateLabelKey label.1).map (⟨.invalidLabelKey, path, ·⟩)).or (checkLabelText path label.2)

def checkDeviceID (path : FieldPath) (earlier : List GoString) (id : GoString) :
    Option ValidationError :=
  if id = [] then some ⟨.structuralInvalid, path, .empty⟩
  else if maxDeviceIDBytes < id.length then
    some ⟨.structuralInvalid, path, .tooLong maxDeviceIDBytes⟩
  else if validString id = false then some ⟨.structuralInvalid, path, .notUTF8⟩
  else ((validateMetricLabelString id).map (⟨.invalidLabelValue, path, ·⟩)).or
    (if id ∈ earlier then some ⟨.structuralInvalid, path, .duplicate⟩ else none)

def inventoryFields (device : Device) : List (GoString × GoString) :=
  [(str "vendor", device.vendor), (str "model", device.model),
    (str "os_version", device.osVersion), (str "site", device.site)]

/-- The checks of one device; `earlier` are the IDs of those before it. -/
def validateDevice (order : RangeOrder) (earlier : List GoString) (index : Nat)
    (device : Device) : Option ValidationError :=
  let path := fun field => FieldPath.mk (str "device") index field
  ((checkDeviceID (path (str "device_id")) earlier device.id).or
    ((inventoryFields device).findSome? (fun field => checkLabelText (path field.1) field.2))).or
    ((device.labels.range order 0).findSome? (checkLabel (path (str "label"))))

def validateDevices (order : RangeOrder) : List GoString → Nat → List Device →
    Option ValidationError
  | _, _, [] => none
  | earlier, index, device :: rest =>
      (validateDevice order earlier index device).or
        (validateDevices order (device.id :: earlier) (index + 1) rest)

/-! ## Edges and out-of-scope neighbours -/

/-- A field with the length cap of port names. The reason for text that is not
UTF-8 differs between edges and out-of-scope neighbours. -/
def checkField (list : GoString) (index : Nat) (notUTF8 : RejectReason)
    (field : GoString × GoString) : Option ValidationError :=
  let path := ⟨list, index, field.1⟩
  if maxPortNameBytes < field.2.length then
    some ⟨.structuralInvalid, path, .tooLong maxPortNameBytes⟩
  else if validString field.2 = false then some ⟨notUTF8, path, .notUTF8⟩
  else (validateMetricLabelString field.2).map (⟨.invalidLabelValue, path, ·⟩)

def edgeFields (edge : Edge) : List (GoString × GoString) :=
  [(str "src_device", edge.srcDevice), (str "src_port", edge.srcPort),
    (str "dst_device", edge.dstDevice), (str "dst_port", edge.dstPort),
    (str "discovery_proto", edge.discoveryProto), (str "link_kind", edge.linkKind)]

def checkMetadata (path : FieldPath) (item : GoString × GoString) : Option ValidationError :=
  if item.1 = [] then some ⟨.invalidLabelKey, path, .empty⟩
  else if maxLabelKeyBytes < item.1.length then
    some ⟨.invalidLabelKey, path, .tooLong maxLabelKeyBytes⟩
  else if validString item.1 = false then some ⟨.invalidLabelKey, path, .notUTF8⟩
  else (((runes item.1).find? isForbidden).map (⟨.invalidLabelKey, path, .controlChar ·⟩)).or
    (checkLabelText path item.2)

def validateEdge (order : RangeOrder) (index : Nat) (edge : Edge) : Option ValidationError :=
  let path := fun field => FieldPath.mk (str "edge") index field
  if edge.srcDevice = [] ∨ edge.srcPort = [] ∨ edge.dstDevice = [] then
    some ⟨.structuralInvalid, path [], .required⟩
  else if edge.srcDevice = edge.dstDevice then some ⟨.structuralInvalid, path [], .selfEdge⟩
  else ((edgeFields edge).findSome? (checkField (str "edge") index .structuralInvalid)).or
    ((edge.metadata.range order 0).findSome? (checkMetadata (path (str "metadata"))))

def validateEdges (order : RangeOrder) (edges : List Edge) : Option ValidationError :=
  edges.zipIdx.findSome? (fun (edge, index) => validateEdge order index edge)

def outOfScopeFields (neighbour : OutOfScopeNeighbour) : List (GoString × GoString) :=
  [(str "reporting_device", neighbour.reportingDevice),
    (str "reporting_port", neighbour.reportingPort),
    (str "neighbour_hint", neighbour.neighbourHint), (str "proto", neighbour.proto)]

def validateOutOfScope (index : Nat) (neighbour : OutOfScopeNeighbour) : Option ValidationError :=
  (outOfScopeFields neighbour).findSome? (checkField (str "out_of_scope") index .invalidLabelValue)

/-- The first error of a payload, if there is one. -/
def validateSpokePayload (order : RangeOrder) (payload : SpokePayload) : Option ValidationError :=
  ((validateDevices order [] 0 payload.devices).or (validateEdges order payload.edges)).or
    (payload.outOfScope.zipIdx.findSome? (fun (neighbour, index) =>
      validateOutOfScope index neighbour))

/-! ## What passes -/

/-- Text without ASCII control characters. -/
def Unforbidden (text : GoString) : Prop := ∀ byte ∈ text, 0x20 ≤ byte.toNat ∧ byte.toNat ≠ 0x7F

instance (text : GoString) : Decidable (Unforbidden text) :=
  inferInstanceAs (Decidable (∀ byte ∈ text, _))

variable {text value id : GoString}

theorem find_isForbidden_eq_none : (runes text).find? isForbidden = none ↔ Unforbidden text := by
  rw [List.find?_eq_none]
  constructor
  · intro hrunes byte hbyte
    by_contra hcontrol
    have hascii : byte.toNat < 0x80 := by omega
    have hrune : byte.toNat ∈ runes text := by
      rw [mem_runes_ascii hascii, ← byte_eq_ofNat byte rfl]
      exact hbyte
    have hallowed := hrunes _ hrune
    simp only [isForbidden, Bool.or_eq_true, decide_eq_true_eq, beq_iff_eq] at hallowed
    omega
  · intro hbytes rune hrune hforbidden
    simp only [isForbidden, Bool.or_eq_true, decide_eq_true_eq, beq_iff_eq] at hforbidden
    have hascii : rune < 0x80 := by omega
    have hbyte := hbytes _ ((mem_runes_ascii hascii).mp hrune)
    rw [toNat_ofNat (by omega)] at hbyte
    omega

/-- Text that fits a field: bounded, well-formed and without control characters. -/
structure Fits (bound : Nat) (text : GoString) : Prop where
  length_le : text.length ≤ bound
  valid : validString text = true
  unforbidden : Unforbidden text

theorem validateLabelValue_eq_none :
    validateLabelValue value = none ↔ value.length ≤ maxLabelValueBytes ∧ Unforbidden value := by
  unfold validateLabelValue
  by_cases hlong : maxLabelValueBytes < value.length
  · rw [if_pos hlong]
    simp only [reduceCtorEq, false_iff, not_and]
    exact fun hshort => absurd hlong (by omega)
  · rw [if_neg hlong, Option.map_eq_none_iff, find_isForbidden_eq_none]
    exact ⟨fun hbytes => ⟨by omega, hbytes⟩, fun hboth => hboth.2⟩

variable {path : FieldPath} {index : Nat} {order : RangeOrder} {earlier : List GoString}

theorem checkLabelText_eq_none :
    checkLabelText path value = none ↔ Fits maxLabelValueBytes value := by
  unfold checkLabelText validateMetricLabelString
  by_cases hvalid : validString value = false
  · rw [if_pos hvalid]
    simp only [reduceCtorEq, false_iff]
    intro hfits
    rw [hfits.valid] at hvalid
    cases hvalid
  · rw [if_neg hvalid, Option.map_eq_none_iff, validateLabelValue_eq_none]
    rw [Bool.not_eq_false] at hvalid
    exact ⟨fun hboth => ⟨hboth.1, hvalid, hboth.2⟩, fun hfits =>
      ⟨hfits.length_le, hfits.unforbidden⟩⟩

theorem checkField_eq_none {list : GoString} {index : Nat} {notUTF8 : RejectReason}
    {field : GoString × GoString} :
    checkField list index notUTF8 field = none ↔ Fits maxPortNameBytes field.2 := by
  unfold checkField validateMetricLabelString
  simp only
  by_cases hlong : maxPortNameBytes < field.2.length
  · rw [if_pos hlong]
    simp only [reduceCtorEq, false_iff]
    exact fun hfits => absurd hfits.length_le (by omega)
  · rw [if_neg hlong]
    by_cases hvalid : validString field.2 = false
    · rw [if_pos hvalid]
      simp only [reduceCtorEq, false_iff]
      intro hfits
      rw [hfits.valid] at hvalid
      cases hvalid
    · rw [if_neg hvalid, Option.map_eq_none_iff, validateLabelValue_eq_none]
      rw [Bool.not_eq_false] at hvalid
      have hcap : maxPortNameBytes ≤ maxLabelValueBytes := by decide
      exact ⟨fun hboth => ⟨by omega, hvalid, hboth.2⟩, fun hfits =>
        ⟨hfits.length_le.trans hcap, hfits.unforbidden⟩⟩

/-- Metadata that the hub accepts. -/
def AcceptedMetadata (metadata : Map GoString GoString) : Prop :=
  ∀ key value, metadata.lookup key = some value →
    key ≠ [] ∧ Fits maxLabelKeyBytes key ∧ Fits maxLabelValueBytes value

theorem checkMetadata_eq_none {item : GoString × GoString} :
    checkMetadata path item = none ↔
      item.1 ≠ [] ∧ Fits maxLabelKeyBytes item.1 ∧ Fits maxLabelValueBytes item.2 := by
  unfold checkMetadata
  by_cases hempty : item.1 = []
  · simp [hempty]
  · rw [if_neg hempty]
    by_cases hlong : maxLabelKeyBytes < item.1.length
    · rw [if_pos hlong]
      simp only [reduceCtorEq, false_iff, not_and]
      exact fun _ hfits => absurd hfits.length_le (by omega)
    · rw [if_neg hlong]
      by_cases hvalid : validString item.1 = false
      · rw [if_pos hvalid]
        simp only [reduceCtorEq, false_iff, not_and]
        intro _ hfits
        rw [hfits.valid] at hvalid
        cases hvalid
      · rw [if_neg hvalid, Option.or_eq_none_iff, Option.map_eq_none_iff,
          find_isForbidden_eq_none, checkLabelText_eq_none]
        rw [Bool.not_eq_false] at hvalid
        exact ⟨fun hboth => ⟨hempty, ⟨by omega, hvalid, hboth.1⟩, hboth.2⟩, fun hboth =>
          ⟨hboth.2.1.unforbidden, hboth.2.2⟩⟩

/-- An edge that the hub accepts. -/
structure AcceptedEdge (edge : Edge) : Prop where
  srcDevice_ne : edge.srcDevice ≠ []
  srcPort_ne : edge.srcPort ≠ []
  dstDevice_ne : edge.dstDevice ≠ []
  distinct : edge.srcDevice ≠ edge.dstDevice
  srcDevice : Fits maxPortNameBytes edge.srcDevice
  srcPort : Fits maxPortNameBytes edge.srcPort
  dstDevice : Fits maxPortNameBytes edge.dstDevice
  dstPort : Fits maxPortNameBytes edge.dstPort
  discoveryProto : Fits maxPortNameBytes edge.discoveryProto
  linkKind : Fits maxPortNameBytes edge.linkKind
  metadata : AcceptedMetadata edge.metadata

theorem validateEdge_eq_none {edge : Edge} :
    validateEdge order index edge = none ↔ AcceptedEdge edge := by
  have hfields : (edgeFields edge).findSome? (checkField (str "edge") index .structuralInvalid) =
      none ↔ ∀ field ∈ edgeFields edge, Fits maxPortNameBytes field.2 := by
    simp only [List.findSome?_eq_none_iff, checkField_eq_none]
  -- the metadata are checked in any order, so all of them are
  have hmetadata : (edge.metadata.range order 0).findSome?
      (checkMetadata ⟨str "edge", index, str "metadata"⟩) = none ↔
      AcceptedMetadata edge.metadata := by
    simp only [List.findSome?_eq_none_iff, checkMetadata_eq_none, AcceptedMetadata]
    constructor
    · intro hall key value hlookup
      exact hall (key, value) (Map.mem_range.mpr hlookup)
    · intro hall item hitem
      exact hall item.1 item.2 (Map.mem_range.mp hitem)
  unfold validateEdge
  simp only
  by_cases hrequired : edge.srcDevice = [] ∨ edge.srcPort = [] ∨ edge.dstDevice = []
  · rw [if_pos hrequired]
    simp only [reduceCtorEq, false_iff]
    intro haccepted
    rcases hrequired with hsrc | hport | hdst
    · exact haccepted.srcDevice_ne hsrc
    · exact haccepted.srcPort_ne hport
    · exact haccepted.dstDevice_ne hdst
  · rw [if_neg hrequired]
    rw [not_or, not_or] at hrequired
    obtain ⟨hsrc, hport, hdst⟩ := hrequired
    by_cases hself : edge.srcDevice = edge.dstDevice
    · rw [if_pos hself]
      simp only [reduceCtorEq, false_iff]
      exact fun haccepted => haccepted.distinct hself
    · rw [if_neg hself, Option.or_eq_none_iff, hfields, hmetadata]
      simp only [edgeFields, List.forall_mem_cons, List.not_mem_nil, false_implies, implies_true,
        and_true]
      constructor
      · rintro ⟨⟨h1, h2, h3, h4, h5, h6⟩, hall⟩
        exact ⟨hsrc, hport, hdst, hself, h1, h2, h3, h4, h5, h6, hall⟩
      · intro haccepted
        exact ⟨⟨haccepted.srcDevice, haccepted.srcPort, haccepted.dstDevice, haccepted.dstPort,
          haccepted.discoveryProto, haccepted.linkKind⟩, haccepted.metadata⟩

theorem validateEdges_eq_none {edges : List Edge} :
    validateEdges order edges = none ↔ ∀ edge ∈ edges, AcceptedEdge edge := by
  simp only [validateEdges, List.findSome?_eq_none_iff, validateEdge_eq_none]
  exact forall_mem_zipIdx

/-- A device that the hub accepts, the IDs of other devices aside. -/
structure AcceptedDevice (device : Device) : Prop where
  id_ne : device.id ≠ []
  id : Fits maxDeviceIDBytes device.id
  inventory : ∀ field ∈ inventoryFields device, Fits maxLabelValueBytes field.2
  labels : ∀ key value, device.labels.lookup key = some value →
    validateLabelKey key = none ∧ Fits maxLabelValueBytes value

theorem checkDeviceID_eq_none :
    checkDeviceID path earlier id = none ↔
      id ≠ [] ∧ Fits maxDeviceIDBytes id ∧ id ∉ earlier := by
  unfold checkDeviceID validateMetricLabelString
  by_cases hempty : id = []
  · simp [hempty]
  · rw [if_neg hempty]
    by_cases hlong : maxDeviceIDBytes < id.length
    · rw [if_pos hlong]
      simp only [reduceCtorEq, false_iff, not_and]
      exact fun _ hfits => absurd hfits.length_le (by omega)
    · rw [if_neg hlong]
      by_cases hvalid : validString id = false
      · rw [if_pos hvalid]
        simp only [reduceCtorEq, false_iff, not_and]
        intro _ hfits
        rw [hfits.valid] at hvalid
        cases hvalid
      · rw [if_neg hvalid, Option.or_eq_none_iff, Option.map_eq_none_iff,
          validateLabelValue_eq_none]
        rw [Bool.not_eq_false] at hvalid
        simp only [ite_eq_right_iff, reduceCtorEq, imp_false]
        have hcap : maxDeviceIDBytes ≤ maxLabelValueBytes := by decide
        exact ⟨fun hboth => ⟨hempty, ⟨by omega, hvalid, hboth.1.2⟩, hboth.2⟩, fun hall =>
          ⟨⟨hall.2.1.length_le.trans hcap, hall.2.1.unforbidden⟩, hall.2.2⟩⟩

theorem validateDevice_eq_none {device : Device} :
    validateDevice order earlier index device = none ↔
      AcceptedDevice device ∧ device.id ∉ earlier := by
  have hlabels : (device.labels.range order 0).findSome?
      (checkLabel ⟨str "device", index, str "label"⟩) = none ↔
      ∀ key value, device.labels.lookup key = some value →
        validateLabelKey key = none ∧ Fits maxLabelValueBytes value := by
    simp only [List.findSome?_eq_none_iff, checkLabel, Option.or_eq_none_iff,
      Option.map_eq_none_iff, checkLabelText_eq_none]
    constructor
    · intro hall key value hlookup
      exact hall (key, value) (Map.mem_range.mpr hlookup)
    · intro hall item hitem
      exact hall item.1 item.2 (Map.mem_range.mp hitem)
  unfold validateDevice
  simp only
  rw [Option.or_eq_none_iff, Option.or_eq_none_iff, hlabels, checkDeviceID_eq_none]
  simp only [List.findSome?_eq_none_iff, checkLabelText_eq_none]
  constructor
  · rintro ⟨⟨⟨hid, hfits, hnew⟩, hinventory⟩, hall⟩
    exact ⟨⟨hid, hfits, hinventory, hall⟩, hnew⟩
  · rintro ⟨haccepted, hnew⟩
    exact ⟨⟨⟨haccepted.id_ne, haccepted.id, hnew⟩, haccepted.inventory⟩, haccepted.labels⟩

theorem validateDevices_eq_none {devices : List Device} :
    validateDevices order earlier index devices = none ↔
      (∀ device ∈ devices, AcceptedDevice device) ∧ (devices.map Device.id).Nodup ∧
        ∀ id ∈ earlier, id ∉ devices.map Device.id := by
  induction devices generalizing earlier index with
  | nil => simp [validateDevices]
  | cons device rest ih =>
      rw [validateDevices, Option.or_eq_none_iff, validateDevice_eq_none, ih,
        List.forall_mem_cons, List.forall_mem_cons, List.map_cons, List.nodup_cons]
      simp only [List.mem_cons, not_or]
      constructor
      · rintro ⟨⟨hdevice, hnew⟩, hrest, hnodup, hhead, hearlier⟩
        refine ⟨⟨hdevice, hrest⟩, ⟨hhead, hnodup⟩, fun id hid => ⟨?_, hearlier id hid⟩⟩
        rintro rfl
        exact hnew hid
      · rintro ⟨⟨hdevice, hrest⟩, ⟨hhead, hnodup⟩, hearlier⟩
        exact ⟨⟨hdevice, fun hmem => (hearlier _ hmem).1 rfl⟩, hrest, hnodup, hhead,
          fun id hid => (hearlier id hid).2⟩

/-- An out-of-scope record that the hub accepts. -/
def AcceptedOutOfScope (neighbour : OutOfScopeNeighbour) : Prop :=
  ∀ field ∈ outOfScopeFields neighbour, Fits maxPortNameBytes field.2

/-- A payload that the hub accepts. -/
structure AcceptedPayload (payload : SpokePayload) : Prop where
  devices : ∀ device ∈ payload.devices, AcceptedDevice device
  ids : (payload.devices.map Device.id).Nodup
  edges : ∀ edge ∈ payload.edges, AcceptedEdge edge
  outOfScope : ∀ neighbour ∈ payload.outOfScope, AcceptedOutOfScope neighbour

/-- The order in which maps are visited decides which error is found first, but
not whether there is one. -/
theorem validateSpokePayload_eq_none {payload : SpokePayload} :
    validateSpokePayload order payload = none ↔ AcceptedPayload payload := by
  have hneighbours : (payload.outOfScope.zipIdx.findSome? (fun (neighbour, index) =>
      validateOutOfScope index neighbour)) = none ↔
      ∀ neighbour ∈ payload.outOfScope, AcceptedOutOfScope neighbour := by
    simp only [List.findSome?_eq_none_iff, validateOutOfScope, checkField_eq_none]
    exact @forall_mem_zipIdx _ AcceptedOutOfScope _
  rw [validateSpokePayload, Option.or_eq_none_iff, Option.or_eq_none_iff,
    validateDevices_eq_none, validateEdges_eq_none, hneighbours]
  constructor
  · rintro ⟨⟨⟨hdevices, hids, -⟩, hedges⟩, hrecords⟩
    exact ⟨hdevices, hids, hedges, hrecords⟩
  · intro haccepted
    exact ⟨⟨⟨haccepted.devices, haccepted.ids, by simp⟩, haccepted.edges⟩, haccepted.outOfScope⟩

/-! ## Names read from devices

The discovery caps names at 255 bytes, one below the limit of the hub. -/

theorem fits_of_clean (hclean : Clean text) {bound : Nat} (hbound : 255 ≤ bound) :
    Fits bound text :=
  ⟨hclean.length_le.trans hbound, hclean.valid, hclean.bytes⟩

/-- All that can be wrong with a device ID that fits is that it is empty or not
the first of its name. -/
theorem problem_of_checkDeviceID {error : ValidationError} (hfits : Fits maxDeviceIDBytes id)
    (herror : checkDeviceID path earlier id = some error) :
    error.problem = .empty ∨ error.problem = .duplicate := by
  by_cases hempty : id = []
  · rw [checkDeviceID, if_pos hempty] at herror
    cases herror
    exact Or.inl rfl
  · have hlabel : validateMetricLabelString id = none :=
      validateLabelValue_eq_none.mpr ⟨hfits.length_le.trans (by decide), hfits.unforbidden⟩
    rw [checkDeviceID, if_neg hempty, if_neg (by have := hfits.length_le; omega),
      if_neg (by simp [hfits.valid]), hlabel, Option.map_none, Option.none_or] at herror
    split at herror
    · cases herror
      exact Or.inr rfl
    · cases herror

/-- Whatever bytes a device sends: its port names and system names leave the
discovery well-formed, short and without control characters, and the hub finds
nothing wrong with their length, encoding or characters. The cut that makes
them short keeps as many whole runes as fit. -/
theorem device_text_passes_hub :
    (∀ text, ∀ name ∈ [sanitisePortName text, normaliseName text],
      validString name = true ∧ name.length ≤ 255 ∧
        (∀ rune ∈ runes name, Unicode.isControl rune = false) ∧
        validateLabelValue name = none ∧
        (∀ list index notUTF8 field, checkField list index notUTF8 (field, name) = none) ∧
        ∀ path earlier error, checkDeviceID path earlier name = some error →
          error.problem = .empty ∨ error.problem = .duplicate) ∧
      ∀ text, validString text = true → ∀ maxBytes : Nat,
        LongestWithin text maxBytes (truncateAtRuneBoundary text maxBytes) := by
  refine ⟨?_, fun text hvalid maxBytes => longestWithin_truncateAtRuneBoundary hvalid maxBytes⟩
  intro text name hname
  have hclean : Clean name := by
    rcases List.mem_pair.mp hname with heq | heq
    · rw [heq]
      exact clean_sanitisePortName text
    · rw [heq]
      exact clean_normaliseName text
  have hfits : ∀ bound, 255 ≤ bound → Fits bound name := fun bound => fits_of_clean hclean
  refine ⟨hclean.valid, hclean.length_le, hclean.noControl, ?_, ?_, ?_⟩
  · obtain ⟨hlength, -, hallowed⟩ := hfits maxLabelValueBytes (by decide)
    exact validateLabelValue_eq_none.mpr ⟨hlength, hallowed⟩
  · intro list index notUTF8 field
    exact checkField_eq_none.mpr (hfits maxPortNameBytes (by decide))
  · intro path earlier error herror
    exact problem_of_checkDeviceID (hfits maxDeviceIDBytes (by decide)) herror

/-- The umlaut does not fit into two bytes and is dropped as a whole. -/
theorem split_rune_dropped :
    normaliseName (str " Zür\n") = str "zür" ∧
      validateLabelValue (normaliseName (str " Zür\n")) = none ∧
      truncateAtRuneBoundary (str "zür") 2 = str "z" ∧
      LongestWithin (str "zür") 2 (truncateAtRuneBoundary (str "zür") 2) := by
  obtain ⟨hpasses, hlongest⟩ := device_text_passes_hub
  have hname := hpasses (str " Zür\n") (normaliseName (str " Zür\n")) (by simp)
  exact ⟨by decide, hname.2.2.2.1, by decide, hlongest (str "zür") (by decide) 2⟩

end TopologyExporter.Federation
