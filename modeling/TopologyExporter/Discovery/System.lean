import TopologyExporter.Discovery.Walk

/-! # The system group

Who a polled device is: its name, vendor, version and uptime, read from the
system group. The name becomes the device ID that every edge of the device
carries as its source.
-/

namespace TopologyExporter.Discovery

open Go Utf8 Strconv

def dotOIDSysDescr : GoString := str ".1.3.6.1.2.1.1.1.0"
def dotOIDSysObjectID : GoString := str ".1.3.6.1.2.1.1.2.0"
def dotOIDSysUpTime : GoString := str ".1.3.6.1.2.1.1.3.0"
def dotOIDSysName : GoString := str ".1.3.6.1.2.1.1.5.0"

def isDigit (byte : UInt8) : Bool := 0x30 ≤ byte.toNat && byte.toNat ≤ 0x39

/-- A version token at the front: digits, a dot, a digit, then digits and dots. -/
def versionToken (text : GoString) : Option GoString :=
  let major := text.takeWhile isDigit
  match text.drop major.length with
  | 0x2E :: rest =>
      let minor := rest.takeWhile (fun byte => isDigit byte || byte == 0x2E)
      if major ≠ [] ∧ (rest.head?.any isDigit) then some (major ++ 0x2E :: minor) else none
  | _ => none

/-- The first version token anywhere in the text. -/
def findVersion : GoString → Option GoString
  | [] => none
  | byte :: rest => (versionToken (byte :: rest)).or (findVersion rest)

def normalizeSysDescr (text : GoString) : GoString :=
  (findVersion text).getD (if 64 < text.length then text.take (retreat text 64) else text)

def pduOID (pdu : Pdu) : GoString :=
  match pdu.value with
  | .text value => value
  | _ => []

def enterprisePrefixes : List (GoString × GoString) :=
  [(str "1.3.6.1.4.1.9.", str "cisco"), (str "1.3.6.1.4.1.11.", str "hp"),
    (str "1.3.6.1.4.1.14988.", str "mikrotik"), (str "1.3.6.1.4.1.2636.", str "juniper"),
    (str "1.3.6.1.4.1.12356.", str "fortinet"), (str "1.3.6.1.4.1.8072.", str "net-snmp"),
    (str "1.3.6.1.4.1.890.", str "zyxel"), (str "1.3.6.1.4.1.6527.", str "nokia"),
    (str "1.3.6.1.4.1.25506.", str "huawei"), (str "1.3.6.1.4.1.2011.", str "huawei"),
    (str "1.3.6.1.4.1.4526.", str "netgear"), (str "1.3.6.1.4.1.1916.", str "extreme"),
    (str "1.3.6.1.4.1.1991.", str "brocade"), (str "1.3.6.1.4.1.1872.", str "alteon"),
    (str "1.3.6.1.4.1.3375.", str "f5"), (str "1.3.6.1.4.1.25461.", str "paloalto"),
    (str "1.3.6.1.4.1.30065.", str "arista"), (str "1.3.6.1.4.1.40310.", str "cumulus"),
    (str "1.3.6.1.4.1.6876.", str "vmware"), (str "1.3.6.1.4.1.20301.", str "ubiquiti"),
    (str "1.3.6.1.4.1.41112.", str "ubiquiti"), (str "1.3.6.1.4.1.674.", str "dell"),
    (str "1.3.6.1.4.1.6486.", str "alcatel-lucent"), (str "1.3.6.1.4.1.3076.", str "altiga"),
    (str "1.3.6.1.4.1.232.", str "hpe"), (str "1.3.6.1.4.1.236.", str "samsung"),
    (str "1.3.6.1.4.1.3417.", str "bluecoat"), (str "1.3.6.1.4.1.5624.", str "enterasys"),
    (str "1.3.6.1.4.1.18928.", str "aerohive"), (str "1.3.6.1.4.1.14179.", str "cisco-wlc"),
    (str "1.3.6.1.4.1.45.", str "baynetworks")]

def vendorUnknown : GoString := str "unknown"

def vendorFromObjectID (oid : GoString) : GoString :=
  if oid = [] then vendorUnknown
  else
    let trimmed := Strings.trimPrefix oid (str ".")
    ((enterprisePrefixes.find? (fun entry => Strings.hasPrefix trimmed entry.1)).map
      Prod.snd).getD vendorUnknown

/-- The vendor a walk dispatches on, asked for when the caller does not know it. -/
def resolveVendor (agent : Agent) (params : Params) : GoString :=
  if params.vendor ≠ [] then params.vendor
  else (agent.sysObjectID.map vendorFromObjectID).getD vendorUnknown

def systemColumn (device : Device) (pdu : Pdu) : Device :=
  if pdu.name = dotOIDSysName then
    let name := normaliseName (pduString pdu)
    if name ≠ [] then { device with id := name } else device
  else if pdu.name = dotOIDSysDescr then
    { device with osVersion := normalizeSysDescr (pduString pdu) }
  else if pdu.name = dotOIDSysObjectID then
    { device with vendor := vendorFromObjectID (pduOID pdu) }
  else if pdu.name = dotOIDSysUpTime then
    match pduIntStrict pdu with
    | some ticks =>
        -- hundredths of a second; the product wraps like any machine integer
        if 0 ≤ ticks then { device with uptime := (Int64.ofInt (ticks * 10000000)).toInt }
        else device
    | none => device
  else device

/-- A device without a usable name goes by its management address. -/
def walkSystem (agent : Agent) (ip : Net.IP) : Except WalkError Device := do
  let bindings ← agent.systemGroup
  return bindings.foldl systemColumn
    { id := Net.ipString ip, vendor := vendorUnknown, model := [], osVersion := [], site := [],
      uptime := 0, labels := ∅ }

/-! ## Device names -/

theorem systemColumn_id (device : Device) (pdu : Pdu) :
    (systemColumn device pdu).id = device.id ∨
      ((systemColumn device pdu).id = normaliseName (pduString pdu) ∧
        normaliseName (pduString pdu) ≠ []) := by
  unfold systemColumn
  generalize normaliseName (pduString pdu) = name
  by_cases hname : pdu.name = dotOIDSysName
  · by_cases hempty : name = []
    · simp [hname, hempty]
    · simp [hname, hempty]
  · rw [if_neg hname]
    apply Or.inl
    split_ifs
    · rfl
    · rfl
    · split
      · split_ifs <;> rfl
      · rfl
    · rfl

variable {agent : Agent} {device : Device} {ip : Net.IP}

/-- A device goes by its normalised name or by its address. -/
theorem walkSystem_id (hwalk : walkSystem agent ip = .ok device) :
    device.id = Net.ipString ip ∨
      ∃ pdu, device.id = normaliseName (pduString pdu) ∧ device.id ≠ [] := by
  obtain ⟨bindings, -, hdevice⟩ := bind_eq_ok.mp hwalk
  cases hdevice
  have hfold : ∀ (pdus : List Pdu) (start : Device),
      (start.id = Net.ipString ip ∨
        ∃ pdu, start.id = normaliseName (pduString pdu) ∧ start.id ≠ []) →
      (pdus.foldl systemColumn start).id = Net.ipString ip ∨
        ∃ pdu, (pdus.foldl systemColumn start).id = normaliseName (pduString pdu) ∧
          (pdus.foldl systemColumn start).id ≠ [] := by
    intro pdus
    induction pdus with
    | nil => exact fun start hstart => hstart
    | cons pdu rest ih =>
        intro start hstart
        apply ih
        rcases systemColumn_id start pdu with hsame | ⟨hname, hnonempty⟩
        · rw [hsame]
          exact hstart
        · exact Or.inr ⟨pdu, hname, hname ▸ hnonempty⟩
  exact hfold bindings _ (Or.inl rfl)

theorem valid_walkSystem_id (hwalk : walkSystem agent ip = .ok device) :
    validString device.id = true := by
  rcases walkSystem_id hwalk with haddress | ⟨pdu, hname, -⟩
  · rw [haddress]
    exact valid_of_graphic (Net.graphic_ipString ip)
  · rw [hname]
    exact (clean_normaliseName _).valid

/-! ## Versions -/

/-- A text without a version token is cut to 64 bytes, at the start of a rune. -/
def cutSysDescr (text : GoString) : GoString :=
  if 64 < text.length then text.take (retreat text 64) else text

theorem retreat_le (text : GoString) (offset : Nat) : retreat text offset ≤ offset := by
  induction offset with
  | zero => exact le_rfl
  | succ offset ih =>
      rw [retreat]
      split_ifs
      · exact le_rfl
      · exact ih.trans (Nat.le_succ offset)

theorem cutSysDescr_length (text : GoString) : (cutSysDescr text).length ≤ 64 := by
  unfold cutSysDescr
  split_ifs with hlong
  · exact (List.length_take_le _ _).trans (retreat_le text 64)
  · exact not_lt.mp hlong

/-- A version token has digits and dots only. -/
def VersionByte (byte : UInt8) : Prop := isDigit byte = true ∨ byte = 0x2E

theorem versionByte_versionToken {text token : GoString} (htoken : versionToken text = some token) :
    ∀ byte ∈ token, VersionByte byte := by
  simp only [versionToken] at htoken
  split at htoken
  · next rest _ =>
      split_ifs at htoken
      cases htoken
      intro byte hbyte
      rcases List.mem_append.mp hbyte with hmajor | hminor
      · exact Or.inl (List.mem_takeWhile_imp hmajor)
      · rcases List.mem_cons.mp hminor with rfl | hrest
        · exact Or.inr rfl
        · simpa [VersionByte] using List.mem_takeWhile_imp hrest
  · cases htoken

theorem versionByte_findVersion {text token : GoString} (htoken : findVersion text = some token) :
    ∀ byte ∈ token, VersionByte byte := by
  induction text with
  | nil => cases htoken
  | cons byte rest ih =>
      rcases Option.or_eq_some_iff.mp htoken with hhere | ⟨-, hlater⟩
      · exact versionByte_versionToken hhere
      · exact ih hlater

theorem VersionByte.graphic {byte : UInt8} (hbyte : VersionByte byte) : Graphic byte := by
  rcases hbyte with hdigit | rfl
  · simp only [isDigit, Bool.and_eq_true, decide_eq_true_eq] at hdigit
    unfold Graphic
    omega
  · decide

/-- The version is a short token of digits and dots, or the start of the text. -/
theorem normalizeSysDescr_eq (text : GoString) :
    normalizeSysDescr text = (findVersion text).getD (cutSysDescr text) := rfl

/-! ## The other columns -/

/-- The description that was read last. -/
def lastSysDescr (bindings : List Pdu) : Option GoString :=
  (bindings.reverse.find? (fun pdu => pdu.name = dotOIDSysDescr)).map pduString

theorem systemColumn_osVersion (device : Device) (pdu : Pdu) :
    (systemColumn device pdu).osVersion =
      if pdu.name = dotOIDSysDescr then normalizeSysDescr (pduString pdu)
      else device.osVersion := by
  have hdistinct : dotOIDSysDescr ≠ dotOIDSysName := by decide
  unfold systemColumn
  by_cases hdescr : pdu.name = dotOIDSysDescr
  · rw [hdescr, if_neg hdistinct]
    simp
  · simp only [if_neg hdescr]
    split_ifs
    · rfl
    · rfl
    · rfl
    · split
      · split_ifs <;> rfl
      · rfl
    · rfl

theorem osVersion_foldl_systemColumn (bindings : List Pdu) (device : Device) :
    (bindings.foldl systemColumn device).osVersion =
      ((lastSysDescr bindings).map normalizeSysDescr).getD device.osVersion := by
  induction bindings using List.reverseRecOn with
  | nil => rfl
  | append_singleton front last ih =>
      rw [List.foldl_append, List.foldl_cons, List.foldl_nil, systemColumn_osVersion, ih]
      simp only [lastSysDescr, List.reverse_append, List.reverse_cons, List.reverse_nil,
        List.nil_append, List.singleton_append, List.find?_cons]
      split_ifs with hdescr
      · simp [hdescr]
      · simp [hdescr]

/-- What no column of the system group changes. -/
theorem systemColumn_fixed (device : Device) (pdu : Pdu) :
    (systemColumn device pdu).model = device.model ∧
      (systemColumn device pdu).labels = device.labels ∧
      ((systemColumn device pdu).vendor = device.vendor ∨
        ∃ oid, (systemColumn device pdu).vendor = vendorFromObjectID oid) := by
  unfold systemColumn
  generalize normaliseName (pduString pdu) = name
  generalize normalizeSysDescr (pduString pdu) = version
  by_cases hobject : pdu.name = dotOIDSysObjectID
  · have hname : dotOIDSysObjectID ≠ dotOIDSysName := by decide
    have hdescr : dotOIDSysObjectID ≠ dotOIDSysDescr := by decide
    simp only [hobject, if_neg hname, if_neg hdescr, if_true]
    exact ⟨trivial, trivial, Or.inr ⟨pduOID pdu, rfl⟩⟩
  · simp only [if_neg hobject]
    split_ifs
    · exact ⟨rfl, rfl, Or.inl rfl⟩
    · exact ⟨rfl, rfl, Or.inl rfl⟩
    · exact ⟨rfl, rfl, Or.inl rfl⟩
    · split
      · split_ifs
        · exact ⟨rfl, rfl, Or.inl rfl⟩
        · exact ⟨rfl, rfl, Or.inl rfl⟩
      · exact ⟨rfl, rfl, Or.inl rfl⟩
    · exact ⟨rfl, rfl, Or.inl rfl⟩

theorem plain_vendorFromObjectID (oid : GoString) : Plain 16 (vendorFromObjectID oid) := by
  have hunknown : Plain 16 vendorUnknown := by decide
  have hvendors : ∀ entry ∈ enterprisePrefixes,
      entry.2.all (fun byte => decide (Graphic byte)) = true ∧ entry.2.length ≤ 16 := by
    decide
  simp only [vendorFromObjectID]
  split_ifs
  · exact hunknown
  · cases hfind : enterprisePrefixes.find? (fun entry =>
        Strings.hasPrefix (Strings.trimPrefix oid (str ".")) entry.1) with
    | none => exact hunknown
    | some entry =>
        obtain ⟨hgraphic, hlength⟩ := hvendors entry (List.mem_of_find?_eq_some hfind)
        exact plain_of_check hgraphic hlength

/-- What the system group says about a device, its name aside. -/
structure SystemInventory (bindings : List Pdu) (device : Device) : Prop where
  vendor : Plain 16 device.vendor
  model : device.model = []
  labels : device.labels = ∅
  osVersion : device.osVersion = ((lastSysDescr bindings).map normalizeSysDescr).getD []

theorem systemInventory_walkSystem {bindings : List Pdu}
    (hbindings : agent.systemGroup = .ok bindings) (hwalk : walkSystem agent ip = .ok device) :
    SystemInventory bindings device := by
  rw [walkSystem, hbindings] at hwalk
  cases hwalk
  have hfold : ∀ (pdus : List Pdu) (start : Device), Plain 16 start.vendor →
      Plain 16 (pdus.foldl systemColumn start).vendor ∧
        (pdus.foldl systemColumn start).model = start.model ∧
        (pdus.foldl systemColumn start).labels = start.labels := by
    intro pdus
    induction pdus with
    | nil => exact fun start hstart => ⟨hstart, rfl, rfl⟩
    | cons pdu rest ih =>
        intro start hstart
        obtain ⟨hmodel, hlabels, hvendor⟩ := systemColumn_fixed start pdu
        have hplain : Plain 16 (systemColumn start pdu).vendor := by
          rcases hvendor with hsame | ⟨oid, hoid⟩
          · rw [hsame]
            exact hstart
          · rw [hoid]
            exact plain_vendorFromObjectID oid
        rw [List.foldl_cons, ← hmodel, ← hlabels]
        exact ih (systemColumn start pdu) hplain
  have hunknown : Plain 16 vendorUnknown := plain_vendorFromObjectID []
  obtain ⟨hvendor, hmodel, hlabels⟩ := hfold bindings
    { id := Net.ipString ip, vendor := vendorUnknown, model := [], osVersion := [], site := [],
      uptime := 0, labels := ∅ } hunknown
  exact ⟨hvendor, hmodel, hlabels, osVersion_foldl_systemColumn bindings _⟩

end TopologyExporter.Discovery
