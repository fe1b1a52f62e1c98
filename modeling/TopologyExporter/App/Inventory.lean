import TopologyExporter.App.Publish
import TopologyExporter.Config.Targets

/-! # The recorded device

A probe records the device with the site and labels of its target. The name and
the vendor are made to fit; the site, the labels and the version are passed on
as they are, and validation of the configuration leaves the first two open.
-/

namespace TopologyExporter.App

open Go Strconv Utf8 Discovery Federation

/-- The probe of a target: its site, its labels and its address come from the
configuration, everything else is as it is found. -/
def targetProbe (target : Config.Target) (lookupHost : Option (List GoString)) (found : Probe) :
    Probe :=
  { found with
    site := target.site
    labels := target.labels
    ip := target.address lookupHost }

/-- A target whose site and labels the hub takes. -/
structure PublishableTarget (target : Config.Target) : Prop where
  site : Fits maxLabelValueBytes target.site
  labels : ∀ key value, target.labels.lookup key = some value →
    validateLabelKey key = none ∧ Fits maxLabelValueBytes value

/-- A description whose version the hub takes. -/
def PublishableDescr (text : GoString) : Prop :=
  match findVersion text with
  | some token => token.length ≤ maxLabelValueBytes
  | none => validString (cutSysDescr text) = true ∧ Unforbidden (cutSysDescr text)

theorem unforbidden_of_graphic {text : GoString} (hgraphic : ∀ byte ∈ text, Graphic byte) :
    Unforbidden text := by
  intro byte hbyte
  obtain ⟨hlow, hhigh⟩ := hgraphic byte hbyte
  exact ⟨hlow, hhigh.ne⟩

theorem fits_normalizeSysDescr {text : GoString} :
    Fits maxLabelValueBytes (normalizeSysDescr text) ↔ PublishableDescr text := by
  rw [normalizeSysDescr_eq]
  unfold PublishableDescr
  cases hversion : findVersion text with
  | some token =>
      have hgraphic : ∀ byte ∈ token, Graphic byte :=
        fun byte hbyte => (versionByte_findVersion hversion byte hbyte).graphic
      constructor
      · exact fun hfits => hfits.length_le
      · exact fun hlength => ⟨hlength, valid_of_graphic hgraphic, unforbidden_of_graphic hgraphic⟩
  | none =>
      have hlength : (cutSysDescr text).length ≤ maxLabelValueBytes :=
        (cutSysDescr_length text).trans (by decide)
      constructor
      · exact fun hfits => ⟨hfits.valid, hfits.unforbidden⟩
      · exact fun hboth => ⟨hlength, hboth.1, hboth.2⟩

theorem fits_nil (bound : Nat) : Fits bound [] := ⟨Nat.zero_le bound, rfl, nofun⟩

/-- The name of a device always fits: it is the normalised name or the address. -/
theorem fits_walkSystem_id {agent : Agent} {ip : Net.IP} {device : Device}
    (hip : ip.length ≤ 16) (hwalk : walkSystem agent ip = .ok device) :
    device.id ≠ [] ∧ Fits maxDeviceIDBytes device.id := by
  rcases walkSystem_id hwalk with haddress | ⟨pdu, hname, hnonempty⟩
  · rw [haddress]
    have hplain : Plain 82 (Net.ipString ip) := ⟨Net.graphic_ipString ip, Net.ipString_length hip⟩
    exact ⟨Net.ipString_ne_nil ip, fits_of_plain hplain (by decide)⟩
  · refine ⟨hnonempty, ?_⟩
    rw [hname]
    exact fits_of_clean (clean_normaliseName (pduString pdu)) (by decide)

theorem lookup_configuredDevice_labels {probe : Probe} {device : Device}
    (hlabels : device.labels = ∅) (key : GoString) :
    (configuredDevice probe device).labels.lookup key = probe.labels.lookup key := by
  have hcopied := Map.lookup_foldl_insert_range ∅ probe.labels .insertion 0 key
  rw [AList.lookup_empty, Option.or_none, Map.range, RangeOrder.insertion,
    List.foldl_map] at hcopied
  rw [configuredDevice, hlabels]
  exact hcopied

/-- The device that a probe records passes the checks of the hub exactly if the
site and the labels of its target do, and the version of its description. -/
theorem recorded_device_accepted_iff {cfg : Config} {targetIdx : Nat} {target : Config.Target}
    {lookupHost : Option (List GoString)} {found : Probe} {bindings : List Pdu}
    {result : ProbeResult} {arp : Map GoString GoString}
    (hbindings : found.agent.systemGroup = .ok bindings)
    (hprobe : probeTarget cfg targetIdx (targetProbe target lookupHost found) = some (result, arp))
    (order : RangeOrder) (index : Nat) :
    validateDevice order [] index result.device = none ↔
      PublishableTarget target ∧
        ∀ text, lastSysDescr bindings = some text → PublishableDescr text := by
  obtain ⟨ip, system, hip, hsystem, hdevice⟩ := (answered_of_probeTarget hprobe).device
  obtain ⟨hid_ne, hid⟩ := fits_walkSystem_id (Config.Target.address_length hip) hsystem
  have hinventory := systemInventory_walkSystem hbindings hsystem
  have hversion : Fits maxLabelValueBytes system.osVersion ↔
      ∀ text, lastSysDescr bindings = some text → PublishableDescr text := by
    rw [hinventory.osVersion]
    cases lastSysDescr bindings with
    | none => simp [fits_nil]
    | some text => simp [fits_normalizeSysDescr]
  rw [validateDevice_eq_none, and_iff_left (List.not_mem_nil), hdevice, ← hversion]
  constructor
  · intro haccepted
    have hfields := haccepted.inventory
    simp only [inventoryFields, List.forall_mem_cons] at hfields
    obtain ⟨-, -, hosVersion, hsite, -⟩ := hfields
    refine ⟨⟨hsite, ?_⟩, hosVersion⟩
    intro key value hlookup
    apply haccepted.labels key value
    rw [lookup_configuredDevice_labels hinventory.labels]
    exact hlookup
  · rintro ⟨htarget, hosVersion⟩
    refine ⟨hid_ne, hid, ?_, ?_⟩
    · simp only [inventoryFields, List.forall_mem_cons]
      refine ⟨fits_of_plain hinventory.vendor (by decide), ?_, hosVersion, htarget.site, nofun⟩
      change Fits maxLabelValueBytes system.model
      rw [hinventory.model]
      exact fits_nil maxLabelValueBytes
    · intro key value hlookup
      rw [lookup_configuredDevice_labels hinventory.labels] at hlookup
      exact htarget.labels key value hlookup

/-- A router in the rack r7, by the key its operator has chosen. -/
def rackTarget (key : GoString) : Config.Target where
  host := str "10.0.0.1"
  port := 161
  site := str "lab"
  labels := (∅ : Map GoString GoString).insert key (str "r7")

/-- The result of the probe of the target, on a router that answers. -/
def rackResult (key : GoString) : Option (ProbeResult × Map GoString GoString) :=
  probeTarget labConfig 0 (targetProbe (rackTarget key) none cdpRouter)

theorem publishableTarget_rack : PublishableTarget (rackTarget (str "rack")) := by
  constructor
  · exact ⟨by decide, by decide +kernel, by decide +kernel⟩
  · intro key value hlookup
    obtain ⟨rfl, rfl⟩ := Map.lookup_insert_empty.mp hlookup
    exact ⟨by decide +kernel, by decide, by decide +kernel, by decide +kernel⟩

theorem rack_label_accepted :
    Config.validateTargets [rackTarget (str "rack")] = none ∧
      ∃ result arp, rackResult (str "rack") = some (result, arp) ∧
        validateDevice .insertion [] 0 result.device = none := by
  refine ⟨by decide, ?_⟩
  obtain ⟨⟨result, arp⟩, hresult⟩ := Option.isSome_iff_exists.mp
    (show (rackResult (str "rack")).isSome = true by decide)
  refine ⟨result, arp, hresult, ?_⟩
  exact (recorded_device_accepted_iff rfl hresult .insertion 0).mpr
    ⟨publishableTarget_rack, fun text htext => by cases htext⟩

/-- A label key with a hyphen is fine in the configuration, and the hub refuses
the device for it. -/
theorem hyphenated_label_refused :
    Config.validateTargets [rackTarget (str "rack-id")] = none ∧
      ∃ result arp, rackResult (str "rack-id") = some (result, arp) ∧
        validateDevice .insertion [] 0 result.device =
          some ⟨.invalidLabelKey, ⟨str "device", 0, str "label"⟩, .malformedKey⟩ := by
  refine ⟨by decide, ?_⟩
  have hrefused : (rackResult (str "rack-id")).map (fun outcome =>
      validateDevice .insertion [] 0 outcome.1.device) =
      some (some ⟨.invalidLabelKey, ⟨str "device", 0, str "label"⟩, .malformedKey⟩) := by
    decide
  obtain ⟨⟨result, arp⟩, hresult, hdevice⟩ := Option.map_eq_some_iff.mp hrefused
  exact ⟨result, arp, hresult, hdevice⟩

end TopologyExporter.App
