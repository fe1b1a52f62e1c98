import TopologyExporter.GoLib.Cidr
import TopologyExporter.GoLib.Maps

/-! # Overrides of the modules

An override restricts the modules that run against the addresses of a network. Where
several networks contain an address, the most specific one decides: the one with the
longest prefix, as the code has it. That is not the same for networks of IPv4 addresses
in IPv4-mapped notation, whose prefixes are 96 bits longer.
-/

namespace TopologyExporter.Config

open Go

/-- Which modules are enabled globally. -/
structure Modules where
  lldp : Bool
  cdp : Bool
  fdb : Bool
  ospf : Bool
  bgp : Bool
  isis : Bool
  mplsTE : Bool

def moduleGloballyEnabled (modules : Modules) (name : GoString) : Bool :=
  if name = str "lldp" then modules.lldp
  else if name = str "cdp" then modules.cdp
  else if name = str "fdb" then modules.fdb
  else if name = str "ospf" then modules.ospf
  else if name = str "bgp" then modules.bgp
  else if name = str "isis" then modules.isis
  else if name = str "mpls_te" then modules.mplsTE
  else false

def scopableModules : List GoString :=
  [str "lldp", str "cdp", str "fdb", str "ospf", str "bgp", str "isis", str "mpls_te"]

structure TargetOverride where
  cidr : GoString
  modules : List GoString
deriving DecidableEq

/-! ## Validation -/

inductive OverrideError where
  | invalidCIDR (index : Nat) (cidr : GoString)
  | duplicateCIDR (index : Nat) (cidr : GoString) (first : Nat)
  | noModules (index : Nat) (cidr : GoString)
  | unknownModule (index : Nat) (cidr name : GoString)
  | duplicateModule (index : Nat) (cidr name : GoString)
  | notEnabled (index : Nat) (cidr name : GoString)
deriving DecidableEq

/-- The checks of the names in one override; `seen` are the names before. -/
def validateModules (modules : Modules) (index : Nat) (cidr : GoString) (seen : List GoString) :
    List GoString → Option OverrideError
  | [] => none
  | name :: rest =>
      if name ∉ scopableModules then some (.unknownModule index cidr name)
      else if name ∈ seen then some (.duplicateModule index cidr name)
      else if moduleGloballyEnabled modules name = false then some (.notEnabled index cidr name)
      else validateModules modules index cidr (name :: seen) rest

/-- The checks of the overrides from `index` on; `seen` are the networks before. -/
def validateTargetOverridesFrom (modules : Modules) (seen : Map GoString Nat) (index : Nat) :
    List TargetOverride → Option OverrideError
  | [] => none
  | override :: rest =>
      match Net.parseCIDR override.cidr with
      | none => some (.invalidCIDR index override.cidr)
      | some net =>
          match seen.lookup (Net.ipNetString net) with
          | some first => some (.duplicateCIDR index override.cidr first)
          | none =>
              if override.modules = [] then some (.noModules index override.cidr)
              else (validateModules modules index override.cidr [] override.modules).or
                (validateTargetOverridesFrom modules (seen.insert (Net.ipNetString net) index)
                  (index + 1) rest)

def validateTargetOverrides (modules : Modules) (overrides : List TargetOverride) :
    Option OverrideError :=
  validateTargetOverridesFrom modules ∅ 0 overrides

/-! ## Resolution -/

/-- An override with its parsed network. -/
structure ParsedOverride where
  net : Net.IPNet
  prefixLen : Nat
  modules : List GoString

/-- The overrides with the longest prefixes first, otherwise in the order of the
configuration. -/
def buildTargetOverrideResolver (overrides : List TargetOverride) : List ParsedOverride :=
  (overrides.filterMap (fun override => (Net.parseCIDR override.cidr).map (fun net =>
    ⟨net, (Net.maskSize net.mask).1, override.modules⟩))).insertionSort
      (fun first second => second.prefixLen ≤ first.prefixLen)

/-- The modules that may run against an address, if an override says so. -/
def modulesForIP (resolver : List ParsedOverride) (ip : Net.IP) : Option (List GoString) :=
  (resolver.find? (fun override => Net.contains override.net ip)).map ParsedOverride.modules

/-! ## What validation guarantees -/

/-- The network of an override that passed validation. -/
def TargetOverride.network (override : TargetOverride) : Net.IPNet :=
  (Net.parseCIDR override.cidr).getD ⟨[], []⟩

variable {modules : Modules} {overrides : List TargetOverride}

theorem validateModules_eq_none {index : Nat} {cidr : GoString} {seen names : List GoString}
    (hvalid : validateModules modules index cidr seen names = none) :
    ∀ name ∈ names, moduleGloballyEnabled modules name = true := by
  induction names generalizing seen with
  | nil => simp
  | cons name rest ih =>
      rw [validateModules] at hvalid
      split_ifs at hvalid with hknown hseen henabled
      exact List.forall_mem_cons.mpr ⟨by simpa using henabled, ih hvalid⟩

/-- Every network parses, no two are the same, and only enabled modules are listed. -/
structure Accepted (modules : Modules) (overrides : List TargetOverride) : Prop where
  parses : ∀ override ∈ overrides, Net.parseCIDR override.cidr = some override.network
  nodup : (overrides.map (fun override => Net.ipNetString override.network)).Nodup
  enabled : ∀ override ∈ overrides, ∀ name ∈ override.modules,
    moduleGloballyEnabled modules name = true

theorem accepted_of_validateFrom {seen : Map GoString Nat} {index : Nat}
    (hvalid : validateTargetOverridesFrom modules seen index overrides = none) :
    Accepted modules overrides ∧
      ∀ override ∈ overrides, Net.ipNetString override.network ∉ seen := by
  induction overrides generalizing seen index with
  | nil => exact ⟨⟨by simp, List.nodup_nil, by simp⟩, by simp⟩
  | cons override rest ih =>
      rw [validateTargetOverridesFrom] at hvalid
      cases hparse : Net.parseCIDR override.cidr with
      | none => simp [hparse] at hvalid
      | some net =>
          have hnetwork : override.network = net := by rw [TargetOverride.network, hparse]; rfl
          simp only [hparse] at hvalid
          cases hseen : seen.lookup (Net.ipNetString net) with
          | some first => simp [hseen] at hvalid
          | none =>
              simp only [hseen] at hvalid
              split_ifs at hvalid with hempty
              obtain ⟨hmodules, hrest⟩ := Option.or_eq_none_iff.mp hvalid
              obtain ⟨⟨hparses, hnodup, henabled⟩, hnew⟩ := ih hrest
              refine ⟨⟨?_, ?_, ?_⟩, ?_⟩
              · exact List.forall_mem_cons.mpr ⟨hnetwork ▸ hparse, hparses⟩
              · rw [List.map_cons, List.nodup_cons, hnetwork]
                refine ⟨?_, hnodup⟩
                intro hmem
                obtain ⟨other, hother, hsame⟩ := List.mem_map.mp hmem
                exact hnew other hother ((AList.mem_insert _).mpr (Or.inl hsame))
              · exact List.forall_mem_cons.mpr ⟨validateModules_eq_none hmodules, henabled⟩
              · rw [List.forall_mem_cons, hnetwork]
                refine ⟨AList.lookup_eq_none.mp hseen, ?_⟩
                intro other hother hmem
                exact hnew other hother ((AList.mem_insert _).mpr (Or.inr hmem))

theorem accepted_of_validate (hvalid : validateTargetOverrides modules overrides = none) :
    Accepted modules overrides :=
  (accepted_of_validateFrom hvalid).1

section Accepted

variable {modules : Modules} {overrides : List TargetOverride}

theorem Accepted.filter (haccepted : Accepted modules overrides) (keep : TargetOverride → Bool) :
    Accepted modules (overrides.filter keep) where
  parses := fun override hoverride =>
    haccepted.parses override (List.mem_of_mem_filter hoverride)
  nodup := (List.filter_sublist.map _).nodup haccepted.nodup
  enabled := fun override hoverride =>
    haccepted.enabled override (List.mem_of_mem_filter hoverride)

theorem Accepted.canonical (haccepted : Accepted modules overrides) :
    ∀ override ∈ overrides, ∃ number ones, Net.Canonical override.network number ones :=
  fun override hoverride => Net.parseCIDR_canonical (haccepted.parses override hoverride)

/-- The network of the override contains the address and is a subnet of every other one
that does. -/
def Narrowest (overrides : List TargetOverride) (ip : Net.IP) (override : TargetOverride) : Prop :=
  override ∈ overrides ∧ Net.contains override.network ip = true ∧
    ∀ other ∈ overrides, Net.contains other.network ip = true →
      Net.Subnet override.network other.network

theorem Accepted.narrowest_iff (haccepted : Accepted modules overrides) {ip : Net.IP}
    {override : TargetOverride} :
    Narrowest overrides ip override ↔
      Net.narrowestNet TargetOverride.network overrides ip = some override := by
  rw [Net.narrowestNet_eq_some_iff haccepted.canonical, Narrowest]
  refine and_congr_right fun hmem => and_congr_right fun _ => ?_
  rw [iff_self_and]
  intro _
  obtain ⟨front, back, rfl⟩ := List.append_of_mem hmem
  refine ⟨front, back, rfl, ?_⟩
  intro other hother hblock
  obtain ⟨number, ones, hnet⟩ := haccepted.canonical override hmem
  obtain ⟨otherNumber, otherOnes, hotherNet⟩ := haccepted.canonical other (by simp [hother])
  have hnodup := haccepted.nodup
  rw [List.map_append, List.nodup_append] at hnodup
  refine hnodup.2.2 (Net.ipNetString other.network) (List.mem_map_of_mem hother)
    (Net.ipNetString override.network) (by simp) ?_
  exact hotherNet.ipNetString_eq hnet hblock

/-- The notation of the network is IPv4-mapped. -/
def TargetOverride.isMapped (override : TargetOverride) : Bool := Net.isMapped override.network

/-- The resolver looks at the networks in IPv4-mapped notation first. -/
theorem Accepted.modulesForIP_eq (haccepted : Accepted modules overrides) (ip : Net.IP) :
    modulesForIP (buildTargetOverrideResolver overrides) ip =
      ((Net.narrowestNet TargetOverride.network (overrides.filter TargetOverride.isMapped) ip).or
        (Net.narrowestNet TargetOverride.network overrides ip)).map TargetOverride.modules := by
  have hparsed : overrides.filterMap (fun override => (Net.parseCIDR override.cidr).map (fun net =>
        (⟨net, (Net.maskSize net.mask).1, override.modules⟩ : ParsedOverride))) =
      overrides.map (fun override => ⟨override.network,
        (Net.maskSize override.network.mask).1, override.modules⟩) := by
    rw [← List.filterMap_eq_map]
    apply List.filterMap_congr
    intro override hoverride
    rw [haccepted.parses override hoverride]
    rfl
  have hsorted := List.map_insertionSort
    (fun first second : TargetOverride => (Net.maskSize second.network.mask).1 ≤
      (Net.maskSize first.network.mask).1)
    (fun first second : ParsedOverride => second.prefixLen ≤ first.prefixLen)
    (fun override : TargetOverride => (⟨override.network,
      (Net.maskSize override.network.mask).1, override.modules⟩ : ParsedOverride))
    overrides (fun _ _ _ _ => Iff.rfl)
  rw [modulesForIP, buildTargetOverrideResolver, hparsed, ← hsorted, List.find?_map, Option.map_map]
  apply congrArg
  exact Net.find?_contains_eq haccepted.canonical ip

end Accepted

end TopologyExporter.Config
