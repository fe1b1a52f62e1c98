import TopologyExporter.App.Status
import TopologyExporter.Config.Overrides

/-! # Which modules run against a device

A module runs if it is enabled and the override for the address of the device, if there
is one, lists it.
-/

namespace TopologyExporter.App

open Go Discovery

/-- The switches of the modules. -/
def globalModules (cfg : Config) : Config.Modules where
  lldp := cfg.lldp
  cdp := cfg.cdp
  fdb := cfg.fdb
  ospf := cfg.ospf
  bgp := cfg.bgp
  isis := cfg.isis
  mplsTE := cfg.mplsTE

/-- The settings with overrides that passed validation. -/
def withOverrides (cfg : Config) (overrides : List Config.TargetOverride) : Config :=
  { cfg with
    modulesForIP := TopologyExporter.Config.modulesForIP
      (Config.buildTargetOverrideResolver overrides) }

variable {name : GoString}

theorem mem_enabledModules {cfg : Config} :
    name ∈ enabledModules cfg ↔
      Config.moduleGloballyEnabled (globalModules cfg) name = true := by
  unfold enabledModules Config.moduleGloballyEnabled globalModules
  split_ifs with hlldp hcdp hfdb hospf hbgp hisis hmpls
  · subst hlldp; simp +decide
  · subst hcdp; simp +decide
  · subst hfdb; simp +decide
  · subst hospf; simp +decide
  · subst hbgp; simp +decide
  · subst hisis; simp +decide
  · subst hmpls; simp +decide
  · simp [Ne.symm hlldp, Ne.symm hcdp, Ne.symm hfdb, Ne.symm hospf, Ne.symm hbgp, Ne.symm hisis,
      Ne.symm hmpls]

theorem mem_foldl_of_step {file : Map GoString Nat → GoString → Map GoString Nat}
    (hfile : ∀ statuses proto, name ∈ file statuses proto ↔ name ∈ statuses ∨ name = proto)
    (names : List GoString) (statuses : Map GoString Nat) :
    name ∈ names.foldl file statuses ↔ name ∈ statuses ∨ name ∈ names := by
  induction names generalizing statuses with
  | nil => simp
  | cons proto rest ih => rw [List.foldl_cons, ih, hfile, List.mem_cons, or_assoc]

/-- The modules that run have a status. -/
theorem mem_moduleStatus {cfg : Config} {probe : Probe} {params : Params} {device : Device}
    {ip : Net.IP} :
    name ∈ moduleStatus cfg probe params device ip ↔
      name ∈ enabledModules cfg ∧ (cfg.modulesForIP ip).all (fun allowed => name ∈ allowed) := by
  rw [moduleStatus, mem_foldl_of_step, List.mem_filter]
  · simp
  · intro statuses proto
    cases walkModule cfg probe params device.id proto with
    | error error => rw [AList.mem_insert, or_comm]
    | ok result =>
        simp only [Map.insertNew]
        split
        next hmem =>
          rw [iff_self_or]
          intro hname
          exact hname ▸ hmem
        next => rw [AList.mem_insert, or_comm]

/-- The module is enabled, and listed in the override of the narrowest network with the
address, if there is one. -/
def Permitted (cfg : Config) (overrides : List Config.TargetOverride) (ip : Net.IP)
    (name : GoString) : Prop :=
  name ∈ enabledModules cfg ∧
    ((∀ override ∈ overrides, Net.contains override.network ip = false) ∨
      ∃ override, Config.Narrowest overrides ip override ∧ name ∈ override.modules)

/-- With overrides that passed validation, exactly the permitted modules run against a
device, if and only if the narrowest network in IPv4-mapped notation with its address,
should there be one, lists the same modules as the narrowest network of all. -/
theorem modules_run_iff_permitted (cfg : Config) (overrides : List Config.TargetOverride)
    (hvalid : Config.validateTargetOverrides (globalModules cfg) overrides = none)
    (probe : Probe) (params : Params) (device : Device) (ip : Net.IP) :
    (∀ name, name ∈ moduleStatus (withOverrides cfg overrides) probe params device ip ↔
        Permitted cfg overrides ip name) ↔
      ∀ mapped narrowest,
        Config.Narrowest (overrides.filter Config.TargetOverride.isMapped) ip mapped →
        Config.Narrowest overrides ip narrowest →
        ∀ name, name ∈ mapped.modules ↔ name ∈ narrowest.modules := by
  have haccepted := Config.accepted_of_validate hvalid
  have hmapped := haccepted.filter Config.TargetOverride.isMapped
  have henabled : ∀ override ∈ overrides, ∀ name ∈ override.modules,
      name ∈ enabledModules cfg := fun override hoverride name hname =>
    mem_enabledModules.mpr (haccepted.enabled override hoverride name hname)
  -- the code takes the narrowest network in IPv4-mapped notation before all others
  have hruns : ∀ name, name ∈ moduleStatus (withOverrides cfg overrides) probe params device ip ↔
      name ∈ enabledModules cfg ∧
        (((Net.narrowestNet Config.TargetOverride.network
            (overrides.filter Config.TargetOverride.isMapped) ip).or
          (Net.narrowestNet Config.TargetOverride.network overrides ip)).all
            (fun override => name ∈ override.modules)) := by
    intro name
    rw [mem_moduleStatus, withOverrides]
    simp only [haccepted.modulesForIP_eq, Option.all_map]
    rfl
  simp only [hruns, Permitted, hmapped.narrowest_iff, haccepted.narrowest_iff]
  cases hnarrowest : Net.narrowestNet Config.TargetOverride.network overrides ip with
  | none =>
      have hoff := (Net.narrowestNet_eq_none_iff haccepted.canonical).mp hnarrowest
      have hnone := (Net.narrowestNet_eq_none_iff hmapped.canonical).mpr fun override hoverride =>
        hoff override (List.mem_of_mem_filter hoverride)
      rw [hnone]
      refine iff_of_true ?_ (fun mapped narrowest hmapped => by cases hmapped)
      intro name
      exact and_congr_right fun _ => iff_of_true rfl (Or.inl hoff)
  | some narrowest =>
      obtain ⟨hmem, hcontains, -⟩ := haccepted.narrowest_iff.mpr hnarrowest
      have hon : ¬ ∀ override ∈ overrides, Net.contains override.network ip = false := by
        intro hoff
        rw [hoff narrowest hmem] at hcontains
        cases hcontains
      cases hfirst : Net.narrowestNet Config.TargetOverride.network
          (overrides.filter Config.TargetOverride.isMapped) ip with
      | none => simp [hon]
      | some mapped =>
          -- only here can the two differ: both lists are within the enabled modules
          have hmappedMem := List.mem_of_mem_filter (hmapped.narrowest_iff.mpr hfirst).1
          simp only [Option.some_or, Option.all_some, decide_eq_true_eq, hon, false_or,
            Option.some.injEq, exists_eq_left']
          constructor
          · intro hsame mapped' narrowest' heq heq' name
            cases heq
            cases heq'
            constructor
            · intro hname
              exact ((hsame name).mp ⟨henabled mapped hmappedMem name hname, hname⟩).2
            · intro hname
              exact ((hsame name).mpr ⟨henabled narrowest hmem name hname, hname⟩).2
          · intro hsame name
            exact and_congr_right fun _ => hsame mapped narrowest rfl rfl name

/-! ### Overrides of a lab -/

/-- Only LLDP in a network of 256 addresses, and LLDP and CDP in the one around it. -/
def labOverrides (around : GoString) : List Config.TargetOverride :=
  [⟨str "10.0.0.0/24", [str "lldp"]⟩, ⟨around, [str "lldp", str "cdp"]⟩]

def scopedConfig : Config := { labConfig with lldp := true, cdp := true }

def scopedDevice : Device := ⟨str "r1", [], [], [], [], 0, ∅⟩

/-- The modules that run against the lab's router. -/
def scopedModules (overrides : List Config.TargetOverride) : Map GoString Nat :=
  moduleStatus (withOverrides scopedConfig overrides) bgpRouter
    (walkParams scopedConfig bgpRouter scopedDevice) scopedDevice [10, 0, 0, 1]

/-- In IPv4 notation, the narrower network decides. -/
theorem narrow_override_applies :
    Config.validateTargetOverrides (globalModules scopedConfig)
        (labOverrides (str "10.0.0.0/8")) = none ∧
      ∀ name, name ∈ scopedModules (labOverrides (str "10.0.0.0/8")) ↔
        Permitted scopedConfig (labOverrides (str "10.0.0.0/8")) [10, 0, 0, 1] name := by
  have hvalid : Config.validateTargetOverrides (globalModules scopedConfig)
      (labOverrides (str "10.0.0.0/8")) = none := by decide
  refine ⟨hvalid, (modules_run_iff_permitted _ _ hvalid _ _ _ _).mpr ?_⟩
  intro mapped _ hmapped
  have hnone : (labOverrides (str "10.0.0.0/8")).filter Config.TargetOverride.isMapped = [] := by
    decide
  have hmem := hmapped.1
  rw [hnone] at hmem
  cases hmem

/-- In IPv4-mapped notation, the network around it does: CDP runs where it is not
permitted. -/
theorem wide_override_applies :
    Config.validateTargetOverrides (globalModules scopedConfig)
        (labOverrides (str "::ffff:10.0.0.0/104")) = none ∧
      str "cdp" ∈ scopedModules (labOverrides (str "::ffff:10.0.0.0/104")) ∧
      ¬ Permitted scopedConfig (labOverrides (str "::ffff:10.0.0.0/104")) [10, 0, 0, 1]
        (str "cdp") := by
  have hvalid : Config.validateTargetOverrides (globalModules scopedConfig)
      (labOverrides (str "::ffff:10.0.0.0/104")) = none := by decide
  have hnarrowest : Net.narrowestNet Config.TargetOverride.network
      (labOverrides (str "::ffff:10.0.0.0/104")) [10, 0, 0, 1] =
        some ⟨str "10.0.0.0/24", [str "lldp"]⟩ := by decide
  refine ⟨hvalid, mem_moduleStatus.mpr (by decide), ?_⟩
  intro hpermitted
  rcases hpermitted.2 with hoff | ⟨override, hoverride, hlisted⟩
  · exact absurd hoff (by decide)
  · rw [(Config.accepted_of_validate hvalid).narrowest_iff, hnarrowest] at hoverride
    cases hoverride
    exact absurd hlisted (by decide)

end TopologyExporter.App
