import TopologyExporter.App.Expiry

/-! # The order in which probes finish

Probes run concurrently, and each hands in what it has found when it is done.
The results are put back into the order of the configuration, so the schedule
does not show in anything that is read off them. The ARP tables are not: where
two of them disagree, the probe that finishes first decides. Through the devices
that the tables lead to, and in no other way, the schedule reaches the edges and
the counters.
-/

namespace TopologyExporter.App

open Go Discovery

/-- The targets in the order of the configuration, with what their probes see. -/
def configured (probes : List (Option Probe)) : List Arrival :=
  probes.zipIdx.map (fun target => ⟨target.2, target.1⟩)

/-- The address of a MAC address in the first table that has it. -/
def arpAddress (cfg : Config) (arrivals : List Arrival) (mac : GoString) : Option GoString :=
  (arrivals.filterMap (Arrival.outcome cfg)).findSome? (fun outcome => outcome.2.lookup mac)

/-- The device with a management address. -/
def managedAt (cfg : Config) (arrivals : List Arrival) (address : GoString) : Option GoString :=
  (managementIDs (probeResults cfg arrivals)).lookup address

/-- The counters as a function of the link, if there are any. -/
def counters (ages : Option (Map Graph.EdgeKey Int)) : Option (Graph.EdgeKey → Option Int) :=
  ages.map (fun held link => held.lookup link)

section Schedule

variable {cfg : Config} {order order' : RangeOrder} {arrivals first second : List Arrival}

/-! ## Results -/

theorem nodup_configured (probes : List (Option Probe)) :
    ((configured probes).map Arrival.targetIdx).Nodup := by
  have hindices : (configured probes).map Arrival.targetIdx = probes.zipIdx.map Prod.snd := by
    rw [configured, List.map_map]
    rfl
  rw [hindices, List.zipIdx_map_snd]
  exact List.nodup_range'

theorem answered_of_outcome {arrival : Arrival} {outcome : ProbeResult × Map GoString GoString}
    (houtcome : arrival.outcome cfg = some outcome) :
    ∃ probe, Answered cfg arrival.targetIdx probe outcome.1 outcome.2 := by
  obtain ⟨probe, -, hprobe⟩ := Option.bind_eq_some_iff.mp houtcome
  exact ⟨probe, answered_of_probeTarget hprobe⟩

/-- The results of targets with different places in the configuration are put
back into their places. -/
theorem probeResults_eq_of_perm (hperm : first.Perm second)
    (hnodup : (first.map Arrival.targetIdx).Nodup) :
    probeResults cfg first = probeResults cfg second := by
  have hfound : ((first.filterMap (Arrival.outcome cfg)).map Prod.fst).Perm
      ((second.filterMap (Arrival.outcome cfg)).map Prod.fst) :=
    (hperm.filterMap _).map _
  have hplaces : (((first.filterMap (Arrival.outcome cfg)).map Prod.fst).map
      ProbeResult.targetIdx).Nodup := by
    rw [List.map_map]
    refine List.Sublist.nodup (map_filterMap_sublist ?_) hnodup
    intro arrival _ outcome houtcome
    obtain ⟨probe, hanswered⟩ := answered_of_outcome houtcome
    exact hanswered.targetIdx
  have hsorted : (probeResults cfg first).Perm (probeResults cfg second) :=
    (List.perm_insertionSort ..).trans (hfound.trans (List.perm_insertionSort ..).symm)
  apply hsorted.eq_of_pairwise _ (List.pairwise_insertionSort ..) (List.pairwise_insertionSort ..)
  intro result other hresult hother hle hge
  simp only [List.mem_insertionSort] at hresult hother
  exact List.inj_on_of_nodup_map hplaces hresult (hfound.mem_iff.mpr hother) (le_antisymm hle hge)

/-! ## ARP tables -/

theorem lookup_mergedARP (mac : GoString) :
    (mergedARP order cfg arrivals).lookup mac = arpAddress cfg arrivals mac := by
  have hloop : ∀ (outcomes : List (ProbeResult × Map GoString GoString))
      (table : Map GoString GoString),
      (outcomes.foldl (fun table outcome => (outcome.2.range order 4).foldl Map.insertNew table)
        table).lookup mac =
        (table.lookup mac).or (outcomes.findSome? fun outcome => outcome.2.lookup mac) := by
    intro outcomes
    induction outcomes with
    | nil => simp
    | cons outcome rest ih =>
        intro table
        rw [List.foldl_cons, ih, Map.lookup_foldl_insertNew_range, List.findSome?_cons,
          Option.or_assoc]
        cases outcome.2.lookup mac with
        | none => rw [Option.none_or]
        | some address => rw [Option.some_or]
  rw [mergedARP, hloop, AList.lookup_empty, Option.none_or, arpAddress]

/-- The keys of an ARP table are in canonical spelling. -/
theorem canonical_of_walkARPTable {agent : Agent} {table : Map GoString GoString}
    (htable : walkARPTable agent = .ok table) {mac address : GoString}
    (hrow : table.lookup mac = some address) :
    (Net.parseMAC mac).map Net.hardwareAddrString = some mac := by
  obtain ⟨pdus, -, hrows⟩ := bind_eq_ok.mp htable
  cases hrows
  obtain ⟨pdu, -, hdecode⟩ := List.mem_filterMap.mp (mem_of_lookup_foldl_insert hrow)
  simp only [decodeArpRow, Option.bind_eq_bind, Option.bind_eq_some_iff] at hdecode
  obtain ⟨suffix, -, cut, -, ip, -, hdecode⟩ := hdecode
  split_ifs at hdecode with hlength
  cases hdecode
  rw [Net.parseMAC_hardwareAddrString hlength, Option.map_some]

theorem canonical_of_mergedARP {mac address : GoString}
    (hrow : (mergedARP order cfg arrivals).lookup mac = some address) :
    (Net.parseMAC mac).map Net.hardwareAddrString = some mac := by
  rw [lookup_mergedARP] at hrow
  obtain ⟨outcome, hmem, hfound⟩ := List.exists_of_findSome?_eq_some hrow
  obtain ⟨arrival, -, houtcome⟩ := List.mem_filterMap.mp hmem
  obtain ⟨probe, hanswered⟩ := answered_of_outcome houtcome
  obtain ⟨table, htable, hstored⟩ := hanswered.arp mac address hfound
  exact canonical_of_walkARPTable htable hstored

/-! ## Edges and counters -/

/-- The ARP tables lead to the same devices in both orders. -/
def SameDevices (cfg : Config) (first second : List Arrival) : Prop :=
  ∀ mac, (arpAddress cfg first mac).bind (managedAt cfg first) =
    (arpAddress cfg second mac).bind (managedAt cfg second)

theorem observations_eq_of_sameDevices (hresults : probeResults cfg first = probeResults cfg second)
    (hsame : SameDevices cfg first second) :
    observations cfg order first = observations cfg order' second := by
  have hwalked : walkedEdges cfg first = walkedEdges cfg second := by
    rw [walkedEdges, walkedEdges, hresults]
  have hidentity : ∀ mac,
      macIdentity order (walkedEdges cfg first) (managementIDs (probeResults cfg first))
        (mergedARP order cfg first) mac =
      macIdentity order' (walkedEdges cfg first) (managementIDs (probeResults cfg first))
        (mergedARP order' cfg second) mac := by
    intro mac
    rw [macIdentity, macIdentity, find?_arpIdentity fun _ _ => canonical_of_mergedARP,
      find?_arpIdentity fun _ _ => canonical_of_mergedARP, lookup_mergedARP, lookup_mergedARP]
    have hdevice := hsame mac
    unfold managedAt at hdevice
    rw [← hresults] at hdevice
    exact congrArg _ hdevice
  have hobservation : observation cfg order first = observation cfg order' second := by
    unfold observation
    rw [← hwalked, ← hresults]
    exact resolved_congr hidentity
  rw [observations, observations, hwalked, hobservation]

/-- What becomes of the links of a cycle does not depend on the order of a loop. -/
theorem ageUnconfirmed_eq (edges : List Edge) (hnodup : (edges.map Graph.key).Nodup)
    (ages : Option (Map Graph.EdgeKey Int)) (ttl : Int) :
    counters (Graph.ageUnconfirmed order edges ages ttl).2 =
        counters (Graph.ageUnconfirmed order' edges ages ttl).2 ∧
      ∀ link, link ∈ (Graph.ageUnconfirmed order edges ages ttl).1 ↔
        link ∈ (Graph.ageUnconfirmed order' edges ages ttl).1 := by
  cases ages with
  | none => exact ⟨rfl, fun _ => Iff.rfl⟩
  | some held =>
      constructor
      · refine congrArg some (funext fun link => ?_)
        obtain ⟨⟨next, hnext, hlookup⟩, -⟩ :=
          @Graph.ageUnconfirmed_link order edges held ttl hnodup link
        obtain ⟨⟨next', hnext', hlookup'⟩, -⟩ :=
          @Graph.ageUnconfirmed_link order' edges held ttl hnodup link
        cases hnext
        cases hnext'
        exact hlookup.trans hlookup'.symm
      · intro link
        rw [(@Graph.ageUnconfirmed_link order edges held ttl hnodup link).2,
          (@Graph.ageUnconfirmed_link order' edges held ttl hnodup link).2]

theorem runCycle_eq_of_observations
    (hsame : observations cfg order first = observations cfg order' second)
    (ages : Option (Map Graph.EdgeKey Int)) :
    (runCycle cfg order first ages).graph.edges = (runCycle cfg order' second ages).graph.edges ∧
      counters (runCycle cfg order first ages).ages =
        counters (runCycle cfg order' second ages).ages := by
  have hreconciled : (Graph.reconcile order (observations cfg order first)).1 =
      (Graph.reconcile order' (observations cfg order' second)).1 := by
    rw [hsame]
    exact Graph.reconcile_edges_eq order order' _
  obtain ⟨hcounters, hexpired⟩ := @ageUnconfirmed_eq order order' _
    (Graph.reconcile_nodup_keys order' (observations cfg order' second)) ages
    cfg.unconfirmedLinkTTLCycles
  constructor
  · rw [runCycle_edges, runCycle_edges, hreconciled]
    simp only [hexpired]
  · rw [runCycle_ages, runCycle_ages, hreconciled]
    exact hcounters

end Schedule

/-- No two tables lead to different devices for one MAC address. -/
def TablesAgree (cfg : Config) (arrivals : List Arrival) : Prop :=
  ∀ first ∈ arrivals.filterMap (Arrival.outcome cfg),
    ∀ second ∈ arrivals.filterMap (Arrival.outcome cfg), ∀ mac address address',
      first.2.lookup mac = some address → second.2.lookup mac = some address' →
        managedAt cfg arrivals address = managedAt cfg arrivals address'

theorem sameDevices_of_tablesAgree {cfg : Config} {probes : List (Option Probe)}
    {first second : List Arrival} (hfirst : first.Perm (configured probes))
    (hsecond : second.Perm (configured probes)) (hagree : TablesAgree cfg (configured probes)) :
    SameDevices cfg first second := by
  have hmanaged : ∀ arrivals : List Arrival, arrivals.Perm (configured probes) →
      managedAt cfg arrivals = managedAt cfg (configured probes) := by
    intro arrivals hperm
    unfold managedAt
    rw [probeResults_eq_of_perm hperm ((hperm.map _).nodup_iff.mpr (nodup_configured probes))]
  have hout := hfirst.filterMap (Arrival.outcome cfg)
  have hout' := hsecond.filterMap (Arrival.outcome cfg)
  intro mac
  rw [hmanaged first hfirst, hmanaged second hsecond]
  cases haddress : arpAddress cfg first mac with
  | none =>
      have hnone : arpAddress cfg second mac = none := by
        rw [arpAddress, List.findSome?_eq_none_iff] at haddress ⊢
        intro outcome houtcome
        exact haddress outcome (hout.mem_iff.mpr (hout'.mem_iff.mp houtcome))
      rw [hnone]
  | some address =>
      obtain ⟨outcome, hmem, hrow⟩ := List.exists_of_findSome?_eq_some haddress
      cases haddress' : arpAddress cfg second mac with
      | none =>
          have hnone := List.findSome?_eq_none_iff.mp haddress' outcome
            (hout'.mem_iff.mpr (hout.mem_iff.mp hmem))
          rw [hrow] at hnone
          cases hnone
      | some address' =>
          obtain ⟨outcome', hmem', hrow'⟩ := List.exists_of_findSome?_eq_some haddress'
          exact hagree outcome (hout.mem_iff.mp hmem) outcome' (hout'.mem_iff.mp hmem') mac address
            address' hrow hrow'

/-- For given probes, the devices and the neighbours out of scope are the same
whatever order the probes finish in. So are the edges and the counters for two
orders in which the ARP tables lead to the same devices, and for any two when the
tables agree. -/
theorem schedule_shows_through_arp_only (cfg : Config) (probes : List (Option Probe))
    (ages : Option (Map Graph.EdgeKey Int)) (order order' : RangeOrder)
    (first second : List Arrival) (hfirst : first.Perm (configured probes))
    (hsecond : second.Perm (configured probes)) :
    (runCycle cfg order first ages).graph.devices =
        (runCycle cfg order' second ages).graph.devices ∧
      (runCycle cfg order first ages).graph.outOfScope =
        (runCycle cfg order' second ages).graph.outOfScope ∧
      (SameDevices cfg first second ∨ TablesAgree cfg (configured probes) →
        (runCycle cfg order first ages).graph.edges =
            (runCycle cfg order' second ages).graph.edges ∧
          counters (runCycle cfg order first ages).ages =
            counters (runCycle cfg order' second ages).ages) := by
  have hnodup : (first.map Arrival.targetIdx).Nodup :=
    (hfirst.map _).nodup_iff.mpr (nodup_configured probes)
  have hresults : probeResults cfg first = probeResults cfg second :=
    probeResults_eq_of_perm (hfirst.trans hsecond.symm) hnodup
  refine ⟨?_, ?_, ?_⟩
  · simp only [runCycle, hresults]
  · simp only [runCycle, hresults]
  · intro hsame
    have hdevices : SameDevices cfg first second :=
      hsame.elim id (sameDevices_of_tablesAgree hfirst hsecond)
    exact runCycle_eq_of_observations (observations_eq_of_sameDevices hresults hdevices) ages

/-! ### A MAC address in two tables -/

/-- An exporter that runs the forwarding-table module and reads ARP tables. -/
def arpConfig : Config := { labConfig with cdp := false, fdb := true, bgp := false, arp := true }

def arpCycle (arrivals : List Arrival) : CycleResult :=
  runCycle arpConfig .insertion arrivals (some ∅)

/-- A row of an ARP table, with the MAC address 02:00:00:00:00:01. -/
def arpRow (address : GoString) : Pdu :=
  ⟨str ".1.3.6.1.2.1.4.22.1.2.1." ++ address, .octets [2, 0, 0, 0, 0, 1]⟩

/-- The router `r1` with the MAC address behind port 1. -/
def learningRouter (arp : List Pdu) : Probe :=
  labRouter
    [(Fdb.oidFdbTable,
      [⟨str ".1.3.6.1.2.1.17.4.3.1.1.2.0.0.0.0.1", .octets [2, 0, 0, 0, 0, 1]⟩,
        ⟨str ".1.3.6.1.2.1.17.4.3.1.2.2.0.0.0.0.1", .signed 1⟩,
        ⟨str ".1.3.6.1.2.1.17.4.3.1.3.2.0.0.0.0.1", .signed 3⟩]),
    (Fdb.oidBasePortTable, [⟨str ".1.3.6.1.2.1.17.1.4.1.2.1", .signed 1⟩]),
    (oidIfNameTable, [⟨str ".1.3.6.1.2.1.31.1.1.1.1.1", .text (str "Gi0/1")⟩]),
    (oidIPNetToMediaPhysAddr, arp)]

/-- A switch with the given name and last byte of its address. -/
def arpSwitch (name : GoString) (host : UInt8) (arp : List Pdu) : Probe :=
  let router := labRouter [(oidIPNetToMediaPhysAddr, arp)]
  { router with
    ip := some [10, 0, 0, host]
    agent := { router.agent with systemGroup := .ok [⟨dotOIDSysName, .text name⟩] } }

/-- The link between port 1 of `r1` and a switch. -/
def switchLink (name : GoString) : Graph.EdgeKey := ⟨str "r1", str "Gi0/1", name, []⟩

/-- Two tables give the MAC address to `sw1`. -/
def agreeingProbes : List (Option Probe) :=
  [some (learningRouter [arpRow (str "10.0.0.2")]),
    some (arpSwitch (str "sw1") 2 [arpRow (str "10.0.0.2")])]

/-- The table of `r1` gives the MAC address to `sw1`, the table of `sw2` to `sw2`. -/
def disputedProbes : List (Option Probe) :=
  [some (learningRouter [arpRow (str "10.0.0.2")]), some (arpSwitch (str "sw1") 2 []),
    some (arpSwitch (str "sw2") 3 [arpRow (str "10.0.0.3")])]

/-- What the cycles yield, evaluated together since they walk the same tables. -/
theorem arpCycles_evaluated :
    (∀ outcome ∈ (configured agreeingProbes).filterMap (Arrival.outcome arpConfig),
      ∀ entry ∈ outcome.2.entries, entry.2 = str "10.0.0.2") ∧
    (arpCycle (configured agreeingProbes)).graph.edges.map Graph.key =
      [switchLink (str "sw1")] ∧
    ((arpCycle (configured disputedProbes)).graph.edges.map Graph.key,
      (counters (arpCycle (configured disputedProbes)).ages).map (fun held =>
        held (switchLink (str "sw1")))) = ([switchLink (str "sw1")], some (some 0)) ∧
    ((arpCycle (configured disputedProbes).reverse).graph.edges.map Graph.key,
      (counters (arpCycle (configured disputedProbes).reverse).ages).map (fun held =>
        held (switchLink (str "sw1")))) = ([switchLink (str "sw2")], some none) := by
  decide +kernel

theorem agreeing_tables_same_links :
    TablesAgree arpConfig (configured agreeingProbes) ∧
      (arpCycle (configured agreeingProbes).reverse).graph.edges.map Graph.key =
        [switchLink (str "sw1")] := by
  obtain ⟨hrows, hlinks, -, -⟩ := arpCycles_evaluated
  have hagree : TablesAgree arpConfig (configured agreeingProbes) := by
    intro first hfirst second hsecond mac address address' hrow hrow'
    have haddress : address = str "10.0.0.2" :=
      hrows first hfirst ⟨mac, address⟩ (AList.mem_lookup_iff.mp hrow)
    have haddress' : address' = str "10.0.0.2" :=
      hrows second hsecond ⟨mac, address'⟩ (AList.mem_lookup_iff.mp hrow')
    rw [haddress, haddress']
  obtain ⟨-, -, hsame⟩ := schedule_shows_through_arp_only arpConfig agreeingProbes (some ∅)
    .insertion .insertion (configured agreeingProbes).reverse (configured agreeingProbes)
    (List.reverse_perm _) (List.Perm.refl _)
  refine ⟨hagree, ?_⟩
  rw [arpCycle, (hsame (Or.inr hagree)).1]
  exact hlinks

/-- The link and its counter belong to `sw1` when the probe of `r1` finishes
first, and to `sw2` when that of `sw2` does. -/
theorem first_finished_table_decides :
    (configured disputedProbes).reverse.Perm (configured disputedProbes) ∧
      (arpCycle (configured disputedProbes)).graph.edges.map Graph.key =
        [switchLink (str "sw1")] ∧
      (arpCycle (configured disputedProbes).reverse).graph.edges.map Graph.key =
        [switchLink (str "sw2")] ∧
      counters (arpCycle (configured disputedProbes)).ages ≠
        counters (arpCycle (configured disputedProbes).reverse).ages := by
  obtain ⟨-, -, hforward, hbackward⟩ := arpCycles_evaluated
  rw [Prod.mk.injEq] at hforward hbackward
  refine ⟨List.reverse_perm _, hforward.1, hbackward.1, ?_⟩
  intro hsame
  have hcounter := hforward.2
  rw [hsame, hbackward.2] at hcounter
  cases hcounter

end TopologyExporter.App
