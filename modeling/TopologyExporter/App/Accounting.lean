import TopologyExporter.App.Schedules
import TopologyExporter.Foundation.Selection
import TopologyExporter.Foundation.Transition
import TopologyExporter.GoLib.Channel

/-! # The goroutines of a cycle

A cycle starts a goroutine for each target. The goroutine waits for a slot or for
the end of the cycle's budget, probes the target, and adds what it found to the
tables of the cycle under their mutex. A probe that panics is counted where it is
recovered. When all goroutines are done the cycle is put together from the tables:
it is the cycle of the targets in the order in which they were counted.
-/

namespace TopologyExporter.App.Accounting

open Go Discovery Transition Selection

inductive DiscoveryFailReason where
  | unreachable
  | authFailed
  | timeout
  | snmpError
  | mibUnsupported
  | dnsFailed
  | outsideAllowList
  | noCredentials
  | budgetExpired
  | panic
deriving DecidableEq

/-- Why a target without a result has failed. -/
def failReason (cfg : Config) (probe : Probe) (deadlineExceeded : Bool) : DiscoveryFailReason :=
  match probe.ip with
  | none => .dnsFailed
  | some ip =>
      if cfg.allowedNets ≠ [] ∧ ipInNets ip cfg.allowedNets = false then .outsideAllowList
      else if deadlineExceeded then .timeout
      else .authFailed

inductive Phase where
  | waiting
  | probing
  | ended
deriving DecidableEq

/-- The goroutines, one for each target in the order of the configuration, and the
tables they share. -/
structure Cycle where
  phases : List Phase
  sem : Chan Unit
  expired : Bool
  results : List ProbeResult
  okCount : Nat
  failByReason : Map DiscoveryFailReason Nat
  allARPMACs : Map GoString GoString
  budgetSkips : Nat

/-- The budget runs out; a goroutine is let in or sent away, and its probe ends or
panics. -/
inductive Action where
  | expire
  | enter (targetIdx : Nat)
  | refuse (targetIdx : Nat)
  | finish (targetIdx : Nat) (probe : Probe) (deadlineExceeded : Bool)
  | panic (targetIdx : Nat)

def newCycle (targets parallelism : Nat) : Cycle :=
  ⟨List.replicate targets .waiting, Chan.make parallelism, false, [], 0, ∅, ∅, 0⟩

/-! ## Steps -/

/-- The goroutine goes on from one phase to another. -/
def Cycle.move (cycle : Cycle) (targetIdx : Nat) (before after : Phase) : Option Cycle :=
  if cycle.phases[targetIdx]? = some before then
    some { cycle with phases := cycle.phases.set targetIdx after }
  else none

def Cycle.recordFail (cycle : Cycle) (reason : DiscoveryFailReason) : Cycle :=
  { cycle with
    failByReason := cycle.failByReason.insert reason
      ((cycle.failByReason.lookup reason).getD 0 + 1) }

/-- Gives the slot back. -/
def Cycle.release (cycle : Cycle) : Option Cycle :=
  cycle.sem.tryReceive.map (fun received => { cycle with sem := received.2 })

variable (cfg : Config) (order : RangeOrder)

/-- What a goroutine adds to the tables when its probe has ended. -/
def Cycle.aggregate (cycle : Cycle) (targetIdx : Nat) (probe : Probe) (deadlineExceeded : Bool) :
    Cycle :=
  match probeTarget cfg targetIdx probe with
  | some (result, arp) => { cycle with
      results := cycle.results ++ [result]
      okCount := cycle.okCount + 1
      allARPMACs := (arp.range order 4).foldl Map.insertNew cycle.allARPMACs }
  | none => cycle.recordFail (failReason cfg probe deadlineExceeded)

def step (action : Action) (cycle : Cycle) : Option Cycle :=
  match action with
  | .expire => some { cycle with expired := true }
  | .enter targetIdx =>
      (cycle.move targetIdx .waiting .probing).bind (fun cycle =>
        (cycle.sem.trySend ()).map (fun sem => { cycle with sem := sem }))
  | .refuse targetIdx =>
      if cycle.expired then
        (cycle.move targetIdx .waiting .ended).map (fun cycle =>
          { cycle.recordFail .budgetExpired with budgetSkips := cycle.budgetSkips + 1 })
      else none
  | .finish targetIdx probe deadlineExceeded =>
      (cycle.move targetIdx .probing .ended).bind (fun cycle =>
        (cycle.aggregate cfg order targetIdx probe deadlineExceeded).release)
  | .panic targetIdx =>
      (cycle.move targetIdx .probing .ended).bind (fun cycle => (cycle.recordFail .panic).release)

/-- The failures of all reasons. -/
def Cycle.failCount (cycle : Cycle) : Nat :=
  ((cycle.failByReason.range order 12).map Prod.snd).sum

/-- The cycle that is put together when all goroutines are done. -/
def Cycle.returned (cycle : Cycle) (prevAges : Option (Map Graph.EdgeKey Int)) : CycleResult :=
  let results := cycle.results.insertionSort
    (fun first second => first.targetIdx ≤ second.targetIdx)
  let canonicalEdges := synthesizeEdges order (results.flatMap ProbeResult.edges)
    (managementIDs results) cycle.allARPMACs
  let reconciled := Graph.reconcile order canonicalEdges
  let aged := Graph.ageUnconfirmed order reconciled.1 prevAges cfg.unconfirmedLinkTTLCycles
  { graph :=
      { devices := deduplicateDevices (results.map ProbeResult.device)
        edges := reconciled.1.filter (fun edge => Graph.key edge ∉ aged.1)
        outOfScope := deduplicateOOS (results.flatMap ProbeResult.outOfScope) }
    ages := aged.2
    conflicts := reconciled.2
    failed := cycle.failCount order }

/-! ## The order of the targets -/

/-- The target whose goroutine ends with the action. -/
def Action.arrival : Action → Option Arrival
  | .refuse targetIdx => some ⟨targetIdx, none⟩
  | .panic targetIdx => some ⟨targetIdx, none⟩
  | .finish targetIdx probe _ => some ⟨targetIdx, some probe⟩
  | _ => none

/-- The targets in the order in which they are counted. -/
def arrivals (actions : List Action) : List Arrival := actions.filterMap Action.arrival

variable {cfg order}

/-- What it means to count a target. -/
structure Counts (cfg : Config) (order : RangeOrder) (arrival : Arrival) (before after : Cycle) :
    Prop where
  results : after.results = before.results ++ (arrival.outcome cfg).toList.map Prod.fst
  succeeded : after.okCount = before.okCount + (arrival.outcome cfg).toList.length
  failed : after.failCount order =
    before.failCount order + (if (arrival.outcome cfg).isNone then 1 else 0)
  tables : after.allARPMACs = (arrival.outcome cfg).toList.foldl (fun table outcome =>
    (outcome.2.range order 4).foldl Map.insertNew table) before.allARPMACs

/-- A step counts the target of a goroutine that was not done, or no target. -/
inductive Progress (cfg : Config) (order : RangeOrder) (action : Action) (before after : Cycle) :
    Prop where
  | counts (arrival : Arrival) (harrival : action.arrival = some arrival)
      (hrunning : ∃ phase, before.phases[arrival.targetIdx]? = some phase ∧ phase ≠ .ended)
      (hphases : after.phases = before.phases.set arrival.targetIdx .ended)
      (hcounts : Counts cfg order arrival before after)
  | none (harrival : action.arrival = .none)
      (hphases : after.phases = before.phases ∨ ∃ targetIdx,
        before.phases[targetIdx]? = some .waiting ∧
          after.phases = before.phases.set targetIdx .probing)
      (hresults : after.results = before.results) (hok : after.okCount = before.okCount)
      (hfailed : after.failByReason = before.failByReason)
      (htables : after.allARPMACs = before.allARPMACs)

theorem failCount_recordFail (cycle : Cycle) (reason : DiscoveryFailReason) :
    (cycle.recordFail reason).failCount order = cycle.failCount order + 1 := by
  have hsum := Map.sum_range_insert cycle.failByReason order 12 reason
    ((cycle.failByReason.lookup reason).getD 0 + 1)
  simp only [Cycle.failCount, Cycle.recordFail]
  omega

theorem counts_recordFail {arrival : Arrival} (houtcome : arrival.outcome cfg = none)
    (cycle : Cycle) (reason : DiscoveryFailReason) :
    Counts cfg order arrival cycle (cycle.recordFail reason) := by
  constructor
  · simp [houtcome, Cycle.recordFail]
  · simp [houtcome, Cycle.recordFail]
  · rw [failCount_recordFail, houtcome]
    rfl
  · simp [houtcome, Cycle.recordFail]

theorem counts_aggregate (cycle : Cycle) (targetIdx : Nat) (probe : Probe)
    (deadlineExceeded : Bool) :
    Counts cfg order ⟨targetIdx, some probe⟩ cycle
      (cycle.aggregate cfg order targetIdx probe deadlineExceeded) := by
  have houtcome : (⟨targetIdx, some probe⟩ : Arrival).outcome cfg =
      probeTarget cfg targetIdx probe := rfl
  unfold Cycle.aggregate
  split
  next result arp hprobe =>
    rw [hprobe] at houtcome
    constructor <;> rw [houtcome] <;> rfl
  next hprobe => exact counts_recordFail (houtcome.trans hprobe) cycle _

theorem phases_aggregate (cycle : Cycle) (targetIdx : Nat) (probe : Probe)
    (deadlineExceeded : Bool) :
    (cycle.aggregate cfg order targetIdx probe deadlineExceeded).phases = cycle.phases := by
  unfold Cycle.aggregate
  split <;> rfl

variable {cycle next : Cycle} {targetIdx targets : Nat} {counted : List Arrival}
  {actions : List Action}

theorem exists_of_move {before after : Phase}
    (hmove : cycle.move targetIdx before after = some next) :
    cycle.phases[targetIdx]? = some before ∧
      next = { cycle with phases := cycle.phases.set targetIdx after } := by
  unfold Cycle.move at hmove
  split at hmove
  next hphase => exact ⟨hphase, (Option.some.inj hmove).symm⟩
  next => cases hmove

theorem step_progress {action : Action} (hstep : step cfg order action cycle = some next) :
    Progress cfg order action cycle next := by
  cases action with
  | expire =>
      cases hstep
      exact .none rfl (Or.inl rfl) rfl rfl rfl rfl
  | enter targetIdx =>
      obtain ⟨moved, hmove, hsend⟩ := Option.bind_eq_some_iff.mp hstep
      obtain ⟨sem, -, rfl⟩ := Option.map_eq_some_iff.mp hsend
      obtain ⟨hwaiting, rfl⟩ := exists_of_move hmove
      exact .none rfl (Or.inr ⟨targetIdx, hwaiting, rfl⟩) rfl rfl rfl rfl
  | refuse targetIdx =>
      simp only [step, Option.ite_none_right_eq_some, Option.map_eq_some_iff] at hstep
      obtain ⟨-, moved, hmove, rfl⟩ := hstep
      obtain ⟨hwaiting, rfl⟩ := exists_of_move hmove
      have hcounts := @counts_recordFail cfg order ⟨targetIdx, none⟩ rfl cycle .budgetExpired
      exact .counts ⟨targetIdx, none⟩ rfl ⟨.waiting, hwaiting, by decide⟩ rfl
        ⟨hcounts.results, hcounts.succeeded, hcounts.failed, hcounts.tables⟩
  | finish targetIdx probe deadlineExceeded =>
      obtain ⟨moved, hmove, hrelease⟩ := Option.bind_eq_some_iff.mp hstep
      obtain ⟨received, -, rfl⟩ := Option.map_eq_some_iff.mp hrelease
      obtain ⟨hprobing, rfl⟩ := exists_of_move hmove
      have hcounts := @counts_aggregate cfg order
        { cycle with phases := cycle.phases.set targetIdx .ended } targetIdx probe deadlineExceeded
      exact .counts ⟨targetIdx, some probe⟩ rfl ⟨.probing, hprobing, by decide⟩
        (phases_aggregate ..)
        ⟨hcounts.results, hcounts.succeeded, hcounts.failed, hcounts.tables⟩
  | panic targetIdx =>
      obtain ⟨moved, hmove, hrelease⟩ := Option.bind_eq_some_iff.mp hstep
      obtain ⟨received, -, rfl⟩ := Option.map_eq_some_iff.mp hrelease
      obtain ⟨hprobing, rfl⟩ := exists_of_move hmove
      have hcounts := @counts_recordFail cfg order ⟨targetIdx, none⟩ rfl cycle .panic
      exact .counts ⟨targetIdx, none⟩ rfl ⟨.probing, hprobing, by decide⟩ rfl
        ⟨hcounts.results, hcounts.succeeded, hcounts.failed, hcounts.tables⟩

/-- The tables of a cycle tell of the targets that have been counted so far. -/
structure Tally (cfg : Config) (order : RangeOrder) (targets : Nat) (counted : List Arrival)
    (cycle : Cycle) : Prop where
  goroutines : cycle.phases.length = targets
  nodup : (counted.map Arrival.targetIdx).Nodup
  ended : ∀ targetIdx, targetIdx ∈ counted.map Arrival.targetIdx ↔
    cycle.phases[targetIdx]? = some .ended
  results : cycle.results = (counted.filterMap (Arrival.outcome cfg)).map Prod.fst
  succeeded : cycle.okCount = cycle.results.length
  failed : cycle.failCount order = counted.countP (fun arrival => (arrival.outcome cfg).isNone)
  tables : cycle.allARPMACs = mergedARP order cfg counted

theorem tally_newCycle (targets parallelism : Nat) :
    Tally cfg order targets [] (newCycle targets parallelism) where
  goroutines := List.length_replicate
  nodup := List.nodup_nil
  ended := by
    intro targetIdx
    simp [newCycle, List.getElem?_replicate]
  results := rfl
  succeeded := rfl
  failed := by
    have hempty : ((∅ : Map DiscoveryFailReason Nat).range order 12) = [] :=
      List.perm_nil.mp (Map.perm_range ∅ order 12)
    rw [Cycle.failCount, newCycle, hempty]
    rfl
  tables := rfl

theorem Tally.step {action : Action} (htally : Tally cfg order targets counted cycle)
    (hstep : step cfg order action cycle = some next) :
    Tally cfg order targets (counted ++ action.arrival.toList) next := by
  cases step_progress hstep with
  | counts arrival harrival hrunning hphases hcounts =>
      obtain ⟨phase, hphase, hne⟩ := hrunning
      have hbound : arrival.targetIdx < cycle.phases.length :=
        (List.getElem?_eq_some_iff.mp hphase).1
      -- a goroutine that was still running has not been counted before
      have hnew : arrival.targetIdx ∉ counted.map Arrival.targetIdx := by
        rw [htally.ended, hphase, Option.some.injEq]
        exact hne
      rw [harrival, Option.toList_some]
      constructor
      · rw [hphases, List.length_set, htally.goroutines]
      · rw [List.map_append, List.nodup_append]
        refine ⟨htally.nodup, List.nodup_singleton _, ?_⟩
        intro first hfirst second hsecond heq
        rw [List.map_singleton, List.mem_singleton] at hsecond
        exact hnew (hsecond ▸ heq ▸ hfirst)
      · intro targetIdx
        rw [hphases, List.map_append, List.mem_append, htally.ended, List.map_singleton,
          List.mem_singleton, List.getElem?_set]
        by_cases hsame : arrival.targetIdx = targetIdx
        · simp [hsame ▸ hbound, hsame]
        · simp [hsame, Ne.symm hsame]
      · rw [hcounts.results, htally.results, List.filterMap_append, List.map_append,
          filterMap_cons_toList, List.filterMap_nil, List.append_nil]
      · rw [hcounts.succeeded, hcounts.results, htally.succeeded, List.length_append,
          List.length_map]
      · rw [hcounts.failed, htally.failed, List.countP_append, List.countP_singleton]
      · rw [hcounts.tables, htally.tables, mergedARP, mergedARP, List.filterMap_append,
          List.foldl_append, filterMap_cons_toList, List.filterMap_nil, List.append_nil]
  | none harrival hphases hresults hok hfailed htables =>
      rw [harrival, Option.toList_none, List.append_nil]
      -- admission moves a goroutine from waiting to running, and ends none
      have hdone : ∀ targetIdx : Nat, next.phases[targetIdx]? = some .ended ↔
          cycle.phases[targetIdx]? = some .ended := by
        intro targetIdx
        rcases hphases with hphases | ⟨admitted, hwaiting, hphases⟩
        · rw [hphases]
        · rw [hphases, List.getElem?_set]
          by_cases hsame : admitted = targetIdx
          · subst hsame
            rw [hwaiting]
            simp
          · rw [if_neg hsame]
      have hlength : next.phases.length = cycle.phases.length := by
        rcases hphases with hphases | ⟨admitted, hwaiting, hphases⟩
        · rw [hphases]
        · rw [hphases, List.length_set]
      constructor
      · rw [hlength, htally.goroutines]
      · exact htally.nodup
      · intro targetIdx
        rw [hdone, htally.ended]
      · rw [hresults, htally.results]
      · rw [hok, hresults, htally.succeeded]
      · rw [Cycle.failCount, hfailed]
        exact htally.failed
      · rw [htables, htally.tables]

theorem tally_of_run {parallelism : Nat} {final : Cycle}
    (hrun : run (step cfg order) actions (newCycle targets parallelism) = some final) :
    Tally cfg order targets (arrivals actions) final := by
  have hfrom : ∀ (counted : List Arrival) (cycle : Cycle),
      Tally cfg order targets counted cycle → run (step cfg order) actions cycle = some final →
        Tally cfg order targets (counted ++ arrivals actions) final := by
    clear hrun
    induction actions with
    | nil =>
        intro counted cycle htally hrun
        cases hrun
        rw [arrivals, List.filterMap_nil, List.append_nil]
        exact htally
    | cons action rest ih =>
        intro counted cycle htally hrun
        obtain ⟨next, hnext, hrest⟩ := run_cons_eq_some.mp hrun
        rw [arrivals, filterMap_cons_toList, ← List.append_assoc]
        exact ih _ next (htally.step hnext) hrest
  exact hfrom [] _ (tally_newCycle targets parallelism) hrun

/-- All goroutines are done, and `Wait` returns. -/
def Finished (cycle : Cycle) : Prop := ∀ phase ∈ cycle.phases, phase = .ended

/-- Each target is counted once. -/
theorem perm_range_of_finished (htally : Tally cfg order targets counted cycle)
    (hfinished : Finished cycle) : (counted.map Arrival.targetIdx).Perm (List.range targets) := by
  rw [List.perm_ext_iff_of_nodup htally.nodup List.nodup_range]
  intro targetIdx
  rw [htally.ended, List.mem_range, ← htally.goroutines]
  constructor
  · intro hphase
    exact (List.getElem?_eq_some_iff.mp hphase).1
  · intro hbound
    rw [List.getElem?_eq_getElem hbound, hfinished _ (List.getElem_mem hbound)]

/-- However the goroutines are scheduled, they put together the cycle of the targets in the
order in which they were counted. When all are done, each target was counted once. -/
theorem goroutines_refine_runCycle {parallelism : Nat} {final : Cycle}
    (hrun : run (step cfg order) actions (newCycle targets parallelism) = some final)
    (prevAges : Option (Map Graph.EdgeKey Int)) :
    final.returned cfg order prevAges = runCycle cfg order (arrivals actions) prevAges ∧
      (Finished final →
        ((arrivals actions).map Arrival.targetIdx).Perm (List.range targets)) := by
  have htally := tally_of_run hrun
  refine ⟨?_, perm_range_of_finished htally⟩
  rw [Cycle.returned, runCycle, htally.tables, htally.failed, htally.results]
  rfl

/-! ## Exactly once -/

/-- The probe of the target found the device. -/
def Succeeds (cfg : Config) (actions : List Action) (targetIdx : Nat) (device : Device) : Prop :=
  ∃ probe deadlineExceeded result arp, Action.finish targetIdx probe deadlineExceeded ∈ actions ∧
    probeTarget cfg targetIdx probe = some (result, arp) ∧ result.device = device

theorem succeeds_iff_arrival {device : Device} :
    Succeeds cfg actions targetIdx device ↔
      ∃ arrival ∈ arrivals actions, arrival.targetIdx = targetIdx ∧
        ∃ outcome, arrival.outcome cfg = some outcome ∧ outcome.1.device = device := by
  constructor
  · intro ⟨probe, deadlineExceeded, result, arp, haction, hprobe, hdevice⟩
    have harrival : (⟨targetIdx, some probe⟩ : Arrival) ∈ arrivals actions :=
      List.mem_filterMap.mpr ⟨_, haction, rfl⟩
    exact ⟨_, harrival, rfl, (result, arp), hprobe, hdevice⟩
  · intro ⟨arrival, harrival, hindex, outcome, houtcome, hdevice⟩
    subst hindex
    obtain ⟨action, haction, hends⟩ := List.mem_filterMap.mp harrival
    obtain ⟨probe, hprobe, hresult⟩ := Option.bind_eq_some_iff.mp houtcome
    cases action with
    | finish targetIdx ran deadlineExceeded =>
        cases hends
        cases hprobe
        exact ⟨probe, deadlineExceeded, outcome.1, outcome.2, haction, hresult, hdevice⟩
    | refuse targetIdx =>
        cases hends
        cases hprobe
    | panic targetIdx =>
        cases hends
        cases hprobe
    | expire => cases hends
    | enter targetIdx => cases hends

theorem succeeds_iff_result {device : Device} :
    Succeeds cfg actions targetIdx device ↔
      ∃ result ∈ ((arrivals actions).filterMap (Arrival.outcome cfg)).map Prod.fst,
        result.targetIdx = targetIdx ∧ result.device = device := by
  rw [succeeds_iff_arrival]
  simp only [List.mem_map, List.mem_filterMap]
  constructor
  · intro ⟨arrival, harrival, hindex, outcome, houtcome, hdevice⟩
    obtain ⟨probe, hanswered⟩ := answered_of_outcome houtcome
    exact ⟨outcome.1, ⟨outcome, ⟨arrival, harrival, houtcome⟩, rfl⟩,
      hanswered.targetIdx.trans hindex, hdevice⟩
  · intro ⟨result, ⟨outcome, ⟨arrival, harrival, houtcome⟩, hresult⟩, hindex, hdevice⟩
    subst hresult
    obtain ⟨probe, hanswered⟩ := answered_of_outcome houtcome
    exact ⟨arrival, harrival, hanswered.targetIdx.symm.trans hindex, outcome, houtcome, hdevice⟩

/-- The failures are the targets that did not succeed. -/
theorem countP_failed {targets : Nat} {actions : List Action}
    (hperm : ((arrivals actions).map Arrival.targetIdx).Perm (List.range targets)) :
    (arrivals actions).countP (fun arrival => (arrival.outcome cfg).isNone) =
      {targetIdx | targetIdx < targets ∧
        ¬ ∃ device, Succeeds cfg actions targetIdx device}.ncard := by
  have hnodup := hperm.nodup_iff.mpr List.nodup_range
  let failing := ((arrivals actions).filter (fun arrival => (arrival.outcome cfg).isNone)).map
    Arrival.targetIdx
  have hset : {targetIdx | targetIdx < targets ∧
      ¬ ∃ device, Succeeds cfg actions targetIdx device} = ↑failing.toFinset := by
    ext targetIdx
    simp only [Set.mem_ofPred_eq, List.coe_toFinset, failing, List.mem_map, List.mem_filter]
    rw [← List.mem_range, ← hperm.mem_iff, List.mem_map]
    constructor
    · intro ⟨⟨arrival, harrival, hindex⟩, hnone⟩
      refine ⟨arrival, ⟨harrival, ?_⟩, hindex⟩
      rw [Option.isNone_iff_eq_none]
      by_contra hsome
      obtain ⟨outcome, houtcome⟩ := Option.ne_none_iff_exists'.mp hsome
      exact hnone ⟨_, succeeds_iff_arrival.mpr ⟨arrival, harrival, hindex, outcome, houtcome, rfl⟩⟩
    · intro ⟨arrival, ⟨harrival, hnone⟩, hindex⟩
      refine ⟨⟨arrival, harrival, hindex⟩, fun ⟨device, hsucceeds⟩ => ?_⟩
      obtain ⟨other, hother, hsame, outcome, houtcome, -⟩ := succeeds_iff_arrival.mp hsucceeds
      have heq := List.inj_on_of_nodup_map hnodup harrival hother (hindex.trans hsame.symm)
      rw [heq, houtcome] at hnone
      cases hnone
  have hdistinct : failing.Nodup := (List.filter_sublist.map _).nodup hnodup
  rw [hset, Set.ncard_coe_finset, List.toFinset_card_of_nodup hdistinct, List.length_map,
    List.countP_eq_length_filter]

/-- Whatever the schedule and the fate of the probes, a cycle counts each of its targets
once, reports as many failures as targets did not succeed, and returns for each device
the one of the first configured target that found it. -/
theorem each_target_counted_once (cfg : Config) (order : RangeOrder) (targets parallelism : Nat)
    (actions : List Action) (final : Cycle)
    (hrun : run (step cfg order) actions (newCycle targets parallelism) = some final)
    (hfinished : Finished final) (prevAges : Option (Map Graph.EdgeKey Int)) :
    final.okCount + final.failCount order = targets ∧
    (final.returned cfg order prevAges).failed =
      {targetIdx | targetIdx < targets ∧
        ¬ ∃ device, Succeeds cfg actions targetIdx device}.ncard ∧
    ((final.returned cfg order prevAges).graph.devices.map Device.id).Nodup ∧
    ∀ device, device ∈ (final.returned cfg order prevAges).graph.devices ↔
      ∃ targetIdx, Succeeds cfg actions targetIdx device ∧
        ∀ other same, Succeeds cfg actions other same → same.id = device.id →
          targetIdx ≤ other := by
  have htally := tally_of_run hrun
  have hperm := perm_range_of_finished htally hfinished
  refine ⟨?_, ?_, nodup_keepFirst _, ?_⟩
  · -- the arrivals are a permutation of the targets, each a success or a failure
    have hlength := hperm.length_eq
    rw [List.length_map, List.length_range] at hlength
    have hsplit := (arrivals actions).length_eq_countP_add_countP
      (fun arrival => (arrival.outcome cfg).isSome)
    rw [htally.succeeded, htally.results, htally.failed, List.length_map, ← hlength,
      List.length_filterMap_eq_countP, hsplit]
    congr 2
    funext arrival
    cases arrival.outcome cfg <;> rfl
  · rw [← countP_failed hperm, ← htally.failed]
    rfl
  · intro device
    -- the results are sorted by target, and the first of each device is kept
    let sorted := final.results.insertionSort
      (fun first second => first.targetIdx ≤ second.targetIdx)
    have hplaces : (sorted.map ProbeResult.targetIdx).Nodup := by
      rw [((List.perm_insertionSort _ final.results).map _).nodup_iff, htally.results,
        List.map_map]
      refine List.Sublist.nodup (map_filterMap_sublist ?_) htally.nodup
      intro arrival _ outcome houtcome
      obtain ⟨probe, hanswered⟩ := answered_of_outcome houtcome
      exact hanswered.targetIdx
    change device ∈ keepFirst Device.id (sorted.map ProbeResult.device) ↔ _
    rw [mem_keepFirst, find?_map_eq_some_iff ProbeResult.targetIdx
      (List.pairwise_insertionSort _ _) hplaces]
    simp only [List.mem_insertionSort, htally.results, succeeds_iff_result, decide_eq_true_eq]
    constructor
    · intro ⟨result, hresult, hdevice, _, hleast⟩
      refine ⟨result.targetIdx, ⟨result, hresult, rfl, hdevice⟩, ?_⟩
      intro other same ⟨found, hfound, hindex, hsame⟩ hid
      rw [← hindex]
      exact hleast found hfound (hsame ▸ hid)
    · intro ⟨targetIdx, ⟨result, hresult, hindex, hdevice⟩, hleast⟩
      refine ⟨result, hresult, hdevice, trivial, fun found hfound hid => ?_⟩
      rw [hindex]
      exact hleast found.targetIdx found.device ⟨found, hfound, rfl, rfl⟩ hid

/-- Of four targets two lead to the same router. One goroutine finds the budget used up,
and one panics. -/
def mixedCycle : List Action :=
  [.enter 2, .enter 0, .finish 2 (labRouter []) false, .enter 3, .expire, .refuse 1, .panic 3,
    .finish 0 (labRouter []) false]

def quietConfig : Config := { labConfig with cdp := false, bgp := false }

theorem mixed_cycle_counted :
    ∃ final, run (step quietConfig .insertion) mixedCycle (newCycle 4 2) = some final ∧
      final.okCount = 2 ∧ final.failCount .insertion = 2 ∧
      final.okCount + final.failCount .insertion = 4 := by
  have hrun : (run (step quietConfig .insertion) mixedCycle (newCycle 4 2)).map
      (fun final => (final.phases, final.okCount, final.failCount .insertion)) =
      some ([.ended, .ended, .ended, .ended], 2, 2) := by
    decide
  obtain ⟨final, hfinal, hvalues⟩ := Option.map_eq_some_iff.mp hrun
  simp only [Prod.mk.injEq] at hvalues
  obtain ⟨hphases, hok, hfailed⟩ := hvalues
  have hfinished : Finished final := by
    rw [Finished, hphases]
    decide
  exact ⟨final, hfinal, hok, hfailed, (each_target_counted_once quietConfig .insertion 4 2
    mixedCycle final hfinal hfinished none).1⟩

theorem mixed_cycle_sequential :
    ∃ final, run (step quietConfig .insertion) mixedCycle (newCycle 4 2) = some final ∧
      final.returned quietConfig .insertion none =
        runCycle quietConfig .insertion (arrivals mixedCycle) none :=
  ⟨_, rfl, (@goroutines_refine_runCycle quietConfig .insertion 4 mixedCycle 2 _ rfl none).1⟩

end TopologyExporter.App.Accounting
