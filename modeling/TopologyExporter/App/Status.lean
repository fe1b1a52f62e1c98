import TopologyExporter.App.Expiry
import TopologyExporter.Foundation.Transition

/-! # The status of the modules

A module that runs on a device ends as ok, degraded or failed. A cycle publishes
the worst status of each module in a gauge. The worst statuses are collected in
a table that is raised but never set to zero, so a module that is ok everywhere
is not in the table, and its gauge keeps the value of an earlier cycle.
-/

namespace TopologyExporter.App

open Go Discovery Transition

/-! ## One device -/

/-- The reasons an edge gives for being degraded. -/
def edgeReasons (edge : Edge) : List GoString :=
  if (edge.metadata.lookup metadataKeyDegraded).getD [] ≠ str "true" then []
  else
    (Strings.split 0x2C ((edge.metadata.lookup metadataKeyDegradedReason).getD [])).map
      (fun reason =>
        let trimmed := Strings.trimSpace reason
        if trimmed = [] then str "unknown" else trimmed)

def collectDegradedReasons (order : RangeOrder) (edges : List Edge) : List GoString :=
  let unique : Map GoString Bool :=
    (edges.flatMap edgeReasons).foldl (fun table reason => table.insert reason true) ∅
  (unique.range order 7).map Prod.fst

/-- 0 for ok, 1 for degraded, 2 for failed. -/
def walkStatus (order : RangeOrder) (outcome : Except WalkError WalkResult) : Nat :=
  match outcome with
  | .error _ => 2
  | .ok result => if 0 < (collectDegradedReasons order result.edges).length then 1 else 0

/-- The statuses that `walkModules` returns with its edges: one for each module
that runs. -/
def moduleStatus (cfg : Config) (probe : Probe) (params : Params) (device : Device)
    (ip : Net.IP) : Map GoString Nat :=
  ((enabledModules cfg).filter (fun proto =>
    (cfg.modulesForIP ip).all (fun allowed => proto ∈ allowed))).foldl (fun statuses proto =>
      match walkModule cfg probe params device.id proto with
      | .error error => statuses.insert proto (walkStatus (probe.order proto) (.error error))
      | .ok result => Map.insertNew statuses (proto, walkStatus (probe.order proto) (.ok result))) ∅

/-- The statuses of a target that answers. -/
def probeStatus (cfg : Config) (targetIdx : Nat) (probe : Probe) :
    Option (Nat × Map GoString Nat) :=
  (probeTarget cfg targetIdx probe).bind (fun (result, _) => probe.ip.map (fun ip =>
    (result.targetIdx,
      moduleStatus cfg probe (walkParams cfg probe result.device) result.device ip)))

/-! ## All devices -/

/-- The statuses of all results, in the order of the configuration. -/
def moduleStatuses (cfg : Config) (arrivals : List Arrival) : List (Map GoString Nat) :=
  ((arrivals.filterMap (fun arrival =>
    arrival.probe.bind (probeStatus cfg arrival.targetIdx))).insertionSort
      (fun first second => first.1 ≤ second.1)).map Prod.snd

def raise (worst : Map GoString Nat) (row : GoString × Nat) : Map GoString Nat :=
  if (worst.lookup row.1).getD 0 < row.2 then worst.insert row.1 row.2 else worst

def worstStatus (order : RangeOrder) (statuses : List (Map GoString Nat)) : Map GoString Nat :=
  (statuses.flatMap (fun status => status.range order 7)).foldl raise ∅

/-- The gauge of the modules after a cycle. -/
def publishStatus (order : RangeOrder) (worst moduleLastStatus : Map GoString Nat) :
    Map GoString Nat :=
  (worst.range order 8).foldl (fun gauge row => gauge.insert row.1 row.2) moduleLastStatus

/-- What a cycle does to the gauge. -/
def statusStep (cfg : Config) (round : Round) (moduleLastStatus : Map GoString Nat) :
    Option (Map GoString Nat) :=
  some (publishStatus round.order
    (worstStatus round.order (moduleStatuses cfg round.arrivals)) moduleLastStatus)

/-- The value of a gauge. A series that was never set reads as zero. -/
def gaugeValue (gauge : Map GoString Nat) (proto : GoString) : Nat := (gauge.lookup proto).getD 0

/-- The statuses of a module on the devices it ran on. -/
def StatusOf (cfg : Config) (round : Round) (proto : GoString) : Set Nat :=
  { status | ∃ statuses ∈ moduleStatuses cfg round.arrivals, statuses.lookup proto = some status }

/-- After the cycle, the gauge of every module that ran is the worst of its
statuses. -/
def ReportsWorst (cfg : Config) (round : Round) (gauge : Map GoString Nat) : Prop :=
  ∀ next, statusStep cfg round gauge = some next → ∀ proto worst,
    IsGreatest (StatusOf cfg round proto) worst → gaugeValue next proto = worst

theorem gaugeValue_raise (worst : Map GoString Nat) (row : GoString × Nat) (proto : GoString) :
    gaugeValue (raise worst row) proto =
      if row.1 = proto then max (gaugeValue worst proto) row.2 else gaugeValue worst proto := by
  unfold raise gaugeValue
  by_cases hproto : row.1 = proto
  · subst hproto
    rw [if_pos rfl]
    split_ifs with hless
    · rw [AList.lookup_insert, Option.getD_some, max_eq_right hless.le]
    · rw [max_eq_left (not_lt.mp hless)]
  · rw [if_neg hproto]
    split_ifs with hless
    · rw [AList.lookup_insert_ne (Ne.symm hproto)]
    · rfl

/-- The table holds the least upper bound of the rows. -/
theorem gaugeValue_foldl_raise_le (worst : Map GoString Nat) (rows : List (GoString × Nat))
    (proto : GoString) (bound : Nat) :
    gaugeValue (rows.foldl raise worst) proto ≤ bound ↔
      gaugeValue worst proto ≤ bound ∧ ∀ row ∈ rows, row.1 = proto → row.2 ≤ bound := by
  induction rows generalizing worst with
  | nil => simp
  | cons row rest ih =>
      rw [List.foldl_cons, ih, gaugeValue_raise, List.forall_mem_cons]
      split_ifs with hproto
      · rw [max_le_iff]
        tauto
      · tauto

variable {proto : GoString} {statuses : List (Map GoString Nat)}

theorem gaugeValue_worstStatus_le {cfg : Config} {round : Round} {bound : Nat} :
    gaugeValue (worstStatus round.order (moduleStatuses cfg round.arrivals)) proto ≤ bound ↔
      ∀ status ∈ StatusOf cfg round proto, status ≤ bound := by
  rw [worstStatus, gaugeValue_foldl_raise_le]
  constructor
  · rintro ⟨-, hrows⟩ status ⟨statuses, hstatuses, hlookup⟩
    refine hrows (proto, status) (List.mem_flatMap.mpr ⟨statuses, hstatuses, ?_⟩) rfl
    exact Map.mem_range.mpr hlookup
  · intro hbound
    refine ⟨Nat.zero_le bound, ?_⟩
    rintro ⟨found, status⟩ hrow rfl
    obtain ⟨statuses, hstatuses, hrange⟩ := List.mem_flatMap.mp hrow
    exact hbound status ⟨statuses, hstatuses, Map.mem_range.mp hrange⟩

/-- The table has the maximum of the statuses. -/
theorem gaugeValue_worstStatus {cfg : Config} {round : Round} {worst : Nat}
    (hworst : IsGreatest (StatusOf cfg round proto) worst) :
    gaugeValue (worstStatus round.order (moduleStatuses cfg round.arrivals)) proto = worst := by
  apply le_antisymm
  · exact gaugeValue_worstStatus_le.mpr hworst.2
  · exact gaugeValue_worstStatus_le.mp le_rfl worst hworst.1

/-- A status in the table is not zero. -/
theorem pos_of_lookup_worstStatus {order : RangeOrder} {status : Nat}
    (hlookup : (worstStatus order statuses).lookup proto = some status) : 0 < status := by
  have hinvariant : ∀ (rows : List (GoString × Nat)) (worst : Map GoString Nat),
      (∀ proto status, worst.lookup proto = some status → 0 < status) →
      ∀ proto status, (rows.foldl raise worst).lookup proto = some status → 0 < status := by
    intro rows
    induction rows with
    | nil => exact fun _ hpositive => hpositive
    | cons row rest ih =>
        intro worst hpositive
        refine ih (raise worst row) ?_
        intro found held hheld
        unfold raise at hheld
        split_ifs at hheld with hless
        · by_cases hsame : found = row.1
          · subst hsame
            rw [AList.lookup_insert] at hheld
            cases hheld
            exact Nat.zero_lt_of_lt hless
          · rw [AList.lookup_insert_ne hsame] at hheld
            exact hpositive found held hheld
        · exact hpositive found held hheld
  exact hinvariant _ ∅ (fun _ _ hempty => by cases hempty) proto status hlookup

/-- A cycle sets the gauge of a module whose worst status is not zero, and
leaves it alone otherwise. -/
theorem gaugeValue_publishStatus {order publishOrder : RangeOrder} (gauge : Map GoString Nat)
    (proto : GoString) :
    gaugeValue (publishStatus publishOrder (worstStatus order statuses) gauge) proto =
      if gaugeValue (worstStatus order statuses) proto = 0 then gaugeValue gauge proto
      else gaugeValue (worstStatus order statuses) proto := by
  unfold publishStatus
  rw [gaugeValue, Map.lookup_foldl_insert_range]
  cases hlookup : (worstStatus order statuses).lookup proto with
  | none => simp [gaugeValue, hlookup]
  | some status =>
      have hpositive := pos_of_lookup_worstStatus hlookup
      simp [gaugeValue, hlookup, hpositive.ne']

/-! ## Runs of cycles -/

section Runs

variable {cfg : Config} {round : Round} {proto : GoString}

/-- The module was degraded on a device, or failed. -/
def Impaired (cfg : Config) (round : Round) (proto : GoString) : Prop :=
  ∃ status ∈ StatusOf cfg round proto, status ≠ 0

/-- The module ran, and was ok on every device. -/
def AllOk (cfg : Config) (round : Round) (proto : GoString) : Prop :=
  (StatusOf cfg round proto).Nonempty ∧ ¬ Impaired cfg round proto

theorem gaugeValue_worstStatus_eq_zero :
    gaugeValue (worstStatus round.order (moduleStatuses cfg round.arrivals)) proto = 0 ↔
      ¬ Impaired cfg round proto := by
  rw [← Nat.le_zero, gaugeValue_worstStatus_le]
  simp [Impaired]

/-- The gauge reads zero after a cycle if it did before and the module was ok. -/
theorem gaugeValue_eq_zero_iff (gauge : Map GoString Nat) :
    gaugeValue (publishStatus round.order
        (worstStatus round.order (moduleStatuses cfg round.arrivals)) gauge) proto = 0 ↔
      ¬ Impaired cfg round proto ∧ gaugeValue gauge proto = 0 := by
  rw [gaugeValue_publishStatus, ← gaugeValue_worstStatus_eq_zero]
  split_ifs with hzero
  · simp [hzero]
  · simp [hzero]

/-- A cycle reports the worst statuses exactly if no module that is ok has a
value left from an earlier cycle. -/
theorem reportsWorst_iff (gauge : Map GoString Nat) :
    ReportsWorst cfg round gauge ↔
      ∀ proto, AllOk cfg round proto → gaugeValue gauge proto = 0 := by
  constructor
  · intro hreports proto hok
    have hgreatest : IsGreatest (StatusOf cfg round proto) 0 := by
      have hzero : ∀ status ∈ StatusOf cfg round proto, status = 0 := by
        intro status hstatus
        by_contra hne
        exact hok.2 ⟨status, hstatus, hne⟩
      obtain ⟨status, hstatus⟩ := hok.1
      exact ⟨hzero status hstatus ▸ hstatus, fun other hother => (hzero other hother).le⟩
    exact ((gaugeValue_eq_zero_iff gauge).mp (hreports _ rfl proto 0 hgreatest)).2
  · intro hclean next hnext proto worst hworst
    cases hnext
    have hvalue := gaugeValue_worstStatus hworst
    rw [gaugeValue_publishStatus, hvalue]
    split_ifs with hzero
    · rw [hzero] at hvalue ⊢
      exact hclean proto ⟨⟨worst, hworst.1⟩, gaugeValue_worstStatus_eq_zero.mp hvalue⟩
    · rfl

theorem throughout_reportsWorst_iff (rounds : List Round) (gauge : Map GoString Nat) :
    Throughout (statusStep cfg) (ReportsWorst cfg) rounds gauge ↔
      (∀ round ∈ rounds, ∀ proto, AllOk cfg round proto → gaugeValue gauge proto = 0) ∧
        rounds.Pairwise (fun earlier later =>
          ∀ proto, Impaired cfg earlier proto → ¬ AllOk cfg later proto) := by
  induction rounds generalizing gauge with
  | nil => simp [Throughout]
  | cons round rest ih =>
      simp only [Throughout, statusStep, Option.some.injEq, forall_eq', ih, reportsWorst_iff,
        gaugeValue_eq_zero_iff, List.forall_mem_cons, List.pairwise_cons]
      constructor
      · rintro ⟨hround, hrest, hpairs⟩
        refine ⟨⟨hround, fun later hlater proto hok => (hrest later hlater proto hok).2⟩, ?_,
          hpairs⟩
        intro later hlater proto himpaired hok
        exact (hrest later hlater proto hok).1 himpaired
      · rintro ⟨⟨hround, hclean⟩, himpaired, hpairs⟩
        refine ⟨hround, fun later hlater proto hok => ⟨?_, hclean later hlater proto hok⟩, hpairs⟩
        intro hbefore
        exact himpaired later hlater proto hbefore hok

/-- From the start of the exporter on, every cycle reports the worst status of
every module that ran exactly if no module that was degraded or failed is ok on
all its devices in a later cycle. -/
theorem module_status_reported_iff (cfg : Config) (rounds : List Round) :
    Throughout (statusStep cfg) (ReportsWorst cfg) rounds ∅ ↔
      rounds.Pairwise (fun earlier later =>
        ∀ proto, Impaired cfg earlier proto → ¬ AllOk cfg later proto) := by
  rw [throughout_reportsWorst_iff]
  refine and_iff_right ?_
  intro round _ proto _
  rfl

end Runs

/-- The router when it answers for its name and for nothing else. -/
def silentRouter : Probe :=
  { cdpRouter with
    agent := { cdpRouter.agent with bulkWalk := fun _ => .error (.transport (str "timeout")) } }

def failingRound : Round := ⟨.insertion, [⟨0, some silentRouter⟩]⟩

def answeringRound : Round := ⟨.insertion, [⟨0, some cdpRouter⟩]⟩

/-- The status of the CDP module when the router answers, and its gauge after a
cycle in which it was silent. -/
theorem cdpStatus_evaluated :
    (moduleStatuses labConfig answeringRound.arrivals).map
      (fun statuses => statuses.lookup (str "cdp")) = [some 0] ∧
    ((statusStep labConfig failingRound ∅).bind fun gauge =>
      (statusStep labConfig answeringRound gauge).map fun final =>
        gaugeValue final (str "cdp")) = some 2 := by
  decide +kernel

theorem mem_statusOf_answeringRound {status : Nat} :
    status ∈ StatusOf labConfig answeringRound (str "cdp") ↔ status = 0 := by
  have hmem : status ∈ StatusOf labConfig answeringRound (str "cdp") ↔
      some status ∈ (moduleStatuses labConfig answeringRound.arrivals).map
        (fun statuses => statuses.lookup (str "cdp")) :=
    List.mem_map.symm
  rw [hmem, cdpStatus_evaluated.1, List.mem_singleton, Option.some.injEq]

/-- The CDP module fails in the first cycle and is ok in the second, after which
its gauge still says that it failed. -/
theorem recovered_module_reported_failed :
    ∃ gauge final, statusStep labConfig failingRound ∅ = some gauge ∧
      statusStep labConfig answeringRound gauge = some final ∧
      IsGreatest (StatusOf labConfig answeringRound (str "cdp")) 0 ∧
      gaugeValue final (str "cdp") = 2 ∧ ¬ ReportsWorst labConfig answeringRound gauge := by
  obtain ⟨gauge, hgauge, hrest⟩ := Option.bind_eq_some_iff.mp cdpStatus_evaluated.2
  obtain ⟨final, hlast, hvalue⟩ := Option.map_eq_some_iff.mp hrest
  have hgreatest : IsGreatest (StatusOf labConfig answeringRound (str "cdp")) 0 :=
    ⟨mem_statusOf_answeringRound.mpr rfl,
      fun status hstatus => (mem_statusOf_answeringRound.mp hstatus).le⟩
  refine ⟨gauge, final, hgauge, hlast, hgreatest, hvalue, ?_⟩
  intro hreports
  have hzero := hreports final hlast (str "cdp") 0 hgreatest
  rw [hvalue] at hzero
  cases hzero

end TopologyExporter.App
