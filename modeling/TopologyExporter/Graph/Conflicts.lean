import TopologyExporter.Discovery.Bgp
import TopologyExporter.Graph.Reconcile

/-! # Conflicts

Reconciliation reports a port on which different devices were seen. The
observations reach the report by way of their links and ranks, in an order that
is not fixed. Which ports are reported, and under which name, depends on the
observations alone. The protocols that a report lists and the order of its edges
are another matter: they come from the links of the port.
-/

namespace TopologyExporter.Graph

open Go Discovery

/-- The port that an observation was made on. -/
def portOf (edge : Edge) : GoString × GoString := (edge.srcDevice, normalizePortName edge.srcPort)

instance decidableJoins (ends : EdgeKey) : Decidable (Joins ends) :=
  decidable_of_iff
    (ends.srcDevice ≠ [] ∧ ends.dstDevice ≠ [] ∧ ends.srcDevice ≠ ends.dstDevice)
    ⟨fun ⟨hsrc, hdst, hdistinct⟩ => ⟨hsrc, hdst, hdistinct⟩,
      fun hjoins => ⟨hjoins.src, hjoins.dst, hjoins.distinct⟩⟩

/-- The observations on a port that name two different devices, their own and
another one. -/
def observationsAt (edges : List Edge) (port : GoString × GoString) : List Edge :=
  edges.filter (fun edge => Joins (endpoints edge) ∧ portOf edge = port)

/-- Different devices were seen on the port. -/
def Disputed (edges : List Edge) (port : GoString × GoString) : Prop :=
  ∃ first ∈ observationsAt edges port, ∃ second ∈ observationsAt edges port,
    first.dstDevice ≠ second.dstDevice

instance decidableDisputed (edges : List Edge) (port : GoString × GoString) :
    Decidable (Disputed edges port) :=
  inferInstanceAs (Decidable (∃ first ∈ observationsAt edges port, _))

variable {edge : Edge} {port : GoString × GoString}

theorem exists_groupKey : (∃ link, groupKey edge = some link) ↔ Joins (endpoints edge) := by
  simp only [groupKey_eq_some]
  constructor
  · rintro ⟨link, hsrc, hdst, hdistinct, -⟩
    exact ⟨hsrc, hdst, hdistinct⟩
  · intro hjoins
    exact ⟨_, hjoins.src, hjoins.dst, hjoins.distinct, rfl⟩

variable {edges : List Edge}

theorem mem_observationsAt :
    edge ∈ observationsAt edges port ↔
      edge ∈ edges ∧ portOf edge = port ∧ ∃ link, groupKey edge = some link := by
  simp only [observationsAt, List.mem_filter, decide_eq_true_eq, exists_groupKey]
  rw [and_comm (a := Joins (endpoints edge))]

/-- Observations on one port that name different devices are of different links. -/
theorem dstDevice_eq_of_groupKey {first second : Edge} {link : EdgeKey}
    (hfirst : groupKey first = some link) (hsecond : groupKey second = some link)
    (hport : portOf first = portOf second) : first.dstDevice = second.dstDevice := by
  have hsrc : first.srcDevice = second.srcDevice := congrArg Prod.fst hport
  rcases devices_of_groupKey hfirst with ⟨hown, hside, hother⟩ | ⟨hown, hside, hother⟩
  all_goals rcases devices_of_groupKey hsecond with
    ⟨hown', hside', hother'⟩ | ⟨hown', hside', hother'⟩
  · exact congrArg EdgeKey.dstDevice (hown.symm.trans hown')
  · exact absurd (hsrc.trans hside') hother
  · exact absurd (hsrc.symm.trans hside) hother'
  · exact congrArg EdgeKey.srcDevice (hown.symm.trans hown')

/-! ## The observations under a port -/

/-- What the index of ports holds for a port. -/
def neighboursAt (order : RangeOrder) (table : Map EdgeKey Group) (port : GoString × GoString) :
    List PortObservation :=
  ((portObservations order table).filter (fun item => item.1 = port)).map Prod.snd

/-- The buckets of a group hold its observations, whatever their rank. -/
theorem Group.Represents.mem_byRank {group : Group} {observations : List Edge}
    (hgroup : group.Represents observations) (order : RangeOrder) :
    (∃ bucket ∈ group.byRank.range order 2, edge ∈ bucket.2) ↔ edge ∈ observations := by
  constructor
  · rintro ⟨⟨rank, bucket⟩, hbucket, hedge⟩
    have hheld := hgroup.byRank rank
    rw [Map.mem_range.mp hbucket, Option.getD_some] at hheld
    rw [hheld] at hedge
    exact List.mem_of_mem_filter hedge
  · intro hedge
    have hmem : edge ∈ (group.byRank.lookup edge.precedenceRank).getD [] := by
      rw [hgroup.byRank]
      exact List.mem_filter.mpr ⟨hedge, decide_eq_true rfl⟩
    cases hheld : group.byRank.lookup edge.precedenceRank with
    | none => simp [hheld] at hmem
    | some bucket =>
        rw [hheld] at hmem
        exact ⟨(edge.precedenceRank, bucket), Map.mem_range.mpr hheld, hmem⟩

/-- An observation as it is filed under its port. -/
def portObservation (link : EdgeKey) (edge : Edge) : PortObservation :=
  ⟨link, edge.dstDevice, edge.srcPort⟩

section Ports

variable {order : RangeOrder} {edges : List Edge} {port : GoString × GoString}
  {filed : PortObservation}

theorem mem_neighboursAt :
    filed ∈ neighboursAt order (groups edges) port ↔
      ∃ edge ∈ edges, ∃ link, groupKey edge = some link ∧ portOf edge = port ∧
        filed = portObservation link edge := by
  simp only [neighboursAt, portObservations, List.mem_map, List.mem_filter, List.mem_flatMap,
    decide_eq_true_eq]
  constructor
  · rintro ⟨item, ⟨⟨⟨link, group⟩, hgroup, bucket, hbucket, edge, hedge, rfl⟩, hport⟩, rfl⟩
    have hrepresents := (groups_represents (Map.mem_range.mp hgroup)).2
    obtain ⟨hmem, hkey⟩ :=
      mem_observationsOf.mp ((hrepresents.mem_byRank order).mp ⟨bucket, hbucket, hedge⟩)
    exact ⟨edge, hmem, link, hkey, hport, rfl⟩
  · rintro ⟨edge, hedge, link, hkey, hport, rfl⟩
    have hmem := mem_observationsOf.mpr ⟨hedge, hkey⟩
    obtain ⟨group, hgroup, hrepresents⟩ := lookup_groups (List.ne_nil_of_mem hmem)
    obtain ⟨bucket, hbucket, hedge⟩ := (hrepresents.mem_byRank order).mpr hmem
    exact ⟨(portOf edge, portObservation link edge),
      ⟨⟨(link, group), Map.mem_range.mpr hgroup, bucket, hbucket, edge, hedge, rfl⟩, hport⟩, rfl⟩

theorem mem_neighboursAt_iff :
    filed ∈ neighboursAt order (groups edges) port ↔
      ∃ edge ∈ observationsAt edges port,
        filed = portObservation (normalizedGroupKey edge) edge := by
  rw [mem_neighboursAt]
  constructor
  · rintro ⟨edge, hedge, link, hkey, hport, rfl⟩
    obtain ⟨-, -, -, rfl⟩ := groupKey_eq_some.mp hkey
    exact ⟨edge, mem_observationsAt.mpr ⟨hedge, hport, _, hkey⟩, rfl⟩
  · rintro ⟨edge, hedge, rfl⟩
    obtain ⟨hmem, hport, link, hkey⟩ := mem_observationsAt.mp hedge
    obtain ⟨-, -, -, rfl⟩ := groupKey_eq_some.mp hkey
    exact ⟨edge, hmem, _, hkey, hport, rfl⟩

theorem disputed_iff (order : RangeOrder) :
    Disputed edges port ↔ ∃ first ∈ neighboursAt order (groups edges) port,
      ∃ second ∈ neighboursAt order (groups edges) port, first.dstDevice ≠ second.dstDevice := by
  constructor
  · rintro ⟨first, hfirst, second, hsecond, hdiffer⟩
    exact ⟨_, mem_neighboursAt_iff.mpr ⟨first, hfirst, rfl⟩, _,
      mem_neighboursAt_iff.mpr ⟨second, hsecond, rfl⟩, hdiffer⟩
  · rintro ⟨filed, hfiled, filed', hfiled', hdiffer⟩
    obtain ⟨first, hfirst, rfl⟩ := mem_neighboursAt_iff.mp hfiled
    obtain ⟨second, hsecond, rfl⟩ := mem_neighboursAt_iff.mp hfiled'
    exact ⟨first, hfirst, second, hsecond, hdiffer⟩

end Ports

/-! ## The conflict of a port -/

/-- The report about a port with its observations. -/
def conflictOf (table : Map EdgeKey Group) (port : GoString × GoString)
    (observations : List PortObservation) : Conflict :=
  let links := (observations.map PortObservation.link).eraseDups
  { srcDevice := port.1
    srcPort := ((observations.map PortObservation.rawSrcPort).insertionSort (· ≤ ·)).headD []
    kind := conflictNeighbourDisagreement
    sources := ((links.flatMap (fun link =>
      ((table.lookup link).map Group.candidates).getD [])).map
        Edge.discoveryProto).eraseDups.insertionSort (· ≤ ·)
    edges := links.filterMap (fun link => (table.lookup link).bind (emit link)) }

theorem conflictAt_eq_some {table : Map EdgeKey Group} {observations : List PortObservation}
    {conflict : Conflict} :
    conflictAt table port observations = some conflict ↔
      (∃ first ∈ observations, ∃ second ∈ observations, first.dstDevice ≠ second.dstDevice) ∧
        conflict = conflictOf table port observations := by
  cases observations with
  | nil => simp [conflictAt]
  | cons first rest =>
      -- comparing every observation with the first one finds any disagreement
      have hall : rest.all (fun observed => observed.dstDevice = first.dstDevice) = true ↔
          ¬∃ one ∈ first :: rest, ∃ other ∈ first :: rest, one.dstDevice ≠ other.dstDevice := by
        simp only [List.all_eq_true, decide_eq_true_eq]
        constructor
        · intro hsame
          have hfirst : ∀ one ∈ first :: rest, one.dstDevice = first.dstDevice := by
            simpa using hsame
          rintro ⟨one, hone, other, hother, hdiffer⟩
          exact hdiffer ((hfirst one hone).trans (hfirst other hother).symm)
        · intro hnone observed hobserved
          by_contra hdiffer
          exact hnone ⟨observed, List.mem_cons_of_mem first hobserved, first,
            List.mem_cons_self .., hdiffer⟩
      simp only [conflictAt]
      split_ifs with hsame
      · simp only [hall.mp hsame, false_and]
      · rw [hall, not_not] at hsame
        simp only [hsame, true_and, Option.some.injEq]
        exact eq_comm

/-- The port that a conflict is about. -/
def conflictPort (conflict : Conflict) : GoString × GoString :=
  (conflict.srcDevice, normalizePortName conflict.srcPort)

section Reports

variable {order : RangeOrder} {edges : List Edge} {port : GoString × GoString}

/-- The conflicts are those of the disputed ports. -/
theorem mem_conflicts {conflict : Conflict} :
    conflict ∈ (reconcile order edges).2 ↔
      ∃ port, Disputed edges port ∧
        conflict = conflictOf (groups edges) port (neighboursAt order (groups edges) port) := by
  simp only [reconcile, conflicts, List.mem_insertionSort, List.mem_filterMap]
  constructor
  · rintro ⟨⟨port, observations⟩, hentry, hconflict⟩
    obtain ⟨rfl, -⟩ := Map.lookup_groupBy_append.mp (Map.mem_range.mp hentry)
    obtain ⟨hdiffer, rfl⟩ := conflictAt_eq_some.mp hconflict
    exact ⟨port, (disputed_iff order).mpr hdiffer, rfl⟩
  · rintro ⟨port, hdisputed, rfl⟩
    have hdiffer := (disputed_iff order).mp hdisputed
    obtain ⟨filed, hfiled, -⟩ := id hdiffer
    exact ⟨(port, neighboursAt order (groups edges) port),
      Map.mem_range.mpr (Map.lookup_groupBy_append.mpr ⟨rfl, List.ne_nil_of_mem hfiled⟩),
      conflictAt_eq_some.mpr ⟨hdiffer, rfl⟩⟩

/-- The name in the report is the least of the names that the port goes by. -/
theorem srcPort_conflictOf (table : Map EdgeKey Group) (port : GoString × GoString)
    {observations : List PortObservation} (hsome : observations ≠ []) :
    (∃ filed ∈ observations, filed.rawSrcPort = (conflictOf table port observations).srcPort) ∧
      ∀ filed ∈ observations,
        (conflictOf table port observations).srcPort ≤ filed.rawSrcPort := by
  let raw := observations.map PortObservation.rawSrcPort
  have hmem : ∀ name, name ∈ raw.insertionSort (· ≤ ·) ↔
      ∃ filed ∈ observations, filed.rawSrcPort = name := by
    intro name
    rw [List.mem_insertionSort, List.mem_map]
  have hsorted : (raw.insertionSort (· ≤ ·)).Pairwise (· ≤ ·) :=
    List.pairwise_insertionSort (· ≤ ·) raw
  change (∃ filed ∈ observations, filed.rawSrcPort = (raw.insertionSort (· ≤ ·)).headD []) ∧
    ∀ filed ∈ observations, (raw.insertionSort (· ≤ ·)).headD [] ≤ filed.rawSrcPort
  cases hraw : raw.insertionSort (· ≤ ·) with
  | nil =>
      obtain ⟨filed, hfiled⟩ := List.exists_mem_of_ne_nil _ hsome
      have hnone := (hmem filed.rawSrcPort).mpr ⟨filed, hfiled, rfl⟩
      rw [hraw] at hnone
      cases hnone
  | cons least rest =>
      rw [hraw, List.pairwise_cons] at hsorted
      rw [hraw] at hmem
      refine ⟨(hmem least).mp (List.mem_cons_self ..), ?_⟩
      intro filed hfiled
      rcases List.mem_cons.mp ((hmem filed.rawSrcPort).mpr ⟨filed, hfiled, rfl⟩) with hleast | hrest
      · exact hleast.ge
      · exact hsorted.1 _ hrest

theorem neighboursAt_ne_nil (order : RangeOrder) (hdisputed : Disputed edges port) :
    neighboursAt order (groups edges) port ≠ [] := by
  obtain ⟨filed, hfiled, -⟩ := (disputed_iff order).mp hdisputed
  exact List.ne_nil_of_mem hfiled

theorem conflictPort_conflictOf (hsome : neighboursAt order (groups edges) port ≠ []) :
    conflictPort (conflictOf (groups edges) port (neighboursAt order (groups edges) port)) =
      port := by
  obtain ⟨⟨filed, hfiled, hname⟩, -⟩ :=
    srcPort_conflictOf (groups edges) port hsome
  obtain ⟨edge, -, link, -, hport, rfl⟩ := mem_neighboursAt.mp hfiled
  have hraw : normalizePortName edge.srcPort = port.2 := congrArg Prod.snd hport
  rw [conflictPort, ← hname]
  exact Prod.ext rfl hraw

theorem mem_map_conflictPort :
    port ∈ (reconcile order edges).2.map conflictPort ↔ Disputed edges port := by
  rw [List.mem_map]
  constructor
  · rintro ⟨conflict, hconflict, rfl⟩
    obtain ⟨port, hdisputed, rfl⟩ := mem_conflicts.mp hconflict
    rwa [conflictPort_conflictOf (neighboursAt_ne_nil _ hdisputed)]
  · intro hdisputed
    exact ⟨_, mem_conflicts.mpr ⟨port, hdisputed, rfl⟩,
      conflictPort_conflictOf (neighboursAt_ne_nil _ hdisputed)⟩

theorem nodup_conflictPorts (order : RangeOrder) (edges : List Edge) :
    ((reconcile order edges).2.map conflictPort).Nodup := by
  refine ((List.perm_insertionSort _ _).map conflictPort).nodup_iff.mpr ?_
  refine (Map.range_nodup (portNeighbours order (groups edges)) order 3).sublist
    (map_filterMap_sublist ?_)
  rintro ⟨port, observations⟩ hentry conflict hconflict
  obtain ⟨rfl, hsome⟩ := Map.lookup_groupBy_append.mp (Map.mem_range.mp hentry)
  obtain ⟨-, rfl⟩ := conflictAt_eq_some.mp hconflict
  exact conflictPort_conflictOf hsome

/-- The place of a conflict in the list. -/
def conflictPlace (conflict : Conflict) : GoString ×ₗ GoString :=
  toLex (conflict.srcDevice, conflict.srcPort)

theorem conflictBefore_iff {first second : Conflict} :
    conflictBefore first second ↔ conflictPlace first ≤ conflictPlace second := by
  rw [conflictPlace, conflictPlace, Prod.Lex.toLex_le_toLex]
  unfold conflictBefore
  by_cases hdevice : first.srcDevice = second.srcDevice
  · simp [hdevice]
  · simp [hdevice]

theorem conflicts_pairwise (order : RangeOrder) (edges : List Edge) :
    (reconcile order edges).2.Pairwise (fun first second =>
      conflictPlace first < conflictPlace second) := by
  let before : Conflict → Conflict → Prop := fun first second => conflictBefore first second
  have htotal : Std.Total before := ⟨fun first second => by
    simp only [before, conflictBefore_iff]
    exact le_total (conflictPlace first) (conflictPlace second)⟩
  have htrans : IsTrans Conflict before := ⟨fun first second third => by
    simp only [before, conflictBefore_iff]
    exact le_trans⟩
  have hsorted : (reconcile order edges).2.Pairwise before := List.pairwise_insertionSort before _
  refine List.Pairwise.imp₂ ?_ hsorted (List.pairwise_map.mp (nodup_conflictPorts order edges))
  intro first second hle hports
  refine lt_of_le_of_ne (conflictBefore_iff.mp hle) ?_
  -- a port is reported once, so the names of two reports differ
  intro hplace
  obtain ⟨hdevice, hport⟩ := Prod.mk.inj (toLex.injective hplace)
  exact hports (by rw [conflictPort, conflictPort, hdevice, hport])

/-- Every disputed port has exactly one conflict, no other port has one, and the
conflicts strictly increase by device and port. -/
theorem one_conflict_per_disputed_port (order : RangeOrder) (edges : List Edge) :
    (∀ port, ((reconcile order edges).2.map conflictPort).count port =
        if Disputed edges port then 1 else 0) ∧
      (reconcile order edges).2.Pairwise (fun first second =>
        first.srcDevice < second.srcDevice ∨
          first.srcDevice = second.srcDevice ∧ first.srcPort < second.srcPort) := by
  constructor
  · intro port
    rw [(nodup_conflictPorts order edges).count]
    exact if_congr mem_map_conflictPort rfl rfl
  · exact (conflicts_pairwise order edges).imp fun hlt => Prod.Lex.toLex_lt_toLex.mp hlt

end Reports

/-! ## Conflicts in every order -/

theorem conflicts_eq_nil {order : RangeOrder} (hnone : ∀ port, ¬Disputed edges port) :
    (reconcile order edges).2 = [] := by
  rw [List.eq_nil_iff_forall_not_mem]
  intro conflict hconflict
  obtain ⟨port, hdisputed, -⟩ := mem_conflicts.mp hconflict
  exact hnone port hdisputed

section Orders

variable {edges : List Edge} {port : GoString × GoString} {link : EdgeKey}

/-- The link that is visited first has the first observation under the port. -/
theorem head_neighboursAt {order : RangeOrder} {table : Map EdgeKey Group} {group : Group}
    {rest : List (EdgeKey × Group)} (hfirst : table.range order 1 = (link, group) :: rest)
    (hedge : ∃ bucket ∈ group.byRank.range order 2, edge ∈ bucket.2) (hport : portOf edge = port) :
    ∃ filed others, neighboursAt order table port = filed :: others ∧ filed.link = link := by
  let block := (group.byRank.range order 2).flatMap (fun bucket =>
    bucket.2.map (fun edge => (portOf edge, portObservation link edge)))
  have hsplit : ∃ others, neighboursAt order table port =
      (block.filter (fun item => item.1 = port)).map Prod.snd ++ others := by
    unfold neighboursAt portObservations
    rw [hfirst, List.flatMap_cons, List.filter_append, List.map_append]
    exact ⟨_, rfl⟩
  have hlinks : ∀ item ∈ block, item.2.link = link := by
    intro item hitem
    simp only [block, List.mem_flatMap, List.mem_map] at hitem
    obtain ⟨bucket, -, seen, -, rfl⟩ := hitem
    rfl
  have hown : (portOf edge, portObservation link edge) ∈
      block.filter (fun item => item.1 = port) := by
    obtain ⟨bucket, hbucket, hseen⟩ := hedge
    refine List.mem_filter.mpr ⟨?_, decide_eq_true hport⟩
    exact List.mem_flatMap.mpr ⟨bucket, hbucket, List.mem_map_of_mem hseen⟩
  obtain ⟨others, hothers⟩ := hsplit
  cases hblock : block.filter (fun item => item.1 = port) with
  | nil =>
      rw [hblock] at hown
      cases hown
  | cons item items =>
      have hitem : item ∈ block.filter (fun item => item.1 = port) := by
        rw [hblock]
        exact List.mem_cons_self ..
      refine ⟨item.2, items.map Prod.snd ++ others, ?_, hlinks item (List.mem_of_mem_filter hitem)⟩
      rw [hothers, hblock]
      rfl

/-- Some order puts any link of the port first in its conflict. -/
theorem exists_order_head_edge (order : RangeOrder) (hedge : edge ∈ edges)
    (hkey : groupKey edge = some link) (hport : portOf edge = port) :
    ∃ other : RangeOrder,
      (conflictOf (groups edges) port (neighboursAt other (groups edges) port)).edges.head?.map
        key = some link := by
  have hmem := mem_observationsOf.mpr ⟨hedge, hkey⟩
  obtain ⟨group, hgroup, hrepresents⟩ := lookup_groups (List.ne_nil_of_mem hmem)
  let entries := (groups edges).entries.map (fun entry => (entry.1, entry.2))
  have hentry : (link, group) ∈ entries :=
    (Map.perm_range (groups edges) order 1).mem_iff.mp (Map.mem_range.mpr hgroup)
  classical
  obtain ⟨other, hother, -⟩ := order.exists_arrange 1 (List.perm_cons_erase hentry).symm
  have hfirst : (groups edges).range other 1 = (link, group) :: entries.erase (link, group) :=
    hother
  obtain ⟨filed, others, hneighbours, hlink⟩ := head_neighboursAt hfirst
    ((hrepresents.mem_byRank other).mpr hmem) hport
  obtain ⟨chosen, -, hchoose⟩ := hrepresents.exists_choose link
  have hemit : emit link group = some (emitChosen link group chosen) := by
    rw [emit, hchoose, Option.map_some]
  refine ⟨other, ?_⟩
  simp only [conflictOf, hneighbours, List.map_cons, List.eraseDups_cons, hlink,
    List.filterMap_cons, hgroup, Option.bind_some, hemit, List.head?_cons, Option.map_some,
    (standsFor_emit hgroup hemit).key_eq]

/-- Reconciliation gives the same edges and conflicts in every order exactly if
there is nothing to report. A conflict lists its edges in the order in which their
links are visited. -/
theorem same_reconciliation_in_every_order_iff (edges : List Edge) :
    (∀ order order', reconcile order edges = reconcile order' edges) ↔
      ∀ port, ¬Disputed edges port := by
  constructor
  · intro hsame port hdisputed
    obtain ⟨first, hfirst, second, hsecond, hdiffer⟩ := id hdisputed
    obtain ⟨hfirstMem, hfirstPort, link, hlink⟩ := mem_observationsAt.mp hfirst
    obtain ⟨hsecondMem, hsecondPort, link', hlink'⟩ := mem_observationsAt.mp hsecond
    obtain ⟨order, horder⟩ := exists_order_head_edge .insertion hfirstMem hlink hfirstPort
    obtain ⟨order', horder'⟩ := exists_order_head_edge .insertion hsecondMem hlink' hsecondPort
    have hreport : ∀ order, conflictOf (groups edges) port
        (neighboursAt order (groups edges) port) ∈ (reconcile order edges).2 :=
      fun order => mem_conflicts.mpr ⟨port, hdisputed, rfl⟩
    -- the port is reported once, so both orders have to give one report
    have hone : conflictOf (groups edges) port (neighboursAt order (groups edges) port) =
        conflictOf (groups edges) port (neighboursAt order' (groups edges) port) := by
      have hreport' := hreport order'
      rw [hsame order' order] at hreport'
      apply List.inj_on_of_nodup_map (nodup_conflictPorts order edges) (hreport order) hreport'
      rw [conflictPort_conflictOf (neighboursAt_ne_nil _ hdisputed),
        conflictPort_conflictOf (neighboursAt_ne_nil _ hdisputed)]
    rw [hone, horder'] at horder
    cases horder
    exact hdiffer (dstDevice_eq_of_groupKey hlink hlink' (hfirstPort.trans hsecondPort.symm))
  · intro hnone order order'
    exact Prod.ext (reconcile_edges_eq order order' edges)
      ((conflicts_eq_nil hnone).trans (conflicts_eq_nil hnone).symm)

end Orders

/-! ## What a conflict stands for -/

section Genuine

variable {order : RangeOrder} {edges : List Edge} {port : GoString × GoString}

/-- The conflict is a disagreement between different protocols about a port with
a name, and it lists the protocols that take part in the disagreement. -/
structure Genuine (edges : List Edge) (conflict : Conflict) : Prop where
  named : conflict.srcPort ≠ []
  protocols : ∃ first ∈ observationsAt edges (conflictPort conflict),
    ∃ second ∈ observationsAt edges (conflictPort conflict),
      first.dstDevice ≠ second.dstDevice ∧ first.discoveryProto ≠ second.discoveryProto
  sources : ∀ proto, proto ∈ conflict.sources ↔
    ∃ seen ∈ observationsAt edges (conflictPort conflict),
      (∃ other ∈ observationsAt edges (conflictPort conflict),
        other.dstDevice ≠ seen.dstDevice) ∧ seen.discoveryProto = proto

/-- The links with an observation on the port. -/
def linksAt (edges : List Edge) (port : GoString × GoString) : List EdgeKey :=
  (observationsAt edges port).map normalizedGroupKey

/-- Every observation on the port has a port name, some two that disagree come
from different protocols, and the best-ranked observations of the port's links
come from the protocols of the observations on the port: from all of them and
from no others. -/
structure Corroborated (edges : List Edge) (port : GoString × GoString) : Prop where
  named : ∀ seen ∈ observationsAt edges port, seen.srcPort ≠ []
  protocols : ∃ first ∈ observationsAt edges port, ∃ second ∈ observationsAt edges port,
    first.dstDevice ≠ second.dstDevice ∧ first.discoveryProto ≠ second.discoveryProto
  best : ∀ link ∈ linksAt edges port, ∀ best ∈ bestRanked (observationsOf edges link),
    ∃ seen ∈ observationsAt edges port, seen.discoveryProto = best.discoveryProto
  heard : ∀ seen ∈ observationsAt edges port, ∃ link ∈ linksAt edges port,
    ∃ best ∈ bestRanked (observationsOf edges link), best.discoveryProto = seen.discoveryProto

theorem mem_links_iff {link : EdgeKey} :
    link ∈ (neighboursAt order (groups edges) port).map PortObservation.link ↔
      link ∈ linksAt edges port := by
  simp only [linksAt, List.mem_map, mem_neighboursAt_iff]
  constructor
  · rintro ⟨filed, ⟨edge, hedge, rfl⟩, rfl⟩
    exact ⟨edge, hedge, rfl⟩
  · rintro ⟨edge, hedge, rfl⟩
    exact ⟨_, ⟨edge, hedge, rfl⟩, rfl⟩

/-- The sources are the protocols at the best rank of each link of the port. -/
theorem mem_sources {proto : GoString} :
    proto ∈ (conflictOf (groups edges) port (neighboursAt order (groups edges) port)).sources ↔
      ∃ link ∈ linksAt edges port, ∃ best ∈ bestRanked (observationsOf edges link),
        best.discoveryProto = proto := by
  have hcandidates : ∀ link ∈ linksAt edges port,
      (((groups edges).lookup link).map Group.candidates).getD [] =
        bestRanked (observationsOf edges link) := by
    intro link hlink
    obtain ⟨edge, hedge, rfl⟩ := List.mem_map.mp hlink
    obtain ⟨hmem, -, link, hkey⟩ := mem_observationsAt.mp hedge
    obtain ⟨-, -, -, rfl⟩ := groupKey_eq_some.mp hkey
    obtain ⟨group, hgroup, hrepresents⟩ :=
      lookup_groups (List.ne_nil_of_mem (mem_observationsOf.mpr ⟨hmem, hkey⟩))
    rw [hgroup, Option.map_some, Option.getD_some, hrepresents.bestRanked]
  simp only [conflictOf, List.mem_insertionSort, List.mem_eraseDups,
    List.mem_map (f := Edge.discoveryProto), List.mem_flatMap, mem_links_iff]
  constructor
  · rintro ⟨best, ⟨link, hlink, hbest⟩, rfl⟩
    rw [hcandidates link hlink] at hbest
    exact ⟨link, hlink, best, hbest, rfl⟩
  · rintro ⟨link, hlink, best, hbest, rfl⟩
    rw [← hcandidates link hlink] at hbest
    exact ⟨best, ⟨link, hlink, hbest⟩, rfl⟩

/-- Any observation on a disputed port disagrees with another one. -/
theorem Disputed.exists_other (hdisputed : Disputed edges port) (seen : Edge) :
    ∃ other ∈ observationsAt edges port, other.dstDevice ≠ seen.dstDevice := by
  obtain ⟨first, hfirst, second, hsecond, hdiffer⟩ := hdisputed
  by_cases hsame : first.dstDevice = seen.dstDevice
  · exact ⟨second, hsecond, fun heq => hdiffer (hsame.trans heq.symm)⟩
  · exact ⟨first, hfirst, hsame⟩

theorem srcPort_eq_nil_iff (hdisputed : Disputed edges port) :
    (conflictOf (groups edges) port (neighboursAt order (groups edges) port)).srcPort = [] ↔
      ∃ seen ∈ observationsAt edges port, seen.srcPort = [] := by
  obtain ⟨⟨filed, hfiled, hname⟩, hleast⟩ :=
    srcPort_conflictOf (groups edges) port (neighboursAt_ne_nil order hdisputed)
  constructor
  · intro hnil
    obtain ⟨edge, hedge, rfl⟩ := mem_neighboursAt_iff.mp hfiled
    exact ⟨edge, hedge, hname.trans hnil⟩
  · rintro ⟨seen, hseen, hnil⟩
    have hle := hleast _ (mem_neighboursAt_iff.mpr ⟨seen, hseen, rfl⟩)
    rw [portObservation, hnil] at hle
    cases hreported : (conflictOf (groups edges) port
      (neighboursAt order (groups edges) port)).srcPort with
    | nil => rfl
    | cons byte rest =>
        rw [hreported] at hle
        exact absurd hle (not_le.mpr List.Lex.nil)

theorem genuine_conflictOf_iff (hdisputed : Disputed edges port) :
    Genuine edges (conflictOf (groups edges) port (neighboursAt order (groups edges) port)) ↔
      Corroborated edges port := by
  have hport := conflictPort_conflictOf (neighboursAt_ne_nil order hdisputed)
  constructor
  · intro hgenuine
    have hsources := hgenuine.sources
    have hprotocols := hgenuine.protocols
    rw [hport] at hprotocols hsources
    simp only [mem_sources, hdisputed.exists_other, true_and] at hsources
    refine ⟨?_, hprotocols, ?_, ?_⟩
    · intro seen hseen hnil
      exact hgenuine.named ((srcPort_eq_nil_iff hdisputed).mpr ⟨seen, hseen, hnil⟩)
    · intro link hlink best hbest
      exact (hsources _).mp ⟨link, hlink, best, hbest, rfl⟩
    · intro seen hseen
      exact (hsources _).mpr ⟨seen, hseen, rfl⟩
  · intro hcorroborated
    refine ⟨?_, ?_, ?_⟩
    · intro hnil
      obtain ⟨seen, hseen, hnone⟩ := (srcPort_eq_nil_iff hdisputed).mp hnil
      exact hcorroborated.named seen hseen hnone
    · rw [hport]
      exact hcorroborated.protocols
    · intro proto
      rw [hport, mem_sources]
      simp only [hdisputed.exists_other, true_and]
      constructor
      · rintro ⟨link, hlink, best, hbest, rfl⟩
        exact hcorroborated.best link hlink best hbest
      · rintro ⟨seen, hseen, rfl⟩
        exact hcorroborated.heard seen hseen

/-- All conflicts are disagreements between protocols exactly if every disputed
port is one that different protocols report on by name, with the same protocols
at the best rank of its links. -/
theorem conflicts_genuine_iff (order : RangeOrder) (edges : List Edge) :
    (∀ conflict ∈ (reconcile order edges).2, Genuine edges conflict) ↔
      ∀ port, Disputed edges port → Corroborated edges port := by
  constructor
  · intro hgenuine port hdisputed
    exact (genuine_conflictOf_iff hdisputed).mp
      (hgenuine _ (mem_conflicts.mpr ⟨port, hdisputed, rfl⟩))
  · intro hcorroborated conflict hconflict
    obtain ⟨port, hdisputed, rfl⟩ := mem_conflicts.mp hconflict
    exact (genuine_conflictOf_iff hdisputed).mpr (hcorroborated port hdisputed)

end Genuine

/-! ## A router with two sessions -/

def peerBinding (column : String) (peer : String) (value : PduValue) : Pdu :=
  ⟨str (".1.3.6.1.2.1.15.3.1." ++ column ++ "." ++ peer), value⟩

/-- A router whose table of BGP peers has two established sessions. -/
def bgpRouter : Agent where
  systemGroup := .ok []
  sysObjectID := none
  bulkWalk _ := .ok [
    peerBinding "2" "10.0.0.2" (.signed 6), peerBinding "7" "10.0.0.2" (.octets [10, 0, 0, 2]),
    peerBinding "2" "10.0.0.3" (.signed 6), peerBinding "7" "10.0.0.3" (.octets [10, 0, 0, 3])]
  vlanFdbWalk _ := .ok []

/-- The edges that the walk of the router yields. -/
def bgpRouterEdges : List Edge :=
  match Bgp.walk bgpRouter .insertion ⟨str "public", false, 0, [], false⟩ (str "r1") []
    Time.zero with
  | .ok result => result.edges
  | .error _ => []

/-- The links are visited from the last one to the first. -/
def linksBackwards : RangeOrder where
  arrange site items := if site = 1 then items.reverse else items
  perm site items := by
    split_ifs
    · exact List.reverse_perm items
    · exact List.Perm.refl items

/-- The reports about the sessions, in either order of the visit. -/
theorem bgpRouter_reports :
    (reconcile .insertion bgpRouterEdges).2.map (fun conflict =>
      (conflict.srcDevice, conflict.srcPort, conflict.sources, conflict.edges.map Edge.srcDevice)) =
      [(str "r1", [], [discoveryProtocolBGP], [str "10.0.0.2", str "10.0.0.3"])] ∧
    (reconcile linksBackwards bgpRouterEdges).2.map (fun conflict =>
      conflict.edges.map Edge.srcDevice) = [[str "10.0.0.3", str "10.0.0.2"]] := by
  decide +kernel

/-- The sessions have no local port, so the peers pass for two neighbours on one
port, and the only protocol there is disagrees with itself. -/
theorem bgp_sessions_conflict :
    (reconcile .insertion bgpRouterEdges).2.map (fun conflict =>
        (conflict.srcDevice, conflict.srcPort, conflict.sources)) =
        [(str "r1", [], [discoveryProtocolBGP])] ∧
      ¬∀ conflict ∈ (reconcile .insertion bgpRouterEdges).2, Genuine bgpRouterEdges conflict := by
  have hreport : (reconcile .insertion bgpRouterEdges).2.map (fun conflict =>
      (conflict.srcDevice, conflict.srcPort, conflict.sources)) =
      [(str "r1", [], [discoveryProtocolBGP])] := by
    have hmapped := congrArg (List.map fun report => (report.1, report.2.1, report.2.2.1))
      bgpRouter_reports.1
    rwa [List.map_map] at hmapped
  have hports : (reconcile .insertion bgpRouterEdges).2.map Conflict.srcPort = [[]] := by
    have hmapped := congrArg (List.map fun report => report.2.1) hreport
    rwa [List.map_map] at hmapped
  refine ⟨hreport, ?_⟩
  intro hgenuine
  obtain ⟨conflict, hconflict, hport⟩ :=
    List.mem_map.mp (hports ▸ List.mem_singleton.mpr (rfl : ([] : GoString) = []))
  exact (hgenuine conflict hconflict).named hport

/-- The report about the sessions lists their edges in the order of the visit. -/
theorem conflict_edges_follow_visit :
    (reconcile .insertion bgpRouterEdges).2.map (fun conflict =>
        conflict.edges.map Edge.srcDevice) = [[str "10.0.0.2", str "10.0.0.3"]] ∧
      (reconcile linksBackwards bgpRouterEdges).2.map (fun conflict =>
        conflict.edges.map Edge.srcDevice) = [[str "10.0.0.3", str "10.0.0.2"]] ∧
      reconcile .insertion bgpRouterEdges ≠ reconcile linksBackwards bgpRouterEdges := by
  have hbackward := bgpRouter_reports.2
  have hforward : (reconcile .insertion bgpRouterEdges).2.map (fun conflict =>
      conflict.edges.map Edge.srcDevice) = [[str "10.0.0.2", str "10.0.0.3"]] := by
    have hmapped := congrArg (List.map fun report => report.2.2.2) bgpRouter_reports.1
    rwa [List.map_map] at hmapped
  refine ⟨hforward, hbackward, ?_⟩
  intro hsame
  rw [hsame, hbackward] at hforward
  exact absurd hforward (by decide)

end TopologyExporter.Graph
