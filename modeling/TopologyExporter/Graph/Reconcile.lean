import TopologyExporter.Graph.Key

/-! # Reconciliation

One cycle's observations are collapsed into one edge per link. The observations
of a link are grouped under its key; the best-ranked one speaks for the link,
and the link is bidirectional when both of its devices reported it.
-/

namespace TopologyExporter.Graph

open Go Utf8 Discovery

/-- The observations of one link, by rank. -/
structure Group where
  byRank : Map Int (List Edge)
  minRank : Int
  sides : List GoString

namespace Group

def add (held : Option Group) (edge : Edge) : Group :=
  let group := held.getD ⟨∅, edge.precedenceRank, []⟩
  let rank := edge.precedenceRank
  { byRank := group.byRank.insert rank ((group.byRank.lookup rank).getD [] ++ [edge])
    minRank := if rank < group.minRank then rank else group.minRank
    sides := group.sides.insert edge.srcDevice }

/-- The observations at the best rank. -/
def candidates (group : Group) : List Edge := (group.byRank.lookup group.minRank).getD []

end Group

/-- Observations without two different devices are dropped. -/
def groupKey (edge : Edge) : Option EdgeKey :=
  if edge.srcDevice = [] ∨ edge.dstDevice = [] then none
  else if edge.srcDevice = edge.dstDevice then none
  else some (normalizedGroupKey edge)

def groups (edges : List Edge) : Map EdgeKey Group := Map.groupBy groupKey Group.add edges

/-- The canonical side beats the other one; on the same side the smaller
protocol name wins. -/
def prefer (link : EdgeKey) (chosen candidate : Edge) : Edge :=
  let side := decide (candidate.srcDevice = link.srcDevice)
  let chosenSide := decide (chosen.srcDevice = link.srcDevice)
  if side && !chosenSide then candidate
  else if side == chosenSide ∧ candidate.discoveryProto < chosen.discoveryProto then candidate
  else chosen

def choose (link : EdgeKey) (group : Group) : Option Edge :=
  match group.candidates with
  | [] => none
  | first :: rest => some ((first :: rest).foldl (prefer link) first)

/-- The chosen observation, turned to the canonical order of the link. -/
def orient (link : EdgeKey) (chosen : Edge) : Edge :=
  if chosen.srcDevice ≠ link.srcDevice then
    { chosen with
      srcDevice := chosen.dstDevice, srcPort := chosen.dstPort,
      dstDevice := chosen.srcDevice, dstPort := chosen.srcPort }
  else chosen

def emitChosen (link : EdgeKey) (group : Group) (chosen : Edge) : Edge :=
  let oriented := orient link chosen
  { oriented with
    direction :=
      if 2 ≤ group.sides.length then directionBidirectional else directionUnidirectional
    srcPort := normalizePortName oriented.srcPort
    dstPort := normalizePortName oriented.dstPort }

/-- The edge that stands for a link. -/
def emit (link : EdgeKey) (group : Group) : Option Edge :=
  (choose link group).map (emitChosen link group)

/-! ## Conflicts -/

abbrev ConflictKind := GoString

def conflictNeighbourDisagreement : ConflictKind := str "neighbour_disagreement"

structure Conflict where
  srcDevice : GoString
  srcPort : GoString
  kind : ConflictKind
  sources : List GoString
  edges : List Edge

structure PortObservation where
  link : EdgeKey
  dstDevice : GoString
  rawSrcPort : GoString

/-- Every observation under the port it was made on. -/
def portObservations (order : RangeOrder) (table : Map EdgeKey Group) :
    List ((GoString × GoString) × PortObservation) :=
  (table.range order 1).flatMap (fun (link, group) =>
    (group.byRank.range order 2).flatMap (fun (_, observed) =>
      observed.map (fun edge =>
        ((edge.srcDevice, normalizePortName edge.srcPort),
          ⟨link, edge.dstDevice, edge.srcPort⟩))))

def portNeighbours (order : RangeOrder) (table : Map EdgeKey Group) :
    Map (GoString × GoString) (List PortObservation) :=
  Map.groupBy (fun item => some item.1) (fun held item => held.getD [] ++ [item.2])
    (portObservations order table)

/-- A conflict arises on a port whose observations name different devices. It
lists the protocols at the best rank of each link involved. -/
def conflictAt (table : Map EdgeKey Group) (port : GoString × GoString)
    (observations : List PortObservation) : Option Conflict :=
  match observations with
  | [] => none
  | first :: rest =>
      if rest.all (fun observed => observed.dstDevice = first.dstDevice) then none
      else
        let links := (observations.map PortObservation.link).eraseDups
        let protocols := (links.flatMap (fun link =>
          ((table.lookup link).map Group.candidates).getD [])).map Edge.discoveryProto
        let rawPorts := (observations.map PortObservation.rawSrcPort).insertionSort (· ≤ ·)
        some {
          srcDevice := port.1
          srcPort := rawPorts.headD []
          kind := conflictNeighbourDisagreement
          sources := protocols.eraseDups.insertionSort (· ≤ ·)
          edges := links.filterMap (fun link => (table.lookup link).bind (emit link)) }

def conflictBefore (first second : Conflict) : Bool :=
  if first.srcDevice ≠ second.srcDevice then first.srcDevice < second.srcDevice
  else first.srcPort ≤ second.srcPort

def conflicts (order : RangeOrder) (table : Map EdgeKey Group) : List Conflict :=
  (((portNeighbours order table).range order 3).filterMap (fun (port, observations) =>
    conflictAt table port observations)).insertionSort (fun first second =>
      conflictBefore first second)

def reconcile (order : RangeOrder) (edges : List Edge) : List Edge × List Conflict :=
  let table := groups edges
  (((table.range order 0).filterMap (fun (link, group) => emit link group)).insertionSort
      (fun first second => compareEdgeKey (key first) (key second) ≠ .gt),
    conflicts order table)

/-! ## What a group holds -/

/-- A group is made of exactly the given observations. -/
structure Group.Represents (group : Group) (observations : List Edge) : Prop where
  byRank : ∀ rank, (group.byRank.lookup rank).getD [] =
    observations.filter (fun edge => edge.precedenceRank = rank)
  minRank_le : ∀ edge ∈ observations, group.minRank ≤ edge.precedenceRank
  minRank_mem : ∃ edge ∈ observations, edge.precedenceRank = group.minRank
  sides : ∀ device, device ∈ group.sides ↔ ∃ edge ∈ observations, edge.srcDevice = device
  sides_nodup : group.sides.Nodup

namespace Group

/-- Filing an observation appends it to the list of its rank only. -/
theorem lookup_insert_append (byRank : Map Int (List Edge)) (edge : Edge) (rank : Int) :
    ((byRank.insert edge.precedenceRank
      ((byRank.lookup edge.precedenceRank).getD [] ++ [edge])).lookup rank).getD [] =
      (byRank.lookup rank).getD [] ++ [edge].filter (fun found => found.precedenceRank = rank) := by
  by_cases hrank : edge.precedenceRank = rank
  · subst hrank
    rw [AList.lookup_insert]
    simp
  · rw [AList.lookup_insert_ne (Ne.symm hrank)]
    simp [hrank]

theorem represents_first (edge : Edge) : (add none edge).Represents [edge] where
  byRank rank := lookup_insert_append ∅ edge rank
  minRank_le := by simp [add]
  minRank_mem := by simp [add]
  sides := by simp [add, eq_comm]
  sides_nodup := by simp [add]

theorem Represents.add {group : Group} {observations : List Edge}
    (hgroup : group.Represents observations) (edge : Edge) :
    (add (some group) edge).Represents (observations ++ [edge]) where
  byRank rank := by
    rw [List.filter_append, ← hgroup.byRank rank]
    exact lookup_insert_append group.byRank edge rank
  minRank_le := by
    intro found hfound
    simp only [Group.add, Option.getD_some]
    rcases List.mem_append.mp hfound with hold | hnew
    · have hle := hgroup.minRank_le found hold
      split_ifs <;> omega
    · rw [List.mem_singleton.mp hnew]
      split_ifs <;> omega
  minRank_mem := by
    simp only [Group.add, Option.getD_some]
    split_ifs with hlt
    · exact ⟨edge, by simp, rfl⟩
    · obtain ⟨found, hfound, hrank⟩ := hgroup.minRank_mem
      exact ⟨found, List.mem_append_left _ hfound, hrank⟩
  sides := by
    intro device
    simp only [Group.add, Option.getD_some, List.mem_insert_iff, hgroup.sides]
    constructor
    · rintro (rfl | ⟨found, hfound, hdevice⟩)
      · exact ⟨edge, by simp, rfl⟩
      · exact ⟨found, List.mem_append_left _ hfound, hdevice⟩
    · rintro ⟨found, hfound, hdevice⟩
      rcases List.mem_append.mp hfound with hold | hnew
      · exact Or.inr ⟨found, hold, hdevice⟩
      · rw [List.mem_singleton.mp hnew] at hdevice
        exact Or.inl hdevice.symm
  sides_nodup := by
    simp only [Group.add, Option.getD_some]
    exact hgroup.sides_nodup.insert

/-- Folding observations into a group represents them all. -/
theorem represents_foldl {group : Group} {seen observations : List Edge}
    (hgroup : group.Represents seen) :
    ∃ final, observations.foldl (fun held edge => some (Group.add held edge)) (some group) =
      some final ∧ final.Represents (seen ++ observations) := by
  induction observations generalizing group seen with
  | nil => exact ⟨group, rfl, by simpa using hgroup⟩
  | cons edge rest ih =>
      obtain ⟨final, hfold, hfinal⟩ := ih (hgroup.add edge)
      refine ⟨final, hfold, ?_⟩
      simpa using hfinal

end Group

/-- The observations of a link. -/
def observationsOf (edges : List Edge) (link : EdgeKey) : List Edge :=
  edges.filter (fun edge => groupKey edge = some link)

variable {edges observations : List Edge} {link ends : EdgeKey} {group : Group}
  {edge seen chosen observed first second : Edge} {order : RangeOrder}

theorem lookup_groups_none (hnone : observationsOf edges link = []) :
    (groups edges).lookup link = none := by
  rw [groups, Map.lookup_groupBy]
  unfold observationsOf at hnone
  rw [hnone]
  rfl

/-- Every observed link has a group of exactly its observations. -/
theorem lookup_groups (hsome : observationsOf edges link ≠ []) :
    ∃ group, (groups edges).lookup link = some group ∧
      group.Represents (observationsOf edges link) := by
  rw [groups, Map.lookup_groupBy]
  unfold observationsOf at hsome ⊢
  cases hobserved : edges.filter (fun edge => groupKey edge = some link) with
  | nil => exact absurd hobserved hsome
  | cons first rest => exact Group.represents_foldl (Group.represents_first first)

theorem groups_represents (hgroup : (groups edges).lookup link = some group) :
    observationsOf edges link ≠ [] ∧ group.Represents (observationsOf edges link) := by
  by_cases hempty : observationsOf edges link = []
  · rw [lookup_groups_none hempty] at hgroup
    cases hgroup
  · obtain ⟨found, hfound, hrepresents⟩ := lookup_groups hempty
    rw [hfound] at hgroup
    cases hgroup
    exact ⟨hempty, hrepresents⟩

/-! ## The edge of a link -/

theorem groupKey_eq_some :
    groupKey edge = some link ↔
      edge.srcDevice ≠ [] ∧ edge.dstDevice ≠ [] ∧ edge.srcDevice ≠ edge.dstDevice ∧
        normalizedGroupKey edge = link := by
  unfold groupKey
  by_cases hempty : edge.srcDevice = [] ∨ edge.dstDevice = []
  · rw [if_pos hempty]
    rcases hempty with hsrc | hdst
    · simp [hsrc]
    · simp [hdst]
  · rw [if_neg hempty]
    rw [not_or] at hempty
    by_cases hself : edge.srcDevice = edge.dstDevice
    · simp [hself]
    · simp [hself, hempty.1, hempty.2]

theorem mem_observationsOf :
    edge ∈ observationsOf edges link ↔ edge ∈ edges ∧ groupKey edge = some link := by
  simp [observationsOf]

/-- A link joins the two devices of each of its observations. -/
theorem devices_of_groupKey (hkey : groupKey edge = some link) :
    (link = normalizedEndpoints edge ∧ edge.srcDevice = link.srcDevice ∧
        edge.srcDevice ≠ link.dstDevice) ∨
      (link = (normalizedEndpoints edge).swap ∧ edge.srcDevice = link.dstDevice ∧
        edge.srcDevice ≠ link.srcDevice) := by
  obtain ⟨-, -, hdiffer, rfl⟩ := groupKey_eq_some.mp hkey
  rcases canonical_cases (normalizedEndpoints edge) with hsame | hswap
  · apply Or.inl
    rw [normalizedGroupKey, hsame]
    exact ⟨rfl, rfl, hdiffer⟩
  · apply Or.inr
    rw [normalizedGroupKey, hswap]
    exact ⟨rfl, rfl, hdiffer⟩

theorem link_devices (hkey : groupKey seen = some link) :
    link.srcDevice ≠ [] ∧ link.dstDevice ≠ [] ∧ link.srcDevice ≠ link.dstDevice := by
  obtain ⟨hsrc, hdst, hdistinct, -⟩ := groupKey_eq_some.mp hkey
  rcases devices_of_groupKey hkey with ⟨rfl, -⟩ | ⟨rfl, -⟩
  · exact ⟨hsrc, hdst, hdistinct⟩
  · exact ⟨hdst, hsrc, hdistinct.symm⟩

/-- What holds of both devices of an observation holds of both of its link. -/
theorem link_devices_iff (hkey : groupKey seen = some link) (property : GoString → Prop) :
    (property link.srcDevice ∧ property link.dstDevice) ↔
      (property seen.srcDevice ∧ property seen.dstDevice) := by
  rcases devices_of_groupKey hkey with ⟨rfl, -⟩ | ⟨rfl, -⟩
  · exact Iff.rfl
  · exact And.comm

theorem normalizedEndpoints_orient (hkey : groupKey chosen = some link) :
    normalizedEndpoints (orient link chosen) = link := by
  unfold orient
  rcases devices_of_groupKey hkey with ⟨hlink, hsrc, -⟩ | ⟨hlink, -, hsrc⟩
  · rw [if_neg (not_not.mpr hsrc)]
    exact hlink.symm
  · rw [if_pos hsrc]
    exact hlink.symm

theorem endpoints_emitChosen (hkey : groupKey chosen = some link) :
    endpoints (emitChosen link group chosen) = link := by
  have hends := normalizedEndpoints_orient hkey
  unfold normalizedEndpoints at hends
  simp only [endpoints, emitChosen]
  exact hends

theorem prefer_mem (link : EdgeKey) {pool : List Edge} {candidate : Edge} (hchosen : chosen ∈ pool)
    (hcandidate : candidate ∈ pool) : prefer link chosen candidate ∈ pool := by
  unfold prefer
  simp only
  split_ifs
  · exact hcandidate
  · exact hcandidate
  · exact hchosen

theorem choose_mem (hchoose : choose link group = some chosen) : chosen ∈ group.candidates := by
  unfold choose at hchoose
  split at hchoose
  · cases hchoose
  next first rest hcandidates =>
      cases hchoose
      have hfold : ∀ (remaining : List Edge) (held : Edge), held ∈ group.candidates →
          remaining ⊆ group.candidates →
          remaining.foldl (prefer link) held ∈ group.candidates := by
        intro remaining
        induction remaining with
        | nil => exact fun held hheld _ => hheld
        | cons candidate tail ih =>
            intro held hheld hsubset
            rw [List.cons_subset] at hsubset
            exact ih _ (prefer_mem link hheld hsubset.1) hsubset.2
      apply hfold
      · rw [hcandidates]
        exact List.mem_cons_self ..
      · rw [hcandidates]
        exact List.Subset.refl _

theorem Group.Represents.candidates (hgroup : group.Represents observations) : group.candidates =
      observations.filter (fun edge => edge.precedenceRank = group.minRank) :=
  hgroup.byRank group.minRank

theorem Group.Represents.exists_choose (hgroup : group.Represents observations) (link : EdgeKey) :
    ∃ chosen ∈ observations, choose link group = some chosen := by
  obtain ⟨best, hbest, hrank⟩ := hgroup.minRank_mem
  have hmem : best ∈ group.candidates := by
    rw [hgroup.candidates]
    exact List.mem_filter.mpr ⟨hbest, by simpa using hrank⟩
  cases hchoose : choose link group with
  | none =>
      unfold choose at hchoose
      split at hchoose
      next hnil => simp [hnil] at hmem
      next => cases hchoose
  | some chosen =>
      have hchosen := choose_mem hchoose
      rw [hgroup.candidates] at hchosen
      exact ⟨chosen, List.mem_of_mem_filter hchosen, rfl⟩

/-- Both devices of a link have reported it. -/
def BothReported (edges : List Edge) (link : EdgeKey) : Prop :=
  (∃ edge ∈ observationsOf edges link, edge.srcDevice = link.srcDevice) ∧
    ∃ edge ∈ observationsOf edges link, edge.srcDevice = link.dstDevice

instance (edges : List Edge) (link : EdgeKey) : Decidable (BothReported edges link) :=
  inferInstanceAs (Decidable (_ ∧ _))

/-- The reporting devices of a link are its two devices, so having two of them
means having both. -/
theorem Group.Represents.two_le_sides (hgroup : group.Represents (observationsOf edges link))
    (hsome : observationsOf edges link ≠ []) :
    2 ≤ group.sides.length ↔ BothReported edges link := by
  have hdistinct : link.srcDevice ≠ link.dstDevice := by
    obtain ⟨edge, hedge⟩ := List.exists_mem_of_ne_nil _ hsome
    rcases devices_of_groupKey (mem_observationsOf.mp hedge).2 with ⟨-, hsrc, hne⟩ | ⟨-, hsrc, hne⟩
    · rwa [← hsrc]
    · rw [← hsrc]
      exact hne.symm
  have hsides : group.sides ⊆ [link.srcDevice, link.dstDevice] := by
    intro device hdevice
    obtain ⟨edge, hedge, rfl⟩ := (hgroup.sides device).mp hdevice
    rcases devices_of_groupKey (mem_observationsOf.mp hedge).2 with ⟨-, hsrc, -⟩ | ⟨-, hsrc, -⟩
    · simp [hsrc]
    · simp [hsrc]
  unfold BothReported
  rw [← hgroup.sides, ← hgroup.sides]
  constructor
  · intro htwo
    have hperm : group.sides.Perm [link.srcDevice, link.dstDevice] :=
      (List.subperm_of_subset hgroup.sides_nodup hsides).perm_of_length_le (by simpa using htwo)
    exact ⟨hperm.mem_iff.mpr (by simp), hperm.mem_iff.mpr (by simp)⟩
  · rintro ⟨hsrc, hdst⟩
    have hsubset : [link.srcDevice, link.dstDevice] ⊆ group.sides := by
      simp [hsrc, hdst]
    have hnodup : [link.srcDevice, link.dstDevice].Nodup := by simpa using hdistinct
    exact (List.subperm_of_subset hnodup hsubset).length_le

/-! ## The observation that speaks for a link -/

/-- The canonical side comes first, then the protocol name. -/
def preference (link : EdgeKey) (edge : Edge) : Bool ×ₗ GoString :=
  toLex (decide (edge.srcDevice ≠ link.srcDevice), edge.discoveryProto)

def bestRanked (observations : List Edge) : List Edge :=
  observations.filter (fun edge =>
    observations.all (fun other => edge.precedenceRank ≤ other.precedenceRank))

/-- The first of the most preferred among the best-ranked observations. -/
def winner (edges : List Edge) (link : EdgeKey) : Option Edge :=
  (bestRanked (observationsOf edges link)).argmin (preference link)

theorem prefer_eq (link : EdgeKey) (chosen candidate : Edge) :
    prefer link chosen candidate =
      if preference link candidate < preference link chosen then candidate else chosen := by
  simp only [prefer, preference, Prod.Lex.toLex_lt_toLex]
  by_cases hcandidate : candidate.srcDevice = link.srcDevice
  all_goals by_cases hchosen : chosen.srcDevice = link.srcDevice
  all_goals simp [hcandidate, hchosen]

theorem foldl_argAux (link : EdgeKey) (candidates : List Edge) (held : Edge) :
    candidates.foldl (List.argAux (fun candidate chosen =>
        preference link candidate < preference link chosen)) (some held) =
      some (candidates.foldl (prefer link) held) := by
  induction candidates generalizing held with
  | nil => rfl
  | cons candidate rest ih =>
      rw [List.foldl_cons, List.foldl_cons, ← ih, prefer_eq, List.argAux]
      simp only
      split_ifs <;> rfl

theorem choose_eq_argmin (link : EdgeKey) (group : Group) :
    choose link group = group.candidates.argmin (preference link) := by
  unfold choose
  cases group.candidates with
  | nil => rfl
  | cons first rest =>
      have hself : prefer link first first = first := by simp [prefer_eq]
      change some ((first :: rest).foldl (prefer link) first) = _
      rw [List.foldl_cons, hself]
      exact (foldl_argAux link rest first).symm

theorem Group.Represents.bestRanked (hgroup : group.Represents observations) :
    group.candidates = bestRanked observations := by
  rw [hgroup.candidates, Graph.bestRanked]
  refine List.filter_congr ?_
  intro edge hedge
  obtain ⟨best, hbest, hrank⟩ := hgroup.minRank_mem
  rw [Bool.eq_iff_iff, decide_eq_true_eq, List.all_eq_true]
  simp only [decide_eq_true_eq]
  constructor
  · rintro hequal other hother
    rw [hequal]
    exact hgroup.minRank_le other hother
  · intro hall
    have hle := hall best hbest
    have hge := hgroup.minRank_le edge hedge
    omega

theorem choose_eq_winner (hgroup : (groups edges).lookup link = some group) :
    choose link group = winner edges link := by
  rw [choose_eq_argmin, (groups_represents hgroup).2.bestRanked, winner]

theorem winner_mem (hwinner : winner edges link = some observed) :
    observed ∈ observationsOf edges link :=
  List.mem_of_mem_filter (List.argmin_mem hwinner)

theorem exists_winner (hseen : seen ∈ edges) (hkey : groupKey seen = some link) :
    ∃ observed, winner edges link = some observed := by
  have hmem := mem_observationsOf.mpr ⟨hseen, hkey⟩
  obtain ⟨group, hgroup, hrepresents⟩ := lookup_groups (List.ne_nil_of_mem hmem)
  obtain ⟨chosen, -, hchoose⟩ := hrepresents.exists_choose link
  exact ⟨chosen, (choose_eq_winner hgroup).symm.trans hchoose⟩

/-! ## The reconciled edges -/

/-- `edge` stands for `link`: it has the link's endpoints, says whether both
devices reported it, and otherwise carries what one observation at the best
rank says. -/
structure StandsFor (edges : List Edge) (link : EdgeKey) (edge : Edge) : Prop where
  endpoints_eq : endpoints edge = link
  direction_eq : edge.direction =
    if BothReported edges link then directionBidirectional else directionUnidirectional
  chosen : ∃ observed ∈ observationsOf edges link,
    (∀ other ∈ observationsOf edges link, observed.precedenceRank ≤ other.precedenceRank) ∧
    edge.precedenceRank = observed.precedenceRank ∧
    edge.discoveryProto = observed.discoveryProto ∧ edge.linkKind = observed.linkKind ∧
    edge.confidence = observed.confidence ∧ edge.adjacency = observed.adjacency ∧
    edge.observedAt = observed.observedAt ∧ edge.metadata = observed.metadata

theorem StandsFor.key_eq (hstands : StandsFor edges link edge) : key edge = link := by
  obtain ⟨observed, hobserved, -⟩ := hstands.chosen
  obtain ⟨-, -, -, hlink⟩ := groupKey_eq_some.mp (mem_observationsOf.mp hobserved).2
  rw [key, hstands.endpoints_eq, ← hlink, normalizedGroupKey, canonical_canonical]

theorem orient_fields (link : EdgeKey) (chosen : Edge) :
    (orient link chosen).precedenceRank = chosen.precedenceRank ∧
      (orient link chosen).discoveryProto = chosen.discoveryProto ∧
      (orient link chosen).linkKind = chosen.linkKind ∧
      (orient link chosen).confidence = chosen.confidence ∧
      (orient link chosen).adjacency = chosen.adjacency ∧
      (orient link chosen).observedAt = chosen.observedAt ∧
      (orient link chosen).metadata = chosen.metadata := by
  unfold orient
  split_ifs <;> simp

theorem standsFor_emit (hgroup : (groups edges).lookup link = some group)
    (hemit : emit link group = some edge) : StandsFor edges link edge := by
  obtain ⟨hsome, hrepresents⟩ := groups_represents hgroup
  obtain ⟨chosen, hchoose, rfl⟩ := Option.map_eq_some_iff.mp hemit
  have hcandidate := choose_mem hchoose
  rw [hrepresents.candidates, List.mem_filter] at hcandidate
  obtain ⟨hobserved, hrank⟩ := hcandidate
  refine ⟨endpoints_emitChosen (mem_observationsOf.mp hobserved).2, ?_, chosen, hobserved, ?_,
    orient_fields link chosen⟩
  · simp only [emitChosen]
    exact if_congr (hrepresents.two_le_sides hsome) rfl rfl
  · intro other hother
    rw [of_decide_eq_true hrank]
    exact hrepresents.minRank_le other hother

theorem mem_reconcile :
    edge ∈ (reconcile order edges).1 ↔
      ∃ link group, (groups edges).lookup link = some group ∧ emit link group = some edge := by
  simp only [reconcile, List.mem_insertionSort, List.mem_filterMap]
  constructor
  · rintro ⟨⟨link, group⟩, hmem, hemit⟩
    exact ⟨link, group, Map.mem_range.mp hmem, hemit⟩
  · rintro ⟨link, group, hgroup, hemit⟩
    exact ⟨(link, group), Map.mem_range.mpr hgroup, hemit⟩

/-- The edge of a link, made from the observation that speaks for it. -/
def linkEdge (edges : List Edge) (link : EdgeKey) (observed : Edge) : Edge :=
  let oriented := orient link observed
  { oriented with
    direction :=
      if BothReported edges link then directionBidirectional else directionUnidirectional
    srcPort := normalizePortName oriented.srcPort
    dstPort := normalizePortName oriented.dstPort }

/-- The reconciled edges are those of the observed links. Only their order in
the list is left to be settled by the sort. -/
theorem mem_reconcile_iff_winner {order : RangeOrder} {edges : List Edge} {edge : Edge} :
    edge ∈ (reconcile order edges).1 ↔
      ∃ link observed, winner edges link = some observed ∧ edge = linkEdge edges link observed := by
  rw [mem_reconcile]
  constructor
  · rintro ⟨link, group, hgroup, hemit⟩
    obtain ⟨chosen, hchoose, rfl⟩ := Option.map_eq_some_iff.mp hemit
    obtain ⟨hsome, hrepresents⟩ := groups_represents hgroup
    refine ⟨link, chosen, (choose_eq_winner hgroup).symm.trans hchoose, ?_⟩
    simp only [emitChosen, linkEdge, hrepresents.two_le_sides hsome]
  · rintro ⟨link, observed, hwinner, rfl⟩
    have hsome := List.ne_nil_of_mem (winner_mem hwinner)
    obtain ⟨group, hgroup, hrepresents⟩ := lookup_groups hsome
    refine ⟨link, group, hgroup, ?_⟩
    rw [emit, choose_eq_winner hgroup, hwinner, Option.map_some]
    simp only [emitChosen, linkEdge, hrepresents.two_le_sides hsome]

/-- Every reconciled edge stands for an observed link. -/
theorem standsFor_of_mem_reconcile (hedge : edge ∈ (reconcile order edges).1) :
    StandsFor edges (key edge) edge := by
  obtain ⟨link, group, hgroup, hemit⟩ := mem_reconcile.mp hedge
  have hstands := standsFor_emit hgroup hemit
  rwa [hstands.key_eq]

/-- Every observed link has an edge that stands for it. -/
theorem exists_mem_reconcile (order : RangeOrder) (hobserved : observed ∈ edges)
    (hkey : groupKey observed = some link) :
    ∃ edge ∈ (reconcile order edges).1, StandsFor edges link edge := by
  have hmem : observed ∈ observationsOf edges link := mem_observationsOf.mpr ⟨hobserved, hkey⟩
  obtain ⟨group, hgroup, hrepresents⟩ := lookup_groups (List.ne_nil_of_mem hmem)
  obtain ⟨chosen, -, hchoose⟩ := hrepresents.exists_choose link
  have hemit : emit link group = some (emitChosen link group chosen) := by
    rw [emit, hchoose]
    rfl
  exact ⟨_, mem_reconcile.mpr ⟨link, group, hgroup, hemit⟩, standsFor_emit hgroup hemit⟩

/-- No two reconciled edges have the same key. -/
theorem reconcile_nodup_keys (order : RangeOrder) (edges : List Edge) :
    ((reconcile order edges).1.map key).Nodup := by
  have hperm := (List.perm_insertionSort
    (fun first second => compareEdgeKey (key first) (key second) ≠ .gt)
    (((groups edges).range order 0).filterMap (fun entry => emit entry.1 entry.2))).map key
  refine hperm.nodup_iff.mpr ?_
  -- the key of an emitted edge is the key it was grouped under
  refine (Map.range_nodup (groups edges) order 0).sublist (map_filterMap_sublist ?_)
  intro entry hentry edge hemit
  exact (standsFor_emit (Map.mem_range.mp hentry) hemit).key_eq

/-- The keys of the reconciled edges strictly increase. -/
theorem reconcile_pairwise (order : RangeOrder) (edges : List Edge) :
    (reconcile order edges).1.Pairwise (fun first second => key first < key second) := by
  let before : Edge → Edge → Prop := fun first second =>
    compareEdgeKey (key first) (key second) ≠ .gt
  have htotal : Std.Total before := ⟨fun first second => by
    simp only [before, compareEdgeKey_ne_gt]
    exact le_total (key first) (key second)⟩
  have htrans : IsTrans Edge before := ⟨fun first second third => by
    simp only [before, compareEdgeKey_ne_gt]
    exact le_trans⟩
  have hsorted : (reconcile order edges).1.Pairwise before := List.pairwise_insertionSort before _
  refine List.Pairwise.imp₂ ?_ hsorted (List.pairwise_map.mp (reconcile_nodup_keys order edges))
  intro first second hle hne
  exact lt_of_le_of_ne (compareEdgeKey_ne_gt.mp hle) hne

/-- Lists of reconciled edges with the same members are the same: their order is
given by the keys. -/
theorem reconcile_eq_of_mem_iff {order' : RangeOrder} {edges' : List Edge}
    (hmem : ∀ edge, edge ∈ (reconcile order edges).1 ↔ edge ∈ (reconcile order' edges').1) :
    (reconcile order edges).1 = (reconcile order' edges').1 := by
  apply List.Perm.eq_of_pairwise (fun _ _ _ _ hlt hgt => absurd hgt (lt_asymm hlt))
    (reconcile_pairwise order edges) (reconcile_pairwise order' edges')
  exact (List.perm_ext_iff_of_nodup (List.Nodup.of_map key (reconcile_nodup_keys order edges))
    (List.Nodup.of_map key (reconcile_nodup_keys order' edges'))).mpr hmem

/-- The reconciled edges are sorted by different keys, so no order changes them. -/
theorem reconcile_edges_eq (order order' : RangeOrder) (edges : List Edge) :
    (reconcile order edges).1 = (reconcile order' edges).1 := by
  apply reconcile_eq_of_mem_iff
  intro edge
  rw [mem_reconcile, mem_reconcile]

/-- The protocols that some of the observations were made with. -/
def protocols (observations : List Edge) : Set GoString :=
  { proto | ∃ seen ∈ observations, seen.discoveryProto = proto }

/-- `edge` sums up the observations of one link. It is read off the
observations alone: nothing is said about how they were gone through. -/
structure SumsUp (observations : List Edge) (edge : Edge) : Prop where
  observed : observations ≠ []
  canonical : endpoints edge = canonical (endpoints edge)
  rank : IsLeast { rank | ∃ seen ∈ observations, seen.precedenceRank = rank } edge.precedenceRank
  canonicalSide : (∃ seen ∈ bestRanked observations, seen.srcDevice = edge.srcDevice) →
    IsLeast
      (protocols ((bestRanked observations).filter (fun seen => seen.srcDevice = edge.srcDevice)))
      edge.discoveryProto
  otherSide : (¬∃ seen ∈ bestRanked observations, seen.srcDevice = edge.srcDevice) →
    IsLeast (protocols (bestRanked observations)) edge.discoveryProto
  direction : edge.direction = directionBidirectional ↔
    (∃ seen ∈ observations, seen.srcDevice = edge.srcDevice) ∧
      ∃ seen ∈ observations, seen.srcDevice = edge.dstDevice

theorem mem_bestRanked :
    seen ∈ bestRanked observations ↔
      seen ∈ observations ∧ ∀ other ∈ observations, seen.precedenceRank ≤ other.precedenceRank := by
  simp [bestRanked]

/-- A preferred observation is made from the canonical side if any is. -/
theorem canonicalSide_of_preferred (hle : preference link first ≤ preference link second)
    (hside : second.srcDevice = link.srcDevice) : first.srcDevice = link.srcDevice := by
  rw [preference, preference, Prod.Lex.toLex_le_toLex] at hle
  by_contra hother
  rcases hle with hlt | ⟨hsame, -⟩
  · rw [decide_eq_false (not_not.mpr hside)] at hlt
    exact absurd (Bool.lt_iff.mp hlt).2 Bool.false_ne_true
  · simp [hside, hother] at hsame

/-- On one side the preferred observation has the smaller protocol name. -/
theorem proto_le_of_preferred (hle : preference link first ≤ preference link second)
    (hsides : first.srcDevice = link.srcDevice ↔ second.srcDevice = link.srcDevice) :
    first.discoveryProto ≤ second.discoveryProto := by
  rw [preference, preference, Prod.Lex.toLex_le_toLex] at hle
  simpa [hsides] using hle

theorem direction_linkEdge :
    (linkEdge edges link observed).direction = directionBidirectional ↔
      BothReported edges link := by
  simp only [linkEdge]
  split_ifs with hboth
  · simp [hboth]
  · simp only [hboth, iff_false]
    decide

theorem endpoints_linkEdge {edges : List Edge} {link : EdgeKey} {observed : Edge}
    (hkey : groupKey observed = some link) : endpoints (linkEdge edges link observed) = link := by
  have hends := normalizedEndpoints_orient hkey
  unfold normalizedEndpoints at hends
  simp only [endpoints, linkEdge]
  exact hends

theorem linkEdge_fields (edges : List Edge) (link : EdgeKey) (observed : Edge) :
    (linkEdge edges link observed).precedenceRank = observed.precedenceRank ∧
      (linkEdge edges link observed).discoveryProto = observed.discoveryProto := by
  obtain ⟨hrank, hproto, -⟩ := orient_fields link observed
  simp only [linkEdge]
  exact ⟨hrank, hproto⟩

theorem sumsUp_linkEdge (hwinner : winner edges link = some observed) :
    SumsUp (observationsOf edges link) (linkEdge edges link observed) := by
  have hmem := winner_mem hwinner
  have hkey := (mem_observationsOf.mp hmem).2
  have hends := @endpoints_linkEdge edges _ _ hkey
  obtain ⟨hsrc, hdst⟩ := devices_of_endpoints hends
  obtain ⟨hrank, hproto⟩ := linkEdge_fields edges link observed
  have hbest : observed ∈ bestRanked (observationsOf edges link) := List.argmin_mem hwinner
  have hleast : ∀ seen ∈ bestRanked (observationsOf edges link),
      preference link observed ≤ preference link seen :=
    fun seen hseen => List.le_of_mem_argmin hseen hwinner
  refine ⟨List.ne_nil_of_mem hmem, ?_, ?_, ?_, ?_, ?_⟩
  · obtain ⟨-, -, -, hlink⟩ := groupKey_eq_some.mp hkey
    rw [hends, ← hlink, normalizedGroupKey, canonical_canonical]
  · rw [hrank]
    refine ⟨⟨observed, hmem, rfl⟩, ?_⟩
    rintro rank ⟨seen, hseen, rfl⟩
    exact (mem_bestRanked.mp hbest).2 seen hseen
  · rw [hsrc, hproto]
    rintro ⟨canonicalOne, hcanonical, hside⟩
    have hown := canonicalSide_of_preferred (hleast canonicalOne hcanonical) hside
    refine ⟨⟨observed, List.mem_filter.mpr ⟨hbest, decide_eq_true hown⟩, rfl⟩, ?_⟩
    rintro proto ⟨seen, hseen, rfl⟩
    rw [List.mem_filter, decide_eq_true_eq] at hseen
    exact proto_le_of_preferred (hleast seen hseen.1) (by simp [hown, hseen.2])
  · rw [hsrc, hproto]
    intro hnone
    refine ⟨⟨observed, hbest, rfl⟩, ?_⟩
    rintro proto ⟨seen, hseen, rfl⟩
    -- nobody among the best-ranked reported from the canonical side
    have hother : ∀ one ∈ bestRanked (observationsOf edges link),
        ¬one.srcDevice = link.srcDevice := fun one hone hside => hnone ⟨one, hone, hside⟩
    exact proto_le_of_preferred (hleast seen hseen)
      (iff_of_false (hother observed hbest) (hother seen hseen))
  · rw [direction_linkEdge, hsrc, hdst]
    exact Iff.rfl

theorem key_linkEdge (hwinner : winner edges link = some observed) :
    key (linkEdge edges link observed) = link :=
  (sumsUp_linkEdge hwinner).canonical.symm.trans
    (endpoints_linkEdge (mem_observationsOf.mp (winner_mem hwinner)).2)

/-- Reconciliation gives each observed link exactly one edge and no other
edges, sorted by key, and each edge sums up the observations of its link. -/
theorem reconcile_sums_up (order : RangeOrder) (edges : List Edge) :
    (∀ link, (∃ seen ∈ edges, groupKey seen = some link) →
        ∃! edge, edge ∈ (reconcile order edges).1 ∧ key edge = link) ∧
      (reconcile order edges).1.Pairwise (fun first second =>
        compareEdgeKey (key first) (key second) = .lt) ∧
      ∀ edge ∈ (reconcile order edges).1, SumsUp (observationsOf edges (key edge)) edge := by
  refine ⟨?_, ?_, ?_⟩
  · rintro link ⟨seen, hseen, hkey⟩
    obtain ⟨edge, hedge, hstands⟩ := exists_mem_reconcile order hseen hkey
    refine ⟨edge, ⟨hedge, hstands.key_eq⟩, ?_⟩
    rintro other ⟨hother, hlink⟩
    apply List.inj_on_of_nodup_map (reconcile_nodup_keys order edges) hother hedge
    rw [hlink, hstands.key_eq]
  · exact (reconcile_pairwise order edges).imp compareEdgeKey_eq_lt.mpr
  · intro edge hedge
    obtain ⟨link, observed, hwinner, rfl⟩ := mem_reconcile_iff_winner.mp hedge
    rw [key_linkEdge hwinner]
    exact sumsUp_linkEdge hwinner

/-- The edge of a link is made from the observation that speaks for it. -/
theorem mem_reconcile_and_key :
    edge ∈ (reconcile order edges).1 ∧ key edge = link ↔
      ∃ observed, winner edges link = some observed ∧ edge = linkEdge edges link observed := by
  constructor
  · rintro ⟨hedge, rfl⟩
    obtain ⟨link, observed, hwinner, rfl⟩ := mem_reconcile_iff_winner.mp hedge
    rw [key_linkEdge hwinner]
    exact ⟨observed, hwinner, rfl⟩
  · rintro ⟨observed, hwinner, rfl⟩
    exact ⟨mem_reconcile_iff_winner.mpr ⟨link, observed, hwinner, rfl⟩, key_linkEdge hwinner⟩

/-- What decides which observation of a link prevails: the rank, then the side,
then the protocol name. -/
def precedence (link : EdgeKey) (edge : Edge) : Int ×ₗ Bool ×ₗ GoString :=
  toLex (edge.precedenceRank, preference link edge)

theorem precedence_winner_le (hwinner : winner edges link = some observed)
    (hseen : seen ∈ observationsOf edges link) :
    precedence link observed ≤ precedence link seen := by
  have hbest : observed ∈ bestRanked (observationsOf edges link) := List.argmin_mem hwinner
  have hrank := (mem_bestRanked.mp hbest).2
  rw [precedence, precedence, Prod.Lex.toLex_le_toLex]
  rcases lt_or_eq_of_le (hrank seen hseen) with hlt | hsame
  · exact Or.inl hlt
  · -- at the same rank `seen` is a candidate as well
    have hcandidate : seen ∈ bestRanked (observationsOf edges link) :=
      mem_bestRanked.mpr ⟨hseen, fun other hother => hsame ▸ hrank other hother⟩
    have hle : preference link observed ≤ preference link seen :=
      List.le_of_mem_argmin hcandidate hwinner
    exact Or.inr ⟨hsame, hle⟩

theorem proto_of_precedence_eq (hsame : precedence link first = precedence link second) :
    first.discoveryProto = second.discoveryProto :=
  congrArg (fun place => (ofLex (ofLex place).2).2) hsame

/-- No observation of a link ranks before the one that speaks for it. -/
theorem rank_winner_le (hwinner : winner edges link = some observed)
    (hseen : seen ∈ observationsOf edges link) : observed.precedenceRank ≤ seen.precedenceRank :=
  (mem_bestRanked.mp (List.argmin_mem hwinner)).2 seen hseen

/-! ## Endpoints in either order -/

/-- The endpoints name two different devices. -/
structure Joins (ends : EdgeKey) : Prop where
  src : ends.srcDevice ≠ []
  dst : ends.dstDevice ≠ []
  distinct : ends.srcDevice ≠ ends.dstDevice

theorem Joins.swap (hjoins : Joins ends) : Joins ends.swap :=
  ⟨hjoins.dst, hjoins.src, hjoins.distinct.symm⟩

/-- Some observation reports a link from the source side of the endpoints. -/
def Reported (edges : List Edge) (ends : EdgeKey) : Prop :=
  ∃ seen ∈ edges, normalizedEndpoints seen = ends

theorem groupKey_eq_canonical (hjoins : Joins ends) :
    groupKey seen = some (canonical ends) ↔
      normalizedEndpoints seen = ends ∨ normalizedEndpoints seen = ends.swap := by
  rw [groupKey_eq_some, normalizedGroupKey, canonical_eq_canonical]
  constructor
  · rintro ⟨-, -, -, hends⟩
    exact hends
  · intro hends
    rcases hends with rfl | hswap
    · exact ⟨hjoins.src, hjoins.dst, hjoins.distinct, Or.inl rfl⟩
    · have hseen : Joins (normalizedEndpoints seen) := by
        rw [hswap]
        exact hjoins.swap
      exact ⟨hseen.src, hseen.dst, hseen.distinct, Or.inr hswap⟩

/-- A device reports a link when an observation has its side first. -/
theorem reported_iff (hjoins : Joins ends) :
    Reported edges ends ↔
      ∃ seen ∈ observationsOf edges (canonical ends), seen.srcDevice = ends.srcDevice := by
  constructor
  · rintro ⟨seen, hseen, rfl⟩
    refine ⟨seen, mem_observationsOf.mpr ⟨hseen, ?_⟩, rfl⟩
    exact (groupKey_eq_canonical hjoins).mpr (Or.inl rfl)
  · rintro ⟨seen, hseen, hsrc⟩
    obtain ⟨hmem, hkey⟩ := mem_observationsOf.mp hseen
    rcases (groupKey_eq_canonical hjoins).mp hkey with hends | hswap
    · exact ⟨seen, hmem, hends⟩
    · -- seen from the other side its source would be the other device
      have hother : seen.srcDevice = ends.dstDevice := congrArg EdgeKey.srcDevice hswap
      exact absurd (hsrc.symm.trans hother) hjoins.distinct

theorem observationsOf_ne_nil (hjoins : Joins ends) :
    observationsOf edges (canonical ends) ≠ [] ↔
      Reported edges ends ∨ Reported edges ends.swap := by
  constructor
  · intro hsome
    obtain ⟨seen, hseen⟩ := List.exists_mem_of_ne_nil _ hsome
    obtain ⟨hmem, hkey⟩ := mem_observationsOf.mp hseen
    exact ((groupKey_eq_canonical hjoins).mp hkey).imp (⟨seen, hmem, ·⟩) (⟨seen, hmem, ·⟩)
  · intro hreported
    have hseen : ∃ seen ∈ edges, groupKey seen = some (canonical ends) := by
      rcases hreported with ⟨seen, hmem, hends⟩ | ⟨seen, hmem, hends⟩
      · exact ⟨seen, hmem, (groupKey_eq_canonical hjoins).mpr (Or.inl hends)⟩
      · exact ⟨seen, hmem, (groupKey_eq_canonical hjoins).mpr (Or.inr hends)⟩
    obtain ⟨seen, hmem, hkey⟩ := hseen
    exact List.ne_nil_of_mem (mem_observationsOf.mpr ⟨hmem, hkey⟩)

theorem joins_of_observed (hsome : observationsOf edges link ≠ []) : Joins link := by
  obtain ⟨seen, hseen⟩ := List.exists_mem_of_ne_nil _ hsome
  obtain ⟨hsrc, hdst, hdistinct⟩ := link_devices (mem_observationsOf.mp hseen).2
  exact ⟨hsrc, hdst, hdistinct⟩

/-- A reconciled edge joins two devices, one of which reported it; it is
bidirectional when both did. -/
theorem reported_of_mem_reconcile (hedge : edge ∈ (reconcile order edges).1) :
    Joins (endpoints edge) ∧
      (Reported edges (endpoints edge) ∨ Reported edges (endpoints edge).swap) ∧
      (edge.direction = directionBidirectional ↔
        Reported edges (endpoints edge) ∧ Reported edges (endpoints edge).swap) := by
  obtain ⟨link, observed, hwinner, rfl⟩ := mem_reconcile_iff_winner.mp hedge
  have hends := @endpoints_linkEdge edges _ _ (mem_observationsOf.mp (winner_mem hwinner)).2
  have hsum := sumsUp_linkEdge hwinner
  have hcanonical : canonical link = link := by
    have hown := hsum.canonical
    rw [hends] at hown
    exact hown.symm
  have hjoins := joins_of_observed hsum.observed
  rw [hends, direction_linkEdge, ← observationsOf_ne_nil hjoins, reported_iff hjoins,
    reported_iff hjoins.swap, canonical_swap, hcanonical]
  exact ⟨hjoins, hsum.observed, Iff.rfl⟩

/-- Endpoints that some observation reports have exactly one edge. -/
theorem existsUnique_mem_reconcile (order : RangeOrder) (hjoins : Joins ends)
    (hreported : Reported edges ends ∨ Reported edges ends.swap) :
    ∃! edge, edge ∈ (reconcile order edges).1 ∧
      (endpoints edge = ends ∨ endpoints edge = ends.swap) := by
  obtain ⟨seen, hseen⟩ :=
    List.exists_mem_of_ne_nil _ ((observationsOf_ne_nil hjoins).mpr hreported)
  obtain ⟨hmem, hkey⟩ := mem_observationsOf.mp hseen
  obtain ⟨edge, hedge, hstands⟩ := exists_mem_reconcile order hmem hkey
  refine ⟨edge, ⟨hedge, ?_⟩, ?_⟩
  · rw [hstands.endpoints_eq]
    exact canonical_cases ends
  · rintro other ⟨hother, hends⟩
    apply List.inj_on_of_nodup_map (reconcile_nodup_keys order edges) hother hedge
    rw [hstands.key_eq, key, canonical_eq_canonical]
    exact hends

end TopologyExporter.Graph
