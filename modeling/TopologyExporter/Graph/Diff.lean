import TopologyExporter.Graph.Reconcile

/-! # Changes between two graphs

The exporter reports a new graph as the changes against the one before. Whoever
applies the changes to a copy of the old graph holds the new one, up to the
fields whose changes are not worth reporting.
-/

namespace TopologyExporter.Graph

open Go Discovery

inductive EdgeChange where
  | added (after : Edge)
  | updated (before after : Edge)
  | removed (before : Edge)
deriving DecidableEq

/-- The same link with other than its observation time, adjacency or metadata
changed. -/
def edgeMateriallyChanged (before after : Edge) : Bool :=
  before.direction ≠ after.direction || before.discoveryProto ≠ after.discoveryProto ||
    before.confidence ≠ after.confidence || before.precedenceRank ≠ after.precedenceRank ||
    before.linkKind ≠ after.linkKind

def byKey (edges : List Edge) : Map EdgeKey Edge :=
  edges.foldl (fun table edge => table.insert (key edge) edge) ∅

/-- The change an edge of the new graph stands for. -/
def changeOf (before : Map EdgeKey Edge) (edge : Edge) : Option EdgeChange :=
  match before.lookup (key edge) with
  | none => some (.added edge)
  | some held => if edgeMateriallyChanged held edge then some (.updated held edge) else none

/-- An edge of the new graph is compared and its key struck off the old ones. -/
def diffStep (state : Map EdgeKey Edge × List EdgeChange) (edge : Edge) :
    Map EdgeKey Edge × List EdgeChange :=
  (state.1.erase (key edge), state.2 ++ (changeOf state.1 edge).toList)

/-- Additions and updates in the order of the new graph, then the removals of
what is left of the old one, sorted by key. -/
def diff (order : RangeOrder) (before after : List Edge) : List EdgeChange :=
  let compared := after.foldl diffStep (byKey before, [])
  let removals := ((compared.1.range order 9).map Prod.snd).insertionSort
    (fun first second => compareEdgeKey (key first) (key second) ≠ .gt)
  compared.2 ++ removals.map EdgeChange.removed

/-! ## Applying changes -/

/-- What a reader of the changes does to its copy. -/
def applyChange (table : Map EdgeKey Edge) : EdgeChange → Map EdgeKey Edge
  | .added after => table.insert (key after) after
  | .updated _ after => table.insert (key after) after
  | .removed before => table.erase (key before)

/-- The key a change writes to, and what it writes. -/
def EdgeChange.row : EdgeChange → EdgeKey × Option Edge
  | .added after => (key after, some after)
  | .updated _ after => (key after, some after)
  | .removed before => (key before, none)

theorem foldl_applyChange (table : Map EdgeKey Edge) (changes : List EdgeChange) :
    changes.foldl applyChange table = (changes.map EdgeChange.row).foldl Map.write table := by
  rw [List.foldl_map]
  congr 1
  funext held change
  cases change <;> rfl

/-! ## The fields that are reported -/

/-- The edges agree on everything whose change is reported. -/
structure Agree (first second : Edge) : Prop where
  direction : first.direction = second.direction
  discoveryProto : first.discoveryProto = second.discoveryProto
  confidence : first.confidence = second.confidence
  precedenceRank : first.precedenceRank = second.precedenceRank
  linkKind : first.linkKind = second.linkKind

theorem Agree.refl (edge : Edge) : Agree edge edge := ⟨rfl, rfl, rfl, rfl, rfl⟩

theorem Agree.trans {first second third : Edge} (hfirst : Agree first second)
    (hsecond : Agree second third) : Agree first third where
  direction := hfirst.direction.trans hsecond.direction
  discoveryProto := hfirst.discoveryProto.trans hsecond.discoveryProto
  confidence := hfirst.confidence.trans hsecond.confidence
  precedenceRank := hfirst.precedenceRank.trans hsecond.precedenceRank
  linkKind := hfirst.linkKind.trans hsecond.linkKind

theorem Agree.symm {first second : Edge} (hagree : Agree first second) : Agree second first where
  direction := hagree.direction.symm
  discoveryProto := hagree.discoveryProto.symm
  confidence := hagree.confidence.symm
  precedenceRank := hagree.precedenceRank.symm
  linkKind := hagree.linkKind.symm

theorem edgeMateriallyChanged_iff {before after : Edge} :
    edgeMateriallyChanged before after ↔ ¬Agree before after := by
  have hfields : Agree before after ↔ before.direction = after.direction ∧
      before.discoveryProto = after.discoveryProto ∧ before.confidence = after.confidence ∧
      before.precedenceRank = after.precedenceRank ∧ before.linkKind = after.linkKind :=
    ⟨fun hagree => ⟨hagree.direction, hagree.discoveryProto, hagree.confidence,
      hagree.precedenceRank, hagree.linkKind⟩,
      fun ⟨hdirection, hproto, hconfidence, hrank, hkind⟩ =>
        ⟨hdirection, hproto, hconfidence, hrank, hkind⟩⟩
  rw [hfields]
  simp only [edgeMateriallyChanged, Bool.or_eq_true, decide_eq_true_eq, not_and_or, or_assoc]

/-! ## What a diff holds -/

variable {edge : Edge} {link : EdgeKey} {before : Map EdgeKey Edge}

theorem lookup_byKey {edges : List Edge} (hnodup : (edges.map key).Nodup) :
    (byKey edges).lookup link = some edge ↔ edge ∈ edges ∧ key edge = link := by
  have hrows : byKey edges = (edges.map (fun edge => (key edge, edge))).foldl
      (fun held row => held.insert row.1 row.2) (∅ : Map EdgeKey Edge) := by
    rw [List.foldl_map]
    rfl
  have hkeys : (edges.map (fun edge => (key edge, edge))).map Prod.fst = edges.map key := by
    rw [List.map_map]
    rfl
  rw [hrows, Map.lookup_foldl_insert_of_nodup (hkeys ▸ hnodup), List.mem_map]
  constructor
  · intro hrow
    obtain ⟨filed, hfiled, hrow⟩ := hrow
    cases hrow
    exact ⟨hfiled, rfl⟩
  · intro hfiled
    obtain ⟨hedge, rfl⟩ := hfiled
    exact ⟨edge, hedge, rfl⟩

theorem lookup_byKey_eq_none {edges : List Edge} (hnodup : (edges.map key).Nodup) :
    (byKey edges).lookup link = none ↔ link ∉ edges.map key := by
  rw [Option.eq_none_iff_forall_ne_some]
  simp only [ne_eq, lookup_byKey hnodup, List.mem_map, not_exists]

/-- Striking off other keys does not change what an edge is compared with. -/
theorem changeOf_erase (hne : key edge ≠ link) :
    changeOf (before.erase link) edge = changeOf before edge := by
  unfold changeOf
  rw [AList.lookup_erase_ne hne]

/-- With one edge per key every edge is compared with the old graph as it was. -/
theorem foldl_diffStep {after : List Edge} (hnodup : (after.map key).Nodup)
    (before : Map EdgeKey Edge) (changes : List EdgeChange) :
    after.foldl diffStep (before, changes) =
      ((after.map key).foldl (fun held link => held.erase link) before,
        changes ++ after.filterMap (changeOf before)) := by
  induction after generalizing before changes with
  | nil => simp
  | cons first rest ih =>
      rw [List.map_cons, List.nodup_cons] at hnodup
      have hsame : rest.filterMap (changeOf (before.erase (key first))) =
          rest.filterMap (changeOf before) := by
        apply List.filterMap_congr
        intro edge hedge
        exact changeOf_erase (fun heq => hnodup.1 (heq ▸ List.mem_map_of_mem hedge))
      rw [List.foldl_cons, diffStep, ih hnodup.2, hsame, List.append_assoc, List.map_cons,
        List.foldl_cons]
      cases hchange : changeOf before first with
      | none => simp [hchange]
      | some change => simp [hchange]

theorem changeOf_eq_added {added : Edge} :
    changeOf before edge = some (.added added) ↔
      edge = added ∧ before.lookup (key edge) = none := by
  unfold changeOf
  cases before.lookup (key edge) with
  | none => simp
  | some held => simp [ite_eq_iff]

theorem changeOf_eq_updated {held updated : Edge} :
    changeOf before edge = some (.updated held updated) ↔
      edge = updated ∧ before.lookup (key edge) = some held ∧ ¬Agree held edge := by
  unfold changeOf
  cases before.lookup (key edge) with
  | none => simp
  | some found =>
      simp only [Option.some.injEq]
      constructor
      · intro hchange
        split_ifs at hchange with hchanged
        cases hchange
        exact ⟨rfl, rfl, edgeMateriallyChanged_iff.mp hchanged⟩
      · rintro ⟨rfl, rfl, hagree⟩
        rw [if_pos (edgeMateriallyChanged_iff.mpr hagree)]

theorem changeOf_ne_removed {removed : Edge} : changeOf before edge ≠ some (.removed removed) := by
  unfold changeOf
  cases before.lookup (key edge) with
  | none => simp
  | some held => simp [ite_eq_iff]

theorem row_changeOf {change : EdgeChange} (hchange : changeOf before edge = some change) :
    change.row = (key edge, some edge) := by
  cases change with
  | added added =>
      obtain ⟨rfl, -⟩ := changeOf_eq_added.mp hchange
      rfl
  | updated held updated =>
      obtain ⟨rfl, -⟩ := changeOf_eq_updated.mp hchange
      rfl
  | removed removed => exact absurd hchange changeOf_ne_removed

section Diff

variable {order : RangeOrder} {before after : List Edge}

/-- The edges of the old graph that the new one has no edge for. -/
def removals (order : RangeOrder) (before after : List Edge) : List Edge :=
  ((((after.map key).foldl (fun held link => held.erase link) (byKey before)).range order 9).map
    Prod.snd).insertionSort (fun first second => compareEdgeKey (key first) (key second) ≠ .gt)

theorem diff_eq (hafter : (after.map key).Nodup) :
    diff order before after =
      after.filterMap (changeOf (byKey before)) ++
        (removals order before after).map EdgeChange.removed := by
  simp only [diff, foldl_diffStep hafter, List.nil_append]
  rfl

variable {edge : Edge} {link : EdgeKey} {change : EdgeChange}

theorem lookup_remaining (hbefore : (before.map key).Nodup) :
    ((after.map key).foldl (fun held link => held.erase link) (byKey before)).lookup link =
        some edge ↔
      (edge ∈ before ∧ key edge = link) ∧ link ∉ after.map key := by
  rw [Map.lookup_foldl_erase]
  by_cases hlink : link ∈ after.map key
  · simp [hlink]
  · simp only [hlink, if_false, lookup_byKey hbefore, not_false_eq_true, and_true]

theorem mem_removals (hbefore : (before.map key).Nodup) :
    edge ∈ removals order before after ↔ edge ∈ before ∧ key edge ∉ after.map key := by
  simp only [removals, List.mem_insertionSort, List.mem_map (f := Prod.snd), Prod.exists,
    exists_eq_right, Map.mem_range, lookup_remaining hbefore]
  constructor
  · rintro ⟨link, ⟨hedge, rfl⟩, hlink⟩
    exact ⟨hedge, hlink⟩
  · rintro ⟨hedge, hlink⟩
    exact ⟨key edge, ⟨hedge, rfl⟩, hlink⟩

theorem nodup_removals (hbefore : (before.map key).Nodup) :
    ((removals order before after).map key).Nodup := by
  have hperm := (List.perm_insertionSort
    (fun first second => compareEdgeKey (key first) (key second) ≠ .gt)
    ((((after.map key).foldl (fun held link => held.erase link) (byKey before)).range order 9).map
      Prod.snd)).map key
  refine hperm.nodup_iff.mpr ?_
  -- every entry is filed under its own key
  have hkeys : (((((after.map key).foldl (fun held link => held.erase link)
      (byKey before)).range order 9).map Prod.snd).map key) =
      (((after.map key).foldl (fun held link => held.erase link) (byKey before)).range
        order 9).map Prod.fst := by
    rw [List.map_map]
    apply List.map_congr_left
    rintro ⟨link, edge⟩ hentry
    exact ((lookup_remaining hbefore).mp (Map.mem_range.mp hentry)).1.2
  rw [hkeys]
  exact Map.range_nodup _ order 9

/-- No two changes are about the same link. -/
theorem nodup_rows_diff (hbefore : (before.map key).Nodup) (hafter : (after.map key).Nodup) :
    (((diff order before after).map EdgeChange.row).map Prod.fst).Nodup := by
  have hnew : (((after.filterMap (changeOf (byKey before))).map EdgeChange.row).map
      Prod.fst).Sublist (after.map key) := by
    rw [List.map_map]
    apply map_filterMap_sublist
    intro edge _ change hchange
    rw [Function.comp_apply, row_changeOf hchange]
  have hold : (((removals order before after).map EdgeChange.removed).map EdgeChange.row).map
      Prod.fst = (removals order before after).map key := by
    rw [List.map_map, List.map_map]
    rfl
  rw [diff_eq hafter, List.map_append, List.map_append, hold, List.nodup_append]
  refine ⟨hafter.sublist hnew, nodup_removals hbefore, ?_⟩
  intro link hlink other hother heq
  obtain ⟨removed, hremoved, rfl⟩ := List.mem_map.mp hother
  exact ((mem_removals hbefore).mp hremoved).2 (heq ▸ hnew.subset hlink)

/-! ## The changes as a relation between the graphs -/

/-- The change says something true about the two graphs. -/
def EdgeChange.Describes (before after : List Edge) : EdgeChange → Prop
  | .added edge => edge ∈ after ∧ key edge ∉ before.map key
  | .updated held edge =>
      held ∈ before ∧ edge ∈ after ∧ key held = key edge ∧ ¬Agree held edge
  | .removed edge => edge ∈ before ∧ key edge ∉ after.map key

/-- One of the edges the change carries is of the link. -/
def EdgeChange.Mentions (link : EdgeKey) : EdgeChange → Prop
  | .added edge => key edge = link
  | .updated held edge => key held = link ∨ key edge = link
  | .removed edge => key edge = link

/-- The change seen from the other graph. -/
def EdgeChange.reverse : EdgeChange → EdgeChange
  | .added edge => .removed edge
  | .updated held edge => .updated edge held
  | .removed edge => .added edge

theorem EdgeChange.reverse_involutive : Function.Involutive EdgeChange.reverse := by
  intro change
  cases change <;> rfl

theorem EdgeChange.describes_reverse :
    change.reverse.Describes after before ↔ change.Describes before after := by
  cases change with
  | added edge => rfl
  | removed edge => rfl
  | updated held edge =>
      have hagree : Agree edge held ↔ Agree held edge := ⟨Agree.symm, Agree.symm⟩
      simp only [EdgeChange.reverse, EdgeChange.Describes, hagree, eq_comm (a := key edge)]
      exact and_left_comm

theorem mem_diff (hbefore : (before.map key).Nodup) (hafter : (after.map key).Nodup) :
    change ∈ diff order before after ↔ change.Describes before after := by
  rw [diff_eq hafter, List.mem_append, List.mem_filterMap]
  cases change with
  | added edge =>
      simp only [changeOf_eq_added, lookup_byKey_eq_none hbefore, List.mem_map, reduceCtorEq,
        and_false, exists_false, or_false, EdgeChange.Describes]
      constructor
      · rintro ⟨_, hedge, rfl, hnew⟩
        exact ⟨hedge, hnew⟩
      · rintro ⟨hedge, hnew⟩
        exact ⟨edge, hedge, rfl, hnew⟩
  | updated held edge =>
      simp only [changeOf_eq_updated, lookup_byKey hbefore, List.mem_map, reduceCtorEq,
        and_false, exists_false, or_false, EdgeChange.Describes]
      constructor
      · rintro ⟨_, hedge, rfl, ⟨hheld, hkey⟩, hchanged⟩
        exact ⟨hheld, hedge, hkey, hchanged⟩
      · rintro ⟨hheld, hedge, hkey, hchanged⟩
        exact ⟨edge, hedge, rfl, ⟨hheld, hkey⟩, hchanged⟩
  | removed edge =>
      simp only [changeOf_ne_removed, and_false, exists_false, false_or, List.mem_map,
        EdgeChange.removed.injEq, exists_eq_right, mem_removals hbefore, EdgeChange.Describes]

/-- A change mentions the key it is applied to and no other. -/
theorem EdgeChange.Describes.mentions (hdescribes : change.Describes before after) :
    change.Mentions link ↔ change.row.1 = link := by
  cases change with
  | added edge => rfl
  | removed edge => rfl
  | updated held edge =>
      obtain ⟨-, -, hkey, -⟩ := hdescribes
      simp only [EdgeChange.Mentions, EdgeChange.row, hkey, or_self]

/-- The graphs have the same links, and the same reported fields on each. -/
structure SameLinks (before after : List Edge) : Prop where
  keys : ∀ link, link ∈ before.map key ↔ link ∈ after.map key
  fields : ∀ held ∈ before, ∀ edge ∈ after, key held = key edge → Agree held edge

theorem sameLinks_iff_forall_not_describes :
    SameLinks before after ↔ ∀ change : EdgeChange, ¬change.Describes before after := by
  constructor
  · intro hsame change hdescribes
    cases change with
    | added edge =>
        exact hdescribes.2 ((hsame.keys _).mpr (List.mem_map_of_mem hdescribes.1))
    | updated held edge =>
        obtain ⟨hheld, hedge, hkey, hchanged⟩ := hdescribes
        exact hchanged (hsame.fields held hheld edge hedge hkey)
    | removed edge =>
        exact hdescribes.2 ((hsame.keys _).mp (List.mem_map_of_mem hdescribes.1))
  · intro hnone
    constructor
    · intro link
      constructor
      · intro hlink
        obtain ⟨edge, hedge, rfl⟩ := List.mem_map.mp hlink
        by_contra hgone
        exact hnone (.removed edge) ⟨hedge, hgone⟩
      · intro hlink
        obtain ⟨edge, hedge, rfl⟩ := List.mem_map.mp hlink
        by_contra hnew
        exact hnone (.added edge) ⟨hedge, hnew⟩
    · intro held hheld edge hedge hkey
      by_contra hchanged
      exact hnone (.updated held edge) ⟨hheld, hedge, hkey, hchanged⟩

/-- Each link is mentioned by at most one change, there is no change exactly if
the graphs have the same links, and the changes back are the same changes seen
from the other side. -/
theorem diff_mentions_once_and_reverses (order order' : RangeOrder)
    (hbefore : (before.map key).Nodup) (hafter : (after.map key).Nodup) :
    (diff order before after).Pairwise
        (fun first second => ∀ link, first.Mentions link → ¬second.Mentions link) ∧
      (diff order before after = [] ↔ SameLinks before after) ∧
      (diff order' after before).Perm ((diff order before after).map EdgeChange.reverse) := by
  have hrows := @nodup_rows_diff order _ _ hbefore hafter
  refine ⟨?_, ?_, ?_⟩
  · rw [List.Nodup, List.map_map, List.pairwise_map] at hrows
    apply hrows.imp_of_mem
    intro first second hfirst hsecond hne link hmentions hmentions'
    rw [((mem_diff hbefore hafter).mp hfirst).mentions] at hmentions
    rw [((mem_diff hbefore hafter).mp hsecond).mentions] at hmentions'
    exact hne (hmentions.trans hmentions'.symm)
  · rw [List.eq_nil_iff_forall_not_mem, sameLinks_iff_forall_not_describes]
    simp only [mem_diff hbefore hafter]
  · have hnodup : (diff order before after).Nodup := by
      rw [List.map_map] at hrows
      exact List.Nodup.of_map _ hrows
    have hback : (diff order' after before).Nodup := by
      have hrows' := @nodup_rows_diff order' _ _ hafter hbefore
      rw [List.map_map] at hrows'
      exact List.Nodup.of_map _ hrows'
    apply (List.perm_ext_iff_of_nodup hback
      (hnodup.map EdgeChange.reverse_involutive.injective)).mpr
    intro change
    rw [List.mem_map_of_involutive EdgeChange.reverse_involutive, mem_diff hafter hbefore,
      mem_diff hbefore hafter, EdgeChange.describes_reverse]

/-- A cable between two switches, plugged into the same port on both. -/
def cable (port : String) (direction : Direction) : Edge where
  srcDevice := str "sw1"
  srcPort := str port
  dstDevice := str "sw2"
  dstPort := str port
  discoveryProto := discoveryProtocolLLDP
  direction := direction
  confidence := confidenceHigh
  adjacency := adjacencyDirect
  precedenceRank := 1
  linkKind := linkKindEthernet
  observedAt := Time.zero
  metadata := ∅

/-- One cable is confirmed and another one moves to a new port. -/
theorem diff_of_moved_cable :
    diff .insertion [cable "Gi1" directionUnidirectional, cable "Gi2" directionBidirectional]
        [cable "Gi1" directionBidirectional, cable "Gi3" directionBidirectional] =
      [.updated (cable "Gi1" directionUnidirectional) (cable "Gi1" directionBidirectional),
        .added (cable "Gi3" directionBidirectional),
        .removed (cable "Gi2" directionBidirectional)] ∧
      (diff .insertion [cable "Gi1" directionBidirectional, cable "Gi3" directionBidirectional]
        [cable "Gi1" directionUnidirectional, cable "Gi2" directionBidirectional]).Perm
        ((diff .insertion
          [cable "Gi1" directionUnidirectional, cable "Gi2" directionBidirectional]
          [cable "Gi1" directionBidirectional, cable "Gi3" directionBidirectional]).map
            EdgeChange.reverse) :=
  ⟨by decide, (diff_mentions_once_and_reverses .insertion .insertion
    (by decide) (by decide)).2.2⟩

/-! ## A copy that follows the changes -/

/-- The copy has the keys of the graph, and agrees with it on every edge. -/
structure Mirrors (table : Map EdgeKey Edge) (edges : List Edge) : Prop where
  keys : ∀ link, (∃ held, table.lookup link = some held) ↔ link ∈ edges.map key
  fields : ∀ edge ∈ edges, ∀ held, table.lookup (key edge) = some held → Agree held edge

theorem mirrors_byKey (hbefore : (before.map key).Nodup) : Mirrors (byKey before) before where
  keys link := by
    simp only [lookup_byKey hbefore, List.mem_map]
  fields edge hedge held hheld := by
    obtain ⟨hmem, hkey⟩ := (lookup_byKey hbefore).mp hheld
    rw [List.inj_on_of_nodup_map hbefore hmem hedge hkey]
    exact Agree.refl edge

variable {table : Map EdgeKey Edge}

theorem lookup_applied_of_changed (hbefore : (before.map key).Nodup)
    (hafter : (after.map key).Nodup) (hedge : edge ∈ after)
    (hchange : changeOf (byKey before) edge = some change) :
    ((diff order before after).foldl applyChange table).lookup (key edge) = some edge := by
  have hmem : change ∈ diff order before after := by
    rw [diff_eq hafter]
    exact List.mem_append_left _ (List.mem_filterMap.mpr ⟨edge, hedge, hchange⟩)
  have hlookup := Map.lookup_foldl_write_of_mem table
    (@nodup_rows_diff order _ _ hbefore hafter) (List.mem_map_of_mem hmem)
  rwa [row_changeOf hchange, ← foldl_applyChange] at hlookup

theorem lookup_applied_of_removed (hbefore : (before.map key).Nodup)
    (hafter : (after.map key).Nodup) (hedge : edge ∈ before) (hgone : key edge ∉ after.map key) :
    ((diff order before after).foldl applyChange table).lookup (key edge) = none := by
  have hmem : EdgeChange.removed edge ∈ diff order before after := by
    rw [diff_eq hafter]
    exact List.mem_append_right _ (List.mem_map_of_mem ((mem_removals hbefore).mpr ⟨hedge, hgone⟩))
  have hlookup := Map.lookup_foldl_write_of_mem table
    (@nodup_rows_diff order _ _ hbefore hafter) (List.mem_map_of_mem hmem)
  rwa [← foldl_applyChange] at hlookup

/-- A link is left alone if it is in neither graph, or in both without a
material change. -/
theorem lookup_applied_of_untouched (hbefore : (before.map key).Nodup)
    (hafter : (after.map key).Nodup)
    (hnew : ∀ edge ∈ after, key edge = link → changeOf (byKey before) edge = none)
    (hold : link ∈ before.map key → link ∈ after.map key) :
    ((diff order before after).foldl applyChange table).lookup link = table.lookup link := by
  rw [foldl_applyChange]
  apply Map.lookup_foldl_write_of_notMem
  rw [diff_eq hafter, List.map_append, List.map_append, List.mem_append, not_or]
  constructor
  · intro hlink
    simp only [List.mem_map, List.mem_filterMap] at hlink
    obtain ⟨row, ⟨change, ⟨edge, hedge, hchange⟩, rfl⟩, hkey⟩ := hlink
    rw [row_changeOf hchange] at hkey
    rw [hnew edge hedge hkey] at hchange
    cases hchange
  · intro hlink
    simp only [List.mem_map] at hlink
    obtain ⟨row, ⟨change, ⟨edge, hremoved, rfl⟩, rfl⟩, rfl⟩ := hlink
    obtain ⟨hedge, hgone⟩ := (mem_removals hbefore).mp hremoved
    exact hgone (hold (List.mem_map_of_mem hedge))

/-- Applying the changes turns a copy of the old graph into one of the new. -/
theorem Mirrors.diff (hmirrors : Mirrors table before) (hbefore : (before.map key).Nodup)
    (hafter : (after.map key).Nodup) :
    Mirrors ((Graph.diff order before after).foldl applyChange table) after := by
  -- an edge that was there before and stays the same
  have hkept : ∀ edge ∈ after, changeOf (byKey before) edge = none →
      ∃ held, table.lookup (key edge) = some held ∧ Agree held edge ∧
        ((Graph.diff order before after).foldl applyChange table).lookup (key edge) =
          some held := by
    intro edge hedge hnone
    have hnew : ∀ other ∈ after, key other = key edge → changeOf (byKey before) other = none := by
      intro other hother hkey
      rw [List.inj_on_of_nodup_map hafter hother hedge hkey, hnone]
    rw [lookup_applied_of_untouched hbefore hafter hnew (fun _ => List.mem_map_of_mem hedge)]
    unfold changeOf at hnone
    split at hnone
    · cases hnone
    next old hold =>
        obtain ⟨hmem, hkey⟩ := (lookup_byKey hbefore).mp hold
        obtain ⟨held, hheld⟩ := (hmirrors.keys (key edge)).mpr (hkey ▸ List.mem_map_of_mem hmem)
        have hagree : Agree held old := hmirrors.fields old hmem held (hkey ▸ hheld)
        split_ifs at hnone with hchanged
        rw [edgeMateriallyChanged_iff, not_not] at hchanged
        exact ⟨held, hheld, hagree.trans hchanged, hheld⟩
  constructor
  · intro link
    by_cases hlink : link ∈ after.map key
    · refine iff_of_true ?_ hlink
      obtain ⟨edge, hedge, rfl⟩ := List.mem_map.mp hlink
      cases hchange : changeOf (byKey before) edge with
      | none =>
          obtain ⟨held, -, -, hlookup⟩ := hkept edge hedge hchange
          exact ⟨held, hlookup⟩
      | some change => exact ⟨edge, lookup_applied_of_changed hbefore hafter hedge hchange⟩
    · refine iff_of_false ?_ hlink
      rintro ⟨held, hlookup⟩
      by_cases hold : link ∈ before.map key
      · obtain ⟨edge, hedge, rfl⟩ := List.mem_map.mp hold
        rw [lookup_applied_of_removed hbefore hafter hedge hlink] at hlookup
        cases hlookup
      · rw [lookup_applied_of_untouched hbefore hafter
          (fun edge hedge hkey => absurd (hkey ▸ List.mem_map_of_mem hedge) hlink)
          (fun hmem => absurd hmem hold)] at hlookup
        exact hold ((hmirrors.keys link).mp ⟨held, hlookup⟩)
  · intro edge hedge held hlookup
    cases hchange : changeOf (byKey before) edge with
    | none =>
        obtain ⟨kept, -, hagree, hown⟩ := hkept edge hedge hchange
        rw [hown] at hlookup
        cases hlookup
        exact hagree
    | some change =>
        rw [lookup_applied_of_changed hbefore hafter hedge hchange] at hlookup
        cases hlookup
        exact Agree.refl edge

end Diff

end TopologyExporter.Graph
