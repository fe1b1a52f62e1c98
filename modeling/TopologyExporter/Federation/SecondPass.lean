import TopologyExporter.Federation.Combined
import TopologyExporter.Graph.PortName

/-! # The second pass over a reconciled graph

The hub reconciles what the spokes have reconciled before. A spoke that is alone
gets its own edges back if its port names are left alone by a second
normalisation. Not every name is: the short form of a prefix, followed by what was
left of the name, can spell another long prefix. Each such step shortens the name
in its ASCII letters, so that no exchange of names among the edges can make up
for it.
-/

namespace TopologyExporter.Federation

open Go Utf8 Discovery TopologyExporter.Graph

/-! ## Maps of a finite set onto itself -/

section Onto

variable {Item : Type} [DecidableEq Item] {items : Finset Item} {visit : Item → Item}

/-- A map onto a finite set that never increases a measure keeps it. -/
theorem measure_eq_of_image_eq (honto : items.image visit = items) {measure : Item → Nat}
    (hle : ∀ item ∈ items, measure (visit item) ≤ measure item) :
    ∀ item ∈ items, measure (visit item) = measure item := by
  have hinjective : Set.InjOn visit items := by
    rw [← Finset.card_image_iff, honto]
  apply (Finset.sum_eq_sum_iff_of_le hle).mp
  calc ∑ item ∈ items, measure (visit item)
      = ∑ item ∈ items.image visit, measure item := (Finset.sum_image hinjective).symm
    _ = ∑ item ∈ items, measure item := by rw [honto]

/-- A map onto a set that does nothing the second time does nothing at all. -/
theorem eq_self_of_image_eq (honto : items.image visit = items)
    (htwice : ∀ item ∈ items, visit (visit item) = visit item) :
    ∀ item ∈ items, visit item = item := by
  intro item hitem
  rw [← honto] at hitem
  obtain ⟨origin, horigin, rfl⟩ := Finset.mem_image.mp hitem
  exact htwice origin horigin

end Onto

/-! ## Port names -/

/-- The short form of a prefix has fewer ASCII letters than were cut off for it,
even if some of these were spelled with other runes. -/
theorem portPrefixes_shorten : ∀ entry ∈ portPrefixes,
    entry.2.length + (((Strings.toLower entry.1).map UInt8.toNat).map Unicode.foldedWidth).sum <
      entry.1.length := by
  decide

theorem asciiCount_stripControl_le (name : GoString) :
    asciiCount (stripControl name) ≤ asciiCount name := by
  rw [asciiCount_eq_countP_runes, asciiCount_eq_countP_runes, runes_stripControl]
  exact List.filter_sublist.countP_le

theorem stripControl_stripControl (name : GoString) :
    stripControl (stripControl name) = stripControl name :=
  stripControl_eq_self (validString_stripControl name) (noControl_stripControl name)

/-- Normalising a name only strips it, or costs it some of its ASCII letters. -/
theorem normalizePortName_strips_or_shortens (name : GoString) :
    normalizePortName name = stripControl name ∨
      asciiCount (normalizePortName name) < asciiCount name := by
  rcases normalizePortName_cases name with hsame | ⟨entry, hentry, hshort, hstarts⟩
  · exact Or.inl hsame
  · apply Or.inr
    have hshorter := portPrefixes_shorten entry hentry
    obtain ⟨front, back, hsplit, hfolded, hletters⟩ := exists_matched hentry hstarts
    have hspelled : stripControl name = encode front ++ encode back := by
      rw [← encode_append, ← hsplit, encode_runes (validString_stripControl name)]
    have hwidth : entry.1.length ≤ (encode front).length := by
      rw [← hletters]
      exact length_le_length_encode front
    have hexcess := Strings.length_encode_le_of_folded hfolded (by
      intro letter hletter
      obtain ⟨byte, hbyte, rfl⟩ := List.mem_map.mp hletter
      exact long_ascii hentry byte hbyte)
    have hcut : asciiCount ((encode front ++ encode back).drop entry.1.length) + entry.1.length +
        asciiCount (encode front) ≤
        asciiCount (encode front ++ encode back) + (encode front).length :=
      asciiCount_drop_le hwidth
    have hshortLength : asciiCount entry.2 ≤ entry.2.length := List.countP_le_length
    have hstrip := asciiCount_stripControl_le name
    rw [hshort, asciiCount_append, hspelled]
    rw [hspelled] at hstrip
    omega

theorem asciiCount_normalizePortName_le (name : GoString) :
    asciiCount (normalizePortName name) ≤ asciiCount name := by
  rcases normalizePortName_strips_or_shortens name with hsame | hlt
  · rw [hsame]
    exact asciiCount_stripControl_le name
  · exact hlt.le

/-! ## Normalised keys -/

/-- The key that an edge with the endpoints is grouped under. -/
def normalizeEnds (ends : EdgeKey) : EdgeKey :=
  canonical ⟨ends.srcDevice, normalizePortName ends.srcPort, ends.dstDevice,
    normalizePortName ends.dstPort⟩

/-- Normalising the port names again changes nothing. -/
def InNormalForm (ends : EdgeKey) : Prop :=
  normalizePortName ends.srcPort = ends.srcPort ∧ normalizePortName ends.dstPort = ends.dstPort

def portLetters (ends : EdgeKey) : Nat := asciiCount ends.srcPort + asciiCount ends.dstPort

theorem portLetters_canonical (ends : EdgeKey) :
    portLetters (canonical ends) = portLetters ends := by
  rcases canonical_cases ends with hsame | hswap
  · rw [hsame]
  · rw [hswap]
    exact add_comm ..

theorem portLetters_normalizeEnds_le (ends : EdgeKey) :
    portLetters (normalizeEnds ends) ≤ portLetters ends := by
  rw [normalizeEnds, portLetters_canonical]
  exact Nat.add_le_add (asciiCount_normalizePortName_le _) (asciiCount_normalizePortName_le _)

variable {ends : EdgeKey}

/-- If no letter is lost, no prefix was found. -/
theorem strips_of_portLetters_eq (hletters : portLetters (normalizeEnds ends) = portLetters ends) :
    normalizePortName ends.srcPort = stripControl ends.srcPort ∧
      normalizePortName ends.dstPort = stripControl ends.dstPort := by
  rw [normalizeEnds, portLetters_canonical, portLetters, portLetters] at hletters
  simp only at hletters
  have hsrc := asciiCount_normalizePortName_le ends.srcPort
  have hdst := asciiCount_normalizePortName_le ends.dstPort
  constructor
  · rcases normalizePortName_strips_or_shortens ends.srcPort with hsame | hlt
    · exact hsame
    · omega
  · rcases normalizePortName_strips_or_shortens ends.dstPort with hsame | hlt
    · exact hsame
    · omega

/-- Between two devices in order the normalised key keeps the order. -/
theorem normalizeEnds_of_lt (hlt : ends.srcDevice < ends.dstDevice) :
    normalizeEnds ends = ⟨ends.srcDevice, normalizePortName ends.srcPort, ends.dstDevice,
      normalizePortName ends.dstPort⟩ :=
  canonical_of_lt hlt

theorem normalizeEnds_eq_self (hlt : ends.srcDevice < ends.dstDevice) :
    normalizeEnds ends = ends ↔ InNormalForm ends := by
  rw [normalizeEnds_of_lt hlt, InNormalForm]
  cases ends
  simp

/-- If the normalised keys of some links are the keys of the same links, all of
them are in normal form. -/
theorem inNormalForm_of_image_eq {links : Finset EdgeKey}
    (hordered : ∀ link ∈ links, link.srcDevice < link.dstDevice)
    (honto : links.image normalizeEnds = links) : ∀ link ∈ links, InNormalForm link := by
  have hstrips : ∀ link ∈ links, normalizePortName link.srcPort = stripControl link.srcPort ∧
      normalizePortName link.dstPort = stripControl link.dstPort := by
    intro link hlink
    apply strips_of_portLetters_eq
    exact measure_eq_of_image_eq honto (fun item _ => portLetters_normalizeEnds_le item) link hlink
  have htwice : ∀ link ∈ links, normalizeEnds (normalizeEnds link) = normalizeEnds link := by
    intro link hlink
    have himage : normalizeEnds link ∈ links := by
      rw [← honto]
      exact Finset.mem_image_of_mem normalizeEnds hlink
    have hends := normalizeEnds_of_lt (hordered link hlink)
    obtain ⟨hsrc, hdst⟩ := hstrips link hlink
    rw [normalizeEnds_eq_self (hordered _ himage)]
    obtain ⟨hsrc', hdst'⟩ := hstrips _ himage
    rw [InNormalForm, hsrc', hdst', hends]
    simp only [hsrc, hdst, stripControl_stripControl, and_self]
  intro link hlink
  apply (normalizeEnds_eq_self (hordered link hlink)).mp
  exact eq_self_of_image_eq honto htwice link hlink

/-! ## The edges of a spoke that is alone -/

section Alone

variable {cfg : FederationConfig} {order order' : RangeOrder} {clock : Nat → Time}
  {edges : List Edge} {name : GoString} {entry : SpokeEntry} {edge seen : Edge}

theorem ordered_of_mem_reconcile (hedge : edge ∈ (reconcile order edges).1) :
    Joins (endpoints edge) ∧ (endpoints edge).srcDevice < (endpoints edge).dstDevice ∧
      canonical (endpoints edge) = endpoints edge := by
  have hjoins := (reported_of_mem_reconcile hedge).1
  obtain ⟨link, observed, hwinner, rfl⟩ := mem_reconcile_iff_winner.mp hedge
  have hcanonical := (sumsUp_linkEdge hwinner).canonical.symm
  refine ⟨hjoins, ?_, hcanonical⟩
  rcases lt_trichotomy (endpoints (linkEdge edges link observed)).srcDevice
    (endpoints (linkEdge edges link observed)).dstDevice with hlt | heq | hgt
  · exact hlt
  · exact absurd heq hjoins.distinct
  · rw [canonical_of_gt hgt] at hcanonical
    exact absurd (congrArg EdgeKey.dstDevice hcanonical) hjoins.distinct

theorem direction_of_mem_reconcile (hedge : edge ∈ (reconcile order edges).1) :
    edge.direction = directionBidirectional ∨ edge.direction = directionUnidirectional := by
  obtain ⟨link, observed, -, rfl⟩ := mem_reconcile_iff_winner.mp hedge
  simp only [linkEdge]
  split_ifs
  · exact Or.inl rfl
  · exact Or.inr rfl

/-- Without out-of-scope records and configured links the hub sees the edges of
the payload, the bidirectional ones from both sides. -/
theorem mem_observations_alone (hlinks : cfg.knownInterDomainLinks = [])
    (hscope : entry.payload.outOfScope = []) :
    seen ∈ observations cfg order clock ((∅ : Spokes).insert name entry) ↔
      ∃ pushed ∈ entry.payload.edges, seen = pushed ∨
        (pushed.direction = directionBidirectional ∧ seen = reversed pushed) := by
  have hnone : enteredPairs cfg order ((∅ : Spokes).insert name entry) = [] := by
    rw [enteredPairs, hlinks, List.filterMap_nil, List.append_nil, List.eq_nil_iff_forall_not_mem]
    intro pair hpair
    obtain ⟨first, -, ⟨found, held, hheld, hrecord⟩, -⟩ := mem_pairs_matchOutOfScope hpair
    obtain ⟨-, rfl⟩ := Map.lookup_insert_empty.mp hheld
    rw [hscope] at hrecord
    cases hrecord
  simp only [mem_observations, hnone, List.getElem?_nil, reduceCtorEq, false_and, exists_false,
    or_false, mem_pushedEdges, Map.lookup_insert_empty]
  constructor
  · rintro ⟨found, held, pushed, ⟨-, rfl⟩, hpushed, hside⟩
    exact ⟨pushed, hpushed, hside⟩
  · rintro ⟨pushed, hpushed, hside⟩
    exact ⟨name, entry, pushed, ⟨rfl, rfl⟩, hpushed, hside⟩

theorem normalizedGroupKey_reversed (edge : Edge) :
    normalizedGroupKey (reversed edge) = normalizedGroupKey edge :=
  canonical_swap (normalizedEndpoints edge)

/-- Both sides of a pushed edge are grouped under the same key. -/
theorem groupKey_of_side {pushed : Edge} (hjoins : Joins (endpoints pushed))
    (hside : seen = pushed ∨ (pushed.direction = directionBidirectional ∧ seen = reversed pushed)) :
    groupKey seen = some (normalizeEnds (endpoints pushed)) := by
  rcases hside with rfl | ⟨-, rfl⟩
  · exact groupKey_eq_some.mpr ⟨hjoins.src, hjoins.dst, hjoins.distinct, rfl⟩
  · exact groupKey_eq_some.mpr ⟨hjoins.dst, hjoins.src, hjoins.distinct.symm,
      normalizedGroupKey_reversed pushed⟩

/-- The combined edges are those of the normalised keys. -/
theorem mem_endpoints_combined (hlinks : cfg.knownInterDomainLinks = [])
    (hscope : entry.payload.outOfScope = [])
    (hpayload : entry.payload.edges = (reconcile order' edges).1) {link : EdgeKey} :
    link ∈ (reconcile order
        (observations cfg order clock ((∅ : Spokes).insert name entry))).1.map endpoints ↔
      ∃ pushed ∈ entry.payload.edges, normalizeEnds (endpoints pushed) = link := by
  rw [List.mem_map]
  constructor
  · rintro ⟨edge, hedge, rfl⟩
    obtain ⟨link, observed, hwinner, rfl⟩ := mem_reconcile_iff_winner.mp hedge
    obtain ⟨hseen, hkey⟩ := mem_observationsOf.mp (winner_mem hwinner)
    obtain ⟨pushed, hpushed, hside⟩ := (mem_observations_alone hlinks hscope).mp hseen
    refine ⟨pushed, hpushed, ?_⟩
    rw [endpoints_linkEdge hkey]
    have hjoins := (ordered_of_mem_reconcile (hpayload ▸ hpushed)).1
    rw [groupKey_of_side hjoins hside] at hkey
    exact Option.some.inj hkey
  · rintro ⟨pushed, hpushed, rfl⟩
    have hjoins := (ordered_of_mem_reconcile (hpayload ▸ hpushed)).1
    have hseen : pushed ∈ observations cfg order clock ((∅ : Spokes).insert name entry) :=
      (mem_observations_alone hlinks hscope).mpr ⟨pushed, hpushed, Or.inl rfl⟩
    obtain ⟨edge, hedge, hstands⟩ :=
      exists_mem_reconcile order hseen (groupKey_of_side hjoins (Or.inl rfl))
    exact ⟨edge, hedge, hstands.endpoints_eq⟩

section Kept

variable (hlinks : cfg.knownInterDomainLinks = []) (hscope : entry.payload.outOfScope = [])
  (hpayload : entry.payload.edges = (reconcile order' edges).1)
  (hnormal : ∀ pushed ∈ entry.payload.edges, InNormalForm (endpoints pushed))

include hlinks hscope hpayload hnormal

variable {pushed : Edge}

/-- The observations of a link are those of its own edge. -/
theorem mem_observationsOf_alone (hpushed : pushed ∈ entry.payload.edges) {seen : Edge} :
    seen ∈ observationsOf (observations cfg order clock ((∅ : Spokes).insert name entry))
        (endpoints pushed) ↔
      seen = pushed ∨ (pushed.direction = directionBidirectional ∧ seen = reversed pushed) := by
  have hkey : ∀ other ∈ entry.payload.edges, ∀ side : Edge,
      (side = other ∨ (other.direction = directionBidirectional ∧ side = reversed other)) →
      groupKey side = some (endpoints other) := by
    intro other hother side hside
    obtain ⟨hjoins, hlt, -⟩ := ordered_of_mem_reconcile (hpayload ▸ hother)
    rw [groupKey_of_side hjoins hside, (normalizeEnds_eq_self hlt).mpr (hnormal other hother)]
  rw [mem_observationsOf, mem_observations_alone hlinks hscope]
  constructor
  · rintro ⟨⟨other, hother, hside⟩, hgrouped⟩
    rw [hkey other hother seen hside, Option.some.injEq] at hgrouped
    have hsame : other = pushed := by
      have hnodup := reconcile_nodup_keys order' edges
      rw [← hpayload] at hnodup
      exact List.inj_on_of_nodup_map hnodup hother hpushed (congrArg canonical hgrouped)
    rwa [hsame] at hside
  · intro hside
    exact ⟨⟨pushed, hpushed, hside⟩, hkey pushed hpushed seen hside⟩

theorem winner_alone (hpushed : pushed ∈ entry.payload.edges) :
    winner (observations cfg order clock ((∅ : Spokes).insert name entry)) (endpoints pushed) =
      some pushed := by
  have hmem : ∀ {seen : Edge}, seen ∈ observationsOf
      (observations cfg order clock ((∅ : Spokes).insert name entry)) (endpoints pushed) ↔
        seen = pushed ∨ (pushed.direction = directionBidirectional ∧ seen = reversed pushed) :=
    mem_observationsOf_alone hlinks hscope hpayload hnormal hpushed
  have hown := hmem.mpr (Or.inl rfl)
  obtain ⟨observed, hwinner⟩ := exists_winner (mem_observationsOf.mp hown).1
    (mem_observationsOf.mp hown).2
  rcases hmem.mp (winner_mem hwinner) with rfl | ⟨-, rfl⟩
  · exact hwinner
  · -- the edge itself is seen from the canonical side, at the same rank
    have hbest : pushed ∈ bestRanked (observationsOf
        (observations cfg order clock ((∅ : Spokes).insert name entry)) (endpoints pushed)) := by
      rw [mem_bestRanked]
      refine ⟨hown, fun other hother => ?_⟩
      rcases hmem.mp hother with rfl | ⟨-, rfl⟩
      · exact le_refl _
      · exact le_refl _
    have hside := canonicalSide_of_preferred (List.le_of_mem_argmin hbest hwinner) rfl
    have hjoins := (ordered_of_mem_reconcile (hpayload ▸ hpushed)).1
    exact absurd hside.symm hjoins.distinct

theorem linkEdge_alone (hpushed : pushed ∈ entry.payload.edges) :
    linkEdge (observations cfg order clock ((∅ : Spokes).insert name entry)) (endpoints pushed)
      pushed = pushed := by
  obtain ⟨hsrc, hdst⟩ := hnormal pushed hpushed
  have hjoins := (ordered_of_mem_reconcile (hpayload ▸ hpushed)).1
  have hboth : BothReported (observations cfg order clock ((∅ : Spokes).insert name entry))
      (endpoints pushed) ↔ pushed.direction = directionBidirectional := by
    unfold BothReported
    simp only [mem_observationsOf_alone hlinks hscope hpayload hnormal hpushed]
    constructor
    · rintro ⟨-, seen, rfl | ⟨hboth, -⟩, hother⟩
      · exact absurd hother hjoins.distinct
      · exact hboth
    · intro hboth
      exact ⟨⟨pushed, Or.inl rfl, rfl⟩, reversed pushed, Or.inr ⟨hboth, rfl⟩, rfl⟩
  have horient : orient (endpoints pushed) pushed = pushed := if_neg (not_not.mpr rfl)
  have hdirection : (if BothReported (observations cfg order clock
      ((∅ : Spokes).insert name entry)) (endpoints pushed) then directionBidirectional
      else directionUnidirectional) = pushed.direction := by
    rw [if_congr hboth rfl rfl]
    split_ifs with hbidirectional
    · exact hbidirectional.symm
    · exact ((direction_of_mem_reconcile (hpayload ▸ hpushed)).resolve_left hbidirectional).symm
  change normalizePortName pushed.srcPort = pushed.srcPort at hsrc
  change normalizePortName pushed.dstPort = pushed.dstPort at hdst
  simp only [linkEdge, horient, hdirection, hsrc, hdst]

/-- Names in normal form go through the second pass as they are, and with them
the edges in all their fields. -/
theorem combined_edges_alone :
    (buildCombinedGraph cfg order clock ((∅ : Spokes).insert name entry)).1.edges =
      entry.payload.edges := by
  rw [hpayload]
  apply reconcile_eq_of_mem_iff
  intro edge
  rw [← hpayload, mem_reconcile_iff_winner]
  constructor
  · rintro ⟨link, observed, hwinner, rfl⟩
    obtain ⟨hseen, hkey⟩ := mem_observationsOf.mp (winner_mem hwinner)
    obtain ⟨pushed, hpushed, hside⟩ := (mem_observations_alone hlinks hscope).mp hseen
    obtain ⟨hjoins, hlt, -⟩ := ordered_of_mem_reconcile (hpayload ▸ hpushed)
    rw [groupKey_of_side hjoins hside, (normalizeEnds_eq_self hlt).mpr (hnormal pushed hpushed),
      Option.some.injEq] at hkey
    rw [← hkey, winner_alone hlinks hscope hpayload hnormal hpushed, Option.some.injEq] at hwinner
    rw [← hkey, ← hwinner, linkEdge_alone hlinks hscope hpayload hnormal hpushed]
    exact hpushed
  · intro hpushed
    exact ⟨endpoints edge, edge, winner_alone hlinks hscope hpayload hnormal hpushed,
      (linkEdge_alone hlinks hscope hpayload hnormal hpushed).symm⟩

end Kept

/-- If the second pass gives the same endpoints, they were in normal form. -/
theorem inNormalForm_of_same_endpoints (hlinks : cfg.knownInterDomainLinks = [])
    (hscope : entry.payload.outOfScope = [])
    (hpayload : entry.payload.edges = (reconcile order' edges).1)
    (hsame : (buildCombinedGraph cfg order clock
      ((∅ : Spokes).insert name entry)).1.edges.map endpoints = entry.payload.edges.map endpoints) :
    ∀ pushed ∈ entry.payload.edges, InNormalForm (endpoints pushed) := by
  let links := (entry.payload.edges.map endpoints).toFinset
  have hlisted : ∀ link, link ∈ links ↔
      ∃ pushed ∈ entry.payload.edges, endpoints pushed = link := by
    intro link
    rw [List.mem_toFinset, List.mem_map]
  have honto : links.image normalizeEnds = links := by
    ext link
    rw [Finset.mem_image, List.mem_toFinset, ← hsame]
    simp only [buildCombinedGraph]
    rw [mem_endpoints_combined hlinks hscope hpayload]
    constructor
    · rintro ⟨origin, horigin, rfl⟩
      obtain ⟨pushed, hpushed, rfl⟩ := (hlisted origin).mp horigin
      exact ⟨pushed, hpushed, rfl⟩
    · rintro ⟨pushed, hpushed, rfl⟩
      exact ⟨endpoints pushed, (hlisted _).mpr ⟨pushed, hpushed, rfl⟩, rfl⟩
  intro pushed hpushed
  apply inNormalForm_of_image_eq _ honto
  · exact (hlisted _).mpr ⟨pushed, hpushed, rfl⟩
  · intro link hlink
    obtain ⟨other, hother, rfl⟩ := (hlisted link).mp hlink
    exact (ordered_of_mem_reconcile (hpayload ▸ hother)).2.1

theorem inNormalForm_swap : InNormalForm ends.swap ↔ InNormalForm ends :=
  And.comm

/-- The reconciled names are in normal form exactly if no observed name changes
when it is normalised twice. -/
theorem inNormalForm_reconciled_iff :
    (∀ edge ∈ (reconcile order edges).1, InNormalForm (endpoints edge)) ↔
      ∀ seen ∈ edges, Joins (endpoints seen) → InNormalForm (normalizedEndpoints seen) := by
  have hends : ∀ {seen : Edge} {link : EdgeKey}, groupKey seen = some link →
      (InNormalForm link ↔ InNormalForm (normalizedEndpoints seen)) := by
    intro seen link hkey
    rcases devices_of_groupKey hkey with ⟨rfl, -⟩ | ⟨rfl, -⟩
    · rfl
    · exact inNormalForm_swap
  constructor
  · intro hnormal seen hseen hjoins
    have hkey := groupKey_of_side hjoins (Or.inl rfl)
    obtain ⟨edge, hedge, hstands⟩ := exists_mem_reconcile order hseen hkey
    rw [← hends hkey, ← hstands.endpoints_eq]
    exact hnormal edge hedge
  · intro hseen edge hedge
    obtain ⟨link, observed, hwinner, rfl⟩ := mem_reconcile_iff_winner.mp hedge
    obtain ⟨hmem, hkey⟩ := mem_observationsOf.mp (winner_mem hwinner)
    rw [endpoints_linkEdge hkey, hends hkey]
    obtain ⟨hsrc, hdst, hdistinct, -⟩ := groupKey_eq_some.mp hkey
    exact hseen observed hmem ⟨hsrc, hdst, hdistinct⟩

/-- The fields of an edge that the second pass is to leave alone. -/
def reportedFields (edge : Edge) : EdgeKey × Direction × DiscoveryProtocol × Int :=
  (endpoints edge, edge.direction, edge.discoveryProto, edge.precedenceRank)

/-- The second pass is the identity on a spoke that is alone exactly if no port
name of its observations changes when it is normalised twice. -/
theorem second_pass_identity_iff (hlinks : cfg.knownInterDomainLinks = [])
    (hscope : entry.payload.outOfScope = [])
    (hpayload : entry.payload.edges = (reconcile order' edges).1) :
    (buildCombinedGraph cfg order clock
        ((∅ : Spokes).insert name entry)).1.edges.map reportedFields =
        entry.payload.edges.map reportedFields ↔
      ∀ seen ∈ edges, seen.srcDevice ≠ [] → seen.dstDevice ≠ [] →
        seen.srcDevice ≠ seen.dstDevice →
        normalizePortName (normalizePortName seen.srcPort) = normalizePortName seen.srcPort ∧
          normalizePortName (normalizePortName seen.dstPort) = normalizePortName seen.dstPort := by
  have hreconciled : (∀ pushed ∈ entry.payload.edges, InNormalForm (endpoints pushed)) ↔
      ∀ seen ∈ edges, Joins (endpoints seen) → InNormalForm (normalizedEndpoints seen) := by
    rw [hpayload]
    exact inNormalForm_reconciled_iff
  constructor
  · intro hsame seen hseen hsrc hdst hdistinct
    have hends := congrArg (List.map Prod.fst) hsame
    rw [List.map_map, List.map_map] at hends
    exact hreconciled.mp (inNormalForm_of_same_endpoints hlinks hscope hpayload hends) seen hseen
      ⟨hsrc, hdst, hdistinct⟩
  · intro htwice
    rw [combined_edges_alone hlinks hscope hpayload (hreconciled.mpr fun seen hseen hjoins =>
      htwice seen hseen hjoins.src hjoins.dst hjoins.distinct)]

end Alone

/-! ## A name that is normalised twice -/

/-- A link that a switch reports from the port with the given name. -/
def reportFrom (port : String) : Edge where
  srcDevice := str "sw1"
  srcPort := str port
  dstDevice := str "sw2"
  dstPort := str "Gi0/2"
  discoveryProto := discoveryProtocolLLDP
  direction := directionUnidirectional
  confidence := confidenceHigh
  adjacency := adjacencyDirect
  precedenceRank := 1
  linkKind := linkKindEthernet
  observedAt := Time.zero
  metadata := ∅

/-- The payload of a spoke whose only observation is this report. -/
def loneEntry (port : String) : SpokeEntry :=
  ⟨{ spokeID := str "east"
     cycleAt := Time.zero
     devices := [plainDevice (str "sw1"), plainDevice (str "sw2")]
     edges := (reconcile .insertion [reportFrom port]).1
     outOfScope := [] }, Time.zero, 0⟩

/-- An ordinary name goes through both passes. -/
theorem gigabit_port_kept :
    (loneEntry "GigabitEthernet0/1").payload.edges.map Edge.srcPort = [str "Gi0/1"] ∧
      (buildCombinedGraph plainConfig .insertion (fun _ => Time.zero)
        ((∅ : Spokes).insert (str "east") (loneEntry "GigabitEthernet0/1"))).1.edges.map
          reportedFields =
        (loneEntry "GigabitEthernet0/1").payload.edges.map reportedFields :=
  ⟨by decide, (second_pass_identity_iff rfl rfl rfl).mpr (by decide)⟩

/-- The short form of the prefix and the rest of the name make a long form, which
the hub shortens again. -/
theorem stuttering_port_renamed :
    (loneEntry "Etherneternet1").payload.edges.map Edge.srcPort = [str "Ethernet1"] ∧
      (buildCombinedGraph plainConfig .insertion (fun _ => Time.zero)
        ((∅ : Spokes).insert (str "east") (loneEntry "Etherneternet1"))).1.edges.map
          Edge.srcPort = [str "Eth1"] := by
  decide

end TopologyExporter.Federation
