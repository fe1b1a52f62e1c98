import TopologyExporter.Federation.Visits

/-! # What the order of iteration decides

The merge ranges over maps, and the order in which it does so is not fixed. The
devices, the count of unmatched keys, and which links get an edge in which direction
do not depend on it. The protocol of a matched link does: it is taken from the
record that is visited first. Here the inputs are described for which every order
gives the same graph.
-/

namespace TopologyExporter.Federation

open Go Utf8 Discovery Selection Arrangement TopologyExporter.Graph

/-! ## What no order changes -/

section Unchanged

variable {cfg : FederationConfig} {spokes : Spokes}

theorem sortedSpokes_eq (order order' : RangeOrder) (spokes : Spokes) :
    sortedSpokes order spokes = sortedSpokes order' spokes := by
  have hperm : ((spokes.range order 4).map Prod.fst).Perm ((spokes.range order' 4).map Prod.fst) :=
    ((Map.perm_range spokes order 4).trans (Map.perm_range spokes order' 4).symm).map Prod.fst
  have hsorted : ((spokes.range order 4).map Prod.fst).insertionSort (· ≤ ·) =
      ((spokes.range order' 4).map Prod.fst).insertionSort (· ≤ ·) := by
    apply List.Perm.eq_of_pairwise (fun _ _ _ _ hle hge => le_antisymm hle hge)
    · exact List.pairwise_insertionSort (· ≤ ·) _
    · exact List.pairwise_insertionSort (· ≤ ·) _
    · exact (List.perm_insertionSort _ _).trans (hperm.trans (List.perm_insertionSort _ _).symm)
  rw [sortedSpokes, hsorted, sortedSpokes]

theorem allDevices_eq (order order' : RangeOrder) (spokes : Spokes) :
    allDevices order spokes = allDevices order' spokes := by
  rw [allDevices, listedDevices, sortedSpokes_eq order order', allDevices, listedDevices]

theorem pushedEdges_eq (order order' : RangeOrder) (spokes : Spokes) :
    pushedEdges order spokes = pushedEdges order' spokes := by
  rw [pushedEdges, sortedSpokes_eq order order', pushedEdges]

theorem unmatched_foldl_matchKey (index : Map OOSKey (List OOSVal)) (state : Matching)
    (entries : List (OOSKey × List OOSVal)) :
    (entries.foldl (matchKey index) state).unmatched = state.unmatched +
      entries.countP (fun entry => (index.lookup ⟨entry.1.hint, entry.1.device⟩).isNone) := by
  have hports : ∀ (found : OOSKey) (ports : List (OOSVal × OOSVal)) (state : Matching),
      (ports.foldl (matchPorts found) state).unmatched = state.unmatched := by
    intro found ports
    induction ports with
    | nil => exact fun _ => rfl
    | cons first rest ih =>
        intro state
        rw [List.foldl_cons, ih]
        unfold matchPorts
        split_ifs
        · rfl
        · rfl
  induction entries generalizing state with
  | nil => rfl
  | cons first rest ih =>
      rw [List.foldl_cons, ih, List.countP_cons]
      unfold matchKey
      cases hlookup : index.lookup ⟨first.1.hint, first.1.device⟩ with
      | none => simp [Nat.add_assoc, Nat.add_comm 1]
      | some remotes => simp [hports]

/-- The index has a key when some record has it. -/
theorem lookup_oosIndex_isNone {order : RangeOrder} {found : OOSKey} :
    ((oosIndex cfg order spokes).lookup found).isNone = true ↔
      ∀ neighbour, Recorded spokes neighbour → oosKey cfg neighbour ≠ found := by
  rw [Option.isNone_iff_eq_none, oosIndex, Map.lookup_groupBy_eq_none]
  simp only [List.mem_flatMap, Prod.exists, Map.mem_range, ne_eq, Option.some.injEq]
  constructor
  · rintro hnone neighbour ⟨name, entry, hlookup, hmem⟩
    exact hnone neighbour ⟨name, entry, hlookup, hmem⟩
  · rintro hnone neighbour ⟨name, entry, hlookup, hmem⟩
    exact hnone neighbour ⟨name, entry, hlookup, hmem⟩

theorem unmatched_eq (cfg : FederationConfig) (order order' : RangeOrder) (spokes : Spokes) :
    (matchOutOfScope cfg order spokes).unmatched =
      (matchOutOfScope cfg order' spokes).unmatched := by
  have hmem : ∀ (order : RangeOrder) (found : OOSKey),
      found ∈ ((oosIndex cfg order spokes).range order 6).map Prod.fst ↔
        ¬ ∀ neighbour, Recorded spokes neighbour → oosKey cfg neighbour ≠ found := by
    intro order found
    rw [← @lookup_oosIndex_isNone cfg spokes order, Option.isNone_iff_eq_none, ← ne_eq,
      Option.ne_none_iff_exists']
    simp only [List.mem_map, Prod.exists, exists_and_right, exists_eq_right, Map.mem_range]
  have hkeys : (((oosIndex cfg order spokes).range order 6).map Prod.fst).Perm
      (((oosIndex cfg order' spokes).range order' 6).map Prod.fst) := by
    refine (List.perm_ext_iff_of_nodup (Map.range_nodup _ order 6)
      (Map.range_nodup _ order' 6)).mpr fun found => ?_
    rw [hmem, hmem]
  have hcount : ∀ order : RangeOrder, (matchOutOfScope cfg order spokes).unmatched =
      (((oosIndex cfg order spokes).range order 6).map Prod.fst).countP (fun found =>
        ((oosIndex cfg order spokes).lookup ⟨found.hint, found.device⟩).isNone) := by
    intro order
    rw [matchOutOfScope, unmatched_foldl_matchKey, List.countP_map, Nat.zero_add]
    rfl
  rw [hcount, hcount, hkeys.countP_eq]
  refine List.countP_congr fun found _ => ?_
  rw [lookup_oosIndex_isNone, lookup_oosIndex_isNone]

end Unchanged

/-! ## Protocols in every order -/

section Protocols

variable (cfg : FederationConfig) (spokes : Spokes)

/-- No protocol that can be entered for the link is smaller. A record without a
protocol takes that of the other side, so two of them must not come first together:
they do if one spoke has both, or one of the two spokes has no record for the other
port. -/
structure Floor (link : EdgeKey) (least : GoString) : Prop where
  named : ∀ ends, ends = link ∨ ends = link.swap → ∀ port name proto,
    opening cfg spokes ends port name = some proto → proto ≠ [] → least ≤ proto
  unnamed : least = [] ∨ ∀ port name farPort farName,
    opening cfg spokes link port name = some [] →
    opening cfg spokes link.swap farPort farName = some [] →
    name ≠ farName ∧ opening cfg spokes link.swap farPort name ≠ none ∧
      opening cfg spokes link port farName ≠ none

/-- There are ports such that every spoke that reports the link on one of them opens
one of them with the protocol or with none. -/
def Steady (ends : EdgeKey) (proto : GoString) : Prop :=
  ∃ ports, Secured spokes.keys (opening cfg spokes ends)
    (fun found => found = [] ∨ found = proto) ports

variable {cfg spokes} {link : EdgeKey} {least : GoString} {port proto : GoString}
  {names : List GoString} {ends : EdgeKey} {name : GoString} {forward : Bool}

theorem key_of_opening (hopening : opening cfg spokes ends port name = some proto) :
    name ∈ spokes.keys := by
  cases hlookup : spokes.lookup name with
  | none =>
      rw [opening, recordsOf, hlookup] at hopening
      cases hopening
  | some entry =>
      exact AList.lookup_isSome.mp (by rw [hlookup]; rfl)

/-- A link with matching records is opened from both sides, whatever the order. -/
theorem exists_opening (hmatched : MatchedAt cfg spokes link) :
    ∃ port, ∀ names : List GoString, names.Perm spokes.keys →
      ∃ proto, names.findSome? (opening cfg spokes link port) = some proto := by
  obtain ⟨here, there, ⟨name, entry, hlookup, hmem⟩, -, hkey, -, hport, -⟩ := hmatched
  refine ⟨here.reportingPort, fun names hnames => ?_⟩
  have hopening : (opening cfg spokes link here.reportingPort name).isSome = true := by
    rw [opening, Option.isSome_map, List.find?_isSome]
    refine ⟨here, ?_, decide_eq_true ⟨⟨hkey, hport⟩, rfl⟩⟩
    rw [recordsOf, hlookup]
    exact hmem
  obtain ⟨proto, hproto⟩ := Option.isSome_iff_exists.mp hopening
  have hname : name ∈ names := hnames.mem_iff.mpr (key_of_opening hproto)
  apply Option.isSome_iff_exists.mp
  rw [List.findSome?_isSome_iff]
  exact ⟨name, hname, hopening⟩

/-- Two records without a protocol come first together only over an empty floor. -/
theorem Floor.nil_of_unnamed (hfloor : Floor cfg spokes link least)
    (hnames : names.Perm spokes.keys) {farPort : GoString}
    (hnear : names.findSome? (opening cfg spokes link port) = some [])
    (hfar : names.findSome? (opening cfg spokes link.swap farPort) = some []) : least = [] := by
  obtain ⟨name, -, farName, -, hopening, hfarOpening, htogether⟩ :=
    exists_perm_first_iff.mp ⟨names, hnames, hnear, hfar⟩
  rcases hfloor.unnamed with hnil | hapart
  · exact hnil
  · obtain ⟨hne, hfarSaid, hnearSaid⟩ := hapart port name farPort farName hopening hfarOpening
    rcases htogether with heq | hsilent | hsilent
    · exact absurd heq hne
    · exact absurd hsilent hfarSaid
    · exact absurd hsilent hnearSaid

theorem Floor.le_of_offered (hfloor : Floor cfg spokes link least) (hnames : names.Perm spokes.keys)
    (hoffered : Offered cfg spokes link names forward proto) : least ≤ proto := by
  obtain ⟨port, farPort, near, far, hnear, hfar, rfl⟩ := hoffered
  obtain ⟨name, -, hopening⟩ := List.exists_of_findSome?_eq_some hnear
  obtain ⟨farName, -, hfarOpening⟩ := List.exists_of_findSome?_eq_some hfar
  have hleNear := hfloor.named link (Or.inl rfl) port name near hopening
  have hleFar := hfloor.named link.swap (Or.inr rfl) farPort farName far hfarOpening
  unfold fallback
  by_cases hnearNil : near = []
  · by_cases hfarNil : far = []
    · subst hnearNil hfarNil
      simp [hfloor.nil_of_unnamed hnames hnear hfar]
    · simp only [hnearNil, hfarNil, if_true, if_false, ite_self]
      exact hleFar hfarNil
  · by_cases hfarNil : far = []
    · simp only [hnearNil, hfarNil, if_true, if_false, ite_self]
      exact hleNear hnearNil
    · simp only [hnearNil, hfarNil, if_false]
      split_ifs
      · exact hleNear hnearNil
      · exact hleFar hfarNil

/-- The other side sees the same matching from its own end. -/
theorem Offered.swap (hoffered : Offered cfg spokes link names forward proto) :
    Offered cfg spokes link.swap names (!forward) proto := by
  obtain ⟨port, farPort, near, far, hnear, hfar, hproto⟩ := hoffered
  refine ⟨farPort, port, far, near, hfar, hnear, ?_⟩
  cases forward <;> exact hproto

/-- A protocol that is opened with is entered when its spoke is gone through first and
the matching starts from its side. -/
theorem exists_offered (hmatched : MatchedAt cfg spokes link)
    (hopening : opening cfg spokes link port name = some proto) (hproto : proto ≠ []) :
    ∃ names : List GoString, names.Perm spokes.keys ∧
      Offered cfg spokes link names true proto := by
  obtain ⟨names, hnames, hfirst⟩ := exists_perm_first (key_of_opening hopening) hopening
  obtain ⟨farPort, hfar⟩ := exists_opening hmatched.swap
  obtain ⟨far, hfar⟩ := hfar names hnames
  refine ⟨names, hnames, port, farPort, proto, far, hfirst, hfar, ?_⟩
  rw [if_pos rfl, fallback, if_neg hproto]

theorem floor_iff (hmatched : MatchedAt cfg spokes link) :
    (∀ names : List GoString, names.Perm spokes.keys → ∀ forward proto,
        Offered cfg spokes link names forward proto → least ≤ proto) ↔
      Floor cfg spokes link least := by
  constructor
  · intro hleast
    refine ⟨?_, ?_⟩
    · rintro ends (rfl | rfl) port name proto hopening hproto
      · obtain ⟨names, hnames, hoffered⟩ := exists_offered hmatched hopening hproto
        exact hleast names hnames true proto hoffered
      · obtain ⟨names, hnames, hoffered⟩ := exists_offered hmatched.swap hopening hproto
        exact hleast names hnames false proto hoffered.swap
    · by_cases hnil : least = []
      · exact Or.inl hnil
      · refine Or.inr fun port name farPort farName hnear hfar => ?_
        by_contra hcompatible
        have htogether : name = farName ∨ opening cfg spokes link.swap farPort name = none ∨
            opening cfg spokes link port farName = none := by
          by_contra hnone
          rw [not_or, not_or] at hnone
          exact hcompatible hnone
        obtain ⟨names, hnames, hfirst, hother⟩ := exists_perm_first_iff.mpr
          ⟨name, key_of_opening hnear, farName, key_of_opening hfar, hnear, hfar, htogether⟩
        have hle := hleast names hnames true [] ⟨port, farPort, [], [], hfirst, hother, rfl⟩
        exact hnil (le_antisymm hle (not_lt.mp (List.not_lt_nil least)))
  · intro hfloor names hnames forward proto hoffered
    exact hfloor.le_of_offered hnames hoffered

theorem steady_iff :
    Steady cfg spokes ends proto ↔
      ∀ names : List GoString, names.Perm spokes.keys → ∃ port found,
        names.findSome? (opening cfg spokes ends port) = some found ∧
          (found = [] ∨ found = proto) :=
  forall_perm_good_iff.symm

/-- The side that the matching starts from opens with the protocol entered or with
none. -/
theorem Offered.opened (hoffered : Offered cfg spokes link names true proto) :
    ∃ port found, names.findSome? (opening cfg spokes link port) = some found ∧
      (found = [] ∨ found = proto) := by
  obtain ⟨port, -, near, far, hnear, -, hproto⟩ := hoffered
  refine ⟨port, near, hnear, ?_⟩
  rw [if_pos rfl, fallback] at hproto
  split_ifs at hproto with hnil
  · exact Or.inl hnil
  · exact Or.inr hproto.symm

/-- A protocol that is a floor is entered in every order exactly when both sides are
steady. -/
theorem offered_iff_steady (hfloor : Floor cfg spokes link least) :
    (∀ names : List GoString, names.Perm spokes.keys → ∀ forward,
        Offered cfg spokes link names forward least) ↔
      Steady cfg spokes link least ∧ Steady cfg spokes link.swap least := by
  rw [steady_iff, steady_iff]
  constructor
  · intro hoffered
    constructor
    · intro names hnames
      exact (hoffered names hnames true).opened
    · intro names hnames
      exact (hoffered names hnames false).swap.opened
  · rintro ⟨hsteady, hfarSteady⟩ names hnames forward
    obtain ⟨port, near, hnear, hnearGood⟩ := hsteady names hnames
    obtain ⟨farPort, far, hfar, hfarGood⟩ := hfarSteady names hnames
    refine ⟨port, farPort, near, far, hnear, hfar, ?_⟩
    unfold fallback
    by_cases hnearNil : near = []
    · by_cases hfarNil : far = []
      · subst hnearNil hfarNil
        simp [hfloor.nil_of_unnamed hnames hnear hfar]
      · simp [hnearNil, hfarGood.resolve_left hfarNil]
    · by_cases hfarNil : far = []
      · simp [hfarNil, hnearGood.resolve_left hnearNil]
      · simp [hfarGood.resolve_left hfarNil, hnearGood.resolve_left hnearNil]

end Protocols

/-! ## The observation that speaks for a link -/

section Winners

theorem winner_eq_argmin (edges : List Edge) (link : EdgeKey) :
    winner edges link = (observationsOf edges link).argmin (precedence link) :=
  argmin_filter_rank _ _

theorem winner_append (front back : List Edge) (link : EdgeKey) :
    winner (front ++ back) link =
      better (precedence link) (winner front link) (winner back link) := by
  rw [winner_eq_argmin, winner_eq_argmin, winner_eq_argmin, observationsOf, List.filter_append,
    argmin_append]
  rfl

/-- The observation without the time it was made at. -/
def undated (edge : Edge) : Edge := { edge with observedAt := Time.zero }

theorem winner_map_undated (edges : List Edge) (link : EdgeKey) :
    winner (edges.map undated) link = (winner edges link).map undated := by
  rw [winner_eq_argmin, winner_eq_argmin, observationsOf, List.filter_map, argmin_map]
  rfl

/-- The links entered as pairs, without times. -/
def enteredEdges (pairs : List LinkPair) : List Edge := pairs.flatMap (edgePair Time.zero)

theorem undated_entered (clock : Nat → Time) (pairs : List LinkPair) :
    (pairs.zipIdx.flatMap (fun (pair, index) => edgePair (clock index) pair)).map undated =
      enteredEdges pairs := by
  rw [List.map_flatMap, enteredEdges]
  conv_rhs => rw [← List.zipIdx_map_fst 0 pairs]
  rw [List.flatMap_map]
  rfl

variable {cfg : FederationConfig} {order : RangeOrder} {clock : Nat → Time} {spokes : Spokes}
  {link : EdgeKey}

/-- The links entered because they are configured. -/
abbrev configuredPairs (cfg : FederationConfig) (order : RangeOrder) (spokes : Spokes) :
    List LinkPair :=
  cfg.knownInterDomainLinks.filterMap (knownLinkPair (allDevices order spokes))

variable {pairs : List LinkPair} {seen : Edge} {pair : LinkPair}

/-- The observations of a link that is entered are those of its pairs. -/
theorem mem_observationsOf_entered (hjoins : Joins link) (hcanonical : canonical link = link)
    (hseen : seen ∈ observationsOf (enteredEdges pairs) link) :
    ∃ pair ∈ pairs, seen ∈ edgePair Time.zero pair ∧
      (pair.endpoints = link ∨ pair.endpoints = link.swap) := by
  obtain ⟨hmem, hkey⟩ := mem_observationsOf.mp hseen
  obtain ⟨pair, hpair, hside⟩ := List.mem_flatMap.mp hmem
  refine ⟨pair, hpair, hside, ?_⟩
  rw [← hcanonical, groupKey_eq_canonical hjoins] at hkey
  rcases hkey with hends | hends
  · exact exists_mem_edgePair.mp ⟨seen, hside, hends⟩
  · exact (exists_mem_edgePair.mp ⟨seen, hside, hends⟩).symm

/-- A pair is observed from the source side of its link. -/
theorem exists_observationOf_entered (hjoins : Joins link) (hcanonical : canonical link = link)
    (hpair : pair ∈ pairs) (hends : pair.endpoints = link ∨ pair.endpoints = link.swap) :
    ∃ seen ∈ observationsOf (enteredEdges pairs) link,
      precedence link seen = toLex (pair.rank, toLex (false, pair.proto)) := by
  obtain ⟨seen, hside, hseen⟩ := (@exists_mem_edgePair Time.zero pair link).mpr hends
  refine ⟨seen, mem_observationsOf.mpr ⟨List.mem_flatMap.mpr ⟨pair, hpair, hside⟩, ?_⟩, ?_⟩
  · rw [← hcanonical, groupKey_eq_canonical hjoins]
    exact Or.inl hseen
  · obtain ⟨hrank, hproto⟩ := fields_of_mem_edgePair hside
    have hsrc : seen.srcDevice = link.srcDevice := congrArg EdgeKey.srcDevice hseen
    rw [precedence, preference, hrank, hproto, hsrc]
    simp

theorem exists_winner_entered (hjoins : Joins link) (hcanonical : canonical link = link) :
    (∃ seen, winner (enteredEdges pairs) link = some seen) ↔
      ∃ pair ∈ pairs, pair.endpoints = link ∨ pair.endpoints = link.swap := by
  constructor
  · rintro ⟨seen, hwinner⟩
    obtain ⟨pair, hpair, -, hends⟩ :=
      mem_observationsOf_entered hjoins hcanonical (winner_mem hwinner)
    exact ⟨pair, hpair, hends⟩
  · rintro ⟨pair, hpair, hends⟩
    obtain ⟨seen, hseen, -⟩ := exists_observationOf_entered hjoins hcanonical hpair hends
    obtain ⟨hmem, hkey⟩ := mem_observationsOf.mp hseen
    exact exists_winner hmem hkey

/-- What an edge says about its link, apart from where it is. -/
def traits (edge : Edge) : DiscoveryProtocol × Int × LinkKind × Confidence :=
  (edge.discoveryProto, edge.precedenceRank, edge.linkKind, edge.confidence)

theorem traits_of_mem_edgePair {now : Time} (hseen : seen ∈ edgePair now pair) :
    traits seen = (pair.proto, pair.rank, pair.linkKind, pair.confidence) := by
  simp only [edgePair, List.mem_cons, List.not_mem_nil, or_false] at hseen
  rcases hseen with rfl | rfl
  · rfl
  · rfl

/-- The place of a matched link among the observations, seen from its canonical
side. -/
def matchedPlace (proto : GoString) : Int ×ₗ Bool ×ₗ GoString := toLex (2, toLex (false, proto))

variable {proto : GoString}

theorem le_matchedPlace_iff :
    precedence link seen ≤ matchedPlace proto ↔
      seen.precedenceRank < 2 ∨
        (seen.precedenceRank = 2 ∧ seen.srcDevice = link.srcDevice ∧
          seen.discoveryProto ≤ proto) := by
  rw [precedence, preference, matchedPlace, Prod.Lex.toLex_le_toLex, Prod.Lex.toLex_le_toLex]
  by_cases hside : seen.srcDevice = link.srcDevice
  · simp [hside]
  · simp [hside]

theorem le_matchedPlace_mono {other : GoString} (hseen : precedence link seen ≤ matchedPlace proto)
    (hle : proto ≤ other) : precedence link seen ≤ matchedPlace other := by
  rw [le_matchedPlace_iff] at hseen ⊢
  exact hseen.imp_right fun hsame => ⟨hsame.1, hsame.2.1, hsame.2.2.trans hle⟩

theorem precedence_eq_matchedPlace (hrank : seen.precedenceRank = 2)
    (hside : seen.srcDevice = link.srcDevice) :
    precedence link seen = matchedPlace seen.discoveryProto := by
  rw [precedence, preference, hrank, hside]
  simp [matchedPlace]

theorem fields_of_mem_pairs (hpair : pair ∈ (matchOutOfScope cfg order spokes).pairs) :
    pair.rank = 2 ∧ pair.linkKind = linkKindEthernet ∧ pair.confidence = confidenceMedium := by
  obtain ⟨first, second, -, -, -, rfl⟩ := mem_pairs_matchOutOfScope hpair
  exact ⟨rfl, rfl, rfl⟩

/-- Of the matched links at the endpoints the one with the smallest protocol speaks. -/
theorem winner_matched (hjoins : Joins link) (hcanonical : canonical link = link)
    (hlt : link.srcDevice < link.dstDevice)
    (hwinner : winner (enteredEdges (matchOutOfScope cfg order spokes).pairs) link = some seen) :
    traits seen = (seen.discoveryProto, 2, linkKindEthernet, confidenceMedium) ∧
      precedence link seen = matchedPlace seen.discoveryProto ∧
      IsLeast { proto | Offered cfg spokes link (gathering order spokes)
        (fromSource cfg order spokes link) proto } seen.discoveryProto := by
  obtain ⟨pair, hpair, hside, hends⟩ :=
    mem_observationsOf_entered hjoins hcanonical (winner_mem hwinner)
  obtain ⟨hpairRank, hkind, hconfidence⟩ := fields_of_mem_pairs hpair
  obtain ⟨hrank, hproto⟩ := fields_of_mem_edgePair hside
  rw [hpairRank] at hrank
  -- every pair is also observed from the canonical side
  have hleast : ∀ other ∈ (matchOutOfScope cfg order spokes).pairs,
      (other.endpoints = link ∨ other.endpoints = link.swap) →
        seen.srcDevice = link.srcDevice ∧ seen.discoveryProto ≤ other.proto := by
    intro other hother hat
    obtain ⟨near, hnear, hplace⟩ := exists_observationOf_entered hjoins hcanonical hother hat
    rw [(fields_of_mem_pairs hother).1] at hplace
    have hle := (precedence_winner_le hwinner hnear).trans (le_of_eq hplace)
    rcases le_matchedPlace_iff.mp hle with hlower | ⟨-, hsame⟩
    · exact absurd hrank hlower.ne
    · exact hsame
  refine ⟨?_, precedence_eq_matchedPlace hrank (hleast pair hpair hends).1, ?_, ?_⟩
  · rw [traits_of_mem_edgePair hside, hproto, hpairRank, hkind, hconfidence]
  · exact (offered_iff hlt).mp ⟨pair, hpair, hends, hproto.symm⟩
  · intro proto hoffered
    obtain ⟨other, hother, hat, rfl⟩ := (offered_iff hlt).mpr hoffered
    exact (hleast other hother hat).2

theorem rank_winner_configured (hjoins : Joins link) (hcanonical : canonical link = link)
    (hwinner : winner (enteredEdges (configuredPairs cfg order spokes)) link = some seen) :
    seen.precedenceRank = 0 := by
  obtain ⟨pair, hpair, hside, -⟩ :=
    mem_observationsOf_entered hjoins hcanonical (winner_mem hwinner)
  obtain ⟨known, -, hknown⟩ := List.mem_filterMap.mp hpair
  obtain ⟨-, -, -, -, hzero⟩ := knownLinkPair_eq_some hknown
  rw [(fields_of_mem_edgePair hside).1, hzero]

theorem precedence_undated (edge : Edge) : precedence link (undated edge) = precedence link edge :=
  rfl

theorem traits_undated (edge : Edge) : traits (undated edge) = traits edge := rfl

/-- What is said about a link: pushed observations come first, then the matched links, then
the configured ones. -/
theorem traits_winner :
    (winner (observations cfg order clock spokes) link).map traits =
      (better (precedence link) ((winner (pushedEdges order spokes) link).map undated)
        (better (precedence link)
          (winner (enteredEdges (matchOutOfScope cfg order spokes).pairs) link)
          (winner (enteredEdges (configuredPairs cfg order spokes)) link))).map traits := by
  have hundated : (winner (observations cfg order clock spokes) link).map traits =
      (winner ((observations cfg order clock spokes).map undated) link).map traits := by
    rw [winner_map_undated, Option.map_map]
    rfl
  rw [hundated, ← winner_map_undated, ← winner_append, ← winner_append, observations,
    List.map_append, undated_entered, enteredEdges, List.flatMap_append]
  rfl

/-- A configured link speaks before a matched one, so that no order matters. -/
theorem traits_winner_of_configured (hjoins : Joins link) (hcanonical : canonical link = link)
    (hconfigured : ConfiguredAt cfg spokes link) (order' : RangeOrder) (clock' : Nat → Time) :
    (winner (observations cfg order clock spokes) link).map traits =
      (winner (observations cfg order' clock' spokes) link).map traits := by
  have hspeaks : ∀ order : RangeOrder, better (precedence link)
      (winner (enteredEdges (matchOutOfScope cfg order spokes).pairs) link)
      (winner (enteredEdges (configuredPairs cfg order spokes)) link) =
      winner (enteredEdges (configuredPairs cfg order spokes)) link := by
    intro order
    obtain ⟨configured, hwinner⟩ := (exists_winner_entered hjoins hcanonical).mpr
      ((@configuredAt_iff cfg order spokes link).mpr hconfigured)
    have hzero := rank_winner_configured hjoins hcanonical hwinner
    rw [hwinner]
    cases hmatched : winner (enteredEdges (matchOutOfScope cfg order spokes).pairs) link with
    | none => rfl
    | some seen =>
        obtain ⟨pair, hpair, hside, -⟩ :=
          mem_observationsOf_entered hjoins hcanonical (winner_mem hmatched)
        have htwo : seen.precedenceRank = 2 :=
          (fields_of_mem_edgePair hside).1.trans (fields_of_mem_pairs hpair).1
        have hlt : precedence link configured < precedence link seen := by
          rw [precedence, precedence, Prod.Lex.toLex_lt_toLex, hzero, htwo]
          exact Or.inl (by decide : (0 : Int) < 2)
        rw [better, if_pos hlt]
  rw [traits_winner, traits_winner, hspeaks, hspeaks, configuredPairs, allDevices_eq order order',
    pushedEdges_eq order order']

theorem traits_winner_of_unmatched (hjoins : Joins link) (hcanonical : canonical link = link)
    (hunmatched : ¬ MatchedAt cfg spokes link) (order' : RangeOrder) (clock' : Nat → Time) :
    (winner (observations cfg order clock spokes) link).map traits =
      (winner (observations cfg order' clock' spokes) link).map traits := by
  have hnone : ∀ order : RangeOrder,
      winner (enteredEdges (matchOutOfScope cfg order spokes).pairs) link = none := by
    intro order
    rw [Option.eq_none_iff_forall_ne_some]
    intro seen hwinner
    exact hunmatched (matchedAt_iff.mp
      ((exists_winner_entered hjoins hcanonical).mp ⟨seen, hwinner⟩))
  rw [traits_winner, traits_winner, hnone, hnone, configuredPairs, allDevices_eq order order',
    pushedEdges_eq order order']

/-- What was pushed about the link comes before a match with the protocol. -/
def Preceded (spokes : Spokes) (link : EdgeKey) (proto : GoString) : Prop :=
  ∃ seen, winner (pushedEdges .insertion spokes) link = some seen ∧
    precedence link seen ≤ matchedPlace proto

/-- Of a matched link that is not configured, the smallest protocol entered is told
unless something pushed comes before it. -/
theorem traits_winner_of_matched (hjoins : Joins link) (hcanonical : canonical link = link)
    (hlt : link.srcDevice < link.dstDevice) (hmatched : MatchedAt cfg spokes link)
    (hconfigured : ¬ ConfiguredAt cfg spokes link) :
    ∃ proto, IsLeast { proto | Offered cfg spokes link (gathering order spokes)
        (fromSource cfg order spokes link) proto } proto ∧
      (Preceded spokes link proto → (winner (observations cfg order clock spokes) link).map traits =
        (winner (pushedEdges .insertion spokes) link).map traits) ∧
      (¬ Preceded spokes link proto →
        (winner (observations cfg order clock spokes) link).map traits =
          some (proto, 2, linkKindEthernet, confidenceMedium)) := by
  obtain ⟨seen, hwinner⟩ := (exists_winner_entered hjoins hcanonical).mpr
    ((@matchedAt_iff cfg order spokes link).mpr hmatched)
  obtain ⟨htraits, hplace, hleast⟩ := winner_matched hjoins hcanonical hlt hwinner
  have hnone : winner (enteredEdges (configuredPairs cfg order spokes)) link = none := by
    rw [Option.eq_none_iff_forall_ne_some]
    intro configured hspeaks
    exact hconfigured (configuredAt_iff.mp
      ((exists_winner_entered hjoins hcanonical).mp ⟨configured, hspeaks⟩))
  refine ⟨seen.discoveryProto, hleast, ?_, ?_⟩
  · rintro ⟨pushed, hpushed, hle⟩
    have hfirst : ¬ precedence link seen < precedence link (undated pushed) := by
      rw [precedence_undated, hplace]
      exact not_lt.mpr hle
    rw [traits_winner, hwinner, hnone, pushedEdges_eq order .insertion, hpushed]
    simp only [better, Option.map_some, if_neg hfirst, traits_undated]
  · intro hnot
    rw [traits_winner, hwinner, hnone, pushedEdges_eq order .insertion]
    cases hpushed : winner (pushedEdges .insertion spokes) link with
    | none =>
        simp only [better, Option.map_none, Option.map_some, htraits]
    | some pushed =>
        have hbefore : precedence link seen < precedence link (undated pushed) := by
          rw [precedence_undated, hplace]
          exact not_le.mp fun hle => hnot ⟨pushed, hpushed, hle⟩
        simp only [better, Option.map_some, if_pos hbefore, htraits]

end Winners

/-! ## Links that no order changes -/

section OrderFree

variable (cfg : FederationConfig) (spokes : Spokes)

/-- A spoke pushed an observation of the link that comes before every match: of a
better rank, or of the same rank from the canonical side with a protocol that is a
floor. -/
def Overruled (link : EdgeKey) : Prop :=
  ∃ seen, Observed spokes seen ∧ groupKey seen = some link ∧
    (seen.precedenceRank < 2 ∨
      (seen.precedenceRank = 2 ∧ seen.srcDevice = link.srcDevice ∧
        Floor cfg spokes link seen.discoveryProto))

/-- The order in which records are visited does not show: the link is configured, or
its matches are overruled, or they have the same smallest protocol in every order. -/
def OrderFree (link : EdgeKey) : Prop :=
  ConfiguredAt cfg spokes link ∨ Overruled cfg spokes link ∨
    ∃ proto, Floor cfg spokes link proto ∧ Steady cfg spokes link proto ∧
      Steady cfg spokes link.swap proto

variable {cfg spokes} {link : EdgeKey}

/-- Something pushed comes before a match in every order when it overrules them. -/
theorem overruled_iff (hmatched : MatchedAt cfg spokes link) :
    Overruled cfg spokes link ↔
      ∃ seen, winner (pushedEdges .insertion spokes) link = some seen ∧
        ∀ names : List GoString, names.Perm spokes.keys → ∀ forward proto,
          Offered cfg spokes link names forward proto →
            precedence link seen ≤ matchedPlace proto := by
  constructor
  · rintro ⟨seen, hseen, hkey, hbefore⟩
    have hmem : seen ∈ pushedEdges .insertion spokes := mem_pushedEdges_iff.mpr hseen
    obtain ⟨pushed, hpushed⟩ := exists_winner hmem hkey
    refine ⟨pushed, hpushed, fun names hnames forward proto hoffered => ?_⟩
    refine (precedence_winner_le hpushed (mem_observationsOf.mpr ⟨hmem, hkey⟩)).trans ?_
    rw [le_matchedPlace_iff]
    refine hbefore.imp_right ?_
    rintro ⟨hrank, hside, hfloor⟩
    exact ⟨hrank, hside, hfloor.le_of_offered hnames hoffered⟩
  · rintro ⟨seen, hpushed, hbefore⟩
    obtain ⟨hmem, hkey⟩ := mem_observationsOf.mp (winner_mem hpushed)
    refine ⟨seen, mem_pushedEdges_iff.mp hmem, hkey, ?_⟩
    by_cases hrank : seen.precedenceRank < 2
    · exact Or.inl hrank
    · have hlater : ∀ names : List GoString, names.Perm spokes.keys → ∀ forward proto,
          Offered cfg spokes link names forward proto →
            seen.precedenceRank = 2 ∧ seen.srcDevice = link.srcDevice ∧
              seen.discoveryProto ≤ proto := by
        intro names hnames forward proto hoffered
        exact (le_matchedPlace_iff.mp (hbefore names hnames forward proto hoffered)).resolve_left
          hrank
      have hfloor := (floor_iff hmatched).mp fun names hnames forward proto hoffered =>
        (hlater names hnames forward proto hoffered).2.2
      -- some protocol is entered in the order of the keys
      obtain ⟨port, hnear⟩ := exists_opening hmatched
      obtain ⟨farPort, hfar⟩ := exists_opening hmatched.swap
      obtain ⟨near, hnear⟩ := hnear _ (List.Perm.refl _)
      obtain ⟨far, hfar⟩ := hfar _ (List.Perm.refl _)
      obtain ⟨htwo, hside, -⟩ := hlater _ (List.Perm.refl _) true _
        ⟨port, farPort, near, far, hnear, hfar, rfl⟩
      exact Or.inr ⟨htwo, hside, hfloor⟩

section Matched

variable (hjoins : Joins link) (hcanonical : canonical link = link)
  (hlt : link.srcDevice < link.dstDevice) (hmatched : MatchedAt cfg spokes link)
  (hconfigured : ¬ ConfiguredAt cfg spokes link)

include hjoins hcanonical hlt hmatched hconfigured

theorem same_traits_of_orderFree (hfree : OrderFree cfg spokes link) (order order' : RangeOrder)
    (clock clock' : Nat → Time) :
    (winner (observations cfg order clock spokes) link).map traits =
      (winner (observations cfg order' clock' spokes) link).map traits := by
  have htold := fun order clock =>
    @traits_winner_of_matched cfg order clock spokes link hjoins hcanonical hlt hmatched hconfigured
  obtain ⟨proto, hleast, hbefore, hafter⟩ := htold order clock
  obtain ⟨proto', hleast', hbefore', hafter'⟩ := htold order' clock'
  rcases hfree with hown | hoverruled | ⟨steady, hfloor, hsteady, hfarSteady⟩
  · exact absurd hown hconfigured
  · obtain ⟨seen, hpushed, hfirst⟩ := (overruled_iff hmatched).mp hoverruled
    rw [hbefore ⟨seen, hpushed, hfirst _ perm_gathering _ _ hleast.1⟩,
      hbefore' ⟨seen, hpushed, hfirst _ perm_gathering _ _ hleast'.1⟩]
  · have hoffered := (offered_iff_steady hfloor).mpr ⟨hsteady, hfarSteady⟩
    have hsteadyLeast : ∀ order : RangeOrder, IsLeast { proto | Offered cfg spokes link
        (gathering order spokes) (fromSource cfg order spokes link) proto } steady :=
      fun order => ⟨hoffered _ perm_gathering _,
        fun _ hother => hfloor.le_of_offered perm_gathering hother⟩
    obtain rfl : proto = steady := hleast.unique (hsteadyLeast order)
    obtain rfl : proto' = proto := hleast'.unique (hsteadyLeast order')
    by_cases hpreceded : Preceded spokes link proto'
    · rw [hbefore hpreceded, hbefore' hpreceded]
    · rw [hafter hpreceded, hafter' hpreceded]

section Same

variable (hsame : ∀ order order' clock clock',
  (winner (observations cfg order clock spokes) link).map traits =
    (winner (observations cfg order' clock' spokes) link).map traits)

include hsame

/-- What comes before the matches in one order does so in all of them. -/
theorem overruled_of_preceded {order : RangeOrder} {least : GoString}
    (hleast : IsLeast { proto | Offered cfg spokes link (gathering order spokes)
      (fromSource cfg order spokes link) proto } least)
    (hpreceded : Preceded spokes link least) : Overruled cfg spokes link := by
  have htold := fun order =>
    @traits_winner_of_matched cfg order (fun _ => Time.zero) spokes link hjoins hcanonical hlt
      hmatched hconfigured
  obtain ⟨seen, hpushed, hle⟩ := hpreceded
  refine (overruled_iff hmatched).mpr ⟨seen, hpushed, ?_⟩
  intro names hnames forward proto hoffered
  obtain ⟨order', rfl, rfl⟩ := exists_order hnames hlt.ne hmatched forward
  obtain ⟨own, hown, hbefore, -⟩ := htold order
  obtain ⟨entered, hentered, -, hafter⟩ := htold order'
  obtain rfl : own = least := hown.unique hleast
  refine le_matchedPlace_mono ?_ (hentered.2 hoffered)
  by_contra hnot
  have hnotPreceded : ¬ Preceded spokes link entered := by
    rintro ⟨found, hfound, hbest⟩
    rw [hpushed, Option.some.injEq] at hfound
    exact hnot (hfound ▸ hbest)
  -- the match would then be told in the other order, with what was pushed told in this one
  have htraits : traits seen = (entered, 2, linkKindEthernet, confidenceMedium) := by
    have htwo := (hafter hnotPreceded).symm.trans
      ((hsame order' order _ _).trans (hbefore ⟨seen, hpushed, hle⟩))
    rw [hpushed, Option.map_some, Option.some.injEq] at htwo
    exact htwo.symm
  have hproto : seen.discoveryProto = entered := congrArg Prod.fst htraits
  have hrank : seen.precedenceRank = 2 := congrArg (fun told => told.2.1) htraits
  rcases le_matchedPlace_iff.mp hle with hlower | ⟨-, hside, -⟩
  · exact absurd hrank hlower.ne
  · exact hnot (le_matchedPlace_iff.mpr (Or.inr ⟨hrank, hside, le_of_eq hproto⟩))

/-- Where the matches are told in every order, they have the same smallest protocol in
all of them. -/
theorem exists_steady_of_not_preceded
    (hnot : ∀ order proto, IsLeast { proto | Offered cfg spokes link (gathering order spokes)
      (fromSource cfg order spokes link) proto } proto → ¬ Preceded spokes link proto) :
    ∃ proto, Floor cfg spokes link proto ∧ Steady cfg spokes link proto ∧
      Steady cfg spokes link.swap proto := by
  have hspeak : ∀ order, ∃ proto, IsLeast { proto | Offered cfg spokes link
      (gathering order spokes) (fromSource cfg order spokes link) proto } proto ∧
        (winner (observations cfg order (fun _ => Time.zero) spokes) link).map traits =
          some (proto, 2, linkKindEthernet, confidenceMedium) := by
    intro order
    obtain ⟨proto, hleast, -, hafter⟩ := @traits_winner_of_matched cfg order
      (fun _ => Time.zero) spokes link hjoins hcanonical hlt hmatched hconfigured
    exact ⟨proto, hleast, hafter (hnot order proto hleast)⟩
  obtain ⟨steady, -, hsteady⟩ := hspeak .insertion
  have hall : ∀ names : List GoString, names.Perm spokes.keys → ∀ forward,
      IsLeast { proto | Offered cfg spokes link names forward proto } steady := by
    intro names hnames forward
    obtain ⟨order, rfl, rfl⟩ := exists_order hnames hlt.ne hmatched forward
    obtain ⟨proto, hleast, hproto⟩ := hspeak order
    have htraits := hproto.symm.trans ((hsame order .insertion _ _).trans hsteady)
    obtain rfl : proto = steady := congrArg Prod.fst (Option.some.inj htraits)
    exact hleast
  have hfloor : Floor cfg spokes link steady :=
    (floor_iff hmatched).mp fun names hnames forward proto hoffered =>
      (hall names hnames forward).2 hoffered
  refine ⟨steady, hfloor, (offered_iff_steady hfloor).mp ?_⟩
  intro names hnames forward
  exact (hall names hnames forward).1

theorem orderFree_of_same_traits : OrderFree cfg spokes link := by
  by_cases hpreceded : ∃ order proto, IsLeast { proto | Offered cfg spokes link
      (gathering order spokes) (fromSource cfg order spokes link) proto } proto ∧
        Preceded spokes link proto
  · obtain ⟨order, least, hleast, hbefore⟩ := hpreceded
    exact Or.inr (Or.inl (overruled_of_preceded hjoins hcanonical hlt hmatched hconfigured hsame
      hleast hbefore))
  · refine Or.inr (Or.inr (exists_steady_of_not_preceded hjoins hcanonical hlt hmatched
      hconfigured hsame ?_))
    intro order proto hleast hbefore
    exact hpreceded ⟨order, proto, hleast, hbefore⟩

end Same

end Matched

/-- Every order tells the same about a link exactly when it is free of them or not
matched at all. -/
theorem same_traits_iff (hjoins : Joins link) (hcanonical : canonical link = link)
    (hlt : link.srcDevice < link.dstDevice) :
    (∀ order order' clock clock',
        (winner (observations cfg order clock spokes) link).map traits =
          (winner (observations cfg order' clock' spokes) link).map traits) ↔
      (MatchedAt cfg spokes link → OrderFree cfg spokes link) := by
  by_cases hmatched : MatchedAt cfg spokes link
  · by_cases hconfigured : ConfiguredAt cfg spokes link
    · refine iff_of_true ?_ fun _ => Or.inl hconfigured
      intro order order' clock clock'
      exact traits_winner_of_configured hjoins hcanonical hconfigured order' clock'
    · constructor
      · exact fun hsame _ =>
          orderFree_of_same_traits hjoins hcanonical hlt hmatched hconfigured hsame
      · exact fun hfree =>
          same_traits_of_orderFree hjoins hcanonical hlt hmatched hconfigured (hfree hmatched)
  · refine iff_of_true ?_ fun hclaims => absurd hclaims hmatched
    intro order order' clock clock'
    exact traits_winner_of_unmatched hjoins hcanonical hmatched order' clock'

end OrderFree

/-! ## The combined graph -/

section Graphs

/-- What is compared of an edge: its endpoints and ports, its direction, and what it
says about the link. -/
def observable (edge : Edge) :
    EdgeKey × Direction × DiscoveryProtocol × Int × LinkKind × Confidence :=
  (endpoints edge, edge.direction, traits edge)

theorem traits_linkEdge (edges : List Edge) (link : EdgeKey) (observed : Edge) :
    traits (linkEdge edges link observed) = traits observed := by
  obtain ⟨hrank, hproto, hkind, hconfidence, -⟩ := orient_fields link observed
  simp only [traits, linkEdge, hrank, hproto, hkind, hconfidence]

/-- The reconciled edges by what is told about each link. -/
theorem mem_map_observable {order : RangeOrder} {edges : List Edge}
    {seen : EdgeKey × Direction × DiscoveryProtocol × Int × LinkKind × Confidence} :
    seen ∈ (reconcile order edges).1.map observable ↔
      ∃ link told, (winner edges link).map traits = some told ∧
        seen = (link, if BothReported edges link then directionBidirectional
          else directionUnidirectional, told) := by
  have hobservable : ∀ link observed, winner edges link = some observed →
      observable (linkEdge edges link observed) =
        (link, if BothReported edges link then directionBidirectional
          else directionUnidirectional, traits observed) := by
    intro link observed hwinner
    have hkey := (mem_observationsOf.mp (winner_mem hwinner)).2
    rw [observable, endpoints_linkEdge hkey, traits_linkEdge]
    rfl
  rw [List.mem_map]
  constructor
  · rintro ⟨edge, hedge, rfl⟩
    obtain ⟨link, observed, hwinner, rfl⟩ := mem_reconcile_iff_winner.mp hedge
    refine ⟨link, traits observed, ?_, hobservable link observed hwinner⟩
    rw [hwinner, Option.map_some]
  · rintro ⟨link, told, htold, rfl⟩
    obtain ⟨observed, hwinner, rfl⟩ := Option.map_eq_some_iff.mp htold
    exact ⟨linkEdge edges link observed,
      mem_reconcile_iff_winner.mpr ⟨link, observed, hwinner, rfl⟩,
      hobservable link observed hwinner⟩

variable {edges : List Edge} {link : EdgeKey} {edges' : List Edge}

/-- What is told about a link is read off the list of edges. -/
theorem told_of_same_edges {order order' : RangeOrder}
    (hsame : (reconcile order edges).1.map observable = (reconcile order' edges').1.map observable)
    {told : DiscoveryProtocol × Int × LinkKind × Confidence}
    (htold : (winner edges link).map traits = some told) :
    (winner edges' link).map traits = some told := by
  have hlisted := (@mem_map_observable order edges _).mpr ⟨link, told, htold, rfl⟩
  rw [hsame] at hlisted
  obtain ⟨found, told', htold', heq⟩ := mem_map_observable.mp hlisted
  simp only [Prod.mk.injEq] at heq
  obtain ⟨rfl, -, rfl⟩ := heq
  exact htold'

/-- The list of edges is sorted, so it is given by what is told about each link. -/
theorem map_observable_eq_iff (hboth : ∀ link, BothReported edges link ↔ BothReported edges' link)
    (order order' : RangeOrder) :
    (reconcile order edges).1.map observable = (reconcile order' edges').1.map observable ↔
      ∀ link, (winner edges link).map traits = (winner edges' link).map traits := by
  have hsorted : ∀ (order : RangeOrder) (edges : List Edge),
      ((reconcile order edges).1.map observable).Pairwise (fun first second =>
        canonical first.1 < canonical second.1) := by
    intro order edges
    rw [List.pairwise_map]
    exact reconcile_pairwise order edges
  constructor
  · intro hsame link
    apply Option.ext
    intro told
    exact ⟨told_of_same_edges hsame, told_of_same_edges hsame.symm⟩
  · intro hsame
    apply List.Perm.eq_of_pairwise (fun _ _ _ _ hlt hgt => absurd hgt (lt_asymm hlt))
      (hsorted order edges) (hsorted order' edges')
    have hnodup : ∀ (order : RangeOrder) (edges : List Edge),
        ((reconcile order edges).1.map observable).Nodup := by
      intro order edges
      refine (hsorted order edges).imp fun hlt heq => ?_
      rw [heq] at hlt
      exact lt_irrefl _ hlt
    refine (List.perm_ext_iff_of_nodup (hnodup order edges)
      (hnodup order' edges')).mpr fun seen => ?_
    rw [mem_map_observable, mem_map_observable]
    simp only [hsame, hboth]

theorem canonical_of_groupKey {seen : Edge} (hkey : groupKey seen = some link) :
    canonical link = link := by
  obtain ⟨-, -, -, rfl⟩ := groupKey_eq_some.mp hkey
  exact canonical_canonical _

theorem bothReported_iff :
    BothReported edges link ↔
      Joins link ∧ canonical link = link ∧ Reported edges link ∧ Reported edges link.swap := by
  constructor
  · intro hboth
    obtain ⟨⟨seen, hseen, -⟩, -⟩ := id hboth
    have hjoins := joins_of_observed (List.ne_nil_of_mem hseen)
    have hcanonical := canonical_of_groupKey (mem_observationsOf.mp hseen).2
    refine ⟨hjoins, hcanonical, ?_⟩
    rw [reported_iff hjoins, reported_iff hjoins.swap, canonical_swap, hcanonical]
    exact hboth
  · rintro ⟨hjoins, hcanonical, hreported⟩
    rw [reported_iff hjoins, reported_iff hjoins.swap, canonical_swap, hcanonical] at hreported
    exact hreported

/-- Which links are seen from both sides does not depend on any order. -/
theorem bothReported_observations (cfg : FederationConfig) (spokes : Spokes)
    (order order' : RangeOrder) (clock clock' : Nat → Time) (link : EdgeKey) :
    BothReported (observations cfg order clock spokes) link ↔
      BothReported (observations cfg order' clock' spokes) link := by
  rw [bothReported_iff, bothReported_iff]
  simp only [reported_observations, pushedEdges_eq order order']

theorem srcDevice_lt (hjoins : Joins link) (hcanonical : canonical link = link) :
    link.srcDevice < link.dstDevice := by
  rcases lt_trichotomy link.srcDevice link.dstDevice with hlt | heq | hgt
  · exact hlt
  · exact absurd heq hjoins.distinct
  · rw [canonical_of_gt hgt] at hcanonical
    exact absurd (congrArg EdgeKey.dstDevice hcanonical) hjoins.distinct

/-- Every order of iteration gives the same devices, the same unmatched count and the
same edges exactly when all matched links are free of it. -/
theorem same_graph_in_every_order_iff (cfg : FederationConfig) (spokes : Spokes) :
    (∀ order order' clock clock',
        (buildCombinedGraph cfg order clock spokes).1.devices =
            (buildCombinedGraph cfg order' clock' spokes).1.devices ∧
          (buildCombinedGraph cfg order clock spokes).2 =
            (buildCombinedGraph cfg order' clock' spokes).2 ∧
          (buildCombinedGraph cfg order clock spokes).1.edges.map observable =
            (buildCombinedGraph cfg order' clock' spokes).1.edges.map observable) ↔
      ∀ link, Joins link → canonical link = link → MatchedAt cfg spokes link →
        OrderFree cfg spokes link := by
  have hedges := fun order order' clock clock' =>
    map_observable_eq_iff (bothReported_observations cfg spokes order order' clock clock')
      order order'
  constructor
  · intro hsame link hjoins hcanonical
    apply (same_traits_iff hjoins hcanonical (srcDevice_lt hjoins hcanonical)).mp
    intro order order' clock clock'
    exact (hedges order order' clock clock').mp (hsame order order' clock clock').2.2 link
  · intro hfree order order' clock clock'
    refine ⟨allDevices_eq order order' spokes, unmatched_eq cfg order order' spokes, ?_⟩
    apply (hedges order order' clock clock').mpr
    intro link
    by_cases hlink : Joins link ∧ canonical link = link
    · obtain ⟨hjoins, hcanonical⟩ := hlink
      exact (same_traits_iff hjoins hcanonical (srcDevice_lt hjoins hcanonical)).mpr
        (hfree link hjoins hcanonical) order order' clock clock'
    · -- no edge is ever entered under such a key
      have hnone : ∀ edges : List Edge, winner edges link = none := by
        intro edges
        rw [Option.eq_none_iff_forall_ne_some]
        intro seen hwinner
        have hseen := winner_mem hwinner
        exact hlink ⟨joins_of_observed (List.ne_nil_of_mem hseen),
          canonical_of_groupKey (mem_observationsOf.mp hseen).2⟩
      rw [hnone, hnone]

end Graphs

/-! ## Two sides that disagree -/

/-- The keys are matched from the last one to the first. -/
def matchedBackwards : RangeOrder where
  arrange site items := if site = 6 then items.reverse else items
  perm site items := by
    split_ifs
    · exact List.reverse_perm items
    · exact List.Perm.refl items

/-- A spoke with one device, whose only link leaves its domain. -/
def borderPayload (spoke device far : GoString) (proto : DiscoveryProtocol) : SpokePayload where
  spokeID := spoke
  cycleAt := Time.zero
  devices := [plainDevice device]
  edges := []
  outOfScope := [newOutOfScopeNeighbour proto device (str "e1") far Time.zero]

/-- Two spokes that see the link between them with different protocols. -/
def disagreeingSpokes : Spokes :=
  ((∅ : Spokes).insert (str "east")
    ⟨borderPayload (str "east") (str "sw1") (str "sw2") discoveryProtocolLLDP, Time.zero, 0⟩).insert
    (str "west")
    ⟨borderPayload (str "west") (str "sw2") (str "sw1") discoveryProtocolCDP, Time.zero, 1⟩

/-- Both payloads are accepted, and the protocol of the edge is the one that is visited
first. -/
theorem protocol_of_first_visit :
    (∀ name ∈ [str "east", str "west"], (disagreeingSpokes.lookup name).map (fun entry =>
        validateSpokePayload .insertion entry.payload) = some none) ∧
      (buildCombinedGraph plainConfig .insertion (fun _ => Time.zero)
        disagreeingSpokes).1.edges.map Edge.discoveryProto = [discoveryProtocolLLDP] ∧
      (buildCombinedGraph plainConfig matchedBackwards (fun _ => Time.zero)
        disagreeingSpokes).1.edges.map Edge.discoveryProto = [discoveryProtocolCDP] := by
  decide +kernel

end TopologyExporter.Federation
