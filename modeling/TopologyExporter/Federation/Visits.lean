import TopologyExporter.Federation.Combined
import TopologyExporter.Foundation.Arrangement

/-! # Who is visited first

Two matching records are entered as a link once, by the visit that comes first. It
depends on two orders: that of the spokes when the records are gathered, and that of
the keys when they are matched. Here the protocols that are entered for a link are
described by the order of the spokes and by which of its two sides comes first, and
every such choice is shown to occur.
-/

namespace TopologyExporter.Federation

open Go Utf8 Discovery Selection TopologyExporter.Graph

/-! ## The records of a link -/

/-- The record reports the link from the source side of the ends. -/
def Reporting (cfg : FederationConfig) (ends : EdgeKey) (neighbour : OutOfScopeNeighbour) : Prop :=
  oosKey cfg neighbour = ⟨ends.srcDevice, ends.dstDevice⟩ ∧
    normalizePortName neighbour.reportingPort = ends.srcPort

instance decidableReporting (cfg : FederationConfig) (ends : EdgeKey)
    (neighbour : OutOfScopeNeighbour) : Decidable (Reporting cfg ends neighbour) :=
  inferInstanceAs (Decidable (_ ∧ _))

def recordsOf (spokes : Spokes) (name : GoString) : List OutOfScopeNeighbour :=
  ((spokes.lookup name).map (fun entry => entry.payload.outOfScope)).getD []

/-- The protocol of the first record in which the spoke reports the link on the
port. -/
def opening (cfg : FederationConfig) (spokes : Spokes) (ends : EdgeKey) (port name : GoString) :
    Option GoString :=
  ((recordsOf spokes name).find? (fun neighbour =>
    Reporting cfg ends neighbour ∧ neighbour.reportingPort = port)).map OutOfScopeNeighbour.proto

/-- The protocol of a match: that of the record visited, or else of the other one. -/
def fallback (near far : GoString) : GoString := if near = [] then far else near

/-- The protocol is entered for the link when the spokes are gone through in the order
of the names, and the matching starts from its source side or from the other one. -/
def Offered (cfg : FederationConfig) (spokes : Spokes) (link : EdgeKey) (names : List GoString)
    (forward : Bool) (proto : GoString) : Prop :=
  ∃ port farPort near far,
    names.findSome? (opening cfg spokes link port) = some near ∧
      names.findSome? (opening cfg spokes link.swap farPort) = some far ∧
      proto = if forward then fallback near far else fallback far near

section Orders

variable {cfg : FederationConfig} {order : RangeOrder} {spokes : Spokes}

/-- The spokes as their records are gathered. -/
def gathering (order : RangeOrder) (spokes : Spokes) : List GoString :=
  (spokes.range order 5).map Prod.fst

theorem perm_gathering : (gathering order spokes).Perm spokes.keys := by
  have hperm := (Map.perm_range spokes order 5).map Prod.fst
  rw [List.map_map] at hperm
  exact hperm

theorem gathered_eq :
    (spokes.range order 5).flatMap (fun (_, entry) => entry.payload.outOfScope) =
      (gathering order spokes).flatMap (recordsOf spokes) := by
  rw [gathering, List.flatMap_map]
  refine List.flatMap_congr fun row hrow => ?_
  have hlookup : spokes.lookup row.1 = some row.2 := Map.mem_range.mp hrow
  rw [recordsOf, hlookup]
  rfl

/-- The first value that the index holds for a key and a port. -/
def firstVal (cfg : FederationConfig) (order : RangeOrder) (spokes : Spokes) (found : OOSKey)
    (port : GoString) : Option OOSVal :=
  (((oosIndex cfg order spokes).lookup found).getD []).find? (fun value =>
    value.reportingPort = port)

variable {ends : EdgeKey} {port : GoString} {found : OOSKey}

/-- It comes from the first spoke that reports the link on the port. -/
theorem proto_firstVal (hport : normalizePortName port = ends.srcPort) :
    (firstVal cfg order spokes ⟨ends.srcDevice, ends.dstDevice⟩ port).map OOSVal.proto =
      (gathering order spokes).findSome? (opening cfg spokes ends port) := by
  rw [firstVal, lookup_oosIndex, gathered_eq, List.find?_map, List.find?_filter, Option.map_map,
    List.find?_flatMap, List.map_findSome?]
  congr 1
  funext name
  rw [Function.comp_apply, opening]
  congr 1
  congr 1
  funext neighbour
  rw [Bool.eq_iff_iff]
  simp only [oosVal, Function.comp_apply, decide_eq_true_eq]
  constructor
  · rintro ⟨hkey, hsame⟩
    rw [← of_decide_eq_true hsame] at hport
    exact ⟨⟨hkey, hport⟩, of_decide_eq_true hsame⟩
  · rintro ⟨⟨hkey, -⟩, hsame⟩
    exact ⟨hkey, decide_eq_true hsame⟩

variable {value : OOSVal} {values : List OOSVal}

theorem port_of_firstVal (hvalue : firstVal cfg order spokes found port = some value) :
    value.reportingPort = port := by
  simpa using List.find?_some hvalue

theorem opening_of_port_ne {name : GoString} (hport : normalizePortName port ≠ ends.srcPort) :
    opening cfg spokes ends port name = none := by
  rw [opening, Option.map_eq_none_iff, List.find?_eq_none]
  intro neighbour _ hreports
  obtain ⟨⟨-, hname⟩, rfl⟩ := of_decide_eq_true hreports
  exact hport hname

theorem findSome?_opening_iff {proto : GoString} :
    (gathering order spokes).findSome? (opening cfg spokes ends port) = some proto ↔
      normalizePortName port = ends.srcPort ∧
        ∃ value, firstVal cfg order spokes ⟨ends.srcDevice, ends.dstDevice⟩ port = some value ∧
          value.proto = proto := by
  constructor
  · intro hfirst
    have hport : normalizePortName port = ends.srcPort := by
      by_contra hne
      obtain ⟨name, -, hopening⟩ := List.exists_of_findSome?_eq_some hfirst
      rw [opening_of_port_ne hne] at hopening
      cases hopening
    rw [← proto_firstVal hport] at hfirst
    exact ⟨hport, Option.map_eq_some_iff.mp hfirst⟩
  · rintro ⟨hport, hvalue⟩
    rw [← proto_firstVal hport]
    exact Option.map_eq_some_iff.mpr hvalue

/-! ## The visit that enters a link -/

/-- The ends of a match with the smaller device first: it is visited from there, or from
the other side. -/
theorem ends_matchPair_iff {found : OOSKey × OOSVal × OOSVal}
    {smaller larger port farPort : GoString} (hlt : smaller < larger) :
    (matchPair found).ends = ((smaller, larger), (port, farPort)) ↔
      (found.1 = ⟨smaller, larger⟩ ∧ found.2.1.reportingPort = port ∧
          found.2.2.reportingPort = farPort) ∨
        (found.1 = ⟨larger, smaller⟩ ∧ found.2.1.reportingPort = farPort ∧
          found.2.2.reportingPort = port) := by
  obtain ⟨⟨device, hint⟩, here, there⟩ := found
  rw [ends_matchPair, portPair]
  simp only [OOSKey.mk.injEq]
  constructor
  · intro hends
    split_ifs at hends with horder
    · simp only [Prod.mk.injEq] at hends
      obtain ⟨⟨rfl, rfl⟩, rfl, rfl⟩ := hends
      exact Or.inr ⟨⟨rfl, rfl⟩, rfl, rfl⟩
    · simp only [Prod.mk.injEq] at hends
      obtain ⟨⟨rfl, rfl⟩, rfl, rfl⟩ := hends
      exact Or.inl ⟨⟨rfl, rfl⟩, rfl, rfl⟩
  · rintro (⟨⟨rfl, rfl⟩, rfl, rfl⟩ | ⟨⟨rfl, rfl⟩, rfl, rfl⟩)
    · rw [if_neg (lt_asymm hlt)]
    · rw [if_pos hlt]

theorem firstVal_of_lookup (hlookup : (oosIndex cfg order spokes).lookup found = some values)
    (port : GoString) :
    firstVal cfg order spokes found port =
      values.find? (fun value => value.reportingPort = port) := by
  rw [firstVal, hlookup, Option.getD_some]

theorem exists_lookup_of_firstVal (hvalue : firstVal cfg order spokes found port = some value) :
    ∃ values, (oosIndex cfg order spokes).lookup found = some values := by
  cases hlookup : (oosIndex cfg order spokes).lookup found with
  | none =>
      rw [firstVal, hlookup] at hvalue
      cases hvalue
  | some values => exact ⟨values, rfl⟩

/-- The first match of a key on two ports is made of the first values on them. -/
theorem find?_keyMatches (hlookup : (oosIndex cfg order spokes).lookup found = some values)
    {select : OOSKey × OOSVal × OOSVal → Bool} {farPort : GoString}
    (hselect : ∀ here there : OOSVal, select (found, here, there) =
      (decide (here.reportingPort = port) && decide (there.reportingPort = farPort)))
    {near far : OOSVal} (hnear : firstVal cfg order spokes found port = some near)
    (hfar : firstVal cfg order spokes ⟨found.hint, found.device⟩ farPort = some far) :
    (keyMatches (oosIndex cfg order spokes) (found, values)).find? select =
      some (found, near, far) := by
  have hpairs : (select ∘ fun pair => (found, pair)) = fun pair : OOSVal × OOSVal =>
      decide (pair.1.reportingPort = port) && decide (pair.2.reportingPort = farPort) :=
    funext fun pair => hselect pair.1 pair.2
  rw [firstVal_of_lookup hlookup] at hnear
  rw [firstVal] at hfar
  rw [keyMatches, List.find?_map, hpairs]
  simp only [find?_product _ _ (fun here : OOSVal => decide (here.reportingPort = port))
    (fun there : OOSVal => decide (there.reportingPort = farPort)), hnear, hfar]
  rfl

end Orders

/-- The one of the two keys of a link that is matched first. -/
def leading (cfg : FederationConfig) (order : RangeOrder) (spokes : Spokes) (link : EdgeKey) :
    Option (OOSKey × List OOSVal) :=
  ((oosIndex cfg order spokes).range order 6).find? (fun entry =>
    entry.1 = ⟨link.srcDevice, link.dstDevice⟩ ∨ entry.1 = ⟨link.dstDevice, link.srcDevice⟩)

/-- The matching comes to the source side of the link first. -/
def fromSource (cfg : FederationConfig) (order : RangeOrder) (spokes : Spokes) (link : EdgeKey) :
    Bool :=
  (leading cfg order spokes link).map Prod.fst = some ⟨link.srcDevice, link.dstDevice⟩

section Visits

variable {cfg : FederationConfig} {order : RangeOrder} {spokes : Spokes} {link : EdgeKey}

/-- The match that is visited first of those on two ports. -/
def firstMatch (cfg : FederationConfig) (order : RangeOrder) (spokes : Spokes) (link : EdgeKey)
    (near far : OOSVal) : OOSKey × OOSVal × OOSVal :=
  if fromSource cfg order spokes link then (⟨link.srcDevice, link.dstDevice⟩, near, far)
  else (⟨link.dstDevice, link.srcDevice⟩, far, near)

variable {farPort port : GoString} {far near : OOSVal} {names : List GoString}

/-- The key of another link has no match with these ends. -/
theorem find?_keyMatches_other (hlt : link.srcDevice < link.dstDevice)
    {index : Map OOSKey (List OOSVal)} {other : OOSKey × List OOSVal}
    (hnot : ¬ (other.1 = ⟨link.srcDevice, link.dstDevice⟩ ∨
      other.1 = ⟨link.dstDevice, link.srcDevice⟩)) :
    (keyMatches index other).find? (fun found =>
      (matchPair found).ends = ((link.srcDevice, link.dstDevice), (port, farPort))) = none := by
  rw [List.find?_eq_none]
  intro found hfound hends
  have hown : found.1 = other.1 := by
    obtain ⟨pair, -, rfl⟩ := List.mem_map.mp hfound
    rfl
  rw [← hown] at hnot
  apply hnot
  exact ((ends_matchPair_iff hlt).mp (of_decide_eq_true hends)).imp And.left And.left

theorem find?_matches (hlt : link.srcDevice < link.dstDevice)
    (hnear : firstVal cfg order spokes ⟨link.srcDevice, link.dstDevice⟩ port = some near)
    (hfar : firstVal cfg order spokes ⟨link.dstDevice, link.srcDevice⟩ farPort = some far) :
    (((oosIndex cfg order spokes).range order 6).flatMap
        (keyMatches (oosIndex cfg order spokes))).find? (fun found =>
      (matchPair found).ends = ((link.srcDevice, link.dstDevice), (port, farPort))) =
        some (firstMatch cfg order spokes link near far) := by
  obtain ⟨values, hvalues⟩ := exists_lookup_of_firstVal hnear
  obtain ⟨farValues, hfarValues⟩ := exists_lookup_of_firstVal hfar
  have hsome : (leading cfg order spokes link).isSome = true :=
    List.find?_isSome.mpr ⟨_, Map.mem_range.mpr hvalues, decide_eq_true (Or.inl rfl)⟩
  obtain ⟨entry, hentry⟩ := Option.isSome_iff_exists.mp hsome
  obtain ⟨hkey, front, back, hrange, hfront⟩ := List.find?_eq_some_iff_append.mp hentry
  have hlookup : (oosIndex cfg order spokes).lookup entry.1 = some entry.2 :=
    Map.mem_range.mp (by rw [hrange]; exact List.mem_append_right _ (List.mem_cons_self ..))
  -- keys before the leading one have no match between the two devices
  have hothers : front.findSome? (fun other =>
      (keyMatches (oosIndex cfg order spokes) other).find? (fun found =>
        (matchPair found).ends = ((link.srcDevice, link.dstDevice), (port, farPort)))) = none := by
    rw [List.findSome?_eq_none_iff]
    intro other hother
    apply find?_keyMatches_other hlt
    have hnot := hfront other hother
    rwa [Bool.not_eq_true', decide_eq_false_iff_not] at hnot
  rw [List.find?_flatMap, hrange, List.findSome?_append, hothers, Option.none_or,
    List.findSome?_cons]
  have hdistinct : (⟨link.dstDevice, link.srcDevice⟩ : OOSKey) ≠
      ⟨link.srcDevice, link.dstDevice⟩ := fun heq => hlt.ne (OOSKey.mk.inj heq).2
  have hselect : ∀ (found : OOSKey) (here there : OOSVal),
      decide ((matchPair (found, here, there)).ends =
        ((link.srcDevice, link.dstDevice), (port, farPort))) = true ↔
        (found = ⟨link.srcDevice, link.dstDevice⟩ ∧ here.reportingPort = port ∧
            there.reportingPort = farPort) ∨
          (found = ⟨link.dstDevice, link.srcDevice⟩ ∧ here.reportingPort = farPort ∧
            there.reportingPort = port) := by
    intro found here there
    rw [decide_eq_true_eq, ends_matchPair_iff hlt]
  obtain ⟨key, held⟩ := entry
  -- the leading key is that of either side, and its matches are visited from there
  rcases of_decide_eq_true hkey with hsrc | hdst
  · obtain rfl : key = ⟨link.srcDevice, link.dstDevice⟩ := hsrc
    have hforward : fromSource cfg order spokes link = true := by
      rw [fromSource, hentry, Option.map_some]
      exact decide_eq_true rfl
    rw [find?_keyMatches hlookup (fun here there => ?_) hnear hfar, firstMatch, if_pos hforward]
    rw [Bool.eq_iff_iff, hselect]
    simp [hdistinct.symm]
  · obtain rfl : key = ⟨link.dstDevice, link.srcDevice⟩ := hdst
    have hforward : ¬ fromSource cfg order spokes link = true := by
      rw [fromSource, hentry, Option.map_some, decide_eq_true_eq, Option.some.injEq]
      exact hdistinct
    rw [find?_keyMatches hlookup (fun here there => ?_) hfar hnear, firstMatch, if_neg hforward]
    rw [Bool.eq_iff_iff, hselect]
    simp [hdistinct]

theorem ends_firstMatch (hlt : link.srcDevice < link.dstDevice) (hnear : near.reportingPort = port)
    (hfar : far.reportingPort = farPort) :
    (matchPair (firstMatch cfg order spokes link near far)).ends =
      ((link.srcDevice, link.dstDevice), (port, farPort)) := by
  rw [ends_matchPair_iff hlt]
  unfold firstMatch
  split_ifs
  · exact Or.inl ⟨rfl, hnear, hfar⟩
  · exact Or.inr ⟨rfl, hfar, hnear⟩

variable {pair : LinkPair}

/-- Of the matches on two ports the one that is visited first is entered. -/
theorem mem_pairs_iff_firstMatch (hlt : link.srcDevice < link.dstDevice)
    (hnear : firstVal cfg order spokes ⟨link.srcDevice, link.dstDevice⟩ port = some near)
    (hfar : firstVal cfg order spokes ⟨link.dstDevice, link.srcDevice⟩ farPort = some far)
    (hends : pair.ends = ((link.srcDevice, link.dstDevice), (port, farPort))) :
    pair ∈ (matchOutOfScope cfg order spokes).pairs ↔
      pair = matchPair (firstMatch cfg order spokes link near far) := by
  rw [(keeps_matchOutOfScope cfg order spokes).pairs, mem_keepFirst, hends, List.find?_map]
  change Option.map matchPair (List.find? (fun found => (matchPair found).ends = _) _) = _ ↔ _
  rw [find?_matches hlt hnear hfar, Option.map_some, Option.some.injEq]
  exact eq_comm

theorem proto_firstMatch (near far : OOSVal) :
    (matchPair (firstMatch cfg order spokes link near far)).proto =
      if fromSource cfg order spokes link then fallback near.proto far.proto
      else fallback far.proto near.proto := by
  unfold firstMatch
  split_ifs
  · rfl
  · rfl

theorem endpoints_firstMatch (hnear : normalizePortName near.reportingPort = link.srcPort)
    (hfar : normalizePortName far.reportingPort = link.dstPort) :
    (matchPair (firstMatch cfg order spokes link near far)).endpoints = link ∨
      (matchPair (firstMatch cfg order spokes link near far)).endpoints = link.swap := by
  unfold firstMatch
  split_ifs
  · apply Or.inl
    simp only [LinkPair.endpoints, matchPair, oosPair, hnear, hfar]
  · apply Or.inr
    simp only [LinkPair.endpoints, matchPair, oosPair, hnear, hfar, EdgeKey.swap]

theorem exists_firstVal {neighbour : OutOfScopeNeighbour} (hrecorded : Recorded spokes neighbour) :
    ∃ value, firstVal cfg order spokes (oosKey cfg neighbour) neighbour.reportingPort =
      some value := by
  have hmem := (@mem_oosIndex cfg order spokes _ _).mpr ⟨neighbour, hrecorded, rfl, rfl⟩
  apply Option.isSome_iff_exists.mp
  exact List.find?_isSome.mpr ⟨oosVal neighbour, hmem, decide_eq_true rfl⟩

/-- Behind an entered pair are two records, whichever side it was visited from. -/
theorem records_of_mem_pairs (hlt : link.srcDevice < link.dstDevice)
    (hpair : pair ∈ (matchOutOfScope cfg order spokes).pairs)
    (hends : pair.endpoints = link ∨ pair.endpoints = link.swap) :
    ∃ here there, Recorded spokes here ∧ Recorded spokes there ∧
      oosKey cfg here = ⟨link.srcDevice, link.dstDevice⟩ ∧
      oosKey cfg there = ⟨link.dstDevice, link.srcDevice⟩ ∧
      normalizePortName here.reportingPort = link.srcPort ∧
      normalizePortName there.reportingPort = link.dstPort ∧
      pair.ends =
        ((link.srcDevice, link.dstDevice), (here.reportingPort, there.reportingPort)) := by
  obtain ⟨first, second, hfirst, hsecond, hmatched, rfl⟩ := mem_pairs_matchOutOfScope hpair
  have hvisit := fun port farPort => @ends_matchPair_iff
    (oosKey cfg first, oosVal first, oosVal second) _ _ port farPort hlt
  rcases hends with hends | hends
  · obtain ⟨hsrc, hport, hdst, hfarPort⟩ := EdgeKey.mk.inj hends
    have hkey : oosKey cfg first = ⟨link.srcDevice, link.dstDevice⟩ := by
      rw [← hsrc, ← hdst]
      rfl
    refine ⟨first, second, hfirst, hsecond, hkey, ?_, hport, hfarPort, ?_⟩
    · rw [hmatched, hkey]
    · exact (hvisit _ _).mpr (Or.inl ⟨hkey, rfl, rfl⟩)
  · obtain ⟨hsrc, hport, hdst, hfarPort⟩ := EdgeKey.mk.inj hends
    have hkey : oosKey cfg first = ⟨link.dstDevice, link.srcDevice⟩ := by
      rw [← hsrc, ← hdst]
      rfl
    refine ⟨second, first, hsecond, hfirst, ?_, hkey, hfarPort, hport, ?_⟩
    · rw [hmatched, hkey]
    · exact (hvisit _ _).mpr (Or.inr ⟨hkey, rfl, rfl⟩)

/-- Which protocols are entered for a link. -/
theorem offered_iff (hlt : link.srcDevice < link.dstDevice) {proto : GoString} :
    (∃ pair ∈ (matchOutOfScope cfg order spokes).pairs,
        (pair.endpoints = link ∨ pair.endpoints = link.swap) ∧ pair.proto = proto) ↔
      Offered cfg spokes link (gathering order spokes) (fromSource cfg order spokes link)
        proto := by
  constructor
  · rintro ⟨pair, hpair, hends, rfl⟩
    obtain ⟨here, there, hhere, hthere, hkey, hreverse, hport, hfarPort, hown⟩ :=
      records_of_mem_pairs hlt hpair hends
    obtain ⟨near, hnear⟩ := @exists_firstVal cfg order spokes _ hhere
    obtain ⟨far, hfar⟩ := @exists_firstVal cfg order spokes _ hthere
    rw [hkey] at hnear
    rw [hreverse] at hfar
    refine ⟨here.reportingPort, there.reportingPort, near.proto, far.proto,
      findSome?_opening_iff.mpr ⟨hport, near, hnear, rfl⟩,
      findSome?_opening_iff.mpr ⟨hfarPort, far, hfar, rfl⟩, ?_⟩
    rw [(mem_pairs_iff_firstMatch hlt hnear hfar hown).mp hpair, proto_firstMatch]
  · rintro ⟨port, farPort, proto, farProto, hopens, hfarOpens, rfl⟩
    obtain ⟨hport, near, hnear, rfl⟩ := findSome?_opening_iff.mp hopens
    obtain ⟨hfarPort, far, hfar, rfl⟩ := findSome?_opening_iff.mp hfarOpens
    have hnearPort := port_of_firstVal hnear
    have hownPort := port_of_firstVal hfar
    refine ⟨matchPair (firstMatch cfg order spokes link near far), ?_, ?_,
      proto_firstMatch near far⟩
    · exact (mem_pairs_iff_firstMatch hlt hnear hfar
        (ends_firstMatch hlt hnearPort hownPort)).mpr rfl
    · apply endpoints_firstMatch
      · rw [hnearPort]
        exact hport
      · rw [hownPort]
        exact hfarPort

/-! ## Every order occurs -/

/-- The entries of the spokes in the order of the names. -/
def entriesAlong (spokes : Spokes) (names : List GoString) : List (GoString × SpokeEntry) :=
  names.filterMap (fun name => (spokes.lookup name).map (fun entry => (name, entry)))

theorem perm_entriesAlong (hnames : names.Perm spokes.keys) :
    (entriesAlong spokes names).Perm (spokes.entries.map (fun entry => (entry.1, entry.2))) := by
  have hkeys : entriesAlong spokes spokes.keys =
      spokes.entries.map (fun entry => (entry.1, entry.2)) := by
    rw [entriesAlong, AList.keys, List.keys, List.filterMap_map, ← List.filterMap_eq_map]
    refine List.filterMap_congr fun entry hentry => ?_
    have hlookup : spokes.lookup entry.1 = some entry.2 := AList.mem_lookup_iff.mpr hentry
    simp only [Function.comp_apply, hlookup, Option.map_some]
  rw [← hkeys]
  exact hnames.filterMap _

theorem fst_entriesAlong (hnames : names.Perm spokes.keys) :
    (entriesAlong spokes names).map Prod.fst = names := by
  rw [entriesAlong, List.map_filterMap]
  conv_rhs => rw [← List.filterMap_some (l := names)]
  refine List.filterMap_congr fun name hname => ?_
  have hkey : name ∈ spokes := hnames.mem_iff.mp hname
  obtain ⟨entry, hentry⟩ := Option.isSome_iff_exists.mp (AList.lookup_isSome.mpr hkey)
  rw [hentry]
  rfl

theorem gathering_eq (hnames : names.Perm spokes.keys)
    (harrange : order.arrange 5 (spokes.entries.map (fun entry => (entry.1, entry.2))) =
      entriesAlong spokes names) : gathering order spokes = names := by
  rw [gathering, Map.range, harrange, fst_entriesAlong hnames]

/-- The spokes may come in any order, and the matching may start from either side. -/
theorem exists_order (hnames : names.Perm spokes.keys) (hdistinct : link.srcDevice ≠ link.dstDevice)
    (hmatched : MatchedAt cfg spokes link) (forward : Bool) :
    ∃ order, gathering order spokes = names ∧ fromSource cfg order spokes link = forward := by
  obtain ⟨first, hfirst, -⟩ :=
    RangeOrder.insertion.exists_arrange 5 (perm_entriesAlong hnames)
  have hgathering := gathering_eq hnames hfirst
  let leader : OOSKey := if forward then ⟨link.srcDevice, link.dstDevice⟩
    else ⟨link.dstDevice, link.srcDevice⟩
  obtain ⟨values, hvalues⟩ : ∃ values, (oosIndex cfg first spokes).lookup leader = some values := by
    obtain ⟨here, there, hhere, hthere, hkey, hreverse, -⟩ := hmatched
    obtain ⟨near, hnear⟩ := @exists_firstVal cfg first spokes _ hhere
    obtain ⟨far, hfar⟩ := @exists_firstVal cfg first spokes _ hthere
    rw [hkey] at hnear
    rw [hreverse] at hfar
    cases forward with
    | true => exact exists_lookup_of_firstVal hnear
    | false => exact exists_lookup_of_firstVal hfar
  have hmem : (leader, values) ∈
      (oosIndex cfg first spokes).entries.map (fun entry => (entry.1, entry.2)) :=
    List.mem_map.mpr ⟨⟨leader, values⟩, AList.mem_lookup_iff.mp hvalues, rfl⟩
  -- it is put before all others
  obtain ⟨second, hsecond, hsame⟩ := first.exists_arrange 6 (List.perm_cons_erase hmem).symm
  have hrange : spokes.range second 5 = spokes.range first 5 := hsame 5 _ (by decide)
  have hindex : oosIndex cfg second spokes = oosIndex cfg first spokes := by
    rw [oosIndex, hrange, oosIndex]
  refine ⟨second, ?_, ?_⟩
  · rw [gathering, hrange]
    exact hgathering
  · have hleading : leading cfg second spokes link = some (leader, values) := by
      rw [leading, hindex, Map.range, hsecond, List.find?_cons_of_pos]
      cases forward with
      | true => exact decide_eq_true (Or.inl rfl)
      | false => exact decide_eq_true (Or.inr rfl)
    rw [fromSource, hleading, Option.map_some]
    cases forward with
    | true => exact decide_eq_true rfl
    | false =>
        refine decide_eq_false fun heq => hdistinct ?_
        exact (OOSKey.mk.inj (Option.some.inj heq)).2

end Visits

end TopologyExporter.Federation
