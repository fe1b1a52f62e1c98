import TopologyExporter.Graph.Age

/-! # Keys as text

The counters of unconfirmed links are persisted under the text of their keys: the
four fields, separated by bars. A bar in a field is written as an escape, and so is
the character that starts an escape.
-/

namespace TopologyExporter.Graph

open Go Discovery

/-! ## The text of a key -/

def escapeField (field : GoString) : GoString :=
  Strings.replaceAll (Strings.replaceAll field (str "%") (str "%25")) (str "|") (str "%7C")

def edgeKeyString (link : EdgeKey) : GoString :=
  escapeField link.srcDevice ++ str "|" ++ escapeField link.srcPort ++ str "|" ++
    escapeField link.dstDevice ++ str "|" ++ escapeField link.dstPort

def unescapeField (field : GoString) : GoString :=
  Strings.replaceAll (Strings.replaceAll field (str "%7C") (str "|")) (str "%25") (str "%")

/-- The text does not have exactly three separators. -/
structure InvalidEdgeKey where
  text : GoString
deriving DecidableEq

def edgeKeyFromString (text : GoString) : Except InvalidEdgeKey EdgeKey :=
  match Strings.splitN 0x7C 4 text with
  | [srcDevice, srcPort, dstDevice, dstPort] =>
      .ok ⟨unescapeField srcDevice, unescapeField srcPort, unescapeField dstDevice,
        unescapeField dstPort⟩
  | _ => .error ⟨text⟩

/-- Entries whose key does not parse are dropped. -/
def agesToEdgeKeys (order : RangeOrder) (stored : Map GoString Int) : Map EdgeKey Int :=
  (stored.range order 10).foldl (fun ages entry =>
    match edgeKeyFromString entry.1 with
    | .ok link => ages.insert link entry.2
    | .error _ => ages) ∅

def edgeKeysToAges (order : RangeOrder) (ages : Map EdgeKey Int) : Map GoString Int :=
  (ages.range order 11).foldl (fun stored entry =>
    stored.insert (edgeKeyString entry.1) entry.2) ∅

/-! ## Reading a field back -/

/-- A byte of a field whose escape characters are escaped. -/
def escapePercent (byte : UInt8) : GoString := if byte = 0x25 then str "%25" else [byte]

/-- A byte of an escaped field. -/
def escapeByte (byte : UInt8) : GoString :=
  if byte = 0x25 then str "%25" else if byte = 0x7C then str "%7C" else [byte]

theorem escapeField_eq (field : GoString) : escapeField field = field.flatMap escapeByte := by
  rw [escapeField, show str "%" = [0x25] from rfl, show str "|" = [0x7C] from rfl,
    Strings.replaceAll_byte, Strings.replaceAll_byte, List.flatMap_assoc]
  congr 1
  funext byte
  by_cases hpercent : byte = 0x25
  · subst hpercent
    rfl
  · simp [escapeByte, hpercent]

theorem notMem_escapeField (field : GoString) : 0x7C ∉ escapeField field := by
  rw [escapeField_eq, List.mem_flatMap]
  intro hbar
  obtain ⟨byte, -, hbyte⟩ := hbar
  unfold escapeByte at hbyte
  split_ifs at hbyte with hpercent hbar
  · exact absurd hbyte (by decide)
  · exact absurd hbyte (by decide)
  · exact hbar (List.mem_singleton.mp hbyte).symm

theorem replaceAll_bar_percent (rest : GoString) :
    Strings.replaceAll (str "%25" ++ rest) (str "%7C") (str "|") =
      str "%25" ++ Strings.replaceAll rest (str "%7C") (str "|") := by
  rw [show str "%25" = [0x25, 0x32, 0x35] from rfl,
    show str "%7C" = [0x25, 0x37, 0x43] from rfl, List.cons_append, List.cons_append,
    List.singleton_append, Strings.replaceAll_cons rfl,
    Strings.replaceAll_cons_of_ne (by decide), Strings.replaceAll_cons_of_ne (by decide)]
  rfl

/-- The first replacement turns the bars back. What it leaves starts no occurrence:
a percent sign is followed by the rest of its own escape. -/
theorem replaceAll_bar (field : GoString) :
    Strings.replaceAll (field.flatMap escapeByte) (str "%7C") (str "|") =
      field.flatMap escapePercent := by
  induction field with
  | nil => rfl
  | cons byte rest ih =>
      rw [List.flatMap_cons, List.flatMap_cons, ← ih]
      by_cases hpercent : byte = 0x25
      · subst hpercent
        exact replaceAll_bar_percent _
      · by_cases hbar : byte = 0x7C
        · subst hbar
          exact Strings.replaceAll_append (List.cons_ne_nil _ _)
        · have hplain : escapeByte byte = [byte] := by simp [escapeByte, hpercent, hbar]
          have hsame : escapePercent byte = [byte] := by simp [escapePercent, hpercent]
          rw [hplain, hsame, List.singleton_append, List.singleton_append]
          exact Strings.replaceAll_cons_of_ne hpercent

theorem replaceAll_percent (field : GoString) :
    Strings.replaceAll (field.flatMap escapePercent) (str "%25") (str "%") = field := by
  induction field with
  | nil => rfl
  | cons byte rest ih =>
      rw [List.flatMap_cons]
      by_cases hpercent : byte = 0x25
      · subst hpercent
        rw [show escapePercent 0x25 = str "%25" from rfl,
          Strings.replaceAll_append (show str "%25" ≠ [] by decide), ih]
        rfl
      · have hplain : escapePercent byte = [byte] := by simp [escapePercent, hpercent]
        rw [hplain, List.singleton_append, show str "%25" = 0x25 :: [0x32, 0x35] from rfl,
          Strings.replaceAll_cons_of_ne hpercent]
        exact congrArg (byte :: ·) ih

theorem unescapeField_escapeField (field : GoString) :
    unescapeField (escapeField field) = field := by
  rw [unescapeField, escapeField_eq, replaceAll_bar, replaceAll_percent]

/-! ## Reading keys and counters back -/

theorem edgeKeyFromString_edgeKeyString (link : EdgeKey) :
    edgeKeyFromString (edgeKeyString link) = .ok link := by
  have hsplit : Strings.splitN 0x7C 4 (edgeKeyString link) =
      [escapeField link.srcDevice, escapeField link.srcPort, escapeField link.dstDevice,
        escapeField link.dstPort] := by
    rw [edgeKeyString, show str "|" = [0x7C] from rfl]
    simp only [List.append_assoc, List.cons_append, List.nil_append, Strings.splitN,
      Strings.cutByte_append (notMem_escapeField _)]
  simp only [edgeKeyFromString, hsplit, unescapeField_escapeField]

theorem edgeKeyString_injective : Function.Injective edgeKeyString := by
  intro first second heq
  have hread := edgeKeyFromString_edgeKeyString first
  rw [heq, edgeKeyFromString_edgeKeyString] at hread
  exact (Except.ok.inj hread).symm

variable {ages : Map EdgeKey Int}

theorem lookup_edgeKeysToAges {order : RangeOrder} {text : GoString} {age : Int} :
    (edgeKeysToAges order ages).lookup text = some age ↔
      ∃ link, edgeKeyString link = text ∧ ages.lookup link = some age := by
  have hrows : edgeKeysToAges order ages =
      ((ages.range order 11).map (fun entry => (edgeKeyString entry.1, entry.2))).foldl
        (fun stored row => stored.insert row.1 row.2) ∅ := by
    rw [List.foldl_map]
    rfl
  have hnodup : (((ages.range order 11).map (fun entry =>
      (edgeKeyString entry.1, entry.2))).map Prod.fst).Nodup := by
    have hkeys := (Map.range_nodup ages order 11).map edgeKeyString_injective
    rwa [List.map_map] at hkeys ⊢
  rw [hrows, Map.lookup_foldl_insert_of_nodup hnodup, List.mem_map]
  constructor
  · intro hentry
    obtain ⟨entry, hmem, heq⟩ := hentry
    cases heq
    exact ⟨entry.1, rfl, Map.mem_range.mp hmem⟩
  · intro hlink
    obtain ⟨link, rfl, hage⟩ := hlink
    exact ⟨(link, age), Map.mem_range.mpr hage, rfl⟩

/-- The row of a counter that is read back. -/
def parsedAge (entry : GoString × Int) : Option (EdgeKey × Int) :=
  match edgeKeyFromString entry.1 with
  | .ok link => some (link, entry.2)
  | .error _ => none

theorem agesToEdgeKeys_eq (order : RangeOrder) (stored : Map GoString Int) :
    agesToEdgeKeys order stored =
      ((stored.range order 10).filterMap parsedAge).foldl
        (fun ages row => ages.insert row.1 row.2) ∅ := by
  rw [agesToEdgeKeys, List.foldl_filterMap]
  congr 1
  funext ages entry
  unfold parsedAge
  cases edgeKeyFromString entry.1 with
  | ok link => rfl
  | error invalid => rfl

/-- Every row of the stored counters is read back as the counter it was written for. -/
theorem parsedAge_of_mem_range {order order' : RangeOrder} {entry : GoString × Int}
    (hentry : entry ∈ (edgeKeysToAges order' ages).range order 10) :
    ∃ link, edgeKeyString link = entry.1 ∧ parsedAge entry = some (link, entry.2) ∧
      ages.lookup link = some entry.2 := by
  obtain ⟨link, htext, hage⟩ := lookup_edgeKeysToAges.mp (Map.mem_range.mp hentry)
  refine ⟨link, htext, ?_, hage⟩
  rw [parsedAge, ← htext, edgeKeyFromString_edgeKeyString]

theorem nodup_parsedAges (order order' : RangeOrder) (ages : Map EdgeKey Int) :
    ((((edgeKeysToAges order' ages).range order 10).filterMap parsedAge).map Prod.fst).Nodup := by
  have htexts : ((((edgeKeysToAges order' ages).range order 10).filterMap parsedAge).map
      Prod.fst).map edgeKeyString = ((edgeKeysToAges order' ages).range order 10).map Prod.fst := by
    rw [List.map_map, List.map_filterMap, ← List.filterMap_eq_map']
    apply List.filterMap_congr
    intro entry hentry
    obtain ⟨link, htext, hparsed, -⟩ := parsedAge_of_mem_range hentry
    rw [hparsed, ← htext]
    rfl
  apply List.Nodup.of_map edgeKeyString
  rw [htexts]
  exact Map.range_nodup (edgeKeysToAges order' ages) order 10

theorem lookup_ages_read_back (order order' : RangeOrder) (ages : Map EdgeKey Int)
    (link : EdgeKey) :
    (agesToEdgeKeys order (edgeKeysToAges order' ages)).lookup link = ages.lookup link := by
  apply Option.ext
  intro age
  rw [agesToEdgeKeys_eq, Map.lookup_foldl_insert_of_nodup (nodup_parsedAges order order' ages),
    List.mem_filterMap]
  constructor
  · intro hrow
    obtain ⟨entry, hentry, hrow⟩ := hrow
    obtain ⟨found, -, hparsed, hage⟩ := parsedAge_of_mem_range hentry
    rw [hparsed] at hrow
    cases hrow
    exact hage
  · intro hage
    refine ⟨(edgeKeyString link, age), ?_, ?_⟩
    · exact Map.mem_range.mpr (lookup_edgeKeysToAges.mpr ⟨link, rfl, hage⟩)
    · rw [parsedAge, edgeKeyFromString_edgeKeyString]

/-- Every key is read back from its text, whatever characters its fields have. So
different keys have different texts, and the counters survive being stored. -/
theorem keys_read_back :
    (∀ link, edgeKeyFromString (edgeKeyString link) = .ok link) ∧
      Function.Injective edgeKeyString ∧
      ∀ (order order' : RangeOrder) (ages : Map EdgeKey Int) (link : EdgeKey),
        (agesToEdgeKeys order (edgeKeysToAges order' ages)).lookup link = ages.lookup link :=
  ⟨edgeKeyFromString_edgeKeyString, edgeKeyString_injective, lookup_ages_read_back⟩

/-- The escapes themselves are ordinary text in a field. -/
example : edgeKeyFromString (edgeKeyString ⟨str "a|b", str "%7C", str "%25|", str "%257C"⟩) =
    .ok ⟨str "a|b", str "%7C", str "%25|", str "%257C"⟩ := by
  decide

end TopologyExporter.Graph
