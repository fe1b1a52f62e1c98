import TopologyExporter.Graph.KeyString

/-! # What a stored key is read as

The text of a key is split at its first three bars only, so a text with more bars is
read as well: the rest of the bars belong to the last field. Such a text and the one
that writes those bars as escapes are read as the same key.
-/

namespace TopologyExporter.Graph

open Go Discovery

/-- Every percent sign of the field starts one of the two escapes. -/
def escaped : GoString → Bool
  | [] => true
  | 0x25 :: 0x32 :: 0x35 :: rest => escaped rest
  | 0x25 :: 0x37 :: 0x43 :: rest => escaped rest
  | byte :: rest => byte != 0x25 && escaped rest

def WellEscaped (text : GoString) : Prop :=
  ∀ field ∈ Strings.splitN 0x7C 4 text, escaped field = true

/-- The field with the bars, and the percent signs that start no escape, written as
escapes. -/
def canonicalField : GoString → GoString
  | [] => []
  | 0x25 :: 0x32 :: 0x35 :: rest => str "%25" ++ canonicalField rest
  | 0x25 :: 0x37 :: 0x43 :: rest => str "%7C" ++ canonicalField rest
  | byte :: rest => escapeByte byte ++ canonicalField rest

def canonicalFields (text : GoString) : List GoString :=
  (Strings.splitN 0x7C 4 text).map canonicalField

/-! ## Reading a field -/

theorem unescapeField_percent (rest : GoString) :
    unescapeField (str "%25" ++ rest) = 0x25 :: unescapeField rest := by
  rw [unescapeField, replaceAll_bar_percent, Strings.replaceAll_append (by decide)]
  rfl

theorem unescapeField_bar (rest : GoString) :
    unescapeField (str "%7C" ++ rest) = 0x7C :: unescapeField rest := by
  rw [unescapeField, Strings.replaceAll_append (by decide), show str "|" = [0x7C] from rfl,
    List.singleton_append, show str "%25" = [0x25, 0x32, 0x35] from rfl,
    Strings.replaceAll_cons_of_ne (by decide)]
  rfl

variable {byte : UInt8} {rest first second : GoString} {link : EdgeKey} {order : RangeOrder}

/-- Turning the bars back only puts bars into the text: any other byte of the result was
there before. -/
theorem exists_of_replaceAll_bar {tail : GoString} (hbyte : byte ≠ 0x7C)
    (hresult : Strings.replaceAll rest (str "%7C") (str "|") = byte :: tail) :
    ∃ before, rest = byte :: before ∧
      Strings.replaceAll before (str "%7C") (str "|") = tail := by
  cases rest with
  | nil => exact absurd hresult (List.cons_ne_nil byte tail).symm
  | cons first before =>
      cases hstarts : (str "%7C").isPrefixOf (first :: before) with
      | true =>
          obtain ⟨after, hafter⟩ := List.isPrefixOf_iff_prefix.mp hstarts
          rw [← hafter, Strings.replaceAll_append (by decide)] at hresult
          exact absurd (List.cons.inj hresult).1.symm hbyte
      | false =>
          rw [Strings.replaceAll_cons hstarts] at hresult
          obtain ⟨rfl, hbefore⟩ := List.cons.inj hresult
          exact ⟨before, rfl, hbefore⟩

/-- Anything else is read as it stands, a percent sign that starts no escape included. -/
theorem unescapeField_cons (hpercent : ∀ tail, byte = 0x25 → rest ≠ 0x32 :: 0x35 :: tail)
    (hbar : ∀ tail, byte = 0x25 → rest ≠ 0x37 :: 0x43 :: tail) :
    unescapeField (byte :: rest) = byte :: unescapeField rest := by
  have hfirst : (str "%7C").isPrefixOf (byte :: rest) = false := by
    apply Bool.eq_false_iff.mpr
    intro hstarts
    obtain ⟨tail, htail⟩ := List.isPrefixOf_iff_prefix.mp hstarts
    obtain ⟨hbyte, hrest⟩ := List.cons.inj htail
    exact hbar tail hbyte.symm hrest.symm
  have hsecond : (str "%25").isPrefixOf
      (byte :: Strings.replaceAll rest (str "%7C") (str "|")) = false := by
    apply Bool.eq_false_iff.mpr
    intro hstarts
    obtain ⟨tail, htail⟩ := List.isPrefixOf_iff_prefix.mp hstarts
    obtain ⟨hbyte, hrest⟩ := List.cons.inj htail
    obtain ⟨second, rfl, hsecond⟩ := exists_of_replaceAll_bar (by decide) hrest.symm
    obtain ⟨third, rfl, -⟩ := exists_of_replaceAll_bar (by decide) hsecond
    exact hpercent third hbyte.symm rfl
  rw [unescapeField, Strings.replaceAll_cons hfirst, Strings.replaceAll_cons hsecond]
  rfl

/-- What a field is read as tells its canonical form and nothing more. -/
theorem escapeField_unescapeField (field : GoString) :
    escapeField (unescapeField field) = canonicalField field := by
  rw [escapeField_eq]
  fun_induction canonicalField field with
  | case1 => rfl
  | case2 rest ih =>
      rw [← ih]
      exact congrArg (List.flatMap escapeByte) (unescapeField_percent rest)
  | case3 rest ih =>
      rw [← ih]
      exact congrArg (List.flatMap escapeByte) (unescapeField_bar rest)
  | case4 byte rest hpercent hbar ih =>
      rw [unescapeField_cons hpercent hbar, List.flatMap_cons, ih]

/-- In an escaped field only the bars are rewritten. -/
theorem canonicalField_of_escaped {field : GoString} (hescaped : escaped field = true) :
    canonicalField field = Strings.replaceAll field (str "|") (str "%7C") := by
  rw [show str "|" = [0x7C] from rfl, Strings.replaceAll_byte]
  fun_induction escaped field with
  | case1 => rfl
  | case2 rest ih => exact congrArg (str "%25" ++ ·) (ih hescaped)
  | case3 rest ih => exact congrArg (str "%7C" ++ ·) (ih hescaped)
  | case4 byte rest hpercent hbar ih =>
      rw [Bool.and_eq_true, bne_iff_ne] at hescaped
      rw [List.flatMap_cons, ← ih hescaped.2, canonicalField.eq_4 byte rest hpercent hbar,
        escapeByte, if_neg hescaped.1]

/-! ## Which texts are read, and as what -/

/-- The fields of a key as they are stored. -/
def readFields (text : GoString) : List GoString :=
  (Strings.splitN 0x7C 4 text).map unescapeField

variable {text : GoString} {stored : Map GoString Int}

theorem edgeKeyFromString_eq_ok :
    edgeKeyFromString text = .ok link ↔
      readFields text = [link.srcDevice, link.srcPort, link.dstDevice, link.dstPort] := by
  unfold edgeKeyFromString readFields
  split
  next srcDevice srcPort dstDevice dstPort hsplit =>
    rw [hsplit]
    constructor
    · intro hlink
      cases hlink
      rfl
    · intro hfields
      cases link
      simp_all
  next hsplit =>
    constructor
    · intro hlink
      cases hlink
    · intro hfields
      have hlength := congrArg List.length hfields
      rw [List.length_map] at hlength
      obtain ⟨srcDevice, srcPort, dstDevice, dstPort, hparts⟩ := List.length_eq_four.mp hlength
      exact absurd hparts (hsplit srcDevice srcPort dstDevice dstPort)

/-- A text is read if it has at least three bars. -/
theorem exists_edgeKeyFromString_iff :
    (∃ link, edgeKeyFromString text = .ok link) ↔ 3 ≤ text.count 0x7C := by
  have hlength : (readFields text).length = min 3 (text.count 0x7C) + 1 := by
    rw [readFields, List.length_map, Strings.length_splitN]
  constructor
  · intro hread
    obtain ⟨link, hlink⟩ := hread
    rw [edgeKeyFromString_eq_ok.mp hlink] at hlength
    simp only [List.length_cons, List.length_nil] at hlength
    omega
  · intro hcount
    rw [min_eq_left hcount] at hlength
    obtain ⟨srcDevice, srcPort, dstDevice, dstPort, hfields⟩ :=
      List.length_eq_four.mp hlength
    exact ⟨⟨srcDevice, srcPort, dstDevice, dstPort⟩, edgeKeyFromString_eq_ok.mpr hfields⟩

theorem canonicalFields_eq (text : GoString) :
    canonicalFields text = (readFields text).map escapeField := by
  rw [canonicalFields, readFields, List.map_map]
  congr 1
  funext field
  exact (escapeField_unescapeField field).symm

theorem canonicalFields_eq_iff :
    canonicalFields first = canonicalFields second ↔ readFields first = readFields second := by
  rw [canonicalFields_eq, canonicalFields_eq]
  have hinjective : Function.Injective escapeField :=
    Function.LeftInverse.injective unescapeField_escapeField
  exact (List.map_injective_iff.mpr hinjective).eq_iff

/-- Two texts are read as one key exactly if their canonical fields are the same. -/
theorem edgeKeyFromString_eq_iff (hfirst : 3 ≤ first.count 0x7C) :
    edgeKeyFromString first = edgeKeyFromString second ↔
      canonicalFields first = canonicalFields second := by
  obtain ⟨link, hlink⟩ := exists_edgeKeyFromString_iff.mpr hfirst
  rw [canonicalFields_eq_iff, hlink, edgeKeyFromString_eq_ok.mp hlink, eq_comm,
    edgeKeyFromString_eq_ok]
  exact eq_comm

/-! ## Counters of a snapshot -/

/-- Every counter whose key is read has an entry of its own. -/
def KeepsApart (order : RangeOrder) (stored : Map GoString Int) : Prop :=
  (agesToEdgeKeys order stored).keys.length =
    (stored.keys.filter (fun text => (edgeKeyFromString text).isOk)).length

theorem map_fst_parsedAge (rows : List (GoString × Int)) :
    (rows.filterMap parsedAge).map Prod.fst =
      (rows.map Prod.fst).filterMap (fun text => (edgeKeyFromString text).toOption) := by
  rw [List.map_filterMap, List.filterMap_map]
  apply List.filterMap_congr
  intro entry _
  simp only [parsedAge, Function.comp_apply]
  cases edgeKeyFromString entry.1 with
  | ok link => rfl
  | error invalid => rfl

theorem length_filter_isOk (texts : List GoString) :
    (texts.filter (fun text => (edgeKeyFromString text).isOk)).length =
      (texts.filterMap (fun text => (edgeKeyFromString text).toOption)).length := by
  rw [List.length_filterMap_eq_countP, List.countP_eq_length_filter]
  congr 2
  funext text
  cases edgeKeyFromString text with
  | ok link => rfl
  | error invalid => rfl

theorem keepsApart_iff_nodup :
    KeepsApart order stored ↔
      (stored.keys.filterMap (fun text => (edgeKeyFromString text).toOption)).Nodup := by
  have hperm := (Map.perm_keys_range stored order 10).filterMap
    (fun text => (edgeKeyFromString text).toOption)
  rw [KeepsApart, length_filter_isOk, agesToEdgeKeys_eq, ← hperm.length_eq, ← hperm.nodup_iff,
    ← map_fst_parsedAge, List.length_map]
  exact Map.length_keys_foldl_insert_iff

theorem toOption_eq_some :
    (edgeKeyFromString text).toOption = some link ↔ edgeKeyFromString text = .ok link := by
  cases edgeKeyFromString text with
  | ok found => simp [Except.toOption]
  | error invalid => simp [Except.toOption]

/-- The counters stay apart if no two keys of the snapshot have the same canonical fields. -/
theorem keepsApart_iff :
    KeepsApart order stored ↔
      ∀ first ∈ stored.keys, ∀ second ∈ stored.keys, 3 ≤ first.count 0x7C →
        canonicalFields first = canonicalFields second → first = second := by
  rw [keepsApart_iff_nodup, nodup_filterMap_iff stored.keys_nodup]
  constructor
  · intro hapart first hfirst second hsecond hcount hsame
    obtain ⟨link, hlink⟩ := exists_edgeKeyFromString_iff.mpr hcount
    have hread := hlink
    rw [(edgeKeyFromString_eq_iff hcount).mpr hsame] at hread
    exact hapart first hfirst second hsecond link (toOption_eq_some.mpr hlink)
      (toOption_eq_some.mpr hread)
  · intro hcanonical first hfirst second hsecond link hlink hother
    rw [toOption_eq_some] at hlink hother
    have hcount := exists_edgeKeyFromString_iff.mp ⟨link, hlink⟩
    apply hcanonical first hfirst second hsecond hcount
    rw [← edgeKeyFromString_eq_iff hcount, hlink, hother]

/-! ## Which texts are told apart -/

/-- A text is read exactly if it has three bars, unless it has more. Two texts that are read
stand for different keys unless their canonical fields agree; in texts whose percent signs all
belong to escapes, these only differ from the fields in writing the bars of the last field as
escapes. The counters of a snapshot are kept apart exactly if this tells its keys apart. -/
theorem stored_keys_told_apart_iff (text : GoString) (order : RangeOrder)
    (stored : Map GoString Int) :
    (((∃ link, edgeKeyFromString text = .ok link) ↔ text.count 0x7C = 3) ↔
      text.count 0x7C ≤ 3) ∧
    (∀ second link other, edgeKeyFromString text = .ok link →
      edgeKeyFromString second = .ok other →
      ((text ≠ second → link ≠ other) ↔
        (text ≠ second → canonicalFields text ≠ canonicalFields second))) ∧
    (WellEscaped text → canonicalFields text =
      (Strings.splitN 0x7C 4 text).map (Strings.replaceAll · (str "|") (str "%7C"))) ∧
    (KeepsApart order stored ↔
      ∀ first ∈ stored.keys, ∀ second ∈ stored.keys, 3 ≤ first.count 0x7C →
        canonicalFields first = canonicalFields second → first = second) := by
  refine ⟨?_, ?_, ?_, keepsApart_iff⟩
  · rw [exists_edgeKeyFromString_iff]
    omega
  · intro second link other hlink hother
    have hcount := exists_edgeKeyFromString_iff.mp ⟨link, hlink⟩
    rw [ne_eq, ne_eq, ne_eq, ← edgeKeyFromString_eq_iff hcount, hlink, hother,
      Except.ok.injEq]
  · intro hescaped
    apply List.map_congr_left
    intro field hfield
    exact canonicalField_of_escaped (hescaped field hfield)

/-- A text with four bars is read, and as the same key as the text that escapes the last one.
Of the two counters, one is lost. -/
theorem surplus_bar_merged :
    (str "a|b|c|d|e").count 0x7C = 4 ∧
      edgeKeyFromString (str "a|b|c|d|e") = .ok ⟨str "a", str "b", str "c", str "d|e"⟩ ∧
      edgeKeyFromString (str "a|b|c|d%7Ce") = .ok ⟨str "a", str "b", str "c", str "d|e"⟩ ∧
      (WellEscaped (str "a|b|c|d|e") ∧ WellEscaped (str "a|b|c|d%7Ce")) ∧
      (agesToEdgeKeys .insertion
        (((∅ : Map GoString Int).insert (str "a|b|c|d|e") 1).insert (str "a|b|c|d%7Ce") 2)).keys =
          [⟨str "a", str "b", str "c", str "d|e"⟩] := by
  unfold WellEscaped
  decide

end TopologyExporter.Graph
