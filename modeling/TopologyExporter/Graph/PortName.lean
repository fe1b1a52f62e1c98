import TopologyExporter.Graph.Key

/-! # Where a port name is cut

The long form of a prefix is found in the lower-cased name, but it is cut off the name as
it was, by its number of bytes. The two agree as long as the matched characters take one
byte each. The dotted capital I and the Kelvin sign are lower-cased to ASCII letters too,
and take more.
-/

namespace TopologyExporter.Graph

open Go Utf8 Discovery

/-- The lower-cased name starts with the lower-cased long form. -/
def Matches (name : GoString) (entry : GoString × GoString) : Prop :=
  Strings.hasPrefix (Strings.toLower name) (Strings.toLower entry.1) = true

/-- The short form, followed by what stands after the characters that match the long one. -/
def Shortens (name : GoString) (entry : GoString × GoString) (result : GoString) : Prop :=
  ∃ matched rest, runes name = matched ++ rest ∧
    encode (matched.map Unicode.toLower) = Strings.toLower entry.1 ∧
    result = entry.2 ++ encode rest

/-- A name with a long form is shortened, any other only loses its control characters,
and the result is text. -/
structure NormalizedRight (name : GoString) : Prop where
  shortens : ∀ entry ∈ portPrefixes, Matches (stripControl name) entry →
    Shortens (stripControl name) entry (normalizePortName name)
  keeps : (∀ entry ∈ portPrefixes, ¬ Matches (stripControl name) entry) →
    normalizePortName name = stripControl name
  valid : validString (normalizePortName name) = true

/-! ## The prefix that matches -/

theorem portPrefixes_ascii : ∀ entry ∈ portPrefixes,
    (Strings.toLower entry.1).all (fun byte => decide (byte.toNat < 0x80)) = true ∧
      entry.2.all (fun byte => decide (byte.toNat < 0x80)) = true ∧
      (Strings.toLower entry.1).length = entry.1.length := by
  decide

theorem portPrefixes_apart : ∀ first ∈ portPrefixes, ∀ second ∈ portPrefixes,
    Strings.toLower first.1 <+: Strings.toLower second.1 → first = second := by
  decide

section Entry

variable {name : GoString} {entry : GoString × GoString}

theorem long_ascii (hentry : entry ∈ portPrefixes) :
    ∀ byte ∈ Strings.toLower entry.1, byte.toNat < 0x80 :=
  fun byte hbyte =>
    of_decide_eq_true (List.all_eq_true.mp (portPrefixes_ascii entry hentry).1 byte hbyte)

theorem short_ascii (hentry : entry ∈ portPrefixes) : ∀ byte ∈ entry.2, byte.toNat < 0x80 :=
  fun byte hbyte =>
    of_decide_eq_true (List.all_eq_true.mp (portPrefixes_ascii entry hentry).2.1 byte hbyte)

/-- The characters that match are as many as the long form has. -/
theorem exists_matched (hentry : entry ∈ portPrefixes) (hmatch : Matches name entry) :
    ∃ matched rest, runes name = matched ++ rest ∧
      matched.map Unicode.toLower = (Strings.toLower entry.1).map UInt8.toNat ∧
      matched.length = entry.1.length := by
  obtain ⟨matched, rest, hsplit, hfolded⟩ :=
    Strings.exists_folded_front (long_ascii hentry) hmatch
  refine ⟨matched, rest, hsplit, hfolded, ?_⟩
  have hlengths := congrArg List.length hfolded
  rwa [List.length_map, List.length_map, (portPrefixes_ascii entry hentry).2.2] at hlengths

/-- A name matches one long form at most, so the order of the table does not matter. -/
theorem normalizePortName_of_matches (hentry : entry ∈ portPrefixes)
    (hmatch : Matches (stripControl name) entry) :
    normalizePortName name = entry.2 ++ (stripControl name).drop entry.1.length := by
  have hfound : portPrefixes.find? (fun entry =>
      Strings.hasPrefix (Strings.toLower (stripControl name)) (Strings.toLower entry.1)) =
        some entry := by
    cases hfind : portPrefixes.find? (fun entry =>
        Strings.hasPrefix (Strings.toLower (stripControl name)) (Strings.toLower entry.1)) with
    | none => exact absurd hmatch (List.find?_eq_none.mp hfind entry hentry)
    | some other =>
        have hmem := List.mem_of_find?_eq_some hfind
        have hfound := List.find?_some hfind
        have hother : Matches (stripControl name) other := hfound
        -- of two beginnings of the lower-cased name, one starts the other
        rcases List.prefix_or_prefix_of_prefix (List.isPrefixOf_iff_prefix.mp hother)
          (List.isPrefixOf_iff_prefix.mp hmatch) with hstarts | hstarts
        · rw [portPrefixes_apart other hmem entry hentry hstarts]
        · rw [portPrefixes_apart entry hentry other hmem hstarts]
  rw [normalizePortName, hfound]

theorem normalizePortName_of_unmatched
    (hnone : ∀ entry ∈ portPrefixes, ¬ Matches (stripControl name) entry) :
    normalizePortName name = stripControl name := by
  have hfind : portPrefixes.find? (fun entry =>
      Strings.hasPrefix (Strings.toLower (stripControl name)) (Strings.toLower entry.1)) = none :=
    List.find?_eq_none.mpr hnone
  rw [normalizePortName, hfind]

/-! ## The cut -/

/-- What matches the long form is lower-cased to its runes. -/
theorem shortens_iff {result : GoString} {matched rest : List Nat}
    (hentry : entry ∈ portPrefixes) (hsplit : runes name = matched ++ rest)
    (hfolded : matched.map Unicode.toLower = (Strings.toLower entry.1).map UInt8.toNat) :
    Shortens name entry result ↔ result = entry.2 ++ encode rest := by
  constructor
  · intro hshortens
    obtain ⟨other, back, hother, hlower, hresult⟩ := hshortens
    have hscalar : ∀ rune ∈ other.map Unicode.toLower, IsScalar rune := by
      intro image himage
      obtain ⟨rune, hrune, rfl⟩ := List.mem_map.mp himage
      apply Unicode.isScalar_toLower
      apply @isScalar_of_mem_runes name
      rw [hother]
      exact List.mem_append_left back hrune
    have hrunes := congrArg runes hlower
    rw [runes_encode hscalar, runes_ascii (long_ascii hentry), ← hfolded] at hrunes
    have hlength := congrArg List.length hrunes
    rw [List.length_map, List.length_map] at hlength
    have hback := (List.append_inj (hother.symm.trans hsplit) hlength).2
    rw [hresult, hback]
  · intro hresult
    refine ⟨matched, rest, hsplit, ?_, hresult⟩
    rw [hfolded, encode_toNat_ascii (long_ascii hentry)]

/-- The cut is right exactly if the characters before it are ASCII. -/
theorem shortens_normalizePortName_iff (hentry : entry ∈ portPrefixes)
    (hmatch : Matches (stripControl name) entry) :
    Shortens (stripControl name) entry (normalizePortName name) ↔
      ∀ rune ∈ (runes (stripControl name)).take entry.1.length, rune < 0x80 := by
  obtain ⟨matched, rest, hsplit, hfolded, hlength⟩ := exists_matched hentry hmatch
  have hspelled : stripControl name = encode (matched ++ rest) := by
    rw [← hsplit, encode_runes (validString_stripControl name)]
  rw [shortens_iff hentry hsplit hfolded, normalizePortName_of_matches hentry hmatch,
    List.append_cancel_left_eq, hsplit, ← hlength, List.take_left, ← drop_encode_eq_iff,
    ← hspelled]

theorem validString_of_shortens (hentry : entry ∈ portPrefixes) {result : GoString}
    (hshortens : Shortens name entry result) : validString result = true := by
  obtain ⟨matched, rest, hsplit, -, hresult⟩ := hshortens
  rw [hresult, ← encode_toNat_ascii (short_ascii hentry),
    validString_encode_append (isScalar_toNat_ascii (short_ascii hentry))]
  apply validString_encode
  intro rune hrune
  apply @isScalar_of_mem_runes name
  rw [hsplit]
  exact List.mem_append_right matched hrune

end Entry

/-- A name is normalised right exactly if the characters that match a long form are ASCII,
so that none of them is a dotted capital I or a Kelvin sign. -/
theorem normalized_right_iff (name : GoString) :
    NormalizedRight name ↔ ∀ entry ∈ portPrefixes, Matches (stripControl name) entry →
      ∀ rune ∈ (runes (stripControl name)).take entry.1.length, rune < 0x80 := by
  constructor
  · intro hright entry hentry hmatch
    exact (shortens_normalizePortName_iff hentry hmatch).mp (hright.shortens entry hentry hmatch)
  · intro hascii
    have hshortens : ∀ entry ∈ portPrefixes, Matches (stripControl name) entry →
        Shortens (stripControl name) entry (normalizePortName name) :=
      fun entry hentry hmatch =>
        (shortens_normalizePortName_iff hentry hmatch).mpr (hascii entry hentry hmatch)
    refine ⟨hshortens, normalizePortName_of_unmatched, ?_⟩
    by_cases hsome : ∃ entry ∈ portPrefixes, Matches (stripControl name) entry
    · obtain ⟨entry, hentry, hmatch⟩ := hsome
      exact validString_of_shortens hentry (hshortens entry hentry hmatch)
    · rw [normalizePortName_of_unmatched (fun entry hentry hmatch =>
        hsome ⟨entry, hentry, hmatch⟩)]
      exact validString_stripControl name

/-- A loopback port spelled with the Kelvin sign: two of its three bytes are left over. -/
theorem kelvin_cut_apart :
    validString (str "Loopbac" ++ [0xE2, 0x84, 0xAA] ++ str "0") = true ∧
      normalizePortName (str "Loopbac" ++ [0xE2, 0x84, 0xAA] ++ str "0") =
        str "Lo" ++ [0x84, 0xAA] ++ str "0" ∧
      validString (str "Lo" ++ [0x84, 0xAA] ++ str "0") = false := by
  decide

end TopologyExporter.Graph
