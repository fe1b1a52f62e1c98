import TopologyExporter.GoLib.Strings

/-! # Names read from devices

What is done to a port name or a system name before it becomes part of an
edge: control characters are removed, the length is capped on a rune boundary,
and system names are trimmed and lower-cased.
-/

namespace TopologyExporter.Discovery

open Go Utf8

/-- Retreats from `offset` to the nearest rune boundary at or before it. -/
def retreat (text : GoString) : Nat → Nat
  | 0 => 0
  | offset + 1 => if runeStart (text.getD (offset + 1) 0) then offset + 1 else retreat text offset

def truncateAtRuneBoundary (text : GoString) (maxBytes : Int) : GoString :=
  if maxBytes ≤ 0 then []
  else if (text.length : Int) ≤ maxBytes then text
  else text.take (retreat text maxBytes.toNat)

/-- Removes the control characters of a string. -/
def stripControl (text : GoString) : GoString :=
  Strings.mapRunes (fun rune => if Unicode.isControl rune then none else some rune) text

def normaliseName (text : GoString) : GoString :=
  truncateAtRuneBoundary (Strings.toLower (Strings.trimSpace (stripControl text))) 255

def sanitisePortName (text : GoString) : GoString :=
  truncateAtRuneBoundary (stripControl text) 255

/-! ## Truncation -/

theorem retreat_encode {front back : List Nat} {rune offset : Nat}
    (hlow : (encode front).length ≤ offset)
    (hhigh : offset < (encode front).length + (encodeRune rune).length) :
    retreat (encode (front ++ rune :: back)) offset = (encode front).length := by
  induction offset with
  | zero =>
      rw [retreat]
      omega
  | succ offset ih =>
      rw [retreat, runeStart_at hlow hhigh]
      by_cases hstart : offset + 1 = (encode front).length
      · simp [hstart]
      · rw [decide_eq_false hstart]
        exact ih (by omega) (by omega)

/-- Truncating a string spelled by runes keeps the longest run of leading
runes that fits. -/
theorem truncateAtRuneBoundary_encode {spelled : List Nat} {maxBytes : Nat}
    (hlong : maxBytes < (encode spelled).length) :
    ∃ front rune back, spelled = front ++ rune :: back ∧
      truncateAtRuneBoundary (encode spelled) maxBytes = encode front ∧
      (encode front).length ≤ maxBytes ∧
      maxBytes < (encode front).length + (encodeRune rune).length := by
  obtain ⟨front, rune, back, rfl, hlow, hhigh⟩ := exists_rune_at hlong
  refine ⟨front, rune, back, rfl, ?_, hlow, hhigh⟩
  unfold truncateAtRuneBoundary
  split_ifs with hzero hshort
  · have hempty : (encode front).length = 0 := by omega
    exact (List.length_eq_zero_iff.mp hempty).symm
  · omega
  · rw [Int.toNat_natCast, retreat_encode hlow hhigh, encode_append, List.take_left]

variable {text : GoString}

theorem truncateAtRuneBoundary_short {maxBytes : Nat} (hshort : text.length ≤ maxBytes) :
    truncateAtRuneBoundary text maxBytes = text := by
  unfold truncateAtRuneBoundary
  split_ifs with hzero hfits
  · exact (List.length_eq_zero_iff.mp (by omega)).symm
  · rfl
  · omega

/-- The leading part of a text that ends on a rune boundary: the text's own
leading runes spell it. -/
def EndsOnRune (text front : GoString) : Prop :=
  ∃ leading, leading <+: runes text ∧ encode leading = front

/-- In well-formed text these are the leading parts that are well-formed. -/
theorem endsOnRune_iff {front : GoString} (hvalid : validString text = true) :
    EndsOnRune text front ↔ front <+: text ∧ validString front = true := by
  constructor
  · intro hends
    obtain ⟨leading, ⟨rest, hrunes⟩, rfl⟩ := hends
    refine ⟨⟨encode rest, ?_⟩, validString_encode ?_⟩
    · rw [← encode_append, hrunes, encode_runes hvalid]
    · intro rune hrune
      apply @isScalar_of_mem_runes text
      rw [← hrunes]
      exact List.mem_append_left rest hrune
  · intro hboth
    obtain ⟨⟨tail, rfl⟩, hfront⟩ := hboth
    refine ⟨runes front, ⟨runes tail, ?_⟩, encode_runes hfront⟩
    rw [← runes_encode_append isScalar_of_mem_runes tail, encode_runes hfront]

/-- The longest part of the text with at most so many bytes that ends on a rune
boundary. -/
structure LongestWithin (text : GoString) (maxBytes : Nat) (front : GoString) : Prop where
  starts : front <+: text
  ends : EndsOnRune text front
  length_le : front.length ≤ maxBytes
  longest : ∀ other, EndsOnRune text other → other.length ≤ maxBytes → other <+: front

theorem encode_isPrefix {front back : List Nat} (hstarts : front <+: back) :
    encode front <+: encode back := by
  obtain ⟨rest, rfl⟩ := hstarts
  rw [encode_append]
  exact List.prefix_append (encode front) (encode rest)

theorem longestWithin_truncateAtRuneBoundary (hvalid : validString text = true) (maxBytes : Nat) :
    LongestWithin text maxBytes (truncateAtRuneBoundary text maxBytes) := by
  by_cases hlong : maxBytes < text.length
  · rw [← encode_runes hvalid] at hlong
    obtain ⟨front, rune, back, hsplit, htruncate, hlength, hnext⟩ :=
      truncateAtRuneBoundary_encode hlong
    rw [encode_runes hvalid] at htruncate
    have hfront : front <+: runes text := hsplit ▸ List.prefix_append front _
    have hends : EndsOnRune text (encode front) := ⟨front, hfront, rfl⟩
    rw [htruncate]
    refine ⟨((endsOnRune_iff hvalid).mp hends).1, hends, hlength, ?_⟩
    intro other hother hfits
    obtain ⟨leading, hleading, rfl⟩ := hother
    apply encode_isPrefix
    apply List.prefix_of_prefix_length_le hleading hfront
    -- with one rune more the text would be over the limit
    by_contra hmore
    have hnextRune : front ++ [rune] <+: leading := by
      apply List.prefix_of_prefix_length_le _ hleading
      · rw [List.length_append, List.length_singleton]
        omega
      · exact hsplit ▸ ⟨back, by simp⟩
    have hbytes := (encode_isPrefix hnextRune).length_le
    rw [encode_append, List.length_append, encode_cons, encode_nil, List.append_nil] at hbytes
    omega
  · rw [truncateAtRuneBoundary_short (by omega)]
    refine ⟨List.prefix_rfl, ⟨runes text, List.prefix_rfl, encode_runes hvalid⟩, by omega, ?_⟩
    exact fun other hother _ => ((endsOnRune_iff hvalid).mp hother).1

/-! ## Text that is safe to publish

`Clean` is what the names of a discovered edge have in common: well-formed, at
most 255 bytes, and no control characters. -/

structure Clean (text : GoString) : Prop where
  valid : validString text = true
  length_le : text.length ≤ 255
  noControl : ∀ rune ∈ runes text, Unicode.isControl rune = false

theorem clean_truncateAtRuneBoundary (hvalid : validString text = true)
    (hcontrol : ∀ rune ∈ runes text, Unicode.isControl rune = false) :
    Clean (truncateAtRuneBoundary text 255) := by
  have hlongest := longestWithin_truncateAtRuneBoundary hvalid 255
  refine ⟨((endsOnRune_iff hvalid).mp hlongest.ends).2, hlongest.length_le, ?_⟩
  obtain ⟨front, hstarts, hfront⟩ := hlongest.ends
  have hscalar : ∀ rune ∈ front, IsScalar rune :=
    fun rune hrune => isScalar_of_mem_runes rune (hstarts.subset hrune)
  have heq : truncateAtRuneBoundary text 255 = encode front := hfront.symm
  rw [heq, runes_encode hscalar]
  exact fun rune hrune => hcontrol rune (hstarts.subset hrune)

/-- Clean text has no byte that is an ASCII control character. -/
theorem Clean.bytes (hclean : Clean text) :
    ∀ byte ∈ text, 0x20 ≤ byte.toNat ∧ byte.toNat ≠ 0x7F := by
  intro byte hbyte
  by_contra hcontrol
  have hascii : byte.toNat < 0x80 := by omega
  have hrune : byte.toNat ∈ runes text := by
    rw [mem_runes_ascii hascii, ← byte_eq_ofNat byte rfl]
    exact hbyte
  have hnot := hclean.noControl _ hrune
  simp only [Unicode.isControl, decide_eq_false_iff_not] at hnot
  omega

theorem isScalar_stripMapping (rune image : Nat) (hrune : IsScalar rune)
    (himage : (if Unicode.isControl rune then none else some rune) = some image) :
    IsScalar image := by
  split at himage
  · cases himage
  · cases himage
    exact hrune

theorem validString_stripControl (text : GoString) : validString (stripControl text) = true :=
  Strings.validString_mapRunes isScalar_stripMapping text

theorem runes_stripControl (text : GoString) :
    runes (stripControl text) =
      (runes text).filter (fun rune => Unicode.isControl rune = false) := by
  rw [stripControl, Strings.runes_mapRunes isScalar_stripMapping]
  induction runes text with
  | nil => rfl
  | cons rune rest ih =>
      by_cases hcontrol : Unicode.isControl rune = true
      · simp [hcontrol, ih]
      · simp [hcontrol, ih]

theorem noControl_stripControl (text : GoString) :
    ∀ rune ∈ runes (stripControl text), Unicode.isControl rune = false := by
  intro rune hrune
  rw [runes_stripControl] at hrune
  simpa using (List.mem_filter.mp hrune).2

/-- A string without control characters is left alone. -/
theorem stripControl_eq_self (hvalid : validString text = true)
    (hcontrol : ∀ rune ∈ runes text, Unicode.isControl rune = false) :
    stripControl text = text := by
  rw [← encode_runes (validString_stripControl text), runes_stripControl,
    List.filter_eq_self.mpr (by simpa using hcontrol), encode_runes hvalid]

theorem length_stripControl_le (hvalid : validString text = true) :
    (stripControl text).length ≤ text.length := by
  have hsublist : (encode (runes (stripControl text))).Sublist (encode (runes text)) := by
    rw [runes_stripControl]
    exact List.Sublist.flatMap List.filter_sublist encodeRune
  rw [encode_runes (validString_stripControl text), encode_runes hvalid] at hsublist
  exact hsublist.length_le

theorem clean_sanitisePortName (text : GoString) : Clean (sanitisePortName text) :=
  clean_truncateAtRuneBoundary (validString_stripControl text) (noControl_stripControl text)

theorem clean_normaliseName (text : GoString) : Clean (normaliseName text) := by
  refine clean_truncateAtRuneBoundary (Strings.validString_toLower _) ?_
  intro rune hrune
  rw [Strings.runes_toLower, Strings.runes_trimSpace (validString_stripControl text)] at hrune
  obtain ⟨original, horiginal, rfl⟩ := List.mem_map.mp hrune
  exact Unicode.isControl_toLower
    (noControl_stripControl text original (Strings.mem_trimmed horiginal))

end TopologyExporter.Discovery
