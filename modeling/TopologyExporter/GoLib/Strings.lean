import TopologyExporter.GoLib.Utf8

/-! # Runes and strings

Classification and case mapping of runes, and the string functions built on
them. The case table lists the simple lower-case mappings outside ASCII as
arithmetic progressions of code points.
-/

namespace Go

open Utf8

namespace Unicode

/-- Category Cc. -/
def isControl (rune : Nat) : Bool := decide (rune < 0x20 ∨ (0x7F ≤ rune ∧ rune < 0xA0))

/-- Property White_Space. -/
def isSpace (rune : Nat) : Bool :=
  decide ((0x09 ≤ rune ∧ rune ≤ 0x0D) ∨ rune = 0x20 ∨ rune = 0x85 ∨ rune = 0xA0 ∨
    rune = 0x1680 ∨ (0x2000 ≤ rune ∧ rune ≤ 0x200A) ∨ rune = 0x2028 ∨ rune = 0x2029 ∨
    rune = 0x202F ∨ rune = 0x205F ∨ rune = 0x3000)

/-- Letters, marks, numbers, punctuation, symbols and the ASCII space. Which runes
outside Latin-1 belong to these categories is left to the table. -/
def isPrint (table : Nat → Bool) (rune : Nat) : Bool :=
  if rune ≤ 0xFF then
    decide ((0x20 ≤ rune ∧ rune ≤ 0x7E) ∨ (0xA1 ≤ rune ∧ rune ≠ 0xAD))
  else table rune

/-- The code points `first, first + stride, …, last`, each mapped by adding `delta`. -/
structure CaseRange where
  first : Nat
  last : Nat
  delta : Int
  stride : Nat

def CaseRange.covers (range : CaseRange) (rune : Nat) : Bool :=
  decide (range.first ≤ rune ∧ rune ≤ range.last ∧ (rune - range.first) % range.stride = 0)

def lowerRanges : List CaseRange :=
  [⟨0xC0, 0xD6, 32, 1⟩, ⟨0xD8, 0xDE, 32, 1⟩, ⟨0x100, 0x12E, 1, 2⟩, ⟨0x130, 0x130, -199, 1⟩,
   ⟨0x132, 0x136, 1, 2⟩, ⟨0x139, 0x147, 1, 2⟩, ⟨0x14A, 0x176, 1, 2⟩, ⟨0x178, 0x178, -121, 1⟩,
   ⟨0x179, 0x17D, 1, 2⟩, ⟨0x181, 0x181, 210, 1⟩, ⟨0x182, 0x184, 1, 2⟩, ⟨0x186, 0x186, 206, 1⟩,
   ⟨0x187, 0x187, 1, 1⟩, ⟨0x189, 0x18A, 205, 1⟩, ⟨0x18B, 0x18B, 1, 1⟩, ⟨0x18E, 0x18E, 79, 1⟩,
   ⟨0x18F, 0x18F, 202, 1⟩, ⟨0x190, 0x190, 203, 1⟩, ⟨0x191, 0x191, 1, 1⟩, ⟨0x193, 0x193, 205, 1⟩,
   ⟨0x194, 0x194, 207, 1⟩, ⟨0x196, 0x196, 211, 1⟩, ⟨0x197, 0x197, 209, 1⟩, ⟨0x198, 0x198, 1, 1⟩,
   ⟨0x19C, 0x19C, 211, 1⟩, ⟨0x19D, 0x19D, 213, 1⟩, ⟨0x19F, 0x19F, 214, 1⟩, ⟨0x1A0, 0x1A4, 1, 2⟩,
   ⟨0x1A6, 0x1A6, 218, 1⟩, ⟨0x1A7, 0x1A7, 1, 1⟩, ⟨0x1A9, 0x1A9, 218, 1⟩, ⟨0x1AC, 0x1AC, 1, 1⟩,
   ⟨0x1AE, 0x1AE, 218, 1⟩, ⟨0x1AF, 0x1AF, 1, 1⟩, ⟨0x1B1, 0x1B2, 217, 1⟩, ⟨0x1B3, 0x1B5, 1, 2⟩,
   ⟨0x1B7, 0x1B7, 219, 1⟩, ⟨0x1B8, 0x1B8, 1, 1⟩, ⟨0x1BC, 0x1BC, 1, 1⟩, ⟨0x1C4, 0x1C4, 2, 1⟩,
   ⟨0x1C5, 0x1C5, 1, 1⟩, ⟨0x1C7, 0x1C7, 2, 1⟩, ⟨0x1C8, 0x1C8, 1, 1⟩, ⟨0x1CA, 0x1CA, 2, 1⟩,
   ⟨0x1CB, 0x1DB, 1, 2⟩, ⟨0x1DE, 0x1EE, 1, 2⟩, ⟨0x1F1, 0x1F1, 2, 1⟩, ⟨0x1F2, 0x1F4, 1, 2⟩,
   ⟨0x1F6, 0x1F6, -97, 1⟩, ⟨0x1F7, 0x1F7, -56, 1⟩, ⟨0x1F8, 0x21E, 1, 2⟩, ⟨0x220, 0x220, -130, 1⟩,
   ⟨0x222, 0x232, 1, 2⟩, ⟨0x23A, 0x23A, 10795, 1⟩, ⟨0x23B, 0x23B, 1, 1⟩, ⟨0x23D, 0x23D, -163, 1⟩,
   ⟨0x23E, 0x23E, 10792, 1⟩, ⟨0x241, 0x241, 1, 1⟩, ⟨0x243, 0x243, -195, 1⟩, ⟨0x244, 0x244, 69, 1⟩,
   ⟨0x245, 0x245, 71, 1⟩, ⟨0x246, 0x24E, 1, 2⟩, ⟨0x370, 0x372, 1, 2⟩, ⟨0x376, 0x376, 1, 1⟩,
   ⟨0x37F, 0x37F, 116, 1⟩, ⟨0x386, 0x386, 38, 1⟩, ⟨0x388, 0x38A, 37, 1⟩, ⟨0x38C, 0x38C, 64, 1⟩,
   ⟨0x38E, 0x38F, 63, 1⟩, ⟨0x391, 0x3A1, 32, 1⟩, ⟨0x3A3, 0x3AB, 32, 1⟩, ⟨0x3CF, 0x3CF, 8, 1⟩,
   ⟨0x3D8, 0x3EE, 1, 2⟩, ⟨0x3F4, 0x3F4, -60, 1⟩, ⟨0x3F7, 0x3F7, 1, 1⟩, ⟨0x3F9, 0x3F9, -7, 1⟩,
   ⟨0x3FA, 0x3FA, 1, 1⟩, ⟨0x3FD, 0x3FF, -130, 1⟩, ⟨0x400, 0x40F, 80, 1⟩, ⟨0x410, 0x42F, 32, 1⟩,
   ⟨0x460, 0x480, 1, 2⟩, ⟨0x48A, 0x4BE, 1, 2⟩, ⟨0x4C0, 0x4C0, 15, 1⟩, ⟨0x4C1, 0x4CD, 1, 2⟩,
   ⟨0x4D0, 0x52E, 1, 2⟩, ⟨0x531, 0x556, 48, 1⟩, ⟨0x10A0, 0x10C5, 7264, 1⟩,
   ⟨0x10C7, 0x10C7, 7264, 1⟩, ⟨0x10CD, 0x10CD, 7264, 1⟩, ⟨0x13A0, 0x13EF, 38864, 1⟩,
   ⟨0x13F0, 0x13F5, 8, 1⟩, ⟨0x1C90, 0x1CBA, -3008, 1⟩, ⟨0x1CBD, 0x1CBF, -3008, 1⟩,
   ⟨0x1E00, 0x1E94, 1, 2⟩, ⟨0x1E9E, 0x1E9E, -7615, 1⟩, ⟨0x1EA0, 0x1EFE, 1, 2⟩,
   ⟨0x1F08, 0x1F0F, -8, 1⟩, ⟨0x1F18, 0x1F1D, -8, 1⟩, ⟨0x1F28, 0x1F2F, -8, 1⟩,
   ⟨0x1F38, 0x1F3F, -8, 1⟩, ⟨0x1F48, 0x1F4D, -8, 1⟩, ⟨0x1F59, 0x1F5F, -8, 2⟩,
   ⟨0x1F68, 0x1F6F, -8, 1⟩, ⟨0x1F88, 0x1F8F, -8, 1⟩, ⟨0x1F98, 0x1F9F, -8, 1⟩,
   ⟨0x1FA8, 0x1FAF, -8, 1⟩, ⟨0x1FB8, 0x1FB9, -8, 1⟩, ⟨0x1FBA, 0x1FBB, -74, 1⟩,
   ⟨0x1FBC, 0x1FBC, -9, 1⟩, ⟨0x1FC8, 0x1FCB, -86, 1⟩, ⟨0x1FCC, 0x1FCC, -9, 1⟩,
   ⟨0x1FD8, 0x1FD9, -8, 1⟩, ⟨0x1FDA, 0x1FDB, -100, 1⟩, ⟨0x1FE8, 0x1FE9, -8, 1⟩,
   ⟨0x1FEA, 0x1FEB, -112, 1⟩, ⟨0x1FEC, 0x1FEC, -7, 1⟩, ⟨0x1FF8, 0x1FF9, -128, 1⟩,
   ⟨0x1FFA, 0x1FFB, -126, 1⟩, ⟨0x1FFC, 0x1FFC, -9, 1⟩, ⟨0x2126, 0x2126, -7517, 1⟩,
   ⟨0x212A, 0x212A, -8383, 1⟩, ⟨0x212B, 0x212B, -8262, 1⟩, ⟨0x2132, 0x2132, 28, 1⟩,
   ⟨0x2160, 0x216F, 16, 1⟩, ⟨0x2183, 0x2183, 1, 1⟩, ⟨0x24B6, 0x24CF, 26, 1⟩,
   ⟨0x2C00, 0x2C2F, 48, 1⟩, ⟨0x2C60, 0x2C60, 1, 1⟩, ⟨0x2C62, 0x2C62, -10743, 1⟩,
   ⟨0x2C63, 0x2C63, -3814, 1⟩, ⟨0x2C64, 0x2C64, -10727, 1⟩, ⟨0x2C67, 0x2C6B, 1, 2⟩,
   ⟨0x2C6D, 0x2C6D, -10780, 1⟩, ⟨0x2C6E, 0x2C6E, -10749, 1⟩, ⟨0x2C6F, 0x2C6F, -10783, 1⟩,
   ⟨0x2C70, 0x2C70, -10782, 1⟩, ⟨0x2C72, 0x2C72, 1, 1⟩, ⟨0x2C75, 0x2C75, 1, 1⟩,
   ⟨0x2C7E, 0x2C7F, -10815, 1⟩, ⟨0x2C80, 0x2CE2, 1, 2⟩, ⟨0x2CEB, 0x2CED, 1, 2⟩,
   ⟨0x2CF2, 0x2CF2, 1, 1⟩, ⟨0xA640, 0xA66C, 1, 2⟩, ⟨0xA680, 0xA69A, 1, 2⟩, ⟨0xA722, 0xA72E, 1, 2⟩,
   ⟨0xA732, 0xA76E, 1, 2⟩, ⟨0xA779, 0xA77B, 1, 2⟩, ⟨0xA77D, 0xA77D, -35332, 1⟩,
   ⟨0xA77E, 0xA786, 1, 2⟩, ⟨0xA78B, 0xA78B, 1, 1⟩, ⟨0xA78D, 0xA78D, -42280, 1⟩,
   ⟨0xA790, 0xA792, 1, 2⟩, ⟨0xA796, 0xA7A8, 1, 2⟩, ⟨0xA7AA, 0xA7AA, -42308, 1⟩,
   ⟨0xA7AB, 0xA7AB, -42319, 1⟩, ⟨0xA7AC, 0xA7AC, -42315, 1⟩, ⟨0xA7AD, 0xA7AD, -42305, 1⟩,
   ⟨0xA7AE, 0xA7AE, -42308, 1⟩, ⟨0xA7B0, 0xA7B0, -42258, 1⟩, ⟨0xA7B1, 0xA7B1, -42282, 1⟩,
   ⟨0xA7B2, 0xA7B2, -42261, 1⟩, ⟨0xA7B3, 0xA7B3, 928, 1⟩, ⟨0xA7B4, 0xA7C2, 1, 2⟩,
   ⟨0xA7C4, 0xA7C4, -48, 1⟩, ⟨0xA7C5, 0xA7C5, -42307, 1⟩, ⟨0xA7C6, 0xA7C6, -35384, 1⟩,
   ⟨0xA7C7, 0xA7C9, 1, 2⟩, ⟨0xA7D0, 0xA7D0, 1, 1⟩, ⟨0xA7D6, 0xA7D8, 1, 2⟩, ⟨0xA7F5, 0xA7F5, 1, 1⟩,
   ⟨0xFF21, 0xFF3A, 32, 1⟩, ⟨0x10400, 0x10427, 40, 1⟩, ⟨0x104B0, 0x104D3, 40, 1⟩,
   ⟨0x10570, 0x1057A, 39, 1⟩, ⟨0x1057C, 0x1058A, 39, 1⟩, ⟨0x1058C, 0x10592, 39, 1⟩,
   ⟨0x10594, 0x10595, 39, 1⟩, ⟨0x10C80, 0x10CB2, 64, 1⟩, ⟨0x118A0, 0x118BF, 32, 1⟩,
   ⟨0x16E40, 0x16E5F, 32, 1⟩, ⟨0x1E900, 0x1E921, 34, 1⟩]

/-- The simple lower-case mapping of a rune. -/
def toLower (rune : Nat) : Nat :=
  if rune < 0x80 then
    if 0x41 ≤ rune ∧ rune ≤ 0x5A then rune + 0x20 else rune
  else
    match lowerRanges.find? (·.covers rune) with
    | some range => (rune + range.delta).toNat
    | none => rune

/-- A range whose images are encodable and no control characters. -/
def CaseRange.WellFormed (range : CaseRange) : Prop :=
  0x61 ≤ range.first + range.delta ∧
    (range.last + range.delta < 0x7F ∨ 0xA0 ≤ range.first + range.delta) ∧
    (range.last + range.delta < 0xD800 ∨
      (0xE000 ≤ range.first + range.delta ∧ range.last + range.delta ≤ 0x10FFFF))

instance (range : CaseRange) : Decidable range.WellFormed :=
  inferInstanceAs (Decidable (_ ∧ _ ∧ _))

theorem lowerRanges_wellFormed : ∀ range ∈ lowerRanges, range.WellFormed := by
  decide +kernel

variable {rune : Nat}

theorem CaseRange.covers_iff {range : CaseRange} :
    range.covers rune = true ↔
      range.first ≤ rune ∧ rune ≤ range.last ∧ (rune - range.first) % range.stride = 0 := by
  simp [CaseRange.covers]

/-- Lower-casing leaves a rune alone or yields an encodable one that is not a control. -/
theorem toLower_cases (rune : Nat) :
    toLower rune = rune ∨ (IsScalar (toLower rune) ∧ isControl (toLower rune) = false) := by
  unfold toLower
  split
  next hascii =>
      split
      next hupper =>
          refine Or.inr ⟨Or.inl (by omega), ?_⟩
          simp only [isControl, decide_eq_false_iff_not]
          omega
      next => exact Or.inl rfl
  next =>
      split
      next range hfind =>
          obtain ⟨hlow, hcontrol, hscalar⟩ :=
            lowerRanges_wellFormed range (List.mem_of_find?_eq_some hfind)
          have hfound : range.covers rune = true := by
            simpa using List.find?_some hfind
          have hcovers := CaseRange.covers_iff.mp hfound
          refine Or.inr ⟨?_, ?_⟩
          · unfold IsScalar
            omega
          · simp only [isControl, decide_eq_false_iff_not]
            omega
      next => exact Or.inl rfl

/-- The bytes of the widest rune outside ASCII that is lower-cased to the letter:
the dotted capital I has two, the Kelvin sign three. -/
def foldedWidth (letter : Nat) : Nat :=
  if letter = 0x69 then 2 else if letter = 0x6B then 3 else 0

theorem lowerRanges_to_ascii : ∀ range ∈ lowerRanges, range.first + range.delta < 0x80 →
    range.first = range.last ∧
      (encodeRune range.first).length ≤ foldedWidth (range.first + range.delta).toNat := by
  decide +kernel

/-- A rune that is lower-cased to a letter is a letter itself or one of the few
that fold to it. -/
theorem length_encodeRune_le (hlower : toLower rune < 0x80) :
    (encodeRune rune).length ≤ asciiCount (encodeRune rune) + foldedWidth (toLower rune) := by
  by_cases hascii : rune < 0x80
  · rw [asciiCount_encodeRune, if_pos hascii, encodeRune_ascii hascii, List.length_singleton]
    exact Nat.le_add_right ..
  · unfold toLower at hlower ⊢
    rw [if_neg hascii] at hlower ⊢
    cases hfind : lowerRanges.find? (fun range => range.covers rune) with
    | none =>
        rw [hfind] at hlower
        exact absurd hlower hascii
    | some range =>
        rw [hfind] at hlower
        simp only at hlower ⊢
        have hcovers := List.find?_some hfind
        rw [CaseRange.covers_iff] at hcovers
        obtain ⟨hsingle, hwidth⟩ :=
          lowerRanges_to_ascii range (List.mem_of_find?_eq_some hfind) (by omega)
        have hrune : rune = range.first := by omega
        subst hrune
        exact hwidth.trans (Nat.le_add_left ..)

theorem isScalar_toLower (hrune : IsScalar rune) : IsScalar (toLower rune) := by
  rcases toLower_cases rune with hsame | ⟨hscalar, -⟩
  · rwa [hsame]
  · exact hscalar

theorem isControl_toLower (hrune : isControl rune = false) : isControl (toLower rune) = false := by
  rcases toLower_cases rune with hsame | ⟨-, hcontrol⟩
  · rwa [hsame]
  · exact hcontrol

end Unicode

namespace Strings

/-- Rewrites a string rune by rune; `none` drops the rune, and an ill-formed
byte is seen, and written back, as the replacement rune. -/
def mapRunes (mapping : Nat → Option Nat) (text : GoString) : GoString :=
  encode ((runes text).filterMap mapping)

def toLower (text : GoString) : GoString :=
  mapRunes (fun rune => some (Unicode.toLower rune)) text

/-- Drops leading and trailing white space. -/
def trimSpace (text : GoString) : GoString :=
  (((segments text).dropWhile (fun segment => Unicode.isSpace segment.1)).rdropWhile
    (fun segment => Unicode.isSpace segment.1)).flatMap Prod.snd

/-- Drops the trailing bytes equal to `byte`. -/
def trimRight (byte : UInt8) (text : GoString) : GoString := text.rdropWhile (· == byte)

def hasPrefix (text start : GoString) : Bool := start.isPrefixOf text

def trimPrefix (text start : GoString) : GoString :=
  if hasPrefix text start then text.drop start.length else text

/-- What stands before and after the first occurrence of `separator`. -/
def cutByte (separator : UInt8) : GoString → Option (GoString × GoString)
  | [] => none
  | byte :: rest =>
      if byte = separator then some ([], rest)
      else (cutByte separator rest).map (fun (before, after) => (byte :: before, after))

/-- Splits at every occurrence of `separator`. -/
def split (separator : UInt8) (text : GoString) : List GoString := text.splitOn separator

/-- Splits at the first `count - 1` occurrences of `separator`. -/
def splitN (separator : UInt8) : Nat → GoString → List GoString
  | 0, _ => []
  | 1, text => [text]
  | count + 2, text =>
      match cutByte separator text with
      | none => [text]
      | some (before, after) => before :: splitN separator (count + 1) after

def join (separator : UInt8) (parts : List GoString) : GoString :=
  List.intercalate [separator] parts

/-- Replaces the occurrences of `old` from left to right. The first argument counts
the bytes that are left of an occurrence that was already replaced; `old` is not
empty. -/
def replaceFrom (old new : GoString) : Nat → GoString → GoString
  | _, [] => []
  | skip + 1, _ :: rest => replaceFrom old new skip rest
  | 0, byte :: rest =>
      if old.isPrefixOf (byte :: rest) then new ++ replaceFrom old new (old.length - 1) rest
      else byte :: replaceFrom old new 0 rest

def replaceAll (text old new : GoString) : GoString := replaceFrom old new 0 text

/-! ## Rewriting rune by rune -/

variable {mapping : Nat → Option Nat}

theorem isScalar_filterMap (hmapping : ∀ rune image, IsScalar rune → mapping rune = some image →
    IsScalar image) (text : GoString) :
    ∀ rune ∈ (runes text).filterMap mapping, IsScalar rune := by
  intro image himage
  obtain ⟨rune, hrune, hmapped⟩ := List.mem_filterMap.mp himage
  exact hmapping rune image (isScalar_of_mem_runes rune hrune) hmapped

theorem validString_mapRunes (hmapping : ∀ rune image, IsScalar rune →
    mapping rune = some image → IsScalar image) (text : GoString) :
    validString (mapRunes mapping text) = true :=
  validString_encode (isScalar_filterMap hmapping text)

theorem runes_mapRunes (hmapping : ∀ rune image, IsScalar rune →
    mapping rune = some image → IsScalar image) (text : GoString) :
    runes (mapRunes mapping text) = (runes text).filterMap mapping :=
  runes_encode (isScalar_filterMap hmapping text)

theorem isScalar_lowerMapping (rune image : Nat) (hrune : IsScalar rune)
    (himage : some (Unicode.toLower rune) = some image) : IsScalar image := by
  cases himage
  exact Unicode.isScalar_toLower hrune

theorem validString_toLower (text : GoString) : validString (toLower text) = true :=
  validString_mapRunes isScalar_lowerMapping text

theorem runes_toLower (text : GoString) :
    runes (toLower text) = (runes text).map Unicode.toLower := by
  rw [toLower, runes_mapRunes isScalar_lowerMapping, List.filterMap_eq_map']

variable {text : GoString}

/-- A string whose lower-cased form starts with ASCII letters starts with as many
runes that fold to them. -/
theorem exists_folded_front {start : GoString} (hascii : ∀ byte ∈ start, byte.toNat < 0x80)
    (hstart : hasPrefix (toLower text) start = true) :
    ∃ front back, runes text = front ++ back ∧
      front.map Unicode.toLower = start.map UInt8.toNat := by
  obtain ⟨rest, hrest⟩ := List.isPrefixOf_iff_prefix.mp hstart
  have hlower : (runes text).map Unicode.toLower = start.map UInt8.toNat ++ runes rest := by
    rw [← runes_toLower, ← hrest, ← runes_encode_append (isScalar_toNat_ascii hascii) rest,
      encode_toNat_ascii hascii]
  obtain ⟨front, back, hsplit, hfront, -⟩ := List.map_eq_append_iff.mp hlower
  exact ⟨front, back, hsplit, hfront⟩

theorem length_encode_le_of_folded {spelled letters : List Nat}
    (hfolded : spelled.map Unicode.toLower = letters) (hascii : ∀ letter ∈ letters, letter < 0x80) :
    (encode spelled).length ≤
      asciiCount (encode spelled) + (letters.map Unicode.foldedWidth).sum := by
  induction spelled generalizing letters with
  | nil => simp
  | cons rune rest ih =>
      subst hfolded
      rw [List.map_cons, List.forall_mem_cons] at hascii
      have hrest := ih rfl hascii.2
      have hrune := Unicode.length_encodeRune_le hascii.1
      rw [encode_cons, List.length_append, asciiCount_append, List.map_cons, List.map_cons,
        List.sum_cons]
      omega

/-! ## Trimming -/

/-- Trimming a valid string keeps a contiguous block of its runes. -/
theorem trimSpace_encode (hvalid : validString text = true) :
    trimSpace text = encode (((runes text).dropWhile Unicode.isSpace).rdropWhile
      Unicode.isSpace) := by
  have hsegments := segments_encode (@isScalar_of_mem_runes text)
  rw [encode_runes hvalid] at hsegments
  rw [trimSpace, hsegments, List.dropWhile_map]
  simp only [Function.comp_def, List.rdropWhile, ← List.map_reverse, List.dropWhile_map]
  rw [List.flatMap_map]
  rfl

theorem mem_trimmed {spelled : List Nat} {rune : Nat}
    (hrune : rune ∈ (spelled.dropWhile Unicode.isSpace).rdropWhile Unicode.isSpace) :
    rune ∈ spelled :=
  (List.dropWhile_suffix _).subset ((List.rdropWhile_prefix _ _).subset hrune)

theorem isScalar_trimmed (text : GoString) : ∀ rune ∈
    ((runes text).dropWhile Unicode.isSpace).rdropWhile Unicode.isSpace, IsScalar rune :=
  fun rune hrune => isScalar_of_mem_runes rune (mem_trimmed hrune)

theorem runes_trimSpace (hvalid : validString text = true) :
    runes (trimSpace text) =
      ((runes text).dropWhile Unicode.isSpace).rdropWhile Unicode.isSpace := by
  rw [trimSpace_encode hvalid]
  exact runes_encode (isScalar_trimmed text)

/-! ## Replacing and cutting -/

section Replace

variable {old new rest : GoString} {byte first : UInt8}

/-- An occurrence is replaced as a whole. -/
theorem replaceAll_append (hold : old ≠ []) :
    replaceAll (old ++ rest) old new = new ++ replaceAll rest old new := by
  have hskip : ∀ (skipped : GoString), replaceFrom old new skipped.length (skipped ++ rest) =
      replaceFrom old new 0 rest := by
    intro skipped
    induction skipped with
    | nil => rfl
    | cons byte skipped ih => exact ih
  cases old with
  | nil => exact absurd rfl hold
  | cons byte tail =>
      have hstarts : (byte :: tail).isPrefixOf (byte :: (tail ++ rest)) = true :=
        List.isPrefixOf_iff_prefix.mpr ⟨rest, rfl⟩
      rw [replaceAll, List.cons_append, replaceFrom, if_pos hstarts]
      congr 1
      exact hskip tail

/-- A byte where no occurrence starts stays. -/
theorem replaceAll_cons (hstarts : old.isPrefixOf (byte :: rest) = false) :
    replaceAll (byte :: rest) old new = byte :: replaceAll rest old new := by
  rw [replaceAll, replaceFrom, hstarts]
  rfl

/-- No occurrence starts at another byte than the first one of `old`. -/
theorem replaceAll_cons_of_ne {tail : GoString} (hne : byte ≠ first) :
    replaceAll (byte :: rest) (first :: tail) new =
      byte :: replaceAll rest (first :: tail) new := by
  apply replaceAll_cons
  simp [List.isPrefixOf, hne.symm]

/-- Replacing a single byte rewrites the text byte by byte. -/
theorem replaceAll_byte (text : GoString) :
    replaceAll text [first] new =
      text.flatMap (fun byte => if byte = first then new else [byte]) := by
  induction text with
  | nil => rfl
  | cons byte rest ih =>
      by_cases hsame : byte = first
      · subst hsame
        rw [← List.singleton_append, replaceAll_append (List.cons_ne_nil byte []), ih]
        simp
      · rw [replaceAll_cons_of_ne hsame, ih]
        simp [hsame]

/-- The text is cut at the first separator. -/
theorem cutByte_append {before after : GoString} (hbefore : byte ∉ before) :
    cutByte byte (before ++ byte :: after) = some (before, after) := by
  induction before with
  | nil => simp [cutByte]
  | cons head tail ih =>
      rw [List.mem_cons, not_or] at hbefore
      rw [List.cons_append, cutByte, if_neg (Ne.symm hbefore.1), ih hbefore.2]
      rfl

theorem cutByte_eq_none {text : GoString} (htext : byte ∉ text) : cutByte byte text = none := by
  induction text with
  | nil => rfl
  | cons head tail ih =>
      rw [List.mem_cons, not_or] at htext
      rw [cutByte, if_neg (Ne.symm htext.1), ih htext.2]
      rfl

/-- There are as many parts as separators allow, up to the limit. -/
theorem length_splitN (byte : UInt8) (limit : Nat) (text : GoString) :
    (splitN byte (limit + 1) text).length = min limit (text.count byte) + 1 := by
  induction limit generalizing text with
  | zero => simp [splitN]
  | succ limit ih =>
      by_cases hmem : byte ∈ text
      · obtain ⟨before, after, rfl, hbefore⟩ := List.eq_append_cons_of_mem hmem
        rw [splitN, cutByte_append hbefore, List.length_cons, ih, List.count_append,
          List.count_eq_zero.mpr hbefore, List.count_cons_self]
        omega
      · rw [splitN, cutByte_eq_none hmem, List.count_eq_zero.mpr hmem]
        rfl

end Replace

end Strings

end Go
