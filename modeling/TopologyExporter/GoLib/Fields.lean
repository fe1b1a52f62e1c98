import TopologyExporter.GoLib.Decimal

/-! # Fields of a text

A text is cut at the runes that separate its fields. Where only the bytes of
ASCII can belong to a field the cut is one of bytes, and the fields are the
maximal runs of bytes that do not separate.
-/

namespace Go.Strings

open Utf8 Strconv

def contains (text part : GoString) : Bool := decide (part <:+: text)

/-- A field that has been read so far is kept unless it is empty. -/
def keepField (held : GoString) : List GoString := if held = [] then [] else [held]

def fieldsFrom (separates : Nat → Bool) : GoString → List (Nat × GoString) → List GoString
  | held, [] => keepField held
  | held, (rune, bytes) :: rest =>
      if separates rune then keepField held ++ fieldsFrom separates [] rest
      else fieldsFrom separates (held ++ bytes) rest

/-- The fields of a text, which the runes that satisfy the predicate separate. -/
def fieldsFunc (separates : Nat → Bool) (text : GoString) : List GoString :=
  fieldsFrom separates [] (segments text)

/-! ## Pieces between separating bytes -/

/-- The non-empty pieces that are left when a text is cut at every separating byte. -/
def pieces (separates : UInt8 → Bool) (text : GoString) : List GoString :=
  (text.splitOnP separates).filter (fun piece => piece ≠ [])

section Pieces

variable {separates : UInt8 → Bool} {byte : UInt8} {text : GoString}

@[simp] theorem pieces_nil : pieces separates [] = [] := by
  rw [pieces, List.splitOnP_nil]
  rfl

theorem pieces_append_cons (hbyte : separates byte = true) (front back : GoString) :
    pieces separates (front ++ byte :: back) = pieces separates front ++ pieces separates back := by
  rw [pieces, List.splitOnP_append_cons front back hbyte, List.filter_append]
  rfl

/-- A text without separating bytes is one piece. -/
theorem pieces_eq_keepField (htext : ∀ byte ∈ text, separates byte = false) :
    pieces separates text = keepField text := by
  rw [pieces, List.splitOnP_eq_singleton htext]
  by_cases hnil : text = [] <;> simp [keepField, hnil]

theorem pieces_separators_append {front : GoString}
    (hfront : ∀ byte ∈ front, separates byte = true) (back : GoString) :
    pieces separates (front ++ back) = pieces separates back := by
  induction front with
  | nil => rfl
  | cons byte rest ih =>
      rw [List.forall_mem_cons] at hfront
      have hcut := pieces_append_cons hfront.1 [] (rest ++ back)
      rw [List.nil_append, pieces_nil, List.nil_append] at hcut
      rw [List.cons_append, hcut]
      exact ih hfront.2

/-- Separating bytes in the middle cut a text in two. -/
theorem pieces_append_separators {middle : GoString} (hne : middle ≠ [])
    (hmiddle : ∀ byte ∈ middle, separates byte = true) (front back : GoString) :
    pieces separates (front ++ (middle ++ back)) =
      pieces separates front ++ pieces separates back := by
  obtain ⟨byte, rest, rfl⟩ := List.exists_cons_of_ne_nil hne
  rw [List.forall_mem_cons] at hmiddle
  rw [List.cons_append, pieces_append_cons hmiddle.1, pieces_separators_append hmiddle.2]

theorem pieces_join (hbyte : separates byte = true) {parts : List GoString}
    (hparts : ∀ part ∈ parts, part ≠ [] ∧ ∀ byte ∈ part, separates byte = false) :
    pieces separates (join byte parts) = parts := by
  induction parts with
  | nil => exact pieces_nil
  | cons part rest ih =>
      rw [List.forall_mem_cons] at hparts
      have hpart : pieces separates part = [part] := by
        rw [pieces_eq_keepField hparts.1.2, keepField, if_neg hparts.1.1]
      cases rest with
      | nil =>
          rw [join, List.intercalate_singleton]
          exact hpart
      | cons next rest =>
          rw [join, List.intercalate_cons_cons, List.append_assoc, List.singleton_append,
            pieces_append_cons hbyte, hpart]
          exact congrArg (part :: ·) (ih hparts.2)

/-- A text has no separating byte, or a first one. -/
theorem exists_first_separator (separates : UInt8 → Bool) (text : GoString) :
    (∀ byte ∈ text, separates byte = false) ∨
      ∃ front byte back, text = front ++ byte :: back ∧ separates byte = true ∧
        ∀ byte ∈ front, separates byte = false := by
  induction text with
  | nil => exact Or.inl (fun _ hbyte => absurd hbyte List.not_mem_nil)
  | cons first rest ih =>
      cases hfirst : separates first with
      | true => exact Or.inr ⟨[], first, rest, rfl, hfirst, by simp⟩
      | false =>
          rcases ih with hnone | ⟨front, byte, back, hsplit, hbyte, hfront⟩
          · exact Or.inl (List.forall_mem_cons.mpr ⟨hfirst, hnone⟩)
          · refine Or.inr ⟨first :: front, byte, back, ?_, hbyte, ?_⟩
            · rw [hsplit, List.cons_append]
            · exact List.forall_mem_cons.mpr ⟨hfirst, hfront⟩

/-- The piece stands in the text and reaches from separator to separator. -/
def StandsAlone (separates : UInt8 → Bool) (piece text : GoString) : Prop :=
  ∃ front back, text = front ++ (piece ++ back) ∧
    (∀ byte ∈ front.getLast?, separates byte = true) ∧
    ∀ byte ∈ back.head?, separates byte = true

theorem StandsAlone.append_right {piece : GoString} (hstands : StandsAlone separates piece text)
    (hbyte : separates byte = true) (front : GoString) :
    StandsAlone separates piece (front ++ byte :: text) := by
  obtain ⟨before, after, rfl, hbefore, hafter⟩ := hstands
  refine ⟨front ++ byte :: before, after, by simp, ?_, hafter⟩
  intro last hlast
  cases before with
  | nil =>
      rw [List.getLast?_concat, Option.mem_some_iff] at hlast
      rw [← hlast]
      exact hbyte
  | cons first rest =>
      rw [List.getLast?_append_of_ne_nil _ (List.cons_ne_nil _ _), List.getLast?_cons_cons] at hlast
      exact hbefore last hlast

/-- The pieces are the maximal runs of bytes that do not separate. -/
theorem mem_pieces_iff {piece : GoString} :
    piece ∈ pieces separates text ↔
      piece ≠ [] ∧ (∀ byte ∈ piece, separates byte = false) ∧ StandsAlone separates piece text := by
  constructor
  · intro hpiece
    -- Cut off what stands before the first separator.
    induction hlength : text.length using Nat.strong_induction_on generalizing text with
    | _ length ih =>
        subst hlength
        rcases exists_first_separator separates text with
          hnone | ⟨front, byte, back, rfl, hbyte, hfront⟩
        · rw [pieces_eq_keepField hnone, keepField] at hpiece
          split at hpiece
          next => cases hpiece
          next hne =>
            rw [List.mem_singleton] at hpiece
            subst hpiece
            exact ⟨hne, hnone, [], [], by simp, by simp, by simp⟩
        · rw [pieces_append_cons hbyte, List.mem_append, pieces_eq_keepField hfront,
            keepField] at hpiece
          rcases hpiece with hpiece | hpiece
          · split at hpiece
            next => cases hpiece
            next hne =>
              rw [List.mem_singleton] at hpiece
              subst hpiece
              refine ⟨hne, hfront, [], byte :: back, rfl, by simp, ?_⟩
              intro first hfirst
              rw [List.head?_cons, Option.mem_some_iff] at hfirst
              rw [← hfirst]
              exact hbyte
          · have hshorter : back.length < (front ++ byte :: back).length := by
              rw [List.length_append, List.length_cons]
              omega
            obtain ⟨hne, hkept, hstands⟩ := ih back.length hshorter hpiece rfl
            exact ⟨hne, hkept, hstands.append_right hbyte front⟩
  · intro ⟨hne, hkept, front, back, htext, hfront, hback⟩
    have hpiece : piece ∈ pieces separates (piece ++ back) := by
      have halone : piece ∈ pieces separates piece := by
        rw [pieces_eq_keepField hkept, keepField, if_neg hne]
        exact List.mem_singleton_self piece
      cases back with
      | nil => rwa [List.append_nil]
      | cons byte back =>
          rw [pieces_append_cons (hback byte rfl)]
          exact List.mem_append_left _ halone
    rw [htext]
    rcases List.eq_nil_or_concat front with rfl | ⟨before, byte, rfl⟩
    · exact hpiece
    · have hbyte : separates byte = true := hfront byte (by simp)
      rw [List.concat_eq_append, List.append_assoc, List.singleton_append,
        pieces_append_cons hbyte]
      exact List.mem_append_right _ hpiece

end Pieces

/-- Where every rune outside ASCII separates, the fields are pieces. -/
theorem fieldsFunc_eq_pieces {separates : Nat → Bool}
    (hseparates : ∀ rune, 0x80 ≤ rune → separates rune = true) (text : GoString) :
    fieldsFunc separates text = pieces (fun byte => separates byte.toNat) text := by
  have hfields : ∀ held : GoString, (∀ byte ∈ held, separates byte.toNat = false) →
      fieldsFrom separates held (segments text) =
        pieces (fun byte => separates byte.toNat) (held ++ text) := by
    induction text using Utf8.induction with
    | nil =>
        intro held hheld
        rw [List.append_nil, pieces_eq_keepField hheld]
        rfl
    | rune rune tail hscalar ih =>
        intro held hheld
        rw [segments_encodeRune_append hscalar, fieldsFrom]
        split
        next hseparator =>
          have hbytes : ∀ byte ∈ encodeRune rune, separates byte.toNat = true := by
            rcases lt_or_ge rune 0x80 with hascii | hwide
            · rw [encodeRune_ascii hascii, List.forall_mem_singleton, toNat_ofNat (by omega)]
              exact hseparator
            · exact fun byte hbyte => hseparates _ (encodeRune_bytes hwide byte hbyte)
          rw [pieces_append_separators (encodeRune_ne_nil rune) hbytes,
            pieces_eq_keepField hheld, ih [] (by simp), List.nil_append]
        next hkept =>
          have hascii : rune < 0x80 := by
            by_contra hwide
            exact hkept (hseparates rune (not_lt.mp hwide))
          rw [encodeRune_ascii hascii, ih, List.append_assoc]
          rw [List.forall_mem_append, List.forall_mem_singleton, toNat_ofNat (by omega)]
          exact ⟨hheld, Bool.eq_false_iff.mpr hkept⟩
    | invalid byte tail hinvalid ih =>
        intro held hheld
        have hbyte : separates byte.toNat = true := hseparates _ (le_of_decodeRune_invalid hinvalid)
        rw [segments_invalid_cons hinvalid, fieldsFrom, if_pos (hseparates _ (by decide)),
          pieces_append_cons hbyte, pieces_eq_keepField hheld, ih [] (by simp), List.nil_append]
  exact hfields [] (by simp)

/-! ## Lower case -/

theorem toLower_ascii_append {front : GoString} (hascii : ∀ byte ∈ front, byte.toNat < 0x80)
    (back : GoString) : toLower (front ++ back) = toLower front ++ toLower back := by
  have hrunes : runes (front ++ back) = runes front ++ runes back := by
    have happend := runes_encode_append (isScalar_toNat_ascii hascii) back
    rwa [encode_toNat_ascii hascii, ← runes_ascii hascii] at happend
  rw [toLower, mapRunes, hrunes, List.filterMap_append, encode_append]
  rfl

/-- ASCII without capital letters is in lower case. -/
theorem toLower_eq_self {text : GoString}
    (htext : ∀ byte ∈ text, byte.toNat < 0x80 ∧ ¬ (0x41 ≤ byte.toNat ∧ byte.toNat ≤ 0x5A)) :
    toLower text = text := by
  have hascii : ∀ byte ∈ text, byte.toNat < 0x80 := fun byte hbyte => (htext byte hbyte).1
  have hlower : (text.map UInt8.toNat).map Unicode.toLower = text.map UInt8.toNat := by
    rw [List.map_map]
    apply List.map_congr_left
    intro byte hbyte
    rw [Function.comp_apply, Unicode.toLower, if_pos (htext byte hbyte).1,
      if_neg (htext byte hbyte).2]
  rw [toLower, mapRunes, List.filterMap_eq_map', runes_ascii hascii, hlower,
    encode_toNat_ascii hascii]

end Go.Strings
