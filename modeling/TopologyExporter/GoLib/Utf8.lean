import Mathlib

/-! # Byte strings and UTF-8

A string is a finite sequence of bytes; nothing guarantees that the bytes are
valid UTF-8. Iterating over a string decodes one rune at a time and reads an
ill-formed byte as the replacement rune, one byte wide. The definitions follow
the encoding of RFC 3629, the induction principle `Utf8.induction` splits a
string at its first rune.
-/

namespace Go

/-- A string is its bytes. Comparison is lexicographic on the bytes. -/
abbrev GoString := List UInt8

instance byteLinearOrder : LinearOrder UInt8 where
  le_refl := UInt8.le_refl
  le_trans _ _ _ := UInt8.le_trans
  lt_iff_le_not_ge a b := by
    rw [UInt8.lt_iff_toNat_lt, UInt8.le_iff_toNat_le, UInt8.le_iff_toNat_le]
    omega
  le_antisymm _ _ := UInt8.le_antisymm
  le_total := UInt8.le_total
  toDecidableLE := inferInstance
  toDecidableLT := inferInstance
  toDecidableEq := inferInstance

instance byteLawfulBEq : LawfulBEq UInt8 := inferInstance

instance goStringLawfulBEq : LawfulBEq GoString := inferInstance

/-- The bytes of a source-text literal. -/
def str (text : String) : GoString := text.toList.flatMap String.utf8EncodeChar

namespace Utf8

/-- U+FFFD, what decoding yields for an ill-formed byte. -/
def runeError : Nat := 0xFFFD

/-- The code points that have an encoding: everything but the surrogates. -/
def IsScalar (rune : Nat) : Prop := rune < 0xD800 ∨ (0xE000 ≤ rune ∧ rune ≤ 0x10FFFF)

instance (rune : Nat) : Decidable (IsScalar rune) :=
  inferInstanceAs (Decidable (rune < 0xD800 ∨ (0xE000 ≤ rune ∧ rune ≤ 0x10FFFF)))

/-- The encoding of one rune. A value that is not a code point is written as
the replacement rune. -/
def encodeRune (rune : Nat) : GoString :=
  if rune < 0x80 then [UInt8.ofNat rune]
  else if rune < 0x800 then [UInt8.ofNat (0xC0 + rune / 64), UInt8.ofNat (0x80 + rune % 64)]
  else if IsScalar rune then
    if rune < 0x10000 then
      [UInt8.ofNat (0xE0 + rune / 4096), UInt8.ofNat (0x80 + rune / 64 % 64),
        UInt8.ofNat (0x80 + rune % 64)]
    else
      [UInt8.ofNat (0xF0 + rune / 262144), UInt8.ofNat (0x80 + rune / 4096 % 64),
        UInt8.ofNat (0x80 + rune / 64 % 64), UInt8.ofNat (0x80 + rune % 64)]
  else [0xEF, 0xBF, 0xBD]

/-- The bytes that may follow `first`; narrower than the continuation range
where a wider one would admit overlong forms, surrogates or large values. -/
def secondOk (first second : Nat) : Prop :=
  (if first = 0xE0 then 0xA0 else if first = 0xF0 then 0x90 else 0x80) ≤ second ∧
    second ≤ (if first = 0xED then 0x9F else if first = 0xF4 then 0x8F else 0xBF)

instance (first second : Nat) : Decidable (secondOk first second) :=
  inferInstanceAs (Decidable (_ ∧ _))

def tailOk (byte : Nat) : Prop := 0x80 ≤ byte ∧ byte ≤ 0xBF

instance (byte : Nat) : Decidable (tailOk byte) := inferInstanceAs (Decidable (_ ∧ _))

/-- The first rune of a string and its width in bytes. -/
def decodeRune : GoString → Nat × Nat
  | [] => (runeError, 0)
  | a :: rest =>
      if a.toNat < 0x80 then (a.toNat, 1)
      else if a.toNat < 0xC2 ∨ 0xF4 < a.toNat then (runeError, 1)
      else match rest with
      | [] => (runeError, 1)
      | b :: rest =>
          if ¬ secondOk a.toNat b.toNat then (runeError, 1)
          else if a.toNat < 0xE0 then ((a.toNat - 0xC0) * 64 + (b.toNat - 0x80), 2)
          else match rest with
          | [] => (runeError, 1)
          | c :: rest =>
              if ¬ tailOk c.toNat then (runeError, 1)
              else if a.toNat < 0xF0 then
                ((a.toNat - 0xE0) * 4096 + (b.toNat - 0x80) * 64 + (c.toNat - 0x80), 3)
              else match rest with
              | [] => (runeError, 1)
              | d :: _ =>
                  if ¬ tailOk d.toNat then (runeError, 1)
                  else ((a.toNat - 0xF0) * 262144 + (b.toNat - 0x80) * 4096 +
                    (c.toNat - 0x80) * 64 + (d.toNat - 0x80), 4)

/-- The runes after the first `skip` bytes, each with the bytes it was read from. -/
def segmentsFrom : Nat → GoString → List (Nat × GoString)
  | _, [] => []
  | skip + 1, _ :: rest => segmentsFrom skip rest
  | 0, byte :: rest =>
      ((decodeRune (byte :: rest)).1, (byte :: rest).take (decodeRune (byte :: rest)).2) ::
        segmentsFrom ((decodeRune (byte :: rest)).2 - 1) rest

def segments (text : GoString) : List (Nat × GoString) := segmentsFrom 0 text

/-- The runes a range loop over the string visits. -/
def runes (text : GoString) : List Nat := (segments text).map Prod.fst

def validFrom : Nat → GoString → Bool
  | _, [] => true
  | skip + 1, _ :: rest => validFrom skip rest
  | 0, byte :: rest =>
      decide (decodeRune (byte :: rest) ≠ (runeError, 1)) &&
        validFrom ((decodeRune (byte :: rest)).2 - 1) rest

/-- Whether the bytes are well-formed UTF-8. -/
def validString (text : GoString) : Bool := validFrom 0 text

/-- Whether a byte can start a rune, that is, is not a continuation byte. -/
def runeStart (byte : UInt8) : Bool := decide (byte.toNat < 0x80 ∨ 0xC0 ≤ byte.toNat)

/-- The string spelled by a sequence of runes. -/
def encode (runes : List Nat) : GoString := runes.flatMap encodeRune

/-! ## Encoding and decoding one rune -/

variable {value rune : Nat} {byte : UInt8} {tail text : GoString} {spelled : List Nat}

theorem toNat_ofNat (hvalue : value < 256) : (UInt8.ofNat value).toNat = value := by
  simp [Nat.mod_eq_of_lt hvalue]

theorem encodeRune_ne_nil (rune : Nat) : encodeRune rune ≠ [] := by
  unfold encodeRune
  split_ifs <;> simp

theorem encodeRune_length_pos (rune : Nat) : 0 < (encodeRune rune).length :=
  List.length_pos_iff.mpr (encodeRune_ne_nil rune)

/-- Decoding reads back the rune that was written. -/
theorem decodeRune_encodeRune (hrune : IsScalar rune) (rest : GoString) :
    decodeRune (encodeRune rune ++ rest) = (rune, (encodeRune rune).length) := by
  have hbound : rune ≤ 0x10FFFF := by
    rcases hrune with h | h <;> omega
  unfold encodeRune
  split_ifs with h1 h2 h3
  · simp only [List.cons_append, List.nil_append, decodeRune, toNat_ofNat (by omega : rune < 256),
      if_pos h1, List.length_singleton]
  · simp only [List.cons_append, List.nil_append, decodeRune,
      toNat_ofNat (by omega : 0xC0 + rune / 64 < 256),
      toNat_ofNat (by omega : 0x80 + rune % 64 < 256)]
    rw [if_neg (by omega), if_neg (by omega), if_neg (by unfold secondOk; split_ifs <;> omega),
      if_pos (by omega)]
    simp only [List.length_cons, List.length_nil, Prod.mk.injEq, and_true]
    omega
  · simp only [List.cons_append, List.nil_append, decodeRune,
      toNat_ofNat (by omega : 0xE0 + rune / 4096 < 256),
      toNat_ofNat (by omega : 0x80 + rune / 64 % 64 < 256),
      toNat_ofNat (by omega : 0x80 + rune % 64 < 256)]
    rw [if_neg (by omega), if_neg (by omega),
      if_neg (by unfold secondOk; unfold IsScalar at hrune; split_ifs <;> omega),
      if_neg (by omega), if_neg (by unfold tailOk; omega), if_pos (by omega)]
    simp only [List.length_cons, List.length_nil, Prod.mk.injEq, and_true]
    omega
  · simp only [List.cons_append, List.nil_append, decodeRune,
      toNat_ofNat (by omega : 0xF0 + rune / 262144 < 256),
      toNat_ofNat (by omega : 0x80 + rune / 4096 % 64 < 256),
      toNat_ofNat (by omega : 0x80 + rune / 64 % 64 < 256),
      toNat_ofNat (by omega : 0x80 + rune % 64 < 256)]
    rw [if_neg (by omega), if_neg (by omega), if_neg (by unfold secondOk; split_ifs <;> omega),
      if_neg (by omega), if_neg (by unfold tailOk; omega), if_neg (by omega),
      if_neg (by unfold tailOk; omega)]
    simp only [List.length_cons, List.length_nil, Prod.mk.injEq, and_true]
    omega

theorem byte_eq_ofNat (byte : UInt8) (hvalue : byte.toNat = value) : byte = UInt8.ofNat value := by
  subst hvalue
  simp

theorem secondOk.tailOk {first second : Nat} (hsecond : secondOk first second) :
    tailOk second := by
  unfold secondOk at hsecond
  unfold Utf8.tailOk
  split_ifs at hsecond <;> omega

/-- A string that does not start with an ill-formed byte starts with the
encoding of a rune. -/
theorem decodeRune_cases (byte : UInt8) (rest : GoString) :
    decodeRune (byte :: rest) = (runeError, 1) ∨
      ∃ rune tail, IsScalar rune ∧ byte :: rest = encodeRune rune ++ tail := by
  simp only [decodeRune]
  split
  next h1 =>
      -- one byte
      refine Or.inr ⟨byte.toNat, rest, Or.inl (by omega), ?_⟩
      simp [encodeRune, h1]
  split
  next => exact Or.inl rfl
  next h1 h2 =>
  split
  next => exact Or.inl rfl
  next second rest =>
  split
  next => exact Or.inl rfl
  next h3 =>
  rw [not_not] at h3
  have htail2 := h3.tailOk
  unfold tailOk at htail2
  split
  next h4 =>
      -- two bytes
      refine Or.inr ⟨(byte.toNat - 0xC0) * 64 + (second.toNat - 0x80), rest,
        Or.inl (by omega), ?_⟩
      rw [encodeRune, if_neg (by omega), if_pos (by omega),
        ← byte_eq_ofNat byte (by omega), ← byte_eq_ofNat second (by omega)]
      rfl
  split
  next => exact Or.inl rfl
  next h4 third rest =>
  split
  next => exact Or.inl rfl
  next h5 =>
  rw [not_not] at h5
  unfold tailOk at h5
  split
  next h6 =>
      -- three bytes: the range of the second one excludes surrogates and overlong forms
      have hscalar : IsScalar ((byte.toNat - 0xE0) * 4096 + (second.toNat - 0x80) * 64 +
          (third.toNat - 0x80)) := by
        unfold secondOk at h3
        unfold IsScalar
        split_ifs at h3 <;> omega
      have hlow : 0x800 ≤ (byte.toNat - 0xE0) * 4096 + (second.toNat - 0x80) * 64 +
          (third.toNat - 0x80) := by
        unfold secondOk at h3
        split_ifs at h3 <;> omega
      refine Or.inr ⟨_, rest, hscalar, ?_⟩
      rw [encodeRune, if_neg (by omega), if_neg (by omega), if_pos hscalar, if_pos (by omega),
        ← byte_eq_ofNat byte (by omega), ← byte_eq_ofNat second (by omega),
        ← byte_eq_ofNat third (by omega)]
      rfl
  split
  next => exact Or.inl rfl
  next h6 fourth rest =>
  split
  next => exact Or.inl rfl
  next h7 =>
  rw [not_not] at h7
  unfold tailOk at h7
  -- four bytes: here it excludes overlong forms and what is beyond the last rune
  have hrange : 0x10000 ≤ (byte.toNat - 0xF0) * 262144 + (second.toNat - 0x80) * 4096 +
      (third.toNat - 0x80) * 64 + (fourth.toNat - 0x80) ∧
      (byte.toNat - 0xF0) * 262144 + (second.toNat - 0x80) * 4096 +
      (third.toNat - 0x80) * 64 + (fourth.toNat - 0x80) ≤ 0x10FFFF := by
    unfold secondOk at h3
    split_ifs at h3 <;> omega
  have hscalar : IsScalar ((byte.toNat - 0xF0) * 262144 + (second.toNat - 0x80) * 4096 +
      (third.toNat - 0x80) * 64 + (fourth.toNat - 0x80)) := Or.inr (by omega)
  refine Or.inr ⟨_, rest, hscalar, ?_⟩
  rw [encodeRune, if_neg (by omega), if_neg (by omega), if_pos hscalar, if_neg (by omega),
    ← byte_eq_ofNat byte (by omega), ← byte_eq_ofNat second (by omega),
    ← byte_eq_ofNat third (by omega), ← byte_eq_ofNat fourth (by omega)]
  rfl

/-! ## Splitting a string at its first rune -/

@[elab_as_elim]
theorem induction {motive : GoString → Prop} (nil : motive [])
    (rune : ∀ rune tail, IsScalar rune → motive tail → motive (encodeRune rune ++ tail))
    (invalid : ∀ byte tail, decodeRune (byte :: tail) = (runeError, 1) → motive tail →
      motive (byte :: tail))
    (text : GoString) : motive text := by
  induction hlength : text.length using Nat.strong_induction_on generalizing text with
  | _ length ih =>
      subst hlength
      match text with
      | [] => exact nil
      | byte :: rest =>
          rcases decodeRune_cases byte rest with hinvalid | ⟨first, tail, hscalar, hsplit⟩
          · exact invalid byte rest hinvalid (ih rest.length (by simp) rest rfl)
          · rw [hsplit]
            have hlt : tail.length < (byte :: rest).length := by
              rw [hsplit, List.length_append]
              have := encodeRune_length_pos first
              omega
            exact rune first tail hscalar (ih tail.length hlt tail rfl)

theorem segmentsFrom_append (skipped tail : GoString) :
    segmentsFrom skipped.length (skipped ++ tail) = segments tail := by
  induction skipped with
  | nil => rfl
  | cons byte skipped ih => simpa [segmentsFrom] using ih

theorem validFrom_append (skipped tail : GoString) :
    validFrom skipped.length (skipped ++ tail) = validString tail := by
  induction skipped with
  | nil => rfl
  | cons byte skipped ih => simpa [validFrom] using ih

@[simp] theorem runes_nil : runes [] = [] := rfl

@[simp] theorem validString_nil : validString [] = true := rfl

theorem segments_encodeRune_append (hrune : IsScalar rune) (tail : GoString) :
    segments (encodeRune rune ++ tail) = (rune, encodeRune rune) :: segments tail := by
  obtain ⟨byte, rest, hcons⟩ := List.exists_cons_of_ne_nil (encodeRune_ne_nil rune)
  have hdecode := decodeRune_encodeRune hrune tail
  have htake : (encodeRune rune ++ tail).take (encodeRune rune).length = encodeRune rune :=
    List.take_left
  rw [hcons, List.cons_append, List.length_cons] at hdecode htake
  rw [hcons, List.cons_append, segments, segmentsFrom, hdecode, Nat.add_sub_cancel, htake,
    segmentsFrom_append]

theorem segments_invalid_cons (hinvalid : decodeRune (byte :: tail) = (runeError, 1)) :
    segments (byte :: tail) = (runeError, [byte]) :: segments tail := by
  rw [segments, segmentsFrom, hinvalid]
  rfl

theorem runes_encodeRune_append (hrune : IsScalar rune) (tail : GoString) :
    runes (encodeRune rune ++ tail) = rune :: runes tail := by
  rw [runes, segments_encodeRune_append hrune, List.map_cons, runes]

theorem runes_invalid_cons (hinvalid : decodeRune (byte :: tail) = (runeError, 1)) :
    runes (byte :: tail) = runeError :: runes tail := by
  rw [runes, segments_invalid_cons hinvalid, List.map_cons, runes]

theorem validString_encodeRune_append (hrune : IsScalar rune) (tail : GoString) :
    validString (encodeRune rune ++ tail) = validString tail := by
  obtain ⟨byte, rest, hcons⟩ := List.exists_cons_of_ne_nil (encodeRune_ne_nil rune)
  have hdecode := decodeRune_encodeRune hrune tail
  have hne : decodeRune (encodeRune rune ++ tail) ≠ (runeError, 1) := by
    rw [decodeRune_encodeRune hrune]
    intro heq
    rw [Prod.mk.injEq] at heq
    rw [heq.1] at heq
    exact absurd heq.2 (by decide)
  rw [hcons, List.cons_append, List.length_cons] at hdecode
  rw [hcons, List.cons_append] at hne
  rw [hcons, List.cons_append, validString, validFrom, decide_eq_true hne, Bool.true_and, hdecode,
    Nat.add_sub_cancel, validFrom_append]

theorem validString_invalid_cons (hinvalid : decodeRune (byte :: tail) = (runeError, 1)) :
    validString (byte :: tail) = false := by
  simp [validString, validFrom, hinvalid]

theorem isScalar_runeError : IsScalar runeError := by decide

theorem isScalar_of_mem_runes {text : GoString} : ∀ rune ∈ runes text, IsScalar rune := by
  induction text using Utf8.induction with
  | nil => simp
  | rune first tail hscalar ih =>
      simpa [runes_encodeRune_append hscalar] using ⟨hscalar, ih⟩
  | invalid byte tail hinvalid ih =>
      simpa [runes_invalid_cons hinvalid] using ⟨isScalar_runeError, ih⟩

/-! ## Rune sequences -/

@[simp] theorem encode_nil : encode [] = [] := rfl

@[simp] theorem encode_cons (rune : Nat) (rest : List Nat) :
    encode (rune :: rest) = encodeRune rune ++ encode rest := rfl

theorem encode_append (front back : List Nat) :
    encode (front ++ back) = encode front ++ encode back := by
  simp [encode]

theorem length_le_length_encode (spelled : List Nat) :
    spelled.length ≤ (encode spelled).length := by
  induction spelled with
  | nil => exact Nat.zero_le _
  | cons rune rest ih =>
      have hrune := encodeRune_length_pos rune
      rw [encode_cons, List.length_append, List.length_cons]
      omega

theorem segments_encode (hscalar : ∀ rune ∈ spelled, IsScalar rune) :
    segments (encode spelled) = spelled.map (fun rune => (rune, encodeRune rune)) := by
  induction spelled with
  | nil => rfl
  | cons rune rest ih =>
      rw [List.forall_mem_cons] at hscalar
      rw [encode_cons, segments_encodeRune_append hscalar.1, ih hscalar.2, List.map_cons]

theorem runes_encode_append (hscalar : ∀ rune ∈ spelled, IsScalar rune) (tail : GoString) :
    runes (encode spelled ++ tail) = spelled ++ runes tail := by
  induction spelled with
  | nil => rfl
  | cons rune rest ih =>
      rw [List.forall_mem_cons] at hscalar
      rw [encode_cons, List.append_assoc, runes_encodeRune_append hscalar.1, ih hscalar.2,
        List.cons_append]

theorem runes_encode (hscalar : ∀ rune ∈ spelled, IsScalar rune) :
    runes (encode spelled) = spelled := by
  simpa using runes_encode_append hscalar []

theorem validString_encode_append (hscalar : ∀ rune ∈ spelled, IsScalar rune) (tail : GoString) :
    validString (encode spelled ++ tail) = validString tail := by
  induction spelled with
  | nil => rfl
  | cons rune rest ih =>
      rw [List.forall_mem_cons] at hscalar
      rw [encode_cons, List.append_assoc, validString_encodeRune_append hscalar.1, ih hscalar.2]

theorem validString_encode (hscalar : ∀ rune ∈ spelled, IsScalar rune) :
    validString (encode spelled) = true := by
  simpa using validString_encode_append hscalar []

/-- A valid string is spelled by its runes. -/
theorem encode_runes (hvalid : validString text = true) : encode (runes text) = text := by
  induction text using Utf8.induction with
  | nil => rfl
  | rune first tail hscalar ih =>
      rw [validString_encodeRune_append hscalar] at hvalid
      rw [runes_encodeRune_append hscalar, encode_cons, ih hvalid]
  | invalid byte tail hinvalid ih =>
      rw [validString_invalid_cons hinvalid] at hvalid
      exact absurd hvalid (by decide)

/-! ## ASCII -/

theorem encodeRune_ascii (hrune : rune < 0x80) : encodeRune rune = [UInt8.ofNat rune] := by
  rw [encodeRune, if_pos hrune]

theorem encodeRune_toNat (hbyte : byte.toNat < 0x80) : encodeRune byte.toNat = [byte] := by
  rw [encodeRune_ascii hbyte, UInt8.ofNat_toNat]

/-- Only ASCII runes are spelled with ASCII bytes. -/
theorem encodeRune_bytes (hrune : 0x80 ≤ rune) : ∀ byte ∈ encodeRune rune, 0x80 ≤ byte.toNat := by
  have hlead {base value : Nat} (hlow : 0x80 ≤ base + value) (hhigh : base + value < 256) :
      0x80 ≤ (UInt8.ofNat (base + value)).toNat := by
    rwa [toNat_ofNat hhigh]
  unfold encodeRune
  split_ifs with h1 h2 h3 h4
  · omega
  · simp only [List.forall_mem_cons, List.not_mem_nil, IsEmpty.forall_iff, implies_true, and_true]
    exact ⟨hlead (by omega) (by omega), hlead (by omega) (by omega)⟩
  · simp only [List.forall_mem_cons, List.not_mem_nil, IsEmpty.forall_iff, implies_true, and_true]
    exact ⟨hlead (by omega) (by omega), hlead (by omega) (by omega), hlead (by omega) (by omega)⟩
  · have hbound : rune ≤ 0x10FFFF := by
      rcases h3 with h | h <;> omega
    simp only [List.forall_mem_cons, List.not_mem_nil, IsEmpty.forall_iff, implies_true, and_true]
    exact ⟨hlead (by omega) (by omega), hlead (by omega) (by omega), hlead (by omega) (by omega),
      hlead (by omega) (by omega)⟩
  · simp

theorem le_of_decodeRune_invalid (hinvalid : decodeRune (byte :: tail) = (runeError, 1)) :
    0x80 ≤ byte.toNat := by
  by_contra hascii
  simp only [decodeRune, if_pos (Nat.lt_of_not_le hascii), Prod.mk.injEq, and_true] at hinvalid
  rw [hinvalid] at hascii
  exact hascii (by decide)

/-- An ASCII rune is read exactly where its byte stands. -/
theorem mem_runes_ascii (hrune : rune < 0x80) : rune ∈ runes text ↔ UInt8.ofNat rune ∈ text := by
  have hnat : (UInt8.ofNat rune).toNat = rune := toNat_ofNat (by omega)
  induction text using Utf8.induction with
  | nil => simp
  | rune first tail hscalar ih =>
      rw [runes_encodeRune_append hscalar, List.mem_cons, List.mem_append]
      refine or_congr ?_ ih
      constructor
      · rintro rfl
        simp [encodeRune_ascii hrune]
      · intro hmem
        by_cases hfirst : first < 0x80
        · rw [encodeRune_ascii hfirst, List.mem_singleton] at hmem
          rw [← hnat, hmem, toNat_ofNat (by omega)]
        · have := encodeRune_bytes (Nat.le_of_not_lt hfirst) _ hmem
          omega
  | invalid byte tail hinvalid ih =>
      rw [runes_invalid_cons hinvalid, List.mem_cons, List.mem_cons]
      refine or_congr ⟨?_, ?_⟩ ih
      · rintro rfl
        exact absurd hrune (by decide)
      · rintro rfl
        have := le_of_decodeRune_invalid hinvalid
        omega

/-- A text whose runes are all ASCII has no other bytes. -/
theorem toNat_mem_runes (hrunes : ∀ rune ∈ runes text, rune < 0x80) :
    ∀ byte ∈ text, byte.toNat ∈ runes text := by
  induction text using Utf8.induction with
  | nil => simp
  | rune first tail hscalar ih =>
      rw [runes_encodeRune_append hscalar] at hrunes ⊢
      rw [List.forall_mem_cons] at hrunes
      intro byte hbyte
      rw [encodeRune_ascii hrunes.1, List.singleton_append, List.mem_cons] at hbyte
      rcases hbyte with rfl | htail
      · rw [toNat_ofNat (by omega)]
        exact List.mem_cons_self ..
      · exact List.mem_cons_of_mem _ (ih hrunes.2 byte htail)
  | invalid byte tail hinvalid ih =>
      rw [runes_invalid_cons hinvalid, List.forall_mem_cons] at hrunes
      exact absurd hrunes.1 (by decide)

theorem encode_toNat_ascii (hascii : ∀ byte ∈ text, byte.toNat < 0x80) :
    encode (text.map UInt8.toNat) = text := by
  induction text with
  | nil => rfl
  | cons byte rest ih =>
      rw [List.forall_mem_cons] at hascii
      rw [List.map_cons, encode_cons, encodeRune_toNat hascii.1, ih hascii.2, List.singleton_append]

theorem isScalar_toNat_ascii (hascii : ∀ byte ∈ text, byte.toNat < 0x80) :
    ∀ rune ∈ text.map UInt8.toNat, IsScalar rune := by
  intro rune hrune
  obtain ⟨byte, hbyte, rfl⟩ := List.mem_map.mp hrune
  exact Or.inl (lt_trans (hascii byte hbyte) (by decide))

theorem validString_ascii (hascii : ∀ byte ∈ text, byte.toNat < 0x80) :
    validString text = true := by
  rw [← encode_toNat_ascii hascii]
  exact validString_encode (isScalar_toNat_ascii hascii)

theorem runes_ascii (hascii : ∀ byte ∈ text, byte.toNat < 0x80) :
    runes text = text.map UInt8.toNat := by
  conv_lhs => rw [← encode_toNat_ascii hascii]
  exact runes_encode (isScalar_toNat_ascii hascii)

/-- Only ASCII runes take a single byte. -/
theorem length_encodeRune_eq_one : (encodeRune rune).length = 1 ↔ rune < 0x80 := by
  unfold encodeRune
  split_ifs with h1 h2 h3 h4
  · simpa using h1
  · simpa using h1
  · simpa using h1
  · simpa using h1
  · simpa using h1

theorem length_encode_eq_iff :
    (encode spelled).length = spelled.length ↔ ∀ rune ∈ spelled, rune < 0x80 := by
  induction spelled with
  | nil => simp
  | cons rune rest ih =>
      have hrune := encodeRune_length_pos rune
      have hrest := length_le_length_encode rest
      rw [List.forall_mem_cons, ← ih, ← length_encodeRune_eq_one, encode_cons,
        List.length_append, List.length_cons]
      omega

/-- Cutting off a number of bytes cuts off as many runes exactly if these are all ASCII. -/
theorem drop_encode_eq_iff {front back : List Nat} :
    (encode (front ++ back)).drop front.length = encode back ↔ ∀ rune ∈ front, rune < 0x80 := by
  have hfront := length_le_length_encode front
  rw [← length_encode_eq_iff, encode_append]
  constructor
  · intro hcut
    have hlengths := congrArg List.length hcut
    rw [List.length_drop, List.length_append] at hlengths
    omega
  · intro hlength
    rw [← hlength, List.drop_left]

/-- The number of ASCII bytes of a string. -/
def asciiCount (text : GoString) : Nat := text.countP (fun byte => byte.toNat < 0x80)

theorem asciiCount_append (front back : GoString) :
    asciiCount (front ++ back) = asciiCount front + asciiCount back :=
  List.countP_append ..

theorem asciiCount_encodeRune (rune : Nat) :
    asciiCount (encodeRune rune) = if rune < 0x80 then 1 else 0 := by
  split_ifs with hrune
  · rw [encodeRune_ascii hrune, asciiCount, List.countP_singleton, toNat_ofNat (by omega),
      if_pos (decide_eq_true hrune)]
  · rw [asciiCount, List.countP_eq_zero]
    intro byte hbyte
    have hhigh := encodeRune_bytes (Nat.le_of_not_lt hrune) byte hbyte
    simpa using hhigh

/-- The ASCII bytes are the ASCII runes, ill-formed strings included. -/
theorem asciiCount_eq_countP_runes (text : GoString) :
    asciiCount text = (runes text).countP (fun rune => rune < 0x80) := by
  induction text using Utf8.induction with
  | nil => rfl
  | rune first tail hscalar ih =>
      rw [runes_encodeRune_append hscalar, asciiCount_append, asciiCount_encodeRune, ih,
        List.countP_cons, add_comm]
      simp only [decide_eq_true_eq]
  | invalid byte tail hinvalid ih =>
      have hhigh := le_of_decodeRune_invalid hinvalid
      rw [runes_invalid_cons hinvalid, List.countP_cons, ← ih, asciiCount, List.countP_cons,
        if_neg (by simpa using hhigh), if_neg (by decide), asciiCount]

/-- Cutting bytes off the front removes as many ASCII bytes, up to the other
bytes there are in the front. -/
theorem asciiCount_drop_le {front back : GoString} {count : Nat} (hcount : count ≤ front.length) :
    asciiCount ((front ++ back).drop count) + count + asciiCount front ≤
      asciiCount (front ++ back) + front.length := by
  have hrest : asciiCount (front.drop count) ≤ front.length - count := by
    rw [← List.length_drop]
    exact List.countP_le_length
  rw [List.drop_append_of_le_length hcount, asciiCount_append, asciiCount_append]
  omega

/-! ## Rune boundaries -/

theorem runeStart_ofNat (hvalue : value < 256) :
    runeStart (UInt8.ofNat value) = decide (value < 0x80 ∨ 0xC0 ≤ value) := by
  rw [runeStart, toNat_ofNat hvalue]

/-- Only the first byte of an encoded rune starts a rune. -/
theorem encodeRune_starts (rune : Nat) :
    ∃ lead tail, encodeRune rune = lead :: tail ∧ runeStart lead = true ∧
      ∀ byte ∈ tail, runeStart byte = false := by
  have hcontinuation (value : Nat) : runeStart (UInt8.ofNat (0x80 + value % 64)) = false := by
    rw [runeStart_ofNat (by omega), decide_eq_false_iff_not]
    omega
  unfold encodeRune
  split_ifs with h1 h2 h3 h4
  · refine ⟨_, _, rfl, ?_, by simp⟩
    rw [runeStart_ofNat (by omega)]
    exact decide_eq_true (by omega)
  · refine ⟨_, _, rfl, ?_, List.forall_mem_singleton.mpr (hcontinuation _)⟩
    rw [runeStart_ofNat (by omega)]
    exact decide_eq_true (by omega)
  · refine ⟨_, _, rfl, ?_, List.forall_mem_cons.mpr ⟨hcontinuation _,
      List.forall_mem_singleton.mpr (hcontinuation _)⟩⟩
    rw [runeStart_ofNat (by omega)]
    exact decide_eq_true (by omega)
  · refine ⟨_, _, rfl, ?_, List.forall_mem_cons.mpr ⟨hcontinuation _,
      List.forall_mem_cons.mpr ⟨hcontinuation _,
        List.forall_mem_singleton.mpr (hcontinuation _)⟩⟩⟩
    have hbound : rune ≤ 0x10FFFF := by
      rcases h3 with h | h <;> omega
    rw [runeStart_ofNat (by omega)]
    exact decide_eq_true (by omega)
  · exact ⟨0xEF, [0xBF, 0xBD], rfl, by decide, by simp [runeStart]⟩

/-- Every offset inside a spelled string falls into exactly one of its runes. -/
theorem exists_rune_at {offset : Nat} (hoffset : offset < (encode spelled).length) :
    ∃ front rune back, spelled = front ++ rune :: back ∧ (encode front).length ≤ offset ∧
      offset < (encode front).length + (encodeRune rune).length := by
  induction spelled generalizing offset with
  | nil => simp at hoffset
  | cons rune rest ih =>
      by_cases hfirst : offset < (encodeRune rune).length
      · exact ⟨[], rune, rest, rfl, by simp, by simpa using hfirst⟩
      · rw [encode_cons, List.length_append] at hoffset
        obtain ⟨front, found, back, rfl, hlow, hhigh⟩ :=
          @ih (offset - (encodeRune rune).length) (by omega)
        refine ⟨rune :: front, found, back, rfl, ?_, ?_⟩ <;>
          rw [encode_cons, List.length_append] <;> omega

/-- Inside one rune only the offset at its start is a rune boundary. -/
theorem runeStart_at {front back : List Nat} {offset : Nat} (hlow : (encode front).length ≤ offset)
    (hhigh : offset < (encode front).length + (encodeRune rune).length) :
    runeStart ((encode (front ++ rune :: back)).getD offset 0) =
      decide (offset = (encode front).length) := by
  obtain ⟨lead, tail, hsplit, hlead, htail⟩ := encodeRune_starts rune
  obtain ⟨inside, rfl⟩ := Nat.exists_eq_add_of_le hlow
  have hget : (encode (front ++ rune :: back)).getD ((encode front).length + inside) 0 =
      (encodeRune rune).getD inside 0 := by
    rw [encode_append, encode_cons, List.getD_append_right _ _ _ _ (by omega),
      Nat.add_sub_cancel_left, List.getD_append _ _ _ _ (by omega)]
  rw [hget, hsplit]
  cases inside with
  | zero => simpa using hlead
  | succ inside =>
      rw [hsplit, List.length_cons] at hhigh
      have hmem : tail.getD inside 0 ∈ tail := by
        rw [List.getD_eq_getElem _ _ (by omega)]
        exact List.getElem_mem _
      simpa using htail _ hmem

end Utf8

end Go
