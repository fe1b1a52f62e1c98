import TopologyExporter.GoLib.Strings

/-! # Numbers in text

Decimal and hexadecimal conversions between integers and strings. Integers are
64 bits wide: a decimal numeral outside that range does not parse.
-/

namespace Go.Strconv

open Utf8

def minInt : Int := -2 ^ 63

def maxInt : Int := 2 ^ 63 - 1

/-- Whether an integer fits the machine word. -/
def InRange (value : Int) : Prop := minInt ≤ value ∧ value ≤ maxInt

instance (value : Int) : Decidable (InRange value) := inferInstanceAs (Decidable (_ ∧ _))

def decimalDigit (byte : UInt8) : Option Nat :=
  if 0x30 ≤ byte.toNat ∧ byte.toNat ≤ 0x39 then some (byte.toNat - 0x30) else none

/-- The value of a non-empty run of decimal digits. -/
def parseDigits (text : GoString) : Option Nat :=
  if text = [] then none
  else text.foldlM (fun value byte => (decimalDigit byte).map (value * 10 + ·)) 0

def rangeChecked (value : Int) : Option Int := if InRange value then some value else none

/-- Parses an optionally signed decimal numeral. -/
def atoi : GoString → Option Int
  | 0x2B :: digits => (parseDigits digits).bind (fun value => rangeChecked value)
  | 0x2D :: digits => (parseDigits digits).bind (fun value => rangeChecked (-value))
  | digits => (parseDigits digits).bind (fun value => rangeChecked value)

def natToDecimal (value : Nat) : GoString :=
  (Nat.toDigits 10 value).map (fun digit => UInt8.ofNat digit.toNat)

/-- The decimal numeral of an integer. -/
def itoa (value : Int) : GoString :=
  if value < 0 then 0x2D :: natToDecimal value.natAbs else natToDecimal value.natAbs

def hexDigit (value : Nat) : UInt8 :=
  if value < 10 then UInt8.ofNat (0x30 + value) else UInt8.ofNat (0x57 + value)

/-- Two lower-case hexadecimal digits for each byte. -/
def hexEncode (bytes : List UInt8) : GoString :=
  bytes.flatMap (fun byte => [hexDigit (byte.toNat / 16), hexDigit (byte.toNat % 16)])

/-- The value of one hexadecimal digit, in either case. -/
def hexValue (byte : UInt8) : Option Nat :=
  if 0x30 ≤ byte.toNat ∧ byte.toNat ≤ 0x39 then some (byte.toNat - 0x30)
  else if 0x61 ≤ byte.toNat ∧ byte.toNat ≤ 0x66 then some (byte.toNat - 0x57)
  else if 0x41 ≤ byte.toNat ∧ byte.toNat ≤ 0x46 then some (byte.toNat - 0x37)
  else none

/-! ## What the numerals look like -/

variable {value : Int}

theorem inRange_of_rangeChecked {result : Int} (hresult : rangeChecked value = some result) :
    InRange result := by
  unfold rangeChecked at hresult
  split at hresult
  next hrange =>
      cases hresult
      exact hrange
  next => cases hresult

theorem atoi_inRange {text : GoString} (hvalue : atoi text = some value) : InRange value := by
  unfold atoi at hvalue
  split at hvalue <;>
    · obtain ⟨digits, -, hresult⟩ := Option.bind_eq_some_iff.mp hvalue
      exact inRange_of_rangeChecked hresult

/-- A number of digits without a sign parses to its value when that fits. -/
theorem atoi_of_parseDigits {text : GoString} {value : Nat}
    (hvalue : parseDigits text = some value) :
    atoi text = rangeChecked value := by
  cases text with
  | nil => cases hvalue
  | cons first rest =>
      have hdigit : decimalDigit first ≠ none := by
        intro hnone
        simp [parseDigits, hnone] at hvalue
      have hplus : first ≠ 0x2B := fun heq => hdigit (heq ▸ rfl)
      have hminus : first ≠ 0x2D := fun heq => hdigit (heq ▸ rfl)
      rw [atoi, hvalue, Option.bind_some]
      · exact fun digits heq => hplus (List.cons.inj heq).1
      · exact fun digits heq => hminus (List.cons.inj heq).1

/-- A list parses when each of its items does. -/
theorem mapM_eq_some_iff {Item Result : Type} {parse : Item → Option Result} {items : List Item}
    {results : List Result} :
    items.mapM parse = some results ↔
      List.Forall₂ (fun item result => parse item = some result) items results := by
  induction items generalizing results with
  | nil => simp [eq_comm]
  | cons item rest ih =>
      simp only [List.mapM_cons, Option.bind_eq_bind, Option.bind_eq_some_iff, Option.pure_def,
        Option.some.injEq, ih, List.forall₂_cons_left_iff]
      constructor
      · rintro ⟨result, hresult, others, hothers, rfl⟩
        exact ⟨result, others, hresult, hothers, rfl⟩
      · rintro ⟨result, others, hresult, hothers, rfl⟩
        exact ⟨result, hresult, others, hothers, rfl⟩

/-- A byte that stands for itself in text: ASCII and no control character. -/
def Graphic (byte : UInt8) : Prop := 0x20 ≤ byte.toNat ∧ byte.toNat < 0x7F

instance (byte : UInt8) : Decidable (Graphic byte) := inferInstanceAs (Decidable (_ ∧ _))

theorem graphic_natToDecimal (value : Nat) : ∀ byte ∈ natToDecimal value, Graphic byte := by
  intro byte hbyte
  obtain ⟨digit, hdigit, rfl⟩ := List.mem_map.mp hbyte
  have hisDigit := Nat.isDigit_of_mem_toDigits (by decide) (by decide) hdigit
  simp only [Char.isDigit, Bool.and_eq_true, decide_eq_true_eq, ge_iff_le] at hisDigit
  have hlow : 48 ≤ digit.toNat := hisDigit.1
  have hhigh : digit.toNat ≤ 57 := hisDigit.2
  unfold Graphic
  rw [toNat_ofNat (by omega)]
  omega

theorem natToDecimal_length {value digits : Nat} (hdigits : 0 < digits)
    (hvalue : value < 10 ^ digits) : (natToDecimal value).length ≤ digits := by
  rw [natToDecimal, List.length_map]
  exact (Nat.length_toDigits_le_iff (by decide) hdigits).mpr hvalue

theorem graphic_itoa (value : Int) : ∀ byte ∈ itoa value, Graphic byte := by
  unfold itoa
  split
  · rw [List.forall_mem_cons]
    exact ⟨by decide, graphic_natToDecimal _⟩
  · exact graphic_natToDecimal _

theorem itoa_length (hvalue : InRange value) : (itoa value).length ≤ 20 := by
  have hdigits : (natToDecimal value.natAbs).length ≤ 19 := by
    refine natToDecimal_length (by decide) ?_
    simp only [InRange, minInt, maxInt] at hvalue
    omega
  unfold itoa
  split
  · rw [List.length_cons]
    omega
  · omega

theorem graphic_hexDigit {value : Nat} (hvalue : value < 16) : Graphic (hexDigit value) := by
  unfold Graphic hexDigit
  split
  · rw [toNat_ofNat (by omega)]
    omega
  · rw [toNat_ofNat (by omega)]
    omega

theorem graphic_hexEncode (bytes : List UInt8) : ∀ byte ∈ hexEncode bytes, Graphic byte := by
  intro digit hdigit
  obtain ⟨byte, -, hmem⟩ := List.mem_flatMap.mp hdigit
  have hbyte := byte.toNat_lt
  simp only [List.mem_cons, List.not_mem_nil, or_false] at hmem
  rcases hmem with rfl | rfl
  · exact graphic_hexDigit (by omega)
  · exact graphic_hexDigit (by omega)

theorem hexEncode_length (bytes : List UInt8) : (hexEncode bytes).length = 2 * bytes.length := by
  induction bytes with
  | nil => rfl
  | cons byte rest ih =>
      simp only [hexEncode, List.flatMap_cons, List.length_append, List.length_cons,
        List.length_nil] at ih ⊢
      omega

example : atoi (str "-12") = some (-12) ∧ atoi (str "+") = none ∧ itoa (-12) = str "-12" := by
  decide

end Go.Strconv
