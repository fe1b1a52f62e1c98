import TopologyExporter.GoLib.Strconv

/-! # Decimal numerals are read back

The numeral of a number consists of digits, and reading them yields the number.
-/

namespace Go.Strconv

theorem decimalDigit_ofNat {digit : Char} (hdigit : digit.isDigit = true) :
    decimalDigit (UInt8.ofNat digit.toNat) = some (digit.toNat - 0x30) := by
  simp only [Char.isDigit, Bool.and_eq_true, decide_eq_true_eq, ge_iff_le] at hdigit
  have hlow : 0x30 ≤ digit.toNat := hdigit.1
  have hhigh : digit.toNat ≤ 0x39 := hdigit.2
  rw [decimalDigit, Utf8.toNat_ofNat (by omega), if_pos ⟨hlow, hhigh⟩]

theorem isDigit_natToDecimal (value : Nat) :
    ∀ byte ∈ natToDecimal value, (decimalDigit byte).isSome = true := by
  intro byte hbyte
  obtain ⟨digit, hdigit, rfl⟩ := List.mem_map.mp hbyte
  rw [decimalDigit_ofNat (Nat.isDigit_of_mem_toDigits (by decide) (by decide) hdigit)]
  rfl

theorem parseDigits_natToDecimal (value : Nat) : parseDigits (natToDecimal value) = some value := by
  have hfold : ∀ (digits : List Char) (held : Nat), (∀ digit ∈ digits, digit.isDigit = true) →
      (digits.map (fun digit => UInt8.ofNat digit.toNat)).foldlM
        (fun value byte => (decimalDigit byte).map (value * 10 + ·)) held =
        some (Nat.ofDigitChars 10 digits held) := by
    intro digits
    induction digits with
    | nil => exact fun _ _ => rfl
    | cons digit rest ih =>
        intro held hdigits
        rw [List.map_cons, List.foldlM_cons,
          decimalDigit_ofNat (hdigits digit List.mem_cons_self), Option.map_some]
        rw [Nat.ofDigitChars_cons]
        have hrest := ih (held * 10 + (digit.toNat - 0x30))
          (fun other hother => hdigits other (List.mem_cons_of_mem _ hother))
        rw [mul_comm held 10] at hrest ⊢
        exact hrest
  have hne : natToDecimal value ≠ [] := by
    rw [natToDecimal, ne_eq, List.map_eq_nil_iff]
    exact Nat.toDigits_ne_nil
  have hvalue := hfold (Nat.toDigits 10 value) 0
    (fun digit hdigit => Nat.isDigit_of_mem_toDigits (by decide) (by decide) hdigit)
  rw [Nat.ofDigitChars_toDigits (by decide) (by decide)] at hvalue
  rw [parseDigits, if_neg hne]
  exact hvalue

theorem natToDecimal_injective : Function.Injective natToDecimal := by
  intro first second heq
  have hparse := parseDigits_natToDecimal first
  rw [heq, parseDigits_natToDecimal] at hparse
  exact (Option.some.inj hparse).symm

theorem parseDigits_concat {front : GoString} (hfront : front ≠ []) (byte : UInt8) :
    parseDigits (front ++ [byte]) = (parseDigits front).bind (fun value =>
      (decimalDigit byte).map (value * 10 + ·)) := by
  rw [parseDigits, parseDigits, if_neg hfront, if_neg (by simp), List.foldlM_append]
  cases List.foldlM (fun value byte => (decimalDigit byte).map (value * 10 + ·)) 0 front with
  | none => rfl
  | some value => simp

/-- A digit is the numeral of its value. -/
theorem natToDecimal_decimalDigit {byte : UInt8} {value : Nat}
    (hbyte : decimalDigit byte = some value) :
    value < 10 ∧ UInt8.ofNat (Nat.digitChar value).toNat = byte := by
  unfold decimalDigit at hbyte
  split_ifs at hbyte with hrange
  cases hbyte
  have hvalue : byte.toNat - 0x30 < 10 := by omega
  refine ⟨hvalue, ?_⟩
  have hchar : (Nat.digitChar (byte.toNat - 0x30)).toNat = byte.toNat := by
    have hall : ∀ digit : Fin 10, (Nat.digitChar digit.val).toNat = digit.val + 0x30 := by
      decide
    rw [hall ⟨byte.toNat - 0x30, hvalue⟩]
    exact Nat.sub_add_cancel hrange.1
  rw [hchar, UInt8.ofNat_toNat]

/-- Digits without a leading zero are the numeral of their value. -/
theorem natToDecimal_of_parseDigits {text : GoString} {value : Nat}
    (hvalue : parseDigits text = some value) (hlead : text.head? ≠ some 0x30) :
    0 < value ∧ natToDecimal value = text := by
  induction text using List.reverseRecOn generalizing value with
  | nil => cases hvalue
  | append_singleton front byte ih =>
      by_cases hfront : front = []
      · subst hfront
        have hdigit : decimalDigit byte = some value := by
          simpa [parseDigits] using hvalue
        obtain ⟨hlt, hbyte⟩ := natToDecimal_decimalDigit hdigit
        refine ⟨?_, ?_⟩
        · by_contra hzero
          apply hlead
          rw [← hbyte, Nat.eq_zero_of_not_pos hzero]
          rfl
        · rw [natToDecimal, Nat.toDigits_of_lt_base hlt, List.map_singleton, hbyte]
          rfl
      · rw [parseDigits_concat hfront, Option.bind_eq_some_iff] at hvalue
        obtain ⟨high, hhigh, hlow⟩ := hvalue
        obtain ⟨low, hdigit, rfl⟩ := Option.map_eq_some_iff.mp hlow
        rw [List.head?_append_of_ne_nil _ hfront] at hlead
        obtain ⟨hpos, hnumeral⟩ := ih hhigh hlead
        obtain ⟨hlt, hbyte⟩ := natToDecimal_decimalDigit hdigit
        refine ⟨by omega, ?_⟩
        rw [natToDecimal, Nat.toDigits_of_base_le (by decide) (by omega), List.map_append,
          List.map_singleton, show (high * 10 + low) / 10 = high by omega,
          show (high * 10 + low) % 10 = low by omega, hbyte]
        exact congrArg (· ++ [byte]) hnumeral

end Go.Strconv
