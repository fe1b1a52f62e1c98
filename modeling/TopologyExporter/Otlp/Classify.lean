import TopologyExporter.GoLib.AddressText
import TopologyExporter.GoLib.Fields

/-! # Reasons of failed pushes

A push that fails is counted under a reason that is read off the text of the
error. A number of three digits that stands alone in the text is taken for the
status of an HTTP response. It may as well be a port, or part of an address.
-/

namespace TopologyExporter.Otlp

open Go Utf8 Strconv

inductive PushReason where
  | timeout
  | tlsError
  | http4xx
  | http5xx
  | payloadRejected
  | network
deriving DecidableEq

/-- The text of an error, and whether it wraps the error of a missed deadline. -/
structure PushError where
  deadlineExceeded : Bool
  text : GoString

inductive StatusClass where
  | none
  | class4xx
  | class5xx
deriving DecidableEq

def separatesTokens (rune : Nat) : Bool := decide (rune < 0x30 ∨ 0x39 < rune)

/-- The class of a token, where it is the number of a client or server error. -/
def tokenClass (token : GoString) : Option StatusClass :=
  if token.length ≠ 3 then none
  else (atoi token).bind (fun code =>
    if 400 ≤ code ∧ code < 500 then some .class4xx
    else if 500 ≤ code ∧ code < 600 then some .class5xx
    else none)

/-- The class of the first token that has one. -/
def classifyHTTPStatus (msg : GoString) : StatusClass :=
  ((Strings.fieldsFunc separatesTokens msg).findSome? tokenClass).getD .none

def tlsKeywords : List GoString := [str "tls:", str "x509:", str "certificate"]

def timeoutKeywords : List GoString := [str "timeout", str "deadline exceeded"]

/-- No error is not classified: the call panics. -/
def classifyPushError (err : Option PushError) : Option PushReason :=
  err.map (fun err =>
    let lower := Strings.toLower err.text
    if err.deadlineExceeded then .timeout
    else if tlsKeywords.any (Strings.contains lower) then .tlsError
    else if timeoutKeywords.any (Strings.contains lower) then .timeout
    else match classifyHTTPStatus err.text with
      | .class4xx => .http4xx
      | .class5xx => .http5xx
      | .none => .network)

/-! ## Status tokens -/

/-- The number is the number of a client or server error. -/
def IsErrorStatus (code : Nat) : Prop := 400 ≤ code ∧ code < 600

instance (code : Nat) : Decidable (IsErrorStatus code) := inferInstanceAs (Decidable (_ ∧ _))

/-- Whether a byte is not a decimal digit. -/
def separatesDigits (byte : UInt8) : Bool := separatesTokens byte.toNat

/-- The text has the numeral of an error status next to no other digit. -/
def ShowsErrorStatus (text : GoString) : Prop :=
  ∃ code, IsErrorStatus code ∧ Strings.StandsAlone separatesDigits (natToDecimal code) text

variable {byte : UInt8} {text endpoint reason : GoString} {port : Nat}

theorem separatesDigits_eq_false_iff :
    separatesDigits byte = false ↔ (decimalDigit byte).isSome = true := by
  rw [separatesDigits, separatesTokens, decimalDigit, decide_eq_false_iff_not]
  split
  next hdigit => exact iff_of_true (by omega) rfl
  next hother => exact iff_of_false (by omega) (by simp)

theorem natToDecimal_digits (value : Nat) :
    ∀ byte ∈ natToDecimal value, separatesDigits byte = false := by
  intro byte hbyte
  rw [separatesDigits_eq_false_iff]
  exact isDigit_natToDecimal value byte hbyte

theorem natToDecimal_ne_nil (value : Nat) : natToDecimal value ≠ [] := by
  rw [natToDecimal, ne_eq, List.map_eq_nil_iff]
  exact Nat.toDigits_ne_nil

variable {code : Nat} {ip : Net.IP}

theorem length_natToDecimal (hcode : IsErrorStatus code) : (natToDecimal code).length = 3 := by
  have hthree : (Nat.toDigits 10 code).length ≤ 3 :=
    (Nat.length_toDigits_le_iff (by decide) (by decide)).mpr (by have := hcode.2; omega)
  have htwo : ¬ (Nat.toDigits 10 code).length ≤ 2 := by
    rw [Nat.length_toDigits_le_iff (by decide) (by decide)]
    have := hcode.1
    omega
  rw [natToDecimal, List.length_map]
  omega

theorem atoi_natToDecimal (hcode : IsErrorStatus code) :
    atoi (natToDecimal code) = some (code : Int) := by
  rw [atoi_of_parseDigits (parseDigits_natToDecimal code)]
  have hrange : InRange (code : Int) := by
    have := hcode.2
    constructor
    · exact le_trans (by decide) (Int.natCast_nonneg code)
    · exact le_trans (Int.ofNat_le.mpr this.le) (by decide)
  rw [rangeChecked, if_pos hrange]

theorem tokenClass_natToDecimal (hcode : IsErrorStatus code) :
    tokenClass (natToDecimal code) ≠ none := by
  rw [tokenClass, if_neg (not_not.mpr (length_natToDecimal hcode)), atoi_natToDecimal hcode,
    Option.bind_some]
  have hlow := hcode.1
  have hhigh := hcode.2
  split
  next => exact Option.some_ne_none _
  next =>
    rw [if_pos (by omega)]
    exact Option.some_ne_none _

/-- A token with a class is the numeral of an error status. -/
theorem exists_status_of_tokenClass {token : GoString}
    (hdigits : ∀ byte ∈ token, separatesDigits byte = false) (hclass : tokenClass token ≠ none) :
    ∃ code, IsErrorStatus code ∧ token = natToDecimal code := by
  unfold tokenClass at hclass
  split at hclass
  next => exact absurd rfl hclass
  next hlength =>
    obtain ⟨first, second, third, rfl⟩ := List.length_eq_three.mp (not_not.mp hlength)
    simp only [List.forall_mem_cons, separatesDigits_eq_false_iff, Option.isSome_iff_exists]
      at hdigits
    obtain ⟨⟨hundreds, hfirst⟩, ⟨tens, hsecond⟩, ⟨ones, hthird⟩, -⟩ := hdigits
    have hvalue : parseDigits [first, second, third] =
        some ((hundreds * 10 + tens) * 10 + ones) := by
      simp [parseDigits, hfirst, hsecond, hthird]
    have htens := (natToDecimal_decimalDigit hsecond).1
    have hones := (natToDecimal_decimalDigit hthird).1
    have hcode : IsErrorStatus ((hundreds * 10 + tens) * 10 + ones) := by
      rw [atoi_of_parseDigits hvalue, rangeChecked] at hclass
      split_ifs at hclass with hrange
      · rw [Option.bind_some] at hclass
        split_ifs at hclass with hclient hserver
        · exact ⟨by omega, by omega⟩
        · exact ⟨by omega, by omega⟩
        · exact absurd rfl hclass
      · exact absurd rfl hclass
    have hlead : [first, second, third].head? ≠ some 0x30 := by
      intro hzero
      rw [List.head?_cons, Option.some.injEq] at hzero
      have hnothing : some hundreds = some 0 := by
        rw [← hfirst, hzero]
        rfl
      have hlow := hcode.1
      have := Option.some.inj hnothing
      omega
    exact ⟨_, hcode, (natToDecimal_of_parseDigits hvalue hlead).2.symm⟩

theorem fieldsFunc_separatesTokens (msg : GoString) :
    Strings.fieldsFunc separatesTokens msg = Strings.pieces separatesDigits msg := by
  apply Strings.fieldsFunc_eq_pieces
  intro rune hrune
  rw [separatesTokens, decide_eq_true_eq]
  omega

theorem tokenClass_ne_some_none (token : GoString) : tokenClass token ≠ some .none := by
  unfold tokenClass
  split
  next => exact (Option.some_ne_none _).symm
  next =>
    intro hclass
    obtain ⟨code, -, hcode⟩ := Option.bind_eq_some_iff.mp hclass
    split_ifs at hcode
    · cases hcode
    · cases hcode

/-- A text has no class when none of its numbers is an error status. -/
theorem classifyHTTPStatus_eq_none_iff (msg : GoString) :
    classifyHTTPStatus msg = .none ↔
      ∀ code, IsErrorStatus code → natToDecimal code ∉ Strings.pieces separatesDigits msg := by
  have hnone : classifyHTTPStatus msg = .none ↔
      ∀ token ∈ Strings.pieces separatesDigits msg, tokenClass token = none := by
    rw [classifyHTTPStatus, fieldsFunc_separatesTokens, ← List.findSome?_eq_none_iff]
    cases hfound : (Strings.pieces separatesDigits msg).findSome? tokenClass with
    | none => exact iff_of_true rfl rfl
    | some status =>
        refine iff_of_false ?_ (Option.some_ne_none _)
        intro hstatus
        obtain ⟨token, -, htoken⟩ := List.exists_of_findSome?_eq_some hfound
        rw [Option.getD_some] at hstatus
        rw [hstatus] at htoken
        exact tokenClass_ne_some_none token htoken
  rw [hnone]
  constructor
  · intro hall code hcode hpiece
    exact tokenClass_natToDecimal hcode (hall _ hpiece)
  · intro hall token htoken
    by_contra hclass
    obtain ⟨code, hcode, rfl⟩ :=
      exists_status_of_tokenClass (Strings.mem_pieces_iff.mp htoken).2.1 hclass
    exact hall code hcode htoken

theorem natToDecimal_mem_pieces_iff :
    natToDecimal code ∈ Strings.pieces separatesDigits text ↔
      Strings.StandsAlone separatesDigits (natToDecimal code) text := by
  rw [Strings.mem_pieces_iff]
  constructor
  · exact fun hpiece => hpiece.2.2
  · exact fun hstands => ⟨natToDecimal_ne_nil code, natToDecimal_digits code, hstands⟩

/-! ## The error of a connection that was not made -/

/-- How the network library writes the address of an endpoint. -/
def joinHostPort (host port : GoString) : GoString :=
  if 0x3A ∈ host ∨ 0x25 ∈ host then str "[" ++ host ++ str "]:" ++ port
  else host ++ str ":" ++ port

/-- The text of the error of a connection to the endpoint. -/
def dialText (endpoint reason : GoString) : GoString :=
  str "dial tcp " ++ endpoint ++ str ": " ++ reason

/-- The address and the port, with brackets around the address or without. -/
def WritesEndpoint (ip : Net.IP) (port : Nat) (endpoint : GoString) : Prop :=
  endpoint = Net.ipString ip ++ str ":" ++ natToDecimal port ∨
    endpoint = joinHostPort (Net.ipString ip) (natToDecimal port)

instance (ip : Net.IP) (port : Nat) (endpoint : GoString) :
    Decidable (WritesEndpoint ip port endpoint) := inferInstanceAs (Decidable (_ ∨ _))

/-- The bytes that can stand before the reason: digits, small letters up to `f`, the
other letters of the first two words, and marks. -/
def IsDialByte (byte : UInt8) : Prop :=
  (0x30 ≤ byte.toNat ∧ byte.toNat ≤ 0x3A) ∨ (0x61 ≤ byte.toNat ∧ byte.toNat ≤ 0x66) ∨
    byte ∈ [0x20, 0x2E, 0x5B, 0x5D, 0x69, 0x6C, 0x70, 0x74]

instance (byte : UInt8) : Decidable (IsDialByte byte) := inferInstanceAs (Decidable (_ ∨ _ ∨ _))

/-- Evaluates a property of the bytes of a text. -/
theorem forall_bytes {property : UInt8 → Prop} [DecidablePred property]
    (hall : text.all (fun byte => decide (property byte)) = true) :
    ∀ byte ∈ text, property byte := by
  intro byte hbyte
  exact of_decide_eq_true (List.all_eq_true.mp hall byte hbyte)

theorem isDialByte_natToDecimal (value : Nat) :
    ∀ byte ∈ natToDecimal value, IsDialByte byte := by
  intro byte hbyte
  have hdigit := natToDecimal_digits value byte hbyte
  rw [separatesDigits, separatesTokens, decide_eq_false_iff_not] at hdigit
  exact Or.inl (by omega)

theorem isDialByte_ipString (hip : ip.length = 4 ∨ ip.length = 16) :
    ∀ byte ∈ Net.ipString ip, IsDialByte byte := by
  have hne : ip ≠ [] := by
    intro hnil
    rw [hnil] at hip
    simp at hip
  have hwidth : ¬ (ip.length ≠ 4 ∧ ip.length ≠ 16) := by omega
  rw [Net.ipString, if_neg hne, if_neg hwidth]
  split
  next short hshort =>
    refine Net.forall_join (by decide) ?_
    intro part hpart
    obtain ⟨octet, -, rfl⟩ := List.mem_map.mp hpart
    exact isDialByte_natToDecimal octet.toNat
  next hlong =>
    apply Net.forall_ipv6Text
    · have hall : ∀ value : Fin 16, IsDialByte (hexDigit value.val) := by
        decide
      exact fun value hvalue => hall ⟨value, hvalue⟩
    · decide

theorem isDialByte_before (hip : ip.length = 4 ∨ ip.length = 16)
    (hendpoint : WritesEndpoint ip port endpoint) :
    ∀ byte ∈ str "dial tcp " ++ endpoint ++ str ": ", IsDialByte byte := by
  have hdial : ∀ byte ∈ str "dial tcp ", IsDialByte byte := forall_bytes (by decide)
  have hend : ∀ byte ∈ str ": ", IsDialByte byte := forall_bytes (by decide)
  have hcolon : ∀ byte ∈ str ":", IsDialByte byte := forall_bytes (by decide)
  have hopen : ∀ byte ∈ str "[", IsDialByte byte := forall_bytes (by decide)
  have hclose : ∀ byte ∈ str "]:", IsDialByte byte := forall_bytes (by decide)
  have hport := isDialByte_natToDecimal port
  have hhost := isDialByte_ipString hip
  have hwritten : ∀ byte ∈ endpoint, IsDialByte byte := by
    rcases hendpoint with rfl | rfl
    · simp only [List.forall_mem_append]
      exact ⟨⟨hhost, hcolon⟩, hport⟩
    · unfold joinHostPort
      split
      · simp only [List.forall_mem_append]
        exact ⟨⟨⟨hopen, hhost⟩, hclose⟩, hport⟩
      · simp only [List.forall_mem_append]
        exact ⟨⟨hhost, hcolon⟩, hport⟩
  simp only [List.forall_mem_append]
  exact ⟨⟨hdial, hwritten⟩, hend⟩

/-- Every keyword has a byte that is not among these, and none can begin before
the reason and go on in it. -/
theorem keywords_spec : ∀ keyword ∈ tlsKeywords ++ timeoutKeywords,
    (∃ byte ∈ keyword, ¬ IsDialByte byte) ∧
      ∀ part ∈ keyword.inits, part ≠ [] → ¬ part.reverse.take 2 <+: [0x20, 0x3A] := by
  decide

theorem IsDialByte.lower (hbyte : IsDialByte byte) :
    byte.toNat < 0x80 ∧ ¬ (0x41 ≤ byte.toNat ∧ byte.toNat ≤ 0x5A) := by
  rcases hbyte with hdigit | hletter | hmark
  · omega
  · omega
  · have hmarks : ∀ byte ∈ ([0x20, 0x2E, 0x5B, 0x5D, 0x69, 0x6C, 0x70, 0x74] : List UInt8),
        byte.toNat < 0x80 ∧ ¬ (0x41 ≤ byte.toNat ∧ byte.toNat ≤ 0x5A) :=
      forall_bytes (by decide)
    exact hmarks byte hmark

/-- The keywords of the whole text are those of the reason. -/
theorem keyword_infix_iff {before keyword : GoString}
    (hbytes : ∀ byte ∈ before ++ str ": ", IsDialByte byte)
    (hkeyword : keyword ∈ tlsKeywords ++ timeoutKeywords) :
    keyword <:+: before ++ str ": " ++ reason ↔ keyword <:+: reason := by
  obtain ⟨⟨letter, hletter, hforeign⟩, hparts⟩ := keywords_spec keyword hkeyword
  constructor
  · intro hinfix
    rcases List.infix_append_iff.mp hinfix with hfront | hreason | ⟨part, rest, rfl, hpart, hrest⟩
    · exact absurd (hbytes letter (hfront.subset hletter)) hforeign
    · exact hreason
    · by_cases hnil : part = []
      · rw [hnil, List.nil_append]
        exact hrest.isInfix
      · -- The part ends as the text before the reason does.
        have hreverse : part.reverse <+: [0x20, 0x3A] ++ before.reverse := by
          have hends := List.reverse_prefix.mpr hpart
          rwa [List.reverse_append] at hends
        have hends : part.reverse.take 2 <+: [0x20, 0x3A] := by
          have htake := hreverse.take 2
          exact htake
        have hpartOf : part ∈ (part ++ rest).inits :=
          (List.mem_inits _ _).mpr (List.prefix_append part rest)
        exact absurd hends (hparts part hpartOf hnil)
  · exact fun hreason => hreason.trans (List.suffix_append _ _).isInfix

/-- The numbers of the whole text are those of the address, and the port. -/
theorem pieces_dialText (hendpoint : WritesEndpoint ip port endpoint)
    (hreason : ∀ byte ∈ reason, decimalDigit byte = none) :
    Strings.pieces separatesDigits (dialText endpoint reason) =
      Strings.pieces separatesDigits (Net.ipString ip) ++ [natToDecimal port] := by
  have hdial : ∀ byte ∈ str "dial tcp ", separatesDigits byte = true := forall_bytes (by decide)
  have hend : ∀ byte ∈ str ": ", separatesDigits byte = true := forall_bytes (by decide)
  have hafter : ∀ byte ∈ str ": " ++ reason, separatesDigits byte = true := by
    rw [List.forall_mem_append]
    refine ⟨hend, fun byte hbyte => ?_⟩
    by_contra hdigit
    rw [Bool.not_eq_true, separatesDigits_eq_false_iff, hreason byte hbyte] at hdigit
    cases hdigit
  have hport : Strings.pieces separatesDigits (natToDecimal port ++ (str ": " ++ reason)) =
      [natToDecimal port] := by
    have hcut := Strings.pieces_append_separators (by simp [str]) hafter (natToDecimal port) []
    rw [List.append_nil, Strings.pieces_nil, List.append_nil,
      Strings.pieces_eq_keepField (natToDecimal_digits port), Strings.keepField,
      if_neg (natToDecimal_ne_nil port)] at hcut
    exact hcut
  -- whatever stands around the address and the port is no digit, with brackets or without
  have hwritten : ∀ opening closing : GoString,
      (∀ byte ∈ str "dial tcp " ++ opening, separatesDigits byte = true) →
      closing ≠ [] → (∀ byte ∈ closing, separatesDigits byte = true) →
      Strings.pieces separatesDigits
          ((str "dial tcp " ++ opening) ++ (Net.ipString ip ++ (closing ++
            (natToDecimal port ++ (str ": " ++ reason))))) =
        Strings.pieces separatesDigits (Net.ipString ip) ++ [natToDecimal port] := by
    intro opening closing hopening hne hclosing
    rw [Strings.pieces_separators_append hopening, Strings.pieces_append_separators hne hclosing,
      hport]
  have hplain := hwritten [] (str ":") (by rwa [List.append_nil]) (by decide)
    (forall_bytes (by decide))
  have hbrackets := hwritten (str "[") (str "]:") (forall_bytes (by decide)) (by decide)
    (forall_bytes (by decide))
  simp only [List.append_assoc, List.nil_append] at hplain hbrackets
  rcases hendpoint with rfl | rfl
  · simp only [dialText, List.append_assoc]
    exact hplain
  · unfold joinHostPort
    split
    · simp only [dialText, List.append_assoc]
      exact hbrackets
    · simp only [dialText, List.append_assoc]
      exact hplain

/-- The octets of an IPv4 address are too small to be taken for an error status. -/
theorem not_showsErrorStatus_of_to4 (hip : ip.length = 4 ∨ ip.length = 16)
    (hshort : (Net.to4 ip).isSome = true) : ¬ ShowsErrorStatus (Net.ipString ip) := by
  intro ⟨code, hcode, hstands⟩
  obtain ⟨short, hshort⟩ := Option.isSome_iff_exists.mp hshort
  have hne : ip ≠ [] := by
    intro hnil
    rw [hnil] at hip
    simp at hip
  have hwidth : ¬ (ip.length ≠ 4 ∧ ip.length ≠ 16) := by omega
  rw [Net.ipString, if_neg hne, if_neg hwidth, hshort] at hstands
  have hpiece := natToDecimal_mem_pieces_iff.mpr hstands
  have hoctets : Strings.pieces separatesDigits (Net.dottedQuad short) =
      short.map (fun byte => natToDecimal byte.toNat) := by
    apply Strings.pieces_join (by decide)
    intro part hpart
    obtain ⟨octet, -, rfl⟩ := List.mem_map.mp hpart
    exact ⟨natToDecimal_ne_nil _, natToDecimal_digits _⟩
  rw [hoctets] at hpiece
  obtain ⟨octet, -, hoctet⟩ := List.mem_map.mp hpiece
  have hvalue := natToDecimal_injective hoctet
  have hlow := hcode.1
  have hlt := octet.toNat_lt
  omega

/-- A connection that was not made counts as an error of the network exactly when
neither the port nor the address shows an error status; only an IPv6 address can. -/
theorem dial_error_network_iff (ip : Net.IP) (hip : ip.length = 4 ∨ ip.length = 16) (port : Nat)
    (endpoint : GoString) (hendpoint : WritesEndpoint ip port endpoint) (reason : GoString)
    (hdigits : ∀ byte ∈ reason, decimalDigit byte = none)
    (hkeywords : ∀ keyword ∈ tlsKeywords ++ timeoutKeywords,
      Strings.contains (Strings.toLower reason) keyword = false) :
    (classifyPushError (some ⟨false, dialText endpoint reason⟩) = some .network ↔
      ¬ IsErrorStatus port ∧ ¬ ShowsErrorStatus (Net.ipString ip)) ∧
    ((Net.to4 ip).isSome = true → ¬ ShowsErrorStatus (Net.ipString ip)) := by
  refine ⟨?_, not_showsErrorStatus_of_to4 hip⟩
  have hbefore := isDialByte_before hip hendpoint
  have hlower : Strings.toLower (dialText endpoint reason) =
      str "dial tcp " ++ endpoint ++ str ": " ++ Strings.toLower reason := by
    rw [dialText, Strings.toLower_ascii_append fun byte hbyte => (hbefore byte hbyte).lower.1,
      Strings.toLower_eq_self fun byte hbyte => (hbefore byte hbyte).lower]
  -- the text before the reason has no keyword in it, nor the beginning of one at its end
  have habsent : ∀ keyword ∈ tlsKeywords ++ timeoutKeywords,
      Strings.contains (Strings.toLower (dialText endpoint reason)) keyword = false := by
    intro keyword hkeyword
    have hreason := hkeywords keyword hkeyword
    rw [Strings.contains, decide_eq_false_iff_not] at hreason ⊢
    rw [hlower, keyword_infix_iff hbefore hkeyword]
    exact hreason
  rw [List.forall_mem_append] at habsent
  have htls : tlsKeywords.any (Strings.contains (Strings.toLower (dialText endpoint reason))) =
      false := by
    rw [List.any_eq_false]
    exact fun keyword hkeyword => Bool.eq_false_iff.mp (habsent.1 keyword hkeyword)
  have htimeout : timeoutKeywords.any
      (Strings.contains (Strings.toLower (dialText endpoint reason))) = false := by
    rw [List.any_eq_false]
    exact fun keyword hkeyword => Bool.eq_false_iff.mp (habsent.2 keyword hkeyword)
  have hstatus : classifyPushError (some ⟨false, dialText endpoint reason⟩) = some .network ↔
      classifyHTTPStatus (dialText endpoint reason) = .none := by
    simp only [classifyPushError, Option.map_some, Bool.false_eq_true, if_false, htls, htimeout]
    cases classifyHTTPStatus (dialText endpoint reason) with
    | none => exact iff_of_true rfl rfl
    | class4xx => exact iff_of_false (by decide) (by decide)
    | class5xx => exact iff_of_false (by decide) (by decide)
  -- so only the numbers in the text decide
  rw [hstatus, classifyHTTPStatus_eq_none_iff, pieces_dialText hendpoint hdigits]
  simp only [List.mem_append, List.mem_singleton, natToDecimal_mem_pieces_iff, not_or,
    natToDecimal_injective.eq_iff]
  constructor
  · intro hall
    exact ⟨fun hport => (hall port hport).2 rfl,
      fun ⟨code, hcode, hstands⟩ => (hall code hcode).1 hstands⟩
  · intro ⟨hport, haddress⟩ code hcode
    exact ⟨fun hstands => haddress ⟨code, hcode, hstands⟩, fun hsame => hport (hsame ▸ hcode)⟩

/-- A collector that refuses the connection at its usual port. -/
theorem refused_at_otlp_port :
    classifyPushError (some ⟨false, dialText (str "10.0.0.1:4317") (str "refused")⟩) =
      some .network := by
  have hendpoint : WritesEndpoint [10, 0, 0, 1] 4317 (str "10.0.0.1:4317") := Or.inl (by decide)
  have hiff := dial_error_network_iff [10, 0, 0, 1] (by decide) 4317 (str "10.0.0.1:4317")
    hendpoint (str "refused") (forall_bytes (by decide)) (by decide)
  exact hiff.1.mpr ⟨by decide, hiff.2 (by decide)⟩

/-- A refused connection to the port of HTTPS, or to an address with the group
`443`, is taken for the answer of an HTTP server. -/
theorem refused_at_https_port :
    ((∀ byte ∈ str "refused", decimalDigit byte = none) ∧
      ∀ keyword ∈ tlsKeywords ++ timeoutKeywords,
        Strings.contains (Strings.toLower (str "refused")) keyword = false) ∧
    (WritesEndpoint [10, 0, 0, 1] 443 (str "10.0.0.1:443") ∧
      classifyPushError (some ⟨false, dialText (str "10.0.0.1:443") (str "refused")⟩) =
        some .http4xx) ∧
    WritesEndpoint [0x20, 1, 0xD, 0xB8, 0, 0, 0, 0, 0, 0, 0, 0, 0, 0, 4, 0x43] 4317
        (str "[2001:db8::443]:4317") ∧
      classifyPushError (some ⟨false, dialText (str "[2001:db8::443]:4317") (str "refused")⟩) =
        some .http4xx := by
  refine ⟨⟨forall_bytes (by decide), by decide⟩, ⟨by decide, ?_⟩, by decide, ?_⟩
  · decide
  · decide

end TopologyExporter.Otlp
