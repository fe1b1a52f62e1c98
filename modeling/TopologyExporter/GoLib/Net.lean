import TopologyExporter.GoLib.Strconv

/-! # Network addresses

IP addresses, hardware addresses and CIDR blocks as byte sequences, with their
textual forms. An IPv4 address is four bytes, or sixteen with the IPv4-mapped
prefix; the empty sequence is the absent address.
-/

namespace Go.Net

open Utf8 Strconv

abbrev IP := List UInt8

/-- The four bytes of an IPv4 address in either representation. -/
def to4 (ip : IP) : Option IP :=
  if ip.length = 4 then some ip
  else if ip.length = 16 ∧ ip.take 10 = List.replicate 10 0 ∧ (ip.drop 10).take 2 = [0xFF, 0xFF]
  then some (ip.drop 12)
  else none

/-- Equality up to the IPv4-mapped representation. -/
def ipEqual (ip other : IP) : Bool :=
  match to4 ip, to4 other with
  | some short, some otherShort => short == otherShort
  | none, none => ip == other
  | _, _ => false

def isUnspecified (ip : IP) : Bool :=
  ipEqual ip [0, 0, 0, 0] || ipEqual ip (List.replicate 16 0)

def isLoopback (ip : IP) : Bool :=
  match to4 ip with
  | some short => short.head? == some 127
  | none => ip == List.replicate 15 0 ++ [1]

def isLinkLocalUnicast (ip : IP) : Bool :=
  match to4 ip with
  | some short => short.take 2 == [169, 254]
  | none => ip.length == 16 && ip.head? == some 0xFE && (ip.getD 1 0 &&& 0xC0) == 0x80

/-! ## Text of an address -/

def dottedQuad (short : IP) : GoString :=
  Strings.join 0x2E (short.map (fun byte => natToDecimal byte.toNat))

/-- The eight 16-bit groups of an IPv6 address. -/
def groups : IP → List Nat
  | high :: low :: rest => (high.toNat * 256 + low.toNat) :: groups rest
  | _ => []

/-- A group without leading zeros. -/
def groupText (group : Nat) : GoString :=
  match (hexEncode [UInt8.ofNat (group / 256), UInt8.ofNat group]).dropWhile (· == 0x30) with
  | [] => [0x30]
  | digits => digits

/-- The start and end of the first longest run of at least two zero groups. -/
def zeroRun (parts : List Nat) : Option (Nat × Nat) :=
  (List.range parts.length).foldl (fun best start =>
    let width := ((parts.drop start).takeWhile (· == 0)).length
    let bestWidth := match best with
      | some (first, last) => last - first
      | none => 0
    if 2 ≤ width ∧ bestWidth < width then some (start, start + width) else best) none

def ipv6Text (ip : IP) : GoString :=
  let parts := groups ip
  match zeroRun parts with
  | none => Strings.join 0x3A (parts.map groupText)
  | some (start, stop) =>
      Strings.join 0x3A ((parts.take start).map groupText) ++ [0x3A, 0x3A] ++
        Strings.join 0x3A ((parts.drop stop).map groupText)

def ipString (ip : IP) : GoString :=
  if ip = [] then str "<nil>"
  else if ip.length ≠ 4 ∧ ip.length ≠ 16 then 0x3F :: hexEncode ip
  else match to4 ip with
    | some short => dottedQuad short
    | none => ipv6Text ip

/-! ## Parsing an address -/

/-- One decimal field of an IPv4 address: no leading zero, at most 255. -/
def parseOctet (field : GoString) : Option UInt8 :=
  match field with
  | 0x30 :: _ :: _ => none
  | _ =>
      if 3 < field.length then none
      else (parseDigits field).bind (fun value =>
        if value ≤ 255 then some (UInt8.ofNat value) else none)

def parseIPv4Fields (text : GoString) : Option IP :=
  let fields := Strings.split 0x2E text
  if fields.length = 4 then fields.mapM parseOctet else none

def parseGroup (digits : GoString) : Option Nat :=
  if digits = [] ∨ 4 < digits.length then none
  else digits.foldlM (fun value byte => (hexValue byte).map (value * 16 + ·)) 0

/-- The colon-separated groups of an IPv6 address: the unread text, the bytes
read and the offset of the ellipsis. `room` counts the groups still missing. -/
def parseGroups : Nat → GoString → IP → Option Nat → Option (GoString × IP × Option Nat)
  | 0, text, read, ellipsis => some (text, read, ellipsis)
  | room + 1, text, read, ellipsis => do
      let digits := text.takeWhile (fun byte => (hexValue byte).isSome)
      let group ← parseGroup digits
      match text.drop digits.length with
      | [] => some ([], read ++ [UInt8.ofNat (group / 256), UInt8.ofNat group], ellipsis)
      | 0x2E :: _ =>
          if (ellipsis = none ∧ read.length ≠ 12) ∨ 16 < read.length + 4 then none
          else (parseIPv4Fields text).map (fun tail => ([], read ++ tail, ellipsis))
      | 0x3A :: [] => none
      | 0x3A :: 0x3A :: after =>
          let read := read ++ [UInt8.ofNat (group / 256), UInt8.ofNat group]
          if ellipsis.isSome then none
          else if after = [] then some ([], read, some read.length)
          else parseGroups room after read (some read.length)
      | 0x3A :: after =>
          parseGroups room after (read ++ [UInt8.ofNat (group / 256), UInt8.ofNat group]) ellipsis
      | _ => none

def parseIPv6 (text : GoString) : Option IP := do
  let (unread, read, ellipsis) ← match text with
    | [0x3A, 0x3A] => some ([], [], some 0)
    | 0x3A :: 0x3A :: after => parseGroups 8 after [] (some 0)
    | _ => parseGroups 8 text [] none
  if unread ≠ [] then none
  else match ellipsis with
    | some offset =>
        if read.length < 16 then
          some (read.take offset ++ List.replicate (16 - read.length) 0 ++ read.drop offset)
        else none
    | none => if read.length < 16 then none else some read

/-- Parses the text of an address into its sixteen-byte form. Addresses with a
zone are refused. -/
def parseIP (text : GoString) : Option IP :=
  match text.find? (fun byte => byte == 0x2E || byte == 0x3A || byte == 0x25) with
  | some 0x2E =>
      (parseIPv4Fields text).map (List.replicate 10 0 ++ [0xFF, 0xFF] ++ ·)
  | some 0x3A => if 0x25 ∈ text then none else parseIPv6 text
  | _ => none

/-! ## Hardware addresses -/

abbrev HardwareAddr := List UInt8

def hexPair (high low : UInt8) : Option UInt8 := do
  let high ← hexValue high
  let low ← hexValue low
  some (UInt8.ofNat (high * 16 + low))

/-- Pairs of hexadecimal digits set apart by `separator`. -/
def macPairs (separator : UInt8) : GoString → Option HardwareAddr
  | [high, low] => (hexPair high low).map ([·])
  | high :: low :: between :: rest =>
      if between = separator then do
        let byte ← hexPair high low
        let tail ← macPairs separator rest
        some (byte :: tail)
      else none
  | _ => none

/-- Groups of four hexadecimal digits set apart by dots. -/
def macQuads : GoString → Option HardwareAddr
  | [a, b, c, d] => do
      let first ← hexPair a b
      let second ← hexPair c d
      some [first, second]
  | a :: b :: c :: d :: between :: rest =>
      if between = 0x2E then do
        let first ← hexPair a b
        let second ← hexPair c d
        let tail ← macQuads rest
        some (first :: second :: tail)
      else none
  | _ => none

/-- Parses a 48-bit, 64-bit or 20-byte hardware address. -/
def parseMAC (text : GoString) : Option HardwareAddr :=
  if text.length < 14 then none
  else
    let parsed :=
      if text.getD 2 0 = 0x3A ∨ text.getD 2 0 = 0x2D then macPairs (text.getD 2 0) text
      else if text.getD 4 0 = 0x2E then macQuads text
      else none
    parsed.filter (fun address => decide (address.length ∈ [6, 8, 20]))

def hardwareAddrString (address : HardwareAddr) : GoString :=
  Strings.join 0x3A (address.map (fun byte => hexEncode [byte]))

/-! ## Blocks of addresses -/

structure IPNet where
  ip : IP
  mask : List UInt8
deriving DecidableEq

/-- The network number and mask in one representation; empty when they do not fit. -/
def networkNumberAndMask (net : IPNet) : IP × List UInt8 :=
  let number := (to4 net.ip).getD net.ip
  if number.length ≠ 4 ∧ number.length ≠ 16 then ([], [])
  else if net.mask.length = 4 then
    if number.length = 4 then (number, net.mask) else ([], [])
  else if net.mask.length = 16 then
    if number.length = 4 then (number, net.mask.drop 12) else (number, net.mask)
  else ([], [])

def contains (net : IPNet) (ip : IP) : Bool :=
  let (number, mask) := networkNumberAndMask net
  let address := (to4 ip).getD ip
  address.length == number.length &&
    (List.zipWith (fun byte bits => byte &&& bits) number mask ==
      List.zipWith (fun byte bits => byte &&& bits) address mask)

/-- The number of leading one bits, unless a one bit follows a zero bit. -/
def simpleMaskLength : List UInt8 → Option Nat
  | [] => some 0
  | byte :: rest =>
      if byte = 0xFF then (simpleMaskLength rest).map (8 + ·)
      else if rest.all (· == 0) then
        match byte.toNat with
        | 0x00 => some 0
        | 0x80 => some 1
        | 0xC0 => some 2
        | 0xE0 => some 3
        | 0xF0 => some 4
        | 0xF8 => some 5
        | 0xFC => some 6
        | 0xFE => some 7
        | _ => none
      else none

/-- The leading ones and the width of a mask; `(0, 0)` when it is not canonical. -/
def maskSize (mask : List UInt8) : Nat × Nat :=
  match simpleMaskLength mask with
  | some ones => (ones, mask.length * 8)
  | none => (0, 0)

/-! ## What the texts look like -/

variable {parts : List GoString} {ip : IP} {text : GoString}

theorem forall_join {property : UInt8 → Prop} {separator : UInt8} (hseparator : property separator)
    (hparts : ∀ part ∈ parts, ∀ byte ∈ part, property byte) :
    ∀ byte ∈ Strings.join separator parts, property byte := by
  intro byte hbyte
  unfold Strings.join at hbyte
  induction parts with
  | nil => simp [List.intercalate] at hbyte
  | cons part rest ih =>
      rw [List.forall_mem_cons] at hparts
      cases rest with
      | nil =>
          simp only [List.intercalate, List.intersperse, List.flatten_cons, List.flatten_nil,
            List.append_nil] at hbyte
          exact hparts.1 byte hbyte
      | cons next rest =>
          rw [List.intercalate_cons_cons, List.mem_append, List.mem_append,
            List.mem_singleton] at hbyte
          rcases hbyte with (hbyte | rfl) | hbyte
          · exact hparts.1 byte hbyte
          · exact hseparator
          · exact ih hparts.2 hbyte

theorem join_length (separator : UInt8) {parts : List GoString} {width : Nat}
    (hparts : ∀ part ∈ parts, part.length ≤ width) :
    (Strings.join separator parts).length ≤ parts.length * (width + 1) := by
  unfold Strings.join
  induction parts with
  | nil => simp [List.intercalate]
  | cons part rest ih =>
      rw [List.forall_mem_cons] at hparts
      have hrest := ih hparts.2
      rw [List.length_cons, Nat.succ_mul]
      cases rest with
      | nil =>
          simp only [List.intercalate, List.intersperse, List.flatten_cons, List.flatten_nil,
            List.append_nil]
          omega
      | cons next rest =>
          rw [List.intercalate_cons_cons, List.length_append, List.length_append,
            List.length_singleton]
          omega

theorem graphic_colon : Graphic 0x3A := by
  decide

theorem graphic_dottedQuad (short : IP) : ∀ byte ∈ dottedQuad short, Graphic byte := by
  refine forall_join (by decide) ?_
  intro part hpart
  obtain ⟨byte, -, rfl⟩ := List.mem_map.mp hpart
  exact graphic_natToDecimal _

theorem groupText_cases (group : Nat) : groupText group = [0x30] ∨
    ∃ digits, digits <:+ hexEncode [UInt8.ofNat (group / 256), UInt8.ofNat group] ∧
      groupText group = digits := by
  unfold groupText
  split
  next => exact Or.inl rfl
  next => exact Or.inr ⟨_, List.dropWhile_suffix _, rfl⟩

theorem graphic_groupText (group : Nat) : ∀ byte ∈ groupText group, Graphic byte := by
  rcases groupText_cases group with hzero | ⟨digits, hsuffix, hdigits⟩
  · rw [hzero, List.forall_mem_singleton]
    decide
  · rw [hdigits]
    exact fun byte hbyte => graphic_hexEncode _ byte (hsuffix.subset hbyte)

theorem groupText_length (group : Nat) : (groupText group).length ≤ 4 := by
  rcases groupText_cases group with hzero | ⟨digits, hsuffix, hdigits⟩
  · rw [hzero, List.length_singleton]
    decide
  · rw [hdigits]
    exact hsuffix.length_le.trans (by rw [hexEncode_length]; simp)

theorem graphic_groups {parts : List Nat} :
    ∀ byte ∈ Strings.join 0x3A (parts.map groupText), Graphic byte := by
  refine forall_join graphic_colon ?_
  intro part hpart
  obtain ⟨group, -, rfl⟩ := List.mem_map.mp hpart
  exact graphic_groupText group

theorem graphic_ipv6Text (ip : IP) : ∀ byte ∈ ipv6Text ip, Graphic byte := by
  simp only [ipv6Text]
  split
  next => exact graphic_groups
  next =>
      intro byte hbyte
      simp only [List.mem_append, List.mem_cons, List.not_mem_nil, or_false, or_self] at hbyte
      rcases hbyte with (hbyte | rfl) | hbyte
      · exact graphic_groups byte hbyte
      · exact graphic_colon
      · exact graphic_groups byte hbyte

theorem graphic_ipString (ip : IP) : ∀ byte ∈ ipString ip, Graphic byte := by
  unfold ipString
  split_ifs
  · simp only [show str "<nil>" = [0x3C, 0x6E, 0x69, 0x6C, 0x3E] by decide]
    simp [Graphic]
  · rw [List.forall_mem_cons]
    exact ⟨by decide, graphic_hexEncode ip⟩
  · split
    next short _ => exact graphic_dottedQuad short
    next => exact graphic_ipv6Text ip

theorem groups_length (ip : IP) : 2 * (groups ip).length ≤ ip.length := by
  induction ip using groups.induct with
  | case1 high low rest ih =>
      simp only [groups, List.length_cons]
      omega
  | case2 ip hshort =>
      unfold groups
      split
      · exact absurd rfl (hshort _ _ _)
      · simp

theorem groupsText_length (parts : List Nat) :
    (Strings.join 0x3A (parts.map groupText)).length ≤ parts.length * 5 := by
  have hwidth : ∀ part ∈ parts.map groupText, part.length ≤ 4 := by
    intro part hpart
    obtain ⟨group, -, rfl⟩ := List.mem_map.mp hpart
    exact groupText_length group
  simpa using join_length 0x3A hwidth

theorem ipv6Text_length (hlength : ip.length ≤ 16) : (ipv6Text ip).length ≤ 82 := by
  have hgroups := groups_length ip
  simp only [ipv6Text]
  split
  next =>
      have := groupsText_length (groups ip)
      omega
  next start stop _ =>
      have hfront := groupsText_length ((groups ip).take start)
      have hback := groupsText_length ((groups ip).drop stop)
      rw [List.length_take] at hfront
      rw [List.length_drop] at hback
      simp only [List.length_append, List.length_cons, List.length_nil]
      omega

theorem dottedQuad_length {short : IP} (hlength : short.length ≤ 16) :
    (dottedQuad short).length ≤ 64 := by
  have hwidth : ∀ part ∈ short.map (fun byte => natToDecimal byte.toNat), part.length ≤ 3 := by
    intro part hpart
    obtain ⟨byte, -, rfl⟩ := List.mem_map.mp hpart
    exact natToDecimal_length (by decide) (lt_trans byte.toNat_lt (by decide))
  have hjoin := join_length 0x2E hwidth
  rw [List.length_map] at hjoin
  unfold dottedQuad
  omega

theorem to4_length {short : IP} (hshort : to4 ip = some short) : short.length = 4 := by
  unfold to4 at hshort
  split_ifs at hshort with h4 h16
  · cases hshort
    exact h4
  · cases hshort
    rw [List.length_drop]
    omega

/-- The text of an address of the usual widths is short. -/
theorem ipString_length (hlength : ip.length ≤ 16) : (ipString ip).length ≤ 82 := by
  unfold ipString
  split_ifs
  · decide
  · rw [List.length_cons, hexEncode_length]
    omega
  · split
    next short hshort =>
        have hwidth : short.length ≤ 16 := by
          rw [to4_length hshort]
          decide
        exact (dottedQuad_length hwidth).trans (by decide)
    next => exact ipv6Text_length hlength

/-- Two parts have a separator between them. -/
theorem join_ne_nil (separator : UInt8) (hparts : 2 ≤ parts.length) :
    Strings.join separator parts ≠ [] := by
  match parts with
  | first :: second :: rest =>
      rw [Strings.join, List.intercalate_cons_cons]
      simp

theorem ipv6Text_ne_nil (hlength : ip.length = 16) : ipv6Text ip ≠ [] := by
  simp only [ipv6Text]
  split
  · apply join_ne_nil
    match ip with
    | first :: second :: third :: fourth :: rest =>
        simp only [groups, List.map_cons, List.length_cons]
        omega
  · simp

theorem ipString_ne_nil (ip : IP) : ipString ip ≠ [] := by
  unfold ipString
  split_ifs with hnil hwidth
  · decide
  · exact List.cons_ne_nil _ _
  · split
    next short hshort =>
        apply join_ne_nil
        rw [List.length_map, to4_length hshort]
        decide
    next hlong =>
        apply ipv6Text_ne_nil
        rw [not_and_or, not_not, not_not] at hwidth
        refine hwidth.resolve_left ?_
        intro hshort
        simp [to4, hshort] at hlong

/-! ### The width of parsed addresses -/

theorem parseIPv4Fields_length (hparse : parseIPv4Fields text = some ip) : ip.length = 4 := by
  simp only [parseIPv4Fields] at hparse
  split_ifs at hparse with hfields
  rw [← (mapM_eq_some_iff.mp hparse).length_eq, hfields]

/-- No more groups are read than there is room for. -/
theorem parseGroups_length {room : Nat} {unread : GoString} {read bytes : IP}
    {ellipsis offset : Option Nat} (hroom : read.length + 2 * room ≤ 16)
    (hparse : parseGroups room text read ellipsis = some (unread, bytes, offset)) :
    bytes.length ≤ 16 := by
  induction room generalizing text read ellipsis with
  | zero =>
      cases hparse
      omega
  | succ room ih =>
      rw [parseGroups] at hparse
      simp only [Option.bind_eq_bind, Option.bind_eq_some_iff] at hparse
      obtain ⟨group, -, hparse⟩ := hparse
      have hnext :
          (read ++ [UInt8.ofNat (group / 256), UInt8.ofNat group]).length + 2 * room ≤ 16 := by
        simp only [List.length_append, List.length_cons, List.length_nil]
        omega
      split at hparse
      · cases hparse
        omega
      · split_ifs at hparse with hwide
        obtain ⟨tail, htail, heq⟩ := Option.map_eq_some_iff.mp hparse
        cases heq
        rw [List.length_append, parseIPv4Fields_length htail]
        omega
      · cases hparse
      · split_ifs at hparse
        · cases hparse
          omega
        · exact ih hnext hparse
      · exact ih hnext hparse
      · cases hparse

theorem expanded_length {unread : GoString} {read ip : IP} {ellipsis : Option Nat}
    (hwidth : read.length ≤ 16)
    (hexpand : (if unread ≠ [] then none
      else match ellipsis with
        | some offset =>
            if read.length < 16 then
              some (read.take offset ++ List.replicate (16 - read.length) 0 ++ read.drop offset)
            else none
        | none => if read.length < 16 then none else some read) = some ip) : ip.length = 16 := by
  split at hexpand
  · cases hexpand
  · cases ellipsis with
    | none =>
        split_ifs at hexpand with hfull
        cases hexpand
        omega
    | some offset =>
        simp only at hexpand
        split_ifs at hexpand with hroom
        cases hexpand
        simp only [List.length_append, List.length_take, List.length_drop, List.length_replicate]
        omega

theorem parseIPv6_length (hparse : parseIPv6 text = some ip) : ip.length = 16 := by
  unfold parseIPv6 at hparse
  split at hparse
  · exact @expanded_length [] [] ip (some 0) (Nat.zero_le 16) hparse
  · obtain ⟨⟨unread, read, ellipsis⟩, hread, hparse⟩ := Option.bind_eq_some_iff.mp hparse
    exact expanded_length (parseGroups_length (by decide) hread) hparse
  · obtain ⟨⟨unread, read, ellipsis⟩, hread, hparse⟩ := Option.bind_eq_some_iff.mp hparse
    exact expanded_length (parseGroups_length (by decide) hread) hparse

theorem parseIP_length (hparse : parseIP text = some ip) : ip.length = 16 := by
  unfold parseIP at hparse
  split at hparse
  · obtain ⟨short, hshort, rfl⟩ := Option.map_eq_some_iff.mp hparse
    simp [parseIPv4Fields_length hshort]
  · split_ifs at hparse
    exact parseIPv6_length hparse
  · cases hparse

theorem graphic_hardwareAddrString (address : HardwareAddr) :
    ∀ byte ∈ hardwareAddrString address, Graphic byte := by
  refine forall_join graphic_colon ?_
  intro part hpart
  obtain ⟨byte, -, rfl⟩ := List.mem_map.mp hpart
  exact graphic_hexEncode _

/-! ## Printed addresses are read back -/

theorem hexPair_hexDigit (byte : UInt8) :
    hexPair (hexDigit (byte.toNat / 16)) (hexDigit (byte.toNat % 16)) = some byte := by
  have hall : ∀ value : Fin 256,
      hexPair (hexDigit (value.val / 16)) (hexDigit (value.val % 16)) =
        some (UInt8.ofNat value.val) := by
    decide +kernel
  have hbyte := hall ⟨byte.toNat, byte.toNat_lt⟩
  rwa [UInt8.ofNat_toNat] at hbyte

theorem hardwareAddrString_cons_cons (byte next : UInt8) (rest : HardwareAddr) :
    hardwareAddrString (byte :: next :: rest) =
      hexDigit (byte.toNat / 16) :: hexDigit (byte.toNat % 16) :: 0x3A ::
        hardwareAddrString (next :: rest) := by
  simp [hardwareAddrString, Strings.join, hexEncode, List.intercalate_cons_cons]

theorem length_hardwareAddrString (byte : UInt8) (rest : HardwareAddr) :
    (hardwareAddrString (byte :: rest)).length = 3 * rest.length + 2 := by
  induction rest generalizing byte with
  | nil => rfl
  | cons next rest ih =>
      rw [hardwareAddrString_cons_cons, List.length_cons, List.length_cons, List.length_cons, ih,
        List.length_cons]
      omega

theorem macPairs_hardwareAddrString (byte : UInt8) (rest : HardwareAddr) :
    macPairs 0x3A (hardwareAddrString (byte :: rest)) = some (byte :: rest) := by
  induction rest generalizing byte with
  | nil => simp [hardwareAddrString, Strings.join, hexEncode, macPairs, hexPair_hexDigit]
  | cons next rest ih =>
      rw [hardwareAddrString_cons_cons, macPairs, if_pos rfl, hexPair_hexDigit, ih]
      rfl

/-- A 48-bit address is read back as it was printed. -/
theorem parseMAC_hardwareAddrString {address : HardwareAddr} (hlength : address.length = 6) :
    parseMAC (hardwareAddrString address) = some address := by
  cases address with
  | nil => cases hlength
  | cons byte rest =>
      cases rest with
      | nil => cases hlength
      | cons next rest =>
          have hlong : ¬(hardwareAddrString (byte :: next :: rest)).length < 14 := by
            rw [length_hardwareAddrString]
            simp only [List.length_cons] at hlength ⊢
            omega
          have hcolon : (hardwareAddrString (byte :: next :: rest)).getD 2 0 = 0x3A := by
            rw [hardwareAddrString_cons_cons]
            rfl
          rw [parseMAC, if_neg hlong, hcolon, if_pos (Or.inl rfl), macPairs_hardwareAddrString,
            Option.filter_some, hlength]
          rfl

end Go.Net
