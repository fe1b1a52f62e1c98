import TopologyExporter.GoLib.Net

/-! # Printed IP addresses are read back

An address that is printed and parsed again is the same address: dotted decimal for
IPv4, and groups of hexadecimal digits with the longest run of zeros left out for IPv6.
-/

namespace Go.Net

open Strconv

/-! ## IPv4 -/

theorem octet_natToDecimal : ∀ value : Fin 256,
    parseOctet (natToDecimal value.val) = some (UInt8.ofNat value.val) ∧
      (natToDecimal value.val).find? (fun byte => byte == 0x2E || byte == 0x3A || byte == 0x25) =
        none := by
  decide +kernel

theorem parseOctet_natToDecimal (byte : UInt8) :
    parseOctet (natToDecimal byte.toNat) = some byte := by
  have hbyte := (octet_natToDecimal ⟨byte.toNat, byte.toNat_lt⟩).1
  rwa [UInt8.ofNat_toNat] at hbyte

/-- Decimal numerals have no separators. -/
theorem natToDecimal_find? (byte : UInt8) :
    (natToDecimal byte.toNat).find? (fun byte => byte == 0x2E || byte == 0x3A || byte == 0x25) =
      none :=
  (octet_natToDecimal ⟨byte.toNat, byte.toNat_lt⟩).2

variable {short ip : IP} {property : UInt8 → Prop} {parts : List Nat}

theorem parseIPv4Fields_dottedQuad (hlength : short.length = 4) :
    parseIPv4Fields (dottedQuad short) = some short := by
  have hsplit : Strings.split 0x2E (dottedQuad short) =
      short.map (fun byte => natToDecimal byte.toNat) := by
    apply List.splitOn_intercalate
    · intro part hpart hdot
      obtain ⟨byte, -, rfl⟩ := List.mem_map.mp hpart
      have hnone := List.find?_eq_none.mp (natToDecimal_find? byte) 0x2E hdot
      exact hnone rfl
    · intro hnil
      rw [List.map_eq_nil_iff] at hnil
      rw [hnil] at hlength
      cases hlength
  simp only [parseIPv4Fields, hsplit, List.length_map, hlength, if_true]
  rw [mapM_eq_some_iff, List.forall₂_map_left_iff, List.forall₂_same]
  intro byte _
  exact parseOctet_natToDecimal byte

theorem parseIP_dottedQuad (hlength : short.length = 4) :
    parseIP (dottedQuad short) = some (List.replicate 10 0 ++ [0xFF, 0xFF] ++ short) := by
  have hfind : (dottedQuad short).find?
      (fun byte => byte == 0x2E || byte == 0x3A || byte == 0x25) = some 0x2E := by
    obtain ⟨first, second, rest, rfl⟩ : ∃ first second rest, short = first :: second :: rest := by
      match short, hlength with
      | first :: second :: rest, _ => exact ⟨first, second, rest, rfl⟩
    rw [dottedQuad, List.map_cons, List.map_cons, Strings.join, List.intercalate_cons_cons,
      List.append_assoc, List.find?_append, natToDecimal_find?]
    rfl
  rw [parseIP, hfind]
  simp only [parseIPv4Fields_dottedQuad hlength, Option.map_some]

/-! ## Groups of hexadecimal digits -/

def isHexDigit (byte : UInt8) : Bool := (hexValue byte).isSome

/-- The two bytes of a group. -/
def groupBytes (group : Nat) : IP := [UInt8.ofNat (group / 256), UInt8.ofNat group]

theorem hexValue_hexDigit {value : Nat} (hvalue : value < 16) :
    hexValue (hexDigit value) = some value := by
  have hall : ∀ value : Fin 16, hexValue (hexDigit value.val) = some value.val := by
    decide
  exact hall ⟨value, hvalue⟩

/-- What holds of every digit holds of every byte of a hexadecimal text. -/
theorem forall_hexEncode (hdigits : ∀ value < 16, property (hexDigit value)) (bytes : List UInt8) :
    ∀ digit ∈ hexEncode bytes, property digit := by
  intro digit hdigit
  obtain ⟨byte, -, hpair⟩ := List.mem_flatMap.mp hdigit
  have hlt := byte.toNat_lt
  rcases List.mem_pair.mp hpair with rfl | rfl
  · exact hdigits _ (by omega)
  · exact hdigits _ (by omega)

theorem forall_groupText (hdigits : ∀ value < 16, property (hexDigit value)) (group : Nat) :
    ∀ byte ∈ groupText group, property byte := by
  rcases groupText_cases group with hzero | ⟨digits, hsuffix, hgroup⟩
  · rw [hzero, List.forall_mem_singleton]
    exact hdigits 0 (by decide)
  · rw [hgroup]
    exact fun byte hbyte => forall_hexEncode hdigits _ byte (hsuffix.subset hbyte)

theorem isHexDigit_groupText (group : Nat) : ∀ byte ∈ groupText group, isHexDigit byte = true := by
  apply forall_groupText
  intro value hvalue
  rw [isHexDigit, hexValue_hexDigit hvalue]
  rfl

theorem groupText_ne_nil (group : Nat) : groupText group ≠ [] := by
  unfold groupText
  split
  next => simp
  next digits hdigits => exact hdigits

/-- Leading zeros do not count. -/
theorem foldlM_dropWhile_zero (digits : GoString) :
    (digits.dropWhile (· == 0x30)).foldlM
        (fun value byte => (hexValue byte).map (value * 16 + ·)) 0 =
      digits.foldlM (fun value byte => (hexValue byte).map (value * 16 + ·)) 0 := by
  induction digits with
  | nil => rfl
  | cons digit rest ih =>
      by_cases hzero : digit = 0x30
      · subst hzero
        rw [List.dropWhile_cons_of_pos (by decide), ih, List.foldlM_cons]
        rfl
      · rw [List.dropWhile_cons_of_neg (by simpa using hzero)]

theorem foldlM_hexEncode {group : Nat} (hgroup : group < 65536) :
    (hexEncode (groupBytes group)).foldlM
      (fun value byte => (hexValue byte).map (value * 16 + ·)) 0 = some group := by
  have hhigh : (UInt8.ofNat (group / 256)).toNat = group / 256 := by
    rw [UInt8.toNat_ofNat']
    omega
  have hlow : (UInt8.ofNat group).toNat = group % 256 := UInt8.toNat_ofNat'
  simp only [hexEncode, groupBytes, List.flatMap_cons, List.flatMap_nil, List.append_nil,
    List.cons_append, List.nil_append, List.foldlM_cons, List.foldlM_nil, hhigh, hlow]
  rw [hexValue_hexDigit (by omega), hexValue_hexDigit (by omega), hexValue_hexDigit (by omega),
    hexValue_hexDigit (by omega)]
  simp only [Option.map_some, Option.bind_eq_bind, Option.bind_some, Option.pure_def,
    Option.some.injEq]
  omega

theorem parseGroup_groupText {group : Nat} (hgroup : group < 65536) :
    parseGroup (groupText group) = some group := by
  have hvalue := foldlM_hexEncode hgroup
  rw [← foldlM_dropWhile_zero] at hvalue
  have hlength := groupText_length group
  rw [parseGroup, if_neg (not_or.mpr ⟨groupText_ne_nil group, not_lt.mpr hlength⟩)]
  unfold groupText
  split
  next hnone =>
    rw [groupBytes, hnone] at hvalue
    cases hvalue
    rfl
  next => exact hvalue

/-! ## Groups between colons -/

/-- Groups in text, without an ellipsis. -/
def groupsText (parts : List Nat) : GoString := Strings.join 0x3A (parts.map groupText)

theorem groupsText_cons_cons (group next : Nat) (rest : List Nat) :
    groupsText (group :: next :: rest) = groupText group ++ 0x3A :: groupsText (next :: rest) := by
  simp [groupsText, Strings.join, List.intercalate_cons_cons]

theorem groupsText_singleton (group : Nat) : groupsText [group] = groupText group := by
  simp [groupsText, Strings.join]

/-- The text begins with a digit. -/
theorem groupsText_cons (group : Nat) (rest : List Nat) :
    ∃ digit text, groupsText (group :: rest) = digit :: text ∧ isHexDigit digit = true := by
  obtain ⟨digit, digits, hdigits⟩ := List.exists_cons_of_ne_nil (groupText_ne_nil group)
  have hhex : isHexDigit digit = true := isHexDigit_groupText group digit (by simp [hdigits])
  cases rest with
  | nil => exact ⟨digit, digits, by rw [groupsText_singleton, hdigits], hhex⟩
  | cons next rest =>
      exact ⟨digit, _, by rw [groupsText_cons_cons, hdigits, List.cons_append], hhex⟩

/-- A group is read up to the next byte that is no digit. -/
theorem takeWhile_groupText (group : Nat) {rest : GoString}
    (hrest : ∀ byte ∈ rest.head?, isHexDigit byte = false) :
    (groupText group ++ rest).takeWhile (fun byte => (hexValue byte).isSome) = groupText group := by
  change (groupText group ++ rest).takeWhile isHexDigit = groupText group
  rw [List.takeWhile_append_of_pos (isHexDigit_groupText group)]
  cases rest with
  | nil => simp
  | cons byte rest => simp [hrest byte rfl]

section Group

variable {group : Nat} (hgroup : group < 65536) (room : Nat) (read : IP) (ellipsis : Option Nat)

include hgroup

theorem parseGroups_last :
    parseGroups (room + 1) (groupText group) read ellipsis =
      some ([], read ++ groupBytes group, ellipsis) := by
  have htake := @takeWhile_groupText group [] (by simp)
  rw [List.append_nil] at htake
  rw [parseGroups]
  dsimp only
  rw [htake, parseGroup_groupText hgroup, List.drop_length]
  rfl

theorem parseGroups_colon {digit : UInt8} (hdigit : isHexDigit digit = true) (rest : GoString) :
    parseGroups (room + 1) (groupText group ++ 0x3A :: digit :: rest) read ellipsis =
      parseGroups room (digit :: rest) (read ++ groupBytes group) ellipsis := by
  have htake := @takeWhile_groupText group (0x3A :: digit :: rest) (by simp; decide)
  rw [parseGroups]
  dsimp only
  rw [htake, parseGroup_groupText hgroup, List.drop_left, Option.bind_eq_bind, Option.bind_some]
  split
  next heq => cases heq
  next heq => cases heq
  next heq => cases heq
  next heq =>
    cases heq
    exact absurd hdigit (by decide)
  next heq =>
    cases heq
    rfl
  next hother => exact absurd rfl (hother _)

theorem parseGroups_ellipsis (after : GoString) :
    parseGroups (room + 1) (groupText group ++ 0x3A :: 0x3A :: after) read none =
      if after = [] then
        some ([], read ++ groupBytes group, some (read ++ groupBytes group).length)
      else parseGroups room after (read ++ groupBytes group)
        (some (read ++ groupBytes group).length) := by
  have htake := @takeWhile_groupText group (0x3A :: 0x3A :: after) (by simp; decide)
  rw [parseGroups]
  dsimp only
  rw [htake, parseGroup_groupText hgroup, List.drop_left, Option.bind_eq_bind, Option.bind_some]
  rfl

end Group

section Groups

variable {parts : List Nat}

/-- Groups without an ellipsis are read one by one. -/
theorem parseGroups_groupsText (hparts : ∀ group ∈ parts, group < 65536) (hne : parts ≠ [])
    {room : Nat} (hroom : parts.length ≤ room) (read : IP) (ellipsis : Option Nat) :
    parseGroups room (groupsText parts) read ellipsis =
      some ([], read ++ parts.flatMap groupBytes, ellipsis) := by
  induction parts generalizing room read with
  | nil => exact absurd rfl hne
  | cons group rest ih =>
      rw [List.forall_mem_cons] at hparts
      obtain ⟨room, rfl⟩ : ∃ fewer, room = fewer + 1 :=
        ⟨room - 1, by rw [List.length_cons] at hroom; omega⟩
      cases rest with
      | nil =>
          rw [groupsText_singleton, parseGroups_last hparts.1]
          simp
      | cons next rest =>
          obtain ⟨digit, text, htext, hdigit⟩ := groupsText_cons next rest
          have hrest := ih hparts.2 (by simp) (show (next :: rest).length ≤ room by
            simp only [List.length_cons] at hroom ⊢
            omega) (read ++ groupBytes group)
          rw [groupsText_cons_cons, htext, parseGroups_colon hparts.1 room read ellipsis hdigit,
            ← htext, hrest]
          simp

/-- Groups before an ellipsis are read one by one, and those after it. -/
theorem parseGroups_around (hparts : ∀ group ∈ parts, group < 65536) (hne : parts ≠ [])
    {after : List Nat} (hafter : ∀ group ∈ after, group < 65536) {room : Nat}
    (hroom : parts.length + after.length ≤ room) (read : IP) :
    parseGroups room (groupsText parts ++ 0x3A :: 0x3A :: groupsText after) read none =
      some ([], read ++ parts.flatMap groupBytes ++ after.flatMap groupBytes,
        some (read ++ parts.flatMap groupBytes).length) := by
  induction parts generalizing room read with
  | nil => exact absurd rfl hne
  | cons group rest ih =>
      rw [List.forall_mem_cons] at hparts
      obtain ⟨room, rfl⟩ : ∃ fewer, room = fewer + 1 :=
        ⟨room - 1, by rw [List.length_cons] at hroom; omega⟩
      rw [List.length_cons] at hroom
      cases rest with
      | nil =>
          rw [groupsText_singleton, parseGroups_ellipsis hparts.1]
          cases after with
          | nil => simp [groupsText, Strings.join]
          | cons next after =>
              obtain ⟨digit, text, htext, -⟩ := groupsText_cons next after
              rw [if_neg (by rw [htext]; simp),
                parseGroups_groupsText hafter (by simp)
                  (by simp only [List.length_cons, List.length_nil] at hroom ⊢; omega)]
              simp
      | cons next rest =>
          obtain ⟨digit, text, htext, hdigit⟩ := groupsText_cons next rest
          have hrest := ih hparts.2 (by simp) (show (next :: rest).length + after.length ≤ room by
            omega) (read ++ groupBytes group)
          rw [groupsText_cons_cons, List.append_assoc, List.cons_append, htext, List.cons_append,
            parseGroups_colon hparts.1 room read none hdigit, ← List.cons_append, ← htext, hrest]
          simp

end Groups

/-! ## The ellipsis -/

/-- From `start` to `stop` there are zeros, two at least. -/
def ZerosFrom (parts : List Nat) (start stop : Nat) : Prop :=
  start + 2 ≤ stop ∧ stop ≤ parts.length ∧
    parts = parts.take start ++ List.replicate (stop - start) 0 ++ parts.drop stop

theorem zerosFrom_takeWhile {start width : Nat}
    (hwidth : ((parts.drop start).takeWhile (· == 0)).length = width) (htwo : 2 ≤ width) :
    ZerosFrom parts start (start + width) := by
  have hsplit := List.takeWhile_append_dropWhile (p := (· == 0)) (l := parts.drop start)
  have hzeros : (parts.drop start).takeWhile (· == 0) = List.replicate width 0 := by
    apply List.eq_replicate_iff.mpr
    refine ⟨hwidth, ?_⟩
    intro group hgroup
    simpa using List.mem_takeWhile_imp hgroup
  have hrest : (parts.drop start).dropWhile (· == 0) = parts.drop (start + width) := by
    rw [← List.drop_drop, ← hsplit, List.drop_left' hwidth]
    rw [hsplit]
  have hlength := congrArg List.length hsplit
  rw [List.length_append, hwidth, List.length_drop] at hlength
  refine ⟨by omega, by omega, ?_⟩
  rw [Nat.add_sub_cancel_left, List.append_assoc, ← hzeros, ← hrest, hsplit,
    List.take_append_drop]

/-- What is left out is a run of zeros. -/
theorem zeroRun_spec {start stop : Nat} (hrun : zeroRun parts = some (start, stop)) :
    ZerosFrom parts start stop := by
  -- every candidate for the longest run is one of zeros
  have hall : ∀ run ∈ zeroRun parts, ZerosFrom parts run.1 run.2 := by
    unfold zeroRun
    refine List.foldlRecOn (motive := fun best : Option (Nat × Nat) =>
      ∀ run ∈ best, ZerosFrom parts run.1 run.2) _ _ (by simp) ?_
    intro best hbest first _
    dsimp only
    split_ifs with hlonger
    · intro run hsome
      cases hsome
      exact zerosFrom_takeWhile rfl hlonger.1
    · exact hbest
  exact hall (start, stop) hrun

theorem groups_lt (ip : IP) : ∀ group ∈ groups ip, group < 65536 := by
  fun_induction groups ip with
  | case1 high low rest ih =>
      have hhigh := high.toNat_lt
      have hlow := low.toNat_lt
      exact List.forall_mem_cons.mpr ⟨by omega, ih⟩
  | case2 => simp

theorem groupBytes_pair (high low : UInt8) :
    groupBytes (high.toNat * 256 + low.toNat) = [high, low] := by
  have hlow := low.toNat_lt
  have hhigh : (high.toNat * 256 + low.toNat) / 256 = high.toNat := by omega
  have hbyte : UInt8.ofNat (high.toNat * 256 + low.toNat) = low := by
    apply UInt8.toNat_inj.mp
    rw [UInt8.toNat_ofNat']
    omega
  rw [groupBytes, hhigh, UInt8.ofNat_toNat, hbyte]

theorem flatMap_groups {ip : IP} {count : Nat} (hlength : ip.length = 2 * count) :
    (groups ip).flatMap groupBytes = ip ∧ (groups ip).length = count := by
  induction count generalizing ip with
  | zero =>
      obtain rfl := List.length_eq_zero_iff.mp hlength
      exact ⟨rfl, rfl⟩
  | succ count ih =>
      match ip, hlength with
      | high :: low :: rest, hlength =>
          obtain ⟨hbytes, hcount⟩ := @ih rest (by simp only [List.length_cons] at hlength; omega)
          rw [groups, List.flatMap_cons, groupBytes_pair, hbytes, List.length_cons, hcount]
          exact ⟨rfl, rfl⟩

/-! ## IPv6 -/

theorem flatMap_replicate_zero (count : Nat) :
    (List.replicate count 0).flatMap groupBytes = List.replicate (2 * count) 0 := by
  induction count with
  | zero => rfl
  | succ count ih =>
      rw [List.replicate_succ, List.flatMap_cons, ih,
        show 2 * (count + 1) = 2 * count + 1 + 1 by omega,
        List.replicate_succ, List.replicate_succ]
      rfl

@[simp] theorem length_flatMap_groupBytes (parts : List Nat) :
    (parts.flatMap groupBytes).length = 2 * parts.length := by
  induction parts with
  | nil => rfl
  | cons group rest ih =>
      rw [List.flatMap_cons, List.length_append, ih, List.length_cons]
      simp only [groupBytes, List.length_cons, List.length_nil]
      omega

/-- The address with the zeros of the ellipsis. -/
def expanded (read : IP) : Option Nat → Option IP
  | some offset =>
      if read.length < 16 then
        some (read.take offset ++ List.replicate (16 - read.length) 0 ++ read.drop offset)
      else none
  | none => if read.length < 16 then none else some read

/-- A text that begins with a digit is read from its first group on. -/
theorem parseIPv6_digit {digit : UInt8} (hdigit : isHexDigit digit = true) {rest : GoString}
    {read : IP} {ellipsis : Option Nat}
    (hparse : parseGroups 8 (digit :: rest) [] none = some ([], read, ellipsis)) :
    parseIPv6 (digit :: rest) = expanded read ellipsis := by
  unfold parseIPv6
  split
  next heq =>
    cases heq
    exact absurd hdigit (by decide)
  next heq =>
    cases heq
    exact absurd hdigit (by decide)
  next =>
    rw [hparse]
    cases ellipsis <;> rfl

theorem parseIPv6_colons (hparts : ∀ group ∈ parts, group < 65536) (hroom : parts.length < 8) :
    parseIPv6 (0x3A :: 0x3A :: groupsText parts) =
      some (List.replicate (16 - 2 * parts.length) 0 ++ parts.flatMap groupBytes) := by
  have hlength := length_flatMap_groupBytes parts
  cases parts with
  | nil => decide
  | cons group rest =>
      obtain ⟨digit, text, htext, -⟩ := groupsText_cons group rest
      have hparse := parseGroups_groupsText hparts (by simp) hroom.le [] (some 0)
      rw [htext] at hparse ⊢
      unfold parseIPv6
      split
      next heq => cases heq
      next heq =>
        cases heq
        rw [hparse]
        simp only [List.nil_append, ne_eq, not_true_eq_false, if_false, List.take_zero,
          List.drop_zero, hlength, Option.bind_eq_bind, Option.bind_some]
        rw [if_pos (by omega)]
      next hother => exact absurd rfl (hother _)

theorem parseIPv6_ipv6Text (hlength : ip.length = 16) : parseIPv6 (ipv6Text ip) = some ip := by
  obtain ⟨hbytes, hcount⟩ := @flatMap_groups ip 8 hlength
  have hlt := groups_lt ip
  simp only [ipv6Text]
  cases hrun : zeroRun (groups ip) with
  | none =>
      obtain ⟨group, rest, hparts⟩ : ∃ group rest, groups ip = group :: rest :=
        List.exists_cons_of_length_pos (by omega)
      obtain ⟨digit, text, htext, hdigit⟩ := groupsText_cons group rest
      have hparse := parseGroups_groupsText hlt (by simp [hparts]) hcount.le [] none
      rw [hbytes, List.nil_append, hparts, htext] at hparse
      change parseIPv6 (groupsText (groups ip)) = some ip
      rw [hparts, htext, parseIPv6_digit hdigit hparse, expanded, if_neg (by omega)]
  | some run =>
      obtain ⟨start, stop⟩ := run
      obtain ⟨htwo, hstop, hparts⟩ := zeroRun_spec hrun
      have hbefore : ∀ group ∈ (groups ip).take start, group < 65536 :=
        fun group hgroup => hlt group (List.mem_of_mem_take hgroup)
      have hafter : ∀ group ∈ (groups ip).drop stop, group < 65536 :=
        fun group hgroup => hlt group (List.mem_of_mem_drop hgroup)
      -- the bytes around the run, with zeros for the run, are those of the address
      have hexpanded : ((groups ip).take start).flatMap groupBytes ++
          List.replicate (2 * (stop - start)) 0 ++ ((groups ip).drop stop).flatMap groupBytes =
          ip := by
        rw [← flatMap_replicate_zero, ← List.flatMap_append, ← List.flatMap_append, ← hparts,
          hbytes]
      have hafterLength : (((groups ip).drop stop).flatMap groupBytes).length = 2 * (8 - stop) := by
        rw [length_flatMap_groupBytes, List.length_drop, hcount]
      change parseIPv6 (groupsText ((groups ip).take start) ++ [0x3A, 0x3A] ++
        groupsText ((groups ip).drop stop)) = some ip
      cases hfront : (groups ip).take start with
      | nil =>
          rw [hfront, List.flatMap_nil, List.nil_append] at hexpanded
          -- the text begins with the colons, which the parser takes before any group
          have hzero : start = 0 := by
            have hnone := congrArg List.length hfront
            rw [List.length_take, List.length_nil] at hnone
            omega
          have hparse := parseIPv6_colons hafter (by rw [List.length_drop]; omega)
          rw [List.length_drop, hcount, show 16 - 2 * (8 - stop) = 2 * (stop - start) by omega,
            hexpanded] at hparse
          exact hparse
      | cons group rest =>
          obtain ⟨digit, text, htext, hdigit⟩ := groupsText_cons group rest
          have hparse := parseGroups_around hbefore (by simp [hfront]) hafter
            (show ((groups ip).take start).length + ((groups ip).drop stop).length ≤ 8 by
              rw [List.length_take, List.length_drop]
              omega) []
          have hbeforeLength :
              (((groups ip).take start).flatMap groupBytes).length = 2 * start := by
            rw [length_flatMap_groupBytes, List.length_take, min_eq_left (by omega)]
          rw [List.nil_append] at hparse
          rw [hfront] at hparse hbeforeLength hexpanded
          rw [htext, List.cons_append] at hparse
          rw [htext, List.append_assoc, List.cons_append, List.cons_append, List.cons_append,
            List.nil_append, parseIPv6_digit hdigit hparse, expanded, List.length_append,
            hbeforeLength, hafterLength, if_pos (by omega), List.take_left' hbeforeLength,
            List.drop_left' hbeforeLength,
            show 16 - (2 * start + 2 * (8 - stop)) = 2 * (stop - start) by omega, hexpanded]

/-- What holds of every digit and of the colon holds of every byte of an address. -/
theorem forall_groupsText (hdigits : ∀ value < 16, property (hexDigit value))
    (hcolon : property 0x3A) (parts : List Nat) : ∀ byte ∈ groupsText parts, property byte := by
  apply forall_join hcolon
  intro part hpart
  obtain ⟨group, -, rfl⟩ := List.mem_map.mp hpart
  exact forall_groupText hdigits group

theorem forall_ipv6Text (hdigits : ∀ value < 16, property (hexDigit value)) (hcolon : property 0x3A)
    (ip : IP) : ∀ byte ∈ ipv6Text ip, property byte := by
  simp only [ipv6Text]
  cases zeroRun (groups ip) with
  | none => exact forall_groupsText hdigits hcolon (groups ip)
  | some run =>
      intro byte hbyte
      simp only [List.mem_append, List.mem_cons, List.not_mem_nil, or_false, or_self] at hbyte
      rcases hbyte with (hbefore | rfl) | hafter
      · exact forall_groupsText hdigits hcolon _ byte hbefore
      · exact hcolon
      · exact forall_groupsText hdigits hcolon _ byte hafter

/-- The bytes of an IPv6 address in text are digits and colons. -/
theorem ipv6Text_bytes (ip : IP) :
    ∀ byte ∈ ipv6Text ip, byte = 0x3A ∨ isHexDigit byte = true := by
  apply forall_ipv6Text
  · intro value hvalue
    rw [isHexDigit, hexValue_hexDigit hvalue]
    exact Or.inr rfl
  · exact Or.inl rfl

theorem colon_mem_ipv6Text (hlength : ip.length = 16) : 0x3A ∈ ipv6Text ip := by
  obtain ⟨-, hcount⟩ := @flatMap_groups ip 8 hlength
  simp only [ipv6Text]
  cases zeroRun (groups ip) with
  | some run => simp
  | none =>
      change 0x3A ∈ groupsText (groups ip)
      cases hgroups : groups ip with
      | nil =>
          rw [hgroups] at hcount
          cases hcount
      | cons group others =>
          cases others with
          | nil =>
              rw [hgroups] at hcount
              cases hcount
          | cons next rest =>
              rw [groupsText_cons_cons]
              simp

theorem parseIP_ipv6Text (hlength : ip.length = 16) : parseIP (ipv6Text ip) = some ip := by
  have hbytes := ipv6Text_bytes ip
  have hfind : (ipv6Text ip).find?
      (fun byte => byte == 0x2E || byte == 0x3A || byte == 0x25) = some 0x3A := by
    have hsome : ((ipv6Text ip).find?
        (fun byte => byte == 0x2E || byte == 0x3A || byte == 0x25)).isSome = true :=
      List.find?_isSome.mpr ⟨0x3A, colon_mem_ipv6Text hlength, rfl⟩
    obtain ⟨byte, hbyte⟩ := Option.isSome_iff_exists.mp hsome
    rw [hbyte]
    rcases hbytes byte (List.mem_of_find?_eq_some hbyte) with rfl | hdigit
    · rfl
    · have hseparator := List.find?_some hbyte
      simp only [Bool.or_eq_true, beq_iff_eq] at hseparator
      rcases hseparator with (rfl | rfl) | rfl
      · exact absurd hdigit (by decide)
      · rfl
      · exact absurd hdigit (by decide)
  have hzone : (0x25 : UInt8) ∉ ipv6Text ip := by
    intro hmem
    rcases hbytes 0x25 hmem with hcolon | hdigit
    · cases hcolon
    · exact absurd hdigit (by decide)
  rw [parseIP, hfind]
  simp only [hzone, if_false]
  exact parseIPv6_ipv6Text hlength

theorem to4_mapped (hlength : short.length = 4) :
    to4 (List.replicate 10 0 ++ [0xFF, 0xFF] ++ short) = some short := by
  simp [to4, hlength]

/-- An address that is printed and parsed again is the same. -/
theorem parseIP_ipString (hlength : ip.length = 4 ∨ ip.length = 16) :
    ∃ parsed, parseIP (ipString ip) = some parsed ∧ ipEqual parsed ip = true := by
  have hne : ip ≠ [] := by
    rintro rfl
    rcases hlength with hlength | hlength <;> cases hlength
  have hwidth : ¬ (ip.length ≠ 4 ∧ ip.length ≠ 16) := by omega
  rw [ipString, if_neg hne, if_neg hwidth]
  cases hshort : to4 ip with
  | some short =>
      have hfour := to4_length hshort
      refine ⟨_, parseIP_dottedQuad hfour, ?_⟩
      rw [ipEqual, to4_mapped hfour, hshort]
      exact beq_self_eq_true short
  | none =>
      have hlong : ip.length = 16 := by
        rcases hlength with hfour | hlong
        · simp [to4, hfour] at hshort
        · exact hlong
      refine ⟨ip, parseIP_ipv6Text hlong, ?_⟩
      simp [ipEqual, hshort]

end Go.Net
