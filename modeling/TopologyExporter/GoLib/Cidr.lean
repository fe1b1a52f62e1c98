import TopologyExporter.GoLib.Net
import TopologyExporter.Foundation.LongestPrefix

/-! # CIDR notation

A network in CIDR notation is a block of addresses, as bit strings. The blocks of
IPv4 addresses can be written in two ways, in IPv4 form or in the IPv4-mapped part of
IPv6, where the prefix length counts 96 bits more.
-/

namespace Go.Net

open Strconv PrefixMatch

/-! ## Parsing and printing -/

def cidrMask : Nat → Nat → List UInt8
  | 0, _ => []
  | length + 1, ones =>
      if 8 ≤ ones then 0xFF :: cidrMask length (ones - 8)
      else ~~~(0xFF >>> UInt8.ofNat ones) :: cidrMask length 0

/-- The address under a mask; empty when the two do not fit. -/
def maskIP (ip mask : List UInt8) : IP :=
  let mask :=
    if mask.length = 16 ∧ ip.length = 4 ∧ mask.take 12 = List.replicate 12 0xFF then mask.drop 12
    else mask
  let ip :=
    if mask.length = 4 ∧ ip.length = 16 ∧ ip.take 12 = List.replicate 10 0 ++ [0xFF, 0xFF]
    then ip.drop 12
    else ip
  if ip.length ≠ mask.length then [] else List.zipWith (fun byte bits => byte &&& bits) ip mask

/-- The number of bytes of an address, by its notation. -/
def addrLen (text : GoString) : Nat :=
  if text.find? (fun byte => byte == 0x2E || byte == 0x3A || byte == 0x25) = some 0x2E then 4
  else 16

/-- The network of a text in CIDR notation. The prefix length may have leading zeros. -/
def parseCIDR (text : GoString) : Option IPNet := do
  let (address, length) ← Strings.cutByte 0x2F text
  let ip ← parseIP address
  let ones ← parseDigits length
  let mask := cidrMask (addrLen address) ones
  if 8 * addrLen address < ones then none else some ⟨maskIP ip mask, mask⟩

/-- Only networks with a canonical mask are printed. -/
def ipNetString (net : IPNet) : GoString :=
  let (number, mask) := networkNumberAndMask net
  if number = [] then str "<nil>"
  else
    match simpleMaskLength mask with
    | some ones => ipString number ++ [0x2F] ++ natToDecimal ones
    | none => ipString number ++ [0x2F] ++ hexEncode mask

/-! ## Bits -/

def byteBits (byte : UInt8) : List Bool :=
  (List.range 8).map (fun index => byte.toNat.testBit (7 - index))

def addressBits (ip : IP) : List Bool := ip.flatMap byteBits

@[simp] theorem length_byteBits (byte : UInt8) : (byteBits byte).length = 8 := by
  simp [byteBits]

@[simp] theorem addressBits_cons (byte : UInt8) (rest : IP) :
    addressBits (byte :: rest) = byteBits byte ++ addressBits rest := rfl

@[simp] theorem length_addressBits (ip : IP) : (addressBits ip).length = 8 * ip.length := by
  induction ip with
  | nil => rfl
  | cons byte rest ih =>
      rw [addressBits_cons, List.length_append, length_byteBits, ih, List.length_cons]
      omega

theorem byteBits_injective : Function.Injective byteBits := by
  intro byte other hbits
  apply UInt8.toNat_inj.mp
  apply Nat.eq_of_testBit_eq
  intro index
  by_cases hindex : index < 8
  · have hbit := congrArg (fun bits => bits[7 - index]?) hbits
    have hback : 7 - (7 - index) = index := by omega
    have hrange : 7 - index < 8 := by omega
    simpa [byteBits, hback, hrange] using hbit
  · have hlarge : 2 ^ 8 ≤ 2 ^ index := Nat.pow_le_pow_right (by decide) (not_lt.mp hindex)
    rw [Nat.testBit_eq_false_of_lt (lt_of_lt_of_le byte.toNat_lt hlarge),
      Nat.testBit_eq_false_of_lt (lt_of_lt_of_le other.toNat_lt hlarge)]

theorem addressBits_injective : Function.Injective addressBits := by
  intro ip other hbits
  induction ip generalizing other with
  | nil =>
      have hlength := congrArg List.length hbits
      rw [length_addressBits, length_addressBits] at hlength
      exact (List.length_eq_zero_iff.mp (by simpa using hlength.symm)).symm
  | cons byte rest ih =>
      cases other with
      | nil => simpa using congrArg List.length hbits
      | cons head tail =>
          rw [addressBits_cons, addressBits_cons] at hbits
          obtain ⟨hbyte, hrest⟩ := List.append_inj hbits (by simp)
          rw [byteBits_injective hbyte, ih hrest]

theorem byteBits_and (byte other : UInt8) :
    byteBits (byte &&& other) = List.zipWith and (byteBits byte) (byteBits other) := by
  simp [byteBits, UInt8.toNat_and, Nat.testBit_and, List.zipWith_map]

theorem addressBits_zipWith_and {ip mask : List UInt8} (hlength : ip.length = mask.length) :
    addressBits (List.zipWith (fun byte bits => byte &&& bits) ip mask) =
      List.zipWith and (addressBits ip) (addressBits mask) := by
  induction ip generalizing mask with
  | nil => simp [addressBits]
  | cons byte rest ih =>
      cases mask with
      | nil => cases hlength
      | cons bits tail =>
          rw [List.zipWith_cons_cons, addressBits_cons, addressBits_cons, addressBits_cons,
            byteBits_and, ih (by simpa using hlength), List.zipWith_append (by simp)]

/-! ## Masks -/

@[simp] theorem length_cidrMask (length ones : Nat) : (cidrMask length ones).length = length := by
  induction length generalizing ones with
  | zero => rfl
  | succ length ih =>
      rw [cidrMask]
      split_ifs <;> rw [List.length_cons, ih]

theorem byteBits_shift : ∀ ones : Fin 8, byteBits (~~~(0xFF >>> UInt8.ofNat ones)) =
    List.replicate ones true ++ List.replicate (8 - ones) false := by
  decide

variable {length ones : Nat}

theorem addressBits_cidrMask (hones : ones ≤ 8 * length) :
    addressBits (cidrMask length ones) =
      List.replicate ones true ++ List.replicate (8 * length - ones) false := by
  induction length generalizing ones with
  | zero =>
      obtain rfl : ones = 0 := by omega
      rfl
  | succ length ih =>
      rw [cidrMask]
      split_ifs with hfull
      · have hbyte : byteBits 0xFF = List.replicate 8 true := by decide
        rw [addressBits_cons, ih (by omega), hbyte, ← List.append_assoc,
          List.replicate_append_replicate, show 8 + (ones - 8) = ones by omega,
          show 8 * length - (ones - 8) = 8 * (length + 1) - ones by omega]
      · have hbyte := byteBits_shift ⟨ones, by omega⟩
        rw [addressBits_cons, ih (Nat.zero_le _), hbyte, List.append_assoc, List.replicate_zero,
          List.nil_append, List.replicate_append_replicate,
          show 8 - ones + (8 * length - 0) = 8 * (length + 1) - ones by omega]

theorem cidrMask_zero (length : Nat) : cidrMask length 0 = List.replicate length 0 := by
  induction length with
  | zero => rfl
  | succ length ih =>
      rw [cidrMask, if_neg (by decide), ih, List.replicate_succ]
      rfl

theorem simpleMaskLength_shift : ∀ ones : Fin 8,
    ~~~(0xFF >>> UInt8.ofNat ones) ≠ 0xFF ∧
      simpleMaskLength [~~~(0xFF >>> UInt8.ofNat ones)] = some ones.val := by
  decide

theorem simpleMaskLength_cidrMask (hones : ones ≤ 8 * length) :
    simpleMaskLength (cidrMask length ones) = some ones := by
  induction length generalizing ones with
  | zero =>
      obtain rfl : ones = 0 := by omega
      rfl
  | succ length ih =>
      rw [cidrMask]
      split_ifs with hfull
      · rw [simpleMaskLength, if_pos rfl, ih (by omega), Option.map_some,
          show 8 + (ones - 8) = ones by omega]
      · obtain ⟨hne, hlast⟩ := simpleMaskLength_shift ⟨ones, by omega⟩
        have hzeros : (List.replicate length (0 : UInt8)).all (· == 0) = true := by simp
        rw [simpleMaskLength, if_neg hne, if_pos (by rfl)] at hlast
        rw [cidrMask_zero, simpleMaskLength, if_neg hne, if_pos hzeros]
        exact hlast

theorem drop_cidrMask (front length ones : Nat) :
    (cidrMask (front + length) ones).drop front = cidrMask length (ones - 8 * front) := by
  induction front generalizing ones with
  | zero => simp
  | succ front ih =>
      rw [show front + 1 + length = front + length + 1 by omega, cidrMask]
      split_ifs with hfull
      · rw [List.drop_succ_cons, ih, show ones - 8 - 8 * front = ones - 8 * (front + 1) by omega]
      · rw [List.drop_succ_cons, ih, show 0 - 8 * front = ones - 8 * (front + 1) by omega]

theorem zipWith_and_replicate (bits : List Bool) {zeros : Nat}
    (hlength : bits.length = ones + zeros) :
    List.zipWith and bits (List.replicate ones true ++ List.replicate zeros false) =
      bits.take ones ++ List.replicate zeros false := by
  induction bits generalizing ones zeros with
  | nil =>
      obtain ⟨rfl, rfl⟩ : ones = 0 ∧ zeros = 0 := by simpa using hlength.symm
      rfl
  | cons bit rest ih =>
      cases ones with
      | succ ones =>
          have hrest : rest.length = ones + zeros := by
            rw [List.length_cons] at hlength
            omega
          simp [List.replicate_succ, ih hrest]
      | zero =>
          obtain ⟨zeros, rfl⟩ : ∃ fewer, zeros = fewer + 1 :=
            ⟨rest.length, by rw [List.length_cons] at hlength; omega⟩
          have hrest : rest.length = 0 + zeros := by
            rw [List.length_cons] at hlength
            omega
          simpa [List.replicate_succ] using ih hrest

theorem addressBits_masked {ip : IP} (hlength : ip.length = length) (hones : ones ≤ 8 * length) :
    addressBits (List.zipWith (fun byte bits => byte &&& bits) ip (cidrMask length ones)) =
      (addressBits ip).take ones ++ List.replicate (8 * length - ones) false := by
  rw [addressBits_zipWith_and (by simpa using hlength), addressBits_cidrMask hones,
    zipWith_and_replicate]
  rw [length_addressBits, hlength]
  omega

/-- Under a mask, what counts of an address is its beginning. -/
theorem zipWith_cidrMask_eq_iff {ip other : IP} (hlength : ip.length = other.length)
    (hones : ones ≤ 8 * ip.length) :
    List.zipWith (fun byte bits => byte &&& bits) ip (cidrMask ip.length ones) =
        List.zipWith (fun byte bits => byte &&& bits) other (cidrMask ip.length ones) ↔
      (addressBits ip).take ones = (addressBits other).take ones := by
  rw [← addressBits_injective.eq_iff, addressBits_masked rfl hones,
    addressBits_masked hlength.symm hones, List.append_left_inj]

theorem zipWith_and_idem (ip mask : List UInt8) :
    List.zipWith (fun byte bits => byte &&& bits)
        (List.zipWith (fun byte bits => byte &&& bits) ip mask) mask =
      List.zipWith (fun byte bits => byte &&& bits) ip mask := by
  induction ip generalizing mask with
  | nil => rfl
  | cons byte rest ih =>
      cases mask with
      | nil => rfl
      | cons bits tail =>
          rw [List.zipWith_cons_cons, List.zipWith_cons_cons, ih, UInt8.and_assoc, UInt8.and_self]

/-! ## Networks as blocks -/

/-- The address in its shortest form. -/
def shortest (ip : IP) : IP := (to4 ip).getD ip

/-- The network is one of IPv4 addresses, but has a prefix length of IPv6. -/
def isMapped (net : IPNet) : Bool := net.mask.length == 16 && (to4 net.ip).isSome

def block (net : IPNet) : Block Bool where
  width := 8 * (networkNumberAndMask net).1.length
  start := (addressBits (networkNumberAndMask net).1).take
    (maskSize (networkNumberAndMask net).2).1
  start_le := by
    rw [List.length_take, length_addressBits]
    exact min_le_right _ _

/-- A network with a mask of leading ones, and zeros behind them in its number. -/
structure Canonical (net : IPNet) (number : IP) (ones : Nat) : Prop where
  normal : networkNumberAndMask net = (number, cidrMask number.length ones)
  masked : List.zipWith (fun byte bits => byte &&& bits) number (cidrMask number.length ones) =
    number
  ones_le : ones ≤ 8 * number.length
  size : (maskSize net.mask).1 = ones + if isMapped net then 96 else 0
  short : isMapped net = true → number.length = 4

section Canonical

variable {net : IPNet} {number : IP} {ones : Nat}

theorem maskSize_cidrMask {length : Nat} (hones : ones ≤ 8 * length) :
    maskSize (cidrMask length ones) = (ones, length * 8) := by
  rw [maskSize, simpleMaskLength_cidrMask hones, length_cidrMask]

theorem Canonical.block_width (hnet : Canonical net number ones) :
    (block net).width = 8 * number.length := by
  change 8 * (networkNumberAndMask net).1.length = _
  rw [hnet.normal]

theorem Canonical.block_start (hnet : Canonical net number ones) :
    (block net).start = (addressBits number).take ones := by
  change (addressBits (networkNumberAndMask net).1).take
    (maskSize (networkNumberAndMask net).2).1 = _
  rw [hnet.normal, maskSize_cidrMask hnet.ones_le]

theorem Canonical.contains_iff (hnet : Canonical net number ones) (ip : IP) :
    contains net ip = true ↔ (block net).Holds (addressBits (shortest ip)) := by
  have hones := hnet.ones_le
  rw [Block.Holds, hnet.block_width, hnet.block_start, length_addressBits, contains, hnet.normal]
  simp only [Bool.and_eq_true, beq_iff_eq]
  have hwidth : 8 * (shortest ip).length = 8 * number.length ↔
      (shortest ip).length = number.length := by omega
  rw [hwidth]
  refine and_congr_right fun hlength => ?_
  have htake : ((addressBits number).take ones).length = ones := by
    rw [List.length_take, length_addressBits]
    omega
  rw [List.prefix_iff_eq_take, htake]
  exact zipWith_cidrMask_eq_iff hlength.symm hones

/-- The prefix length of a network, as it is written. -/
theorem Canonical.maskSize_eq (hnet : Canonical net number ones) :
    (maskSize net.mask).1 = (block net).start.length + if isMapped net then 96 else 0 := by
  have hones := hnet.ones_le
  rw [hnet.size, hnet.block_start, List.length_take, length_addressBits, min_eq_left hones]

variable {ip : IP}

/-- A network of four bytes. -/
theorem canonical_short (hlength : ip.length = 4) (hones : ones ≤ 32)
    (hmasked : List.zipWith (fun byte bits => byte &&& bits) ip (cidrMask 4 ones) = ip) :
    Canonical ⟨ip, cidrMask 4 ones⟩ ip ones := by
  have hto4 : to4 ip = some ip := by rw [to4, if_pos hlength]
  have hmapped : isMapped ⟨ip, cidrMask 4 ones⟩ = false := by
    simp [isMapped]
  refine ⟨?_, by rwa [hlength], by omega, ?_, ?_⟩
  · simp [networkNumberAndMask, hto4, hlength]
  · simp [hmapped, maskSize_cidrMask (show ones ≤ 8 * 4 by omega)]
  · simp [hmapped]

/-- A network of sixteen bytes is one of IPv4 addresses only if its prefix covers the
IPv4-mapped part. -/
theorem canonical_long (hlength : ip.length = 16) (hones : ones ≤ 128)
    (hmasked : List.zipWith (fun byte bits => byte &&& bits) ip (cidrMask 16 ones) = ip)
    (hcovered : (to4 ip).isSome → 96 ≤ ones) :
    ∃ number prefixLength, Canonical ⟨ip, cidrMask 16 ones⟩ number prefixLength := by
  cases hto4 : to4 ip with
  | none =>
      have hmapped : isMapped ⟨ip, cidrMask 16 ones⟩ = false := by
        simp [isMapped, hto4]
      refine ⟨ip, ones, ?_, by rwa [hlength], by omega, ?_, ?_⟩
      · simp [networkNumberAndMask, hto4, hlength]
      · simp [hmapped, maskSize_cidrMask (show ones ≤ 8 * 16 by omega)]
      · simp [hmapped]
  | some short =>
      have hmapped : isMapped ⟨ip, cidrMask 16 ones⟩ = true := by
        simp [isMapped, hto4]
      have hshort := to4_length hto4
      have hdropped : ip.drop 12 = short := by
        rw [to4, if_neg (by omega)] at hto4
        exact (Option.ite_none_right_eq_some.mp hto4).2 |> Option.some.inj
      have hdrop := drop_cidrMask 12 4 ones
      have hle : 96 ≤ ones := hcovered (by simp [hto4])
      refine ⟨short, ones - 96, ?_, ?_, by omega, ?_, fun _ => hshort⟩
      · simp [networkNumberAndMask, hto4, hshort, hdrop]
      · have htail := congrArg (List.drop 12) hmasked
        rw [List.drop_zipWith, hdrop, hdropped] at htail
        rwa [hshort]
      · rw [hmapped, maskSize_cidrMask (show ones ≤ 8 * 16 by omega)]
        simp only [if_true]
        omega

theorem eq_full_of_and {byte bits : UInt8} (hall : byte &&& bits = 0xFF) : bits = 0xFF := by
  have hle : byte.toNat &&& bits.toNat ≤ bits.toNat := Nat.and_le_right
  rw [← UInt8.toNat_and, hall] at hle
  have hlt := bits.toNat_lt
  apply UInt8.toNat_inj.mp
  exact le_antisymm (Nat.le_of_lt_succ hlt) hle

/-- A mask that keeps the last byte before the IPv4 part covers that part. -/
theorem le_of_masked
    (hmapped : (to4 (List.zipWith (fun byte bits => byte &&& bits) ip (cidrMask 16 ones))).isSome)
    (hlength : ip.length = 16) : 96 ≤ ones := by
  by_contra hless
  have hmask : (cidrMask 16 ones)[11]? = some (~~~(0xFF >>> UInt8.ofNat (ones - 88))) := by
    have hdrop := congrArg (fun mask => mask[0]?) (drop_cidrMask 11 5 ones)
    simpa [cidrMask, show ¬ 8 ≤ ones - 88 by omega] using hdrop
  have hwide :
      (List.zipWith (fun byte bits => byte &&& bits) ip (cidrMask 16 ones)).length = 16 := by
    simp [hlength]
  rw [to4, if_neg (by omega)] at hmapped
  split_ifs at hmapped with hfront
  · have hbyte := congrArg (fun bytes => bytes[1]?) hfront.2.2
    have hip : ip[11]? = some (ip.get ⟨11, by omega⟩) := List.getElem?_eq_getElem _
    simp only [List.getElem?_take, List.getElem?_drop, List.getElem?_zipWith, hmask, hip] at hbyte
    have hall : ip.get ⟨11, by omega⟩ &&& ~~~(0xFF >>> UInt8.ofNat (ones - 88)) = 0xFF := by
      simpa using hbyte
    exact (simpleMaskLength_shift ⟨ones - 88, by omega⟩).1 (eq_full_of_and hall)
  · cases hmapped

theorem maskIP_short {short : IP} (hlength : short.length = 4) :
    maskIP (List.replicate 10 0 ++ [0xFF, 0xFF] ++ short) (cidrMask 4 ones) =
      List.zipWith (fun byte bits => byte &&& bits) short (cidrMask 4 ones) := by
  simp [maskIP, hlength]

theorem maskIP_long (hlength : ip.length = 16) :
    maskIP ip (cidrMask 16 ones) =
      List.zipWith (fun byte bits => byte &&& bits) ip (cidrMask 16 ones) := by
  simp [maskIP, hlength]

theorem parseCIDR_canonical {text : GoString} (hparse : parseCIDR text = some net) :
    ∃ number ones, Canonical net number ones := by
  rw [parseCIDR] at hparse
  simp only [Option.bind_eq_bind, Option.bind_eq_some_iff, Option.ite_none_left_eq_some] at hparse
  obtain ⟨⟨address, length⟩, -, ip, hip, ones, -, hwidth, heq⟩ := hparse
  cases heq
  unfold addrLen at hwidth ⊢
  split_ifs at hwidth ⊢ with hdot
  · rw [parseIP, hdot] at hip
    obtain ⟨short, hshort, rfl⟩ := Option.map_eq_some_iff.mp hip
    have hlength := parseIPv4Fields_length hshort
    rw [maskIP_short hlength]
    exact ⟨_, ones, canonical_short (by simp [hlength]) (by omega) (zipWith_and_idem _ _)⟩
  · have hlength := parseIP_length hip
    rw [maskIP_long hlength]
    exact canonical_long (by simp [hlength]) (by omega) (zipWith_and_idem _ _)
      fun hmapped => le_of_masked hmapped hlength

/-- Networks with the same block are printed in the same way. -/
theorem Canonical.ipNetString_eq {other : IPNet} {otherNumber : IP} {otherOnes : Nat}
    (hnet : Canonical net number ones) (hother : Canonical other otherNumber otherOnes)
    (hblock : block net = block other) : ipNetString net = ipNetString other := by
  have hwidth := congrArg Block.width hblock
  rw [hnet.block_width, hother.block_width] at hwidth
  have hlength : otherNumber.length = number.length := by omega
  have hstart := congrArg Block.start hblock
  rw [hnet.block_start, hother.block_start] at hstart
  have hones : ones = otherOnes := by
    have hlengths := congrArg List.length hstart
    rw [List.length_take, List.length_take, length_addressBits, length_addressBits] at hlengths
    have hle := hnet.ones_le
    have hotherLe := hother.ones_le
    omega
  subst hones
  have hnumber : number = otherNumber := by
    rw [← hnet.masked, ← hother.masked, hlength]
    exact (addressBits_injective.eq_iff.mp (by
      rw [addressBits_masked rfl hnet.ones_le, addressBits_masked hlength hnet.ones_le, hstart]))
  have hpair : networkNumberAndMask net = networkNumberAndMask other := by
    rw [hnet.normal, hother.normal, hnumber]
  rw [ipNetString, ipNetString, hpair]

end Canonical

/-! ## Tables of networks -/

section Table

variable {Entry : Type} (net : Entry → IPNet)

/-- The narrowest of the networks that contain an address. -/
def narrowestNet (entries : List Entry) (ip : IP) : Option Entry :=
  narrowest (fun entry => block (net entry)) entries (addressBits (shortest ip))

variable {net} {entries : List Entry}

/-- A table that is sorted by prefix length as written looks at the networks written in
IPv4-mapped form first. -/
theorem find?_contains_eq
    (hcanonical : ∀ entry ∈ entries, ∃ number ones, Canonical (net entry) number ones) (ip : IP) :
    (entries.insertionSort (fun first second =>
        (maskSize (net second).mask).1 ≤ (maskSize (net first).mask).1)).find?
          (fun entry => contains (net entry) ip) =
      (narrowestNet net (entries.filter (fun entry => isMapped (net entry))) ip).or
        (narrowestNet net entries ip) := by
  have hsame : ∀ entry ∈ entries.insertionSort (fun first second =>
        (maskSize (net second).mask).1 ≤ (maskSize (net first).mask).1),
      contains (net entry) ip =
        decide ((block (net entry)).Holds (addressBits (shortest ip))) := by
    intro entry hentry
    rw [List.mem_insertionSort] at hentry
    obtain ⟨number, ones, hnet⟩ := hcanonical entry hentry
    rw [Bool.eq_iff_iff, hnet.contains_iff, decide_eq_true_eq]
  rw [List.find?_congr hsame]
  apply find?_sorted_eq
  · intro first hfirst second hsecond hfirstHolds hsecondHolds hmapped hplain
    obtain ⟨number, ones, hnet⟩ := hcanonical first hfirst
    obtain ⟨otherNumber, otherOnes, hother⟩ := hcanonical second hsecond
    have hlength := (block (net second)).start_le
    have hwidth := hsecondHolds.1.symm.trans hfirstHolds.1
    rw [hnet.block_width, hnet.short hmapped] at hwidth
    rw [hnet.maskSize_eq, hother.maskSize_eq, hmapped, hplain]
    simp only [if_true, Bool.false_eq_true, if_false]
    omega
  · intro first hfirst second hsecond _ _ hsame
    obtain ⟨number, ones, hnet⟩ := hcanonical first hfirst
    obtain ⟨otherNumber, otherOnes, hother⟩ := hcanonical second hsecond
    rw [hnet.maskSize_eq, hother.maskSize_eq, hsame]
    omega

/-- The block of a network is part of that of another. -/
def Subnet (net other : IPNet) : Prop := (block net).Within (block other)

variable {ip : IP}

/-- The narrowest network is still that in a part of the table. -/
theorem narrowestNet_filter {entry : Entry} (hnarrowest : narrowestNet net entries ip = some entry)
    {keep : Entry → Bool} (hkeep : keep entry = true) :
    narrowestNet net (entries.filter keep) ip = some entry :=
  narrowest_filter hnarrowest hkeep

theorem narrowestNet_eq_none_iff
    (hcanonical : ∀ entry ∈ entries, ∃ number ones, Canonical (net entry) number ones) :
    narrowestNet net entries ip = none ↔ ∀ entry ∈ entries, contains (net entry) ip = false := by
  rw [narrowestNet, narrowest_eq_none_iff]
  refine forall_congr' fun entry => forall_congr' fun hentry => ?_
  obtain ⟨number, ones, hnet⟩ := hcanonical entry hentry
  rw [← hnet.contains_iff, Bool.not_eq_true]

/-- The narrowest network contains the address and is a subnet of every other one that
does, and it is the first that is the same. -/
theorem narrowestNet_eq_some_iff
    (hcanonical : ∀ entry ∈ entries, ∃ number ones, Canonical (net entry) number ones)
    {entry : Entry} :
    narrowestNet net entries ip = some entry ↔
      entry ∈ entries ∧ contains (net entry) ip = true ∧
      (∀ other ∈ entries, contains (net other) ip = true → Subnet (net entry) (net other)) ∧
      ∃ front back, entries = front ++ entry :: back ∧
        ∀ other ∈ front, block (net other) ≠ block (net entry) := by
  have hiff : ∀ other ∈ entries, (block (net other)).Holds (addressBits (shortest ip)) ↔
      contains (net other) ip = true := by
    intro other hother
    obtain ⟨number, ones, hnet⟩ := hcanonical other hother
    exact hnet.contains_iff ip |>.symm
  rw [narrowestNet, narrowest_eq_some_iff]
  constructor
  · intro hnarrowest
    obtain ⟨hholds, hwithin, front, back, hentries, hfirst⟩ := hnarrowest
    have hmem : entry ∈ entries := by simp [hentries]
    exact ⟨hmem, (hiff entry hmem).mp hholds,
      fun other hother hcontains => hwithin other hother ((hiff other hother).mpr hcontains),
      front, back, hentries, hfirst⟩
  · intro hnarrowest
    obtain ⟨hmem, hcontains, hsubnet, hfirst⟩ := hnarrowest
    exact ⟨(hiff entry hmem).mpr hcontains,
      fun other hother hholds => hsubnet other hother ((hiff other hother).mp hholds), hfirst⟩

end Table

end Go.Net
