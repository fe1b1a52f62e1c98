import TopologyExporter.Discovery.Bgp

/-! # Row indexes of the vendor peer tables

The vendors document the index of a row as a list of numbers: the address of the
peer, of either family, behind an instance number in all tables but one. The
decoders read an index from the front and ignore what follows it.
-/

namespace TopologyExporter.Discovery.Bgp

open Go Strconv

/-! ## The documented indexes -/

/-- An address of either family. -/
structure InetAddress where
  octets : Net.IP
  width : octets.length = 4 ∨ octets.length = 16

namespace InetAddress

/-- The number of the address family. -/
def family (address : InetAddress) : Nat := if address.octets.length = 4 then 1 else 2

def numbers (address : InetAddress) : List Nat := address.octets.map UInt8.toNat

/-- An address in an index, with its length. -/
def explicitIndex (address : InetAddress) : List Nat :=
  address.family :: address.octets.length :: address.numbers

/-- An address in an index whose length the family implies. -/
def implicitIndex (address : InetAddress) : List Nat := address.family :: address.numbers

end InetAddress

inductive PeerTable where
  | cisco
  | arista
  | nokia
  | juniper
deriving DecidableEq

def PeerTable.spec : PeerTable → VendorTableSpec
  | .cisco => ciscoCbgpPeer2Spec
  | .arista => aristaBgp4v2Spec
  | .nokia => nokiaTBgpPeerSpec
  | .juniper => juniperJnxBgpM2PeerSpec

/-- The numbers are the index of a row whose peer has the address. -/
def PeerTable.Indexes : PeerTable → List Nat → Net.IP → Prop
  | .cisco, index, ip => ∃ peer : InetAddress, peer.octets = ip ∧ index = peer.explicitIndex
  | .arista, index, ip => ∃ (peerInstance : Nat) (peer : InetAddress), peer.octets = ip ∧
      index = peerInstance :: peer.explicitIndex
  | .nokia, index, ip => ∃ (vRtrID : Nat) (peer : InetAddress), peer.octets = ip ∧
      index = vRtrID :: peer.explicitIndex
  | .juniper, index, ip => ∃ (routingInstance : Nat) (localAddr remoteAddr : InetAddress),
      remoteAddr.octets = ip ∧
      index = routingInstance :: (localAddr.implicitIndex ++ remoteAddr.implicitIndex)

/-- The numbers of a dot-separated list. -/
def indexNumbers (suffix : GoString) : Option (List Nat) :=
  if suffix = [] then some [] else (Strings.split 0x2E suffix).mapM parseDigits

/-! ## Numbers that fit a machine integer -/

/-- Every number fits a machine integer. -/
def Fits (index : List Nat) : Prop := ∀ number ∈ index, (number : Int) ≤ maxInt

instance decidableFits (index : List Nat) : Decidable (Fits index) :=
  inferInstanceAs (Decidable (∀ number ∈ index, (number : Int) ≤ maxInt))

/-- The numbers as the decoders hold them. -/
def machineNumbers (index : List Nat) : List Int := index.map Int.ofNat

variable {number want next pos : Nat} {rest : List Nat} {first second : InetAddress}

theorem fits_cons : Fits (number :: rest) ↔ (number : Int) ≤ maxInt ∧ Fits rest :=
  List.forall_mem_cons

variable {index : List Nat} {suffix : GoString} {ip : Net.IP}

theorem mapM_atoi {parts : List GoString} (hindex : parts.mapM parseDigits = some index) :
    parts.mapM atoi = if Fits index then some (machineNumbers index) else none := by
  induction parts generalizing index with
  | nil =>
      cases hindex
      rfl
  | cons part rest ih =>
      simp only [List.mapM_cons, Option.bind_eq_bind, Option.bind_eq_some_iff,
        Option.pure_def, Option.some.injEq] at hindex
      obtain ⟨number, hnumber, others, hothers, rfl⟩ := hindex
      have hrange : InRange number ↔ (number : Int) ≤ maxInt :=
        and_iff_right ((show minInt ≤ 0 by decide).trans (Int.natCast_nonneg number))
      simp only [List.mapM_cons, atoi_of_parseDigits hnumber, ih hothers, rangeChecked, hrange,
        fits_cons]
      by_cases hfits : (number : Int) ≤ maxInt
      · by_cases hothers : Fits others
        · simp [hfits, hothers, machineNumbers]
        · simp [hfits, hothers]
      · simp [hfits]

theorem splitOIDParts_eq (hindex : indexNumbers suffix = some index) :
    splitOIDParts suffix = if Fits index then some (machineNumbers index) else none := by
  unfold indexNumbers at hindex
  unfold splitOIDParts
  by_cases hempty : suffix = []
  · rw [if_pos hempty] at hindex ⊢
    cases hindex
    rfl
  · rw [if_neg hempty] at hindex ⊢
    exact mapM_atoi hindex

/-! ## Reading an address -/

theorem octet_eq_some_iff {octet : UInt8} :
    (if (number : Int) < 0 ∨ 255 < (number : Int) then none
      else some (UInt8.ofNat (number : Int).toNat)) = some octet ↔ number = octet.toNat := by
  have hoctet := octet.toNat_lt
  have hlow : ¬ (number : Int) < 0 := not_lt.mpr (Int.natCast_nonneg number)
  by_cases hhigh : 255 < (number : Int)
  · rw [if_pos (Or.inr hhigh)]
    refine iff_of_false (Option.some_ne_none _).symm ?_
    omega
  · rw [if_neg (not_or.mpr ⟨hlow, hhigh⟩), Option.some.injEq, Int.toNat_natCast]
    have hbyte : (UInt8.ofNat number).toNat = number := Utf8.toNat_ofNat (by omega)
    exact ⟨fun heq => heq ▸ hbyte.symm, fun heq => heq ▸ UInt8.ofNat_toNat⟩

theorem forall₂_octet {numbers : List Nat} :
    List.Forall₂ (fun part octet => (if part < 0 ∨ 255 < part then none
      else some (UInt8.ofNat part.toNat)) = some octet) (machineNumbers numbers) ip ↔
      numbers = ip.map UInt8.toNat := by
  rw [machineNumbers, List.forall₂_map_left_iff]
  simp only [Int.ofNat_eq_natCast, octet_eq_some_iff]
  induction numbers generalizing ip with
  | nil => cases ip <;> simp
  | cons number rest ih => cases ip <;> simp [ih]

/-- The octets at the front of the numbers. -/
theorem readOctets_eq_some_iff :
    readOctets (machineNumbers index) want = some ip ↔
      ip.length = want ∧ ∃ rest, index = ip.map UInt8.toNat ++ rest := by
  unfold readOctets
  have htake : (machineNumbers index).take want = machineNumbers (index.take want) :=
    List.map_take.symm
  rw [htake, show (machineNumbers index).length = index.length from List.length_map _]
  by_cases hshort : index.length < want
  · rw [if_pos hshort]
    refine iff_of_false (Option.some_ne_none _).symm ?_
    intro hread
    obtain ⟨hwidth, rest, rfl⟩ := hread
    rw [List.length_append, List.length_map] at hshort
    omega
  · rw [if_neg hshort, mapM_eq_some_iff, forall₂_octet]
    constructor
    · intro hfront
      refine ⟨?_, index.drop want, ?_⟩
      · have hlength := congrArg List.length hfront
        rw [List.length_map, List.length_take] at hlength
        omega
      · rw [← hfront, List.take_append_drop]
    · intro hread
      obtain ⟨hwidth, rest, rfl⟩ := hread
      rw [List.take_left' (by rw [List.length_map, hwidth])]

theorem InetAddress.family_cases (address : InetAddress) :
    address.octets.length = 4 ∧ address.family = 1 ∨
      address.octets.length = 16 ∧ address.family = 2 := by
  unfold family
  rcases address.width with hshort | hlong
  · exact Or.inl ⟨hshort, if_pos hshort⟩
  · exact Or.inr ⟨hlong, if_neg (by omega)⟩

/-- A family and a number of octets belong together when some address has both. -/
theorem inetAddrWidth_eq_some_iff {family : Nat} :
    inetAddrWidth family = some want ↔ family = 1 ∧ want = 4 ∨ family = 2 ∧ want = 16 := by
  unfold inetAddrWidth inetAddrTypeIPv4 inetAddrTypeIPv6
  split_ifs with hshort hlong
  · simp only [Option.some.injEq]
    omega
  · simp only [Option.some.injEq]
    omega
  · simp only [false_iff]
    omega

/-- An address is read where the octets that its family calls for stand. -/
theorem inetAddress_iff {family : Nat} :
    inetAddrWidth family = some want ∧ readOctets (machineNumbers rest) want = some ip ↔
      want = ip.length ∧ ∃ (address : InetAddress) (extra : List Nat), address.octets = ip ∧
        family = address.family ∧ rest = address.numbers ++ extra := by
  rw [readOctets_eq_some_iff, inetAddrWidth_eq_some_iff]
  constructor
  · intro hread
    obtain ⟨hwidth, rfl, extra, hrest⟩ := hread
    refine ⟨rfl, ⟨ip, by omega⟩, extra, rfl, ?_, hrest⟩
    simp only [InetAddress.family]
    split_ifs <;> omega
  · intro haddress
    obtain ⟨rfl, address, extra, rfl, hfamily, hrest⟩ := haddress
    have hcases := address.family_cases
    exact ⟨by omega, rfl, extra, hrest⟩

theorem readInetAddrAt_eq_some_iff :
    readInetAddrAt (machineNumbers index) pos = some (ip, next) ↔
      ∃ (address : InetAddress) (extra : List Nat), address.octets = ip ∧
        index.drop pos = address.explicitIndex ++ extra ∧ next = pos + 2 + ip.length := by
  have hdrop : (machineNumbers index).drop pos = machineNumbers (index.drop pos) :=
    List.map_drop.symm
  rw [readInetAddrAt, hdrop]
  match index.drop pos with
  | [] => simp [machineNumbers, InetAddress.explicitIndex]
  | [family] => simp [machineNumbers, InetAddress.explicitIndex]
  | family :: length :: rest =>
      simp only [machineNumbers, List.map_cons, Int.ofNat_eq_natCast, Option.bind_eq_bind,
        Option.bind_eq_some_iff, ne_eq, ite_not, Option.ite_none_right_eq_some, Nat.cast_inj]
      rw [← machineNumbers]
      constructor
      · intro hread
        obtain ⟨want, hwidth, hlength, octets, hoctets, heq⟩ := hread
        cases heq
        obtain ⟨rfl, address, extra, rfl, hfamily, hrest⟩ :=
          inetAddress_iff.mp ⟨hwidth, hoctets⟩
        refine ⟨address, extra, rfl, ?_, rfl⟩
        rw [InetAddress.explicitIndex, hfamily, hrest, hlength]
        rfl
      · intro haddress
        obtain ⟨address, extra, rfl, hindex, rfl⟩ := haddress
        rw [InetAddress.explicitIndex, List.cons_append, List.cons_append, List.cons.injEq,
          List.cons.injEq] at hindex
        obtain ⟨hfamily, hlength, hrest⟩ := hindex
        obtain ⟨hwidth, hoctets⟩ :=
          inetAddress_iff.mpr ⟨rfl, address, extra, rfl, hfamily, hrest⟩
        exact ⟨_, hwidth, hlength, _, hoctets, rfl⟩

theorem readInetAddrImplicitAt_eq_some_iff :
    readInetAddrImplicitAt (machineNumbers index) pos = some (ip, next) ↔
      ∃ (address : InetAddress) (extra : List Nat), address.octets = ip ∧
        index.drop pos = address.implicitIndex ++ extra ∧ next = pos + 1 + ip.length := by
  have hdrop : (machineNumbers index).drop pos = machineNumbers (index.drop pos) :=
    List.map_drop.symm
  rw [readInetAddrImplicitAt, hdrop]
  match index.drop pos with
  | [] => simp [machineNumbers, InetAddress.implicitIndex]
  | family :: rest =>
      simp only [machineNumbers, List.map_cons, Int.ofNat_eq_natCast, Option.bind_eq_bind,
        Option.bind_eq_some_iff]
      rw [← machineNumbers]
      constructor
      · intro hread
        obtain ⟨want, hwidth, octets, hoctets, heq⟩ := hread
        cases heq
        obtain ⟨rfl, address, extra, rfl, hfamily, hrest⟩ :=
          inetAddress_iff.mp ⟨hwidth, hoctets⟩
        refine ⟨address, extra, rfl, ?_, rfl⟩
        rw [InetAddress.implicitIndex, hfamily, hrest]
        rfl
      · intro haddress
        obtain ⟨address, extra, rfl, hindex, rfl⟩ := haddress
        rw [InetAddress.implicitIndex, List.cons_append, List.cons.injEq] at hindex
        obtain ⟨hwidth, hoctets⟩ :=
          inetAddress_iff.mpr ⟨rfl, address, extra, rfl, hindex.1, hindex.2⟩
        exact ⟨_, hwidth, _, hoctets, rfl⟩

/-! ## The decoders -/

/-- The numbers start with the index of a row whose peer has the address. -/
def PeerTable.Starts (table : PeerTable) (index : List Nat) (ip : Net.IP) : Prop :=
  ∃ front extra, index = front ++ extra ∧ table.Indexes front ip

theorem bind_splitOIDParts (hindex : indexNumbers suffix = some index)
    {decode : List Int → Option Net.IP} :
    (splitOIDParts suffix).bind decode = some ip ↔
      Fits index ∧ decode (machineNumbers index) = some ip := by
  rw [splitOIDParts_eq hindex]
  by_cases hfits : Fits index
  · rw [if_pos hfits, Option.bind_some, and_iff_right hfits]
  · rw [if_neg hfits, Option.bind_none]
    exact iff_of_false (Option.some_ne_none _).symm (fun h => hfits h.1)

theorem decodeCiscoCbgpPeer2Index_eq_some_iff (hindex : indexNumbers suffix = some index) :
    decodeCiscoCbgpPeer2Index suffix = some ip ↔
      Fits index ∧ PeerTable.cisco.Starts index ip := by
  rw [decodeCiscoCbgpPeer2Index, Option.bind_eq_bind, bind_splitOIDParts hindex]
  refine and_congr_right fun _ => ?_
  simp only [Option.bind_eq_bind, Option.bind_eq_some_iff, Prod.exists,
    readInetAddrAt_eq_some_iff, Option.some.injEq, List.drop_zero]
  constructor
  · intro hread
    obtain ⟨octets, next, ⟨address, extra, hoctets, hnumbers, -⟩, rfl⟩ := hread
    exact ⟨address.explicitIndex, extra, hnumbers, address, hoctets, rfl⟩
  · intro hstarts
    obtain ⟨front, extra, hnumbers, address, hoctets, rfl⟩ := hstarts
    exact ⟨ip, _, ⟨address, extra, hoctets, hnumbers, rfl⟩, rfl⟩

/-- What the two tables with a leading instance number have in common. -/
theorem decodeInstanceIndex_eq_some_iff (hindex : indexNumbers suffix = some index) :
    decodeInstanceIndex suffix = some ip ↔
      Fits index ∧ ∃ front extra, index = front ++ extra ∧ ∃ (number : Nat) (peer : InetAddress),
        peer.octets = ip ∧ front = number :: peer.explicitIndex := by
  rw [decodeInstanceIndex, Option.bind_eq_bind, bind_splitOIDParts hindex]
  refine and_congr_right fun _ => ?_
  match index with
  | [] => simp [machineNumbers, InetAddress.explicitIndex]
  | number :: rest =>
      have hlength : ¬ (machineNumbers (number :: rest)).length < 1 := by simp [machineNumbers]
      simp only [if_neg hlength, Option.bind_eq_bind, Option.bind_eq_some_iff, Prod.exists,
        readInetAddrAt_eq_some_iff, Option.some.injEq, List.drop_one, List.tail_cons]
      constructor
      · intro hread
        obtain ⟨octets, next, ⟨address, extra, hoctets, rfl, -⟩, rfl⟩ := hread
        exact ⟨number :: address.explicitIndex, extra, rfl, number, address, hoctets, rfl⟩
      · intro hstarts
        obtain ⟨front, extra, hnumbers, first, address, hoctets, rfl⟩ := hstarts
        rw [List.cons_append, List.cons.injEq] at hnumbers
        exact ⟨ip, _, ⟨address, extra, hoctets, hnumbers.2, rfl⟩, rfl⟩

theorem decodeJuniperJnxBgpM2Index_eq_some_iff (hindex : indexNumbers suffix = some index) :
    decodeJuniperJnxBgpM2Index suffix = some ip ↔
      Fits index ∧ PeerTable.juniper.Starts index ip := by
  rw [decodeJuniperJnxBgpM2Index, Option.bind_eq_bind, bind_splitOIDParts hindex]
  refine and_congr_right fun _ => ?_
  match index with
  | [] => simp [machineNumbers, InetAddress.implicitIndex, PeerTable.Starts, PeerTable.Indexes]
  | number :: rest =>
      have hlength : ¬ (machineNumbers (number :: rest)).length < 1 := by simp [machineNumbers]
      simp only [if_neg hlength, Option.bind_eq_bind, Option.bind_eq_some_iff, Prod.exists,
        readInetAddrImplicitAt_eq_some_iff, Option.some.injEq, List.drop_one, List.tail_cons]
      -- the second address starts where the first one ends
      have hbehind : ∀ (address : InetAddress) (behind : List Nat),
          (number :: (address.implicitIndex ++ behind)).drop (1 + 1 + address.octets.length) =
            behind := by
        intro address behind
        rw [← List.cons_append]
        apply List.drop_left'
        rw [InetAddress.implicitIndex, InetAddress.numbers, List.length_cons, List.length_cons,
          List.length_map]
        omega
      constructor
      · intro hread
        obtain ⟨octets, next, ⟨nearer, behind, rfl, rfl, rfl⟩, other, last,
          ⟨address, extra, hoctets, hnumbers, -⟩, rfl⟩ := hread
        rw [hbehind] at hnumbers
        refine ⟨number :: (nearer.implicitIndex ++ address.implicitIndex), extra, ?_, number,
          nearer, address, hoctets, rfl⟩
        rw [hnumbers, List.cons_append, List.append_assoc]
      · intro hstarts
        obtain ⟨front, extra, hnumbers, first, nearer, address, hoctets, rfl⟩ := hstarts
        rw [List.cons_append, List.append_assoc, List.cons.injEq] at hnumbers
        obtain ⟨-, rfl⟩ := hnumbers
        refine ⟨nearer.octets, _, ⟨nearer, address.implicitIndex ++ extra, rfl, rfl, rfl⟩, ip, _,
          ⟨address, extra, hoctets, ?_, rfl⟩, rfl⟩
        exact hbehind nearer _

/-- Each decoder reads an index from the front. -/
theorem decodeIndex_eq_some_iff (table : PeerTable) (hindex : indexNumbers suffix = some index) :
    table.spec.decodeIndex suffix = some ip ↔ Fits index ∧ table.Starts index ip := by
  cases table with
  | cisco => exact decodeCiscoCbgpPeer2Index_eq_some_iff hindex
  | arista => exact decodeInstanceIndex_eq_some_iff hindex
  | nokia => exact decodeInstanceIndex_eq_some_iff hindex
  | juniper => exact decodeJuniperJnxBgpM2Index_eq_some_iff hindex

/-! ## Where an index ends -/

theorem InetAddress.length_numbers (address : InetAddress) :
    address.numbers.length = address.octets.length :=
  List.length_map _

/-- The family at the front of an index says how long it is. -/
theorem InetAddress.length_eq_of_family (hfamily : first.family = second.family) :
    first.octets.length = second.octets.length := by
  rcases first.family_cases with ⟨hfirst, hone⟩ | ⟨hfirst, hone⟩
  · rcases second.family_cases with ⟨hsecond, htwo⟩ | ⟨hsecond, htwo⟩
    · rw [hfirst, hsecond]
    · omega
  · rcases second.family_cases with ⟨hsecond, htwo⟩ | ⟨hsecond, htwo⟩
    · omega
    · rw [hfirst, hsecond]

theorem InetAddress.extra_eq_nil {first second : InetAddress} {extra : List Nat}
    (hsame : first.implicitIndex ++ extra = second.implicitIndex) : extra = [] := by
  have hlength := congrArg List.length hsame
  rw [implicitIndex, implicitIndex, List.cons_append, List.cons.injEq] at hsame
  have hwidth := length_eq_of_family hsame.1
  simp only [implicitIndex, List.length_append, List.length_cons, length_numbers] at hlength
  exact List.eq_nil_of_length_eq_zero (by omega)

theorem InetAddress.explicit_extra_eq_nil {extra : List Nat}
    (hsame : first.explicitIndex ++ extra = second.explicitIndex) : extra = [] := by
  refine @extra_eq_nil first second extra ?_
  rw [explicitIndex, explicitIndex, List.cons_append, List.cons_append, List.cons.injEq,
    List.cons.injEq] at hsame
  rw [implicitIndex, implicitIndex, List.cons_append, hsame.1, hsame.2.2]

/-- No index of a row goes on after that of another row. -/
theorem PeerTable.extra_eq_nil {table : PeerTable} {front extra : List Nat} {ip other : Net.IP}
    (hfront : table.Indexes front ip) (hwhole : table.Indexes (front ++ extra) other) :
    extra = [] := by
  cases table with
  | cisco =>
      obtain ⟨first, _, rfl⟩ := hfront
      obtain ⟨second, _, hsecond⟩ := hwhole
      exact InetAddress.explicit_extra_eq_nil hsecond
  | arista =>
      obtain ⟨_, first, _, rfl⟩ := hfront
      obtain ⟨_, second, _, hsecond⟩ := hwhole
      exact InetAddress.explicit_extra_eq_nil (List.cons.inj hsecond).2
  | nokia =>
      obtain ⟨_, first, _, rfl⟩ := hfront
      obtain ⟨_, second, _, hsecond⟩ := hwhole
      exact InetAddress.explicit_extra_eq_nil (List.cons.inj hsecond).2
  | juniper =>
      obtain ⟨_, nearer, first, _, rfl⟩ := hfront
      obtain ⟨_, nearby, second, _, hsecond⟩ := hwhole
      have haddresses := (List.cons.inj hsecond).2
      rw [List.append_eq, List.append_assoc] at haddresses
      have hfamily : nearer.family = nearby.family := (List.cons.inj haddresses).1
      have hwidth : nearer.implicitIndex.length = nearby.implicitIndex.length := by
        simp only [InetAddress.implicitIndex, List.length_cons, InetAddress.length_numbers,
          InetAddress.length_eq_of_family hfamily]
      exact InetAddress.extra_eq_nil (List.append_inj haddresses hwidth).2

/-! ## When a decoder is exact -/

/-- A decoder accepts the indexes of its table and nothing else on the suffixes
where nothing follows an index and its numbers are machine integers. Something may
follow it if that alone makes the suffix unreadable. -/
theorem decoder_exact_iff (table : PeerTable) (suffix : GoString) (index : List Nat)
    (hindex : indexNumbers suffix = some index) :
    (∀ ip, table.spec.decodeIndex suffix = some ip ↔ table.Indexes index ip) ↔
      ∀ front extra ip, index = front ++ extra → table.Indexes front ip →
        (extra = [] ↔ ∀ number ∈ index, (number : Int) ≤ maxInt) := by
  simp only [decodeIndex_eq_some_iff table hindex]
  constructor
  · intro hexact front extra ip hnumbers hfront
    constructor
    · intro hend
      rw [hend, List.append_nil] at hnumbers
      exact ((hexact ip).mpr (hnumbers ▸ hfront)).1
    · intro hfits
      have hwhole := (hexact ip).mp ⟨hfits, front, extra, hnumbers, hfront⟩
      exact PeerTable.extra_eq_nil hfront (hnumbers ▸ hwhole)
  · intro hends ip
    constructor
    · intro hdecoded
      obtain ⟨hfits, front, extra, hnumbers, hfront⟩ := hdecoded
      have hend := (hends front extra ip hnumbers hfront).mpr hfits
      rw [hnumbers, hend, List.append_nil]
      exact hfront
    · intro hwhole
      refine ⟨(hends index [] ip (List.append_nil index).symm hwhole).mp rfl, index, [], ?_,
        hwhole⟩
      rw [List.append_nil]

/-- A captured index is decoded exactly. -/
theorem captured_index_exact :
    indexNumbers (str "0.1.192.0.2.1.1.192.0.2.2") = some [0, 1, 192, 0, 2, 1, 1, 192, 0, 2, 2] ∧
    ∀ ip, PeerTable.juniper.spec.decodeIndex (str "0.1.192.0.2.1.1.192.0.2.2") = some ip ↔
      PeerTable.juniper.Indexes [0, 1, 192, 0, 2, 1, 1, 192, 0, 2, 2] ip := by
  have hindex : indexNumbers (str "0.1.192.0.2.1.1.192.0.2.2") =
      some [0, 1, 192, 0, 2, 1, 1, 192, 0, 2, 2] := by
    decide
  refine ⟨hindex, (decoder_exact_iff .juniper _ _ hindex).mpr ?_⟩
  have hwhole : PeerTable.juniper.Indexes [0, 1, 192, 0, 2, 1, 1, 192, 0, 2, 2] [192, 0, 2, 2] :=
    ⟨0, ⟨[192, 0, 2, 1], Or.inl rfl⟩, ⟨[192, 0, 2, 2], Or.inl rfl⟩, rfl, rfl⟩
  intro front extra ip hnumbers hfront
  rw [hnumbers] at hwhole
  exact iff_of_true (PeerTable.extra_eq_nil hfront hwhole) (by decide)

/-- An index with a number behind it is decoded as if it ended before. -/
theorem trailing_number_accepted :
    indexNumbers (str "1.4.10.0.0.2.99") = some [1, 4, 10, 0, 0, 2, 99] ∧
    PeerTable.cisco.spec.decodeIndex (str "1.4.10.0.0.2.99") = some [10, 0, 0, 2] ∧
    ¬ PeerTable.cisco.Indexes [1, 4, 10, 0, 0, 2, 99] [10, 0, 0, 2] := by
  refine ⟨by decide, by decide, ?_⟩
  intro hwhole
  obtain ⟨peer, hoctets, hnumbers⟩ := hwhole
  rw [InetAddress.explicitIndex, InetAddress.numbers, hoctets] at hnumbers
  exact absurd (congrArg List.length hnumbers) (by simp)

end TopologyExporter.Discovery.Bgp
