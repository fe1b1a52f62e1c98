import TopologyExporter.Discovery.Types
import TopologyExporter.Discovery.Names

/-! # Link keys

Two observations describe the same link when they name the same endpoints, in
either order and up to the spelling of the port names. The key of a link lists
its endpoints in the smaller of the two orders.
-/

namespace TopologyExporter.Graph

open Go Utf8 Discovery

/-! ## Port names -/

/-- Long interface name prefixes and their short forms, in the order tried. -/
def portPrefixes : List (GoString × GoString) :=
  [(str "HundredGigabitEthernet", str "Hu"), (str "HundredGigE", str "Hu"),
    (str "FortyGigabitEthernet", str "Fo"), (str "TwentyFiveGigE", str "Twe"),
    (str "TenGigabitEthernet", str "Te"), (str "TwoGigabitEthernet", str "Tw"),
    (str "GigabitEthernet", str "Gi"), (str "FastEthernet", str "Fa"),
    (str "Ethernet", str "Eth"), (str "Management", str "Mgmt"),
    (str "Port-channel", str "Po"), (str "Loopback", str "Lo"), (str "Tunnel", str "Tu"),
    (str "Vlan", str "Vl")]

/-- The prefix is matched on the lower-cased name, but as many bytes as the
long form has are cut off the name as it was. -/
def normalizePortName (name : GoString) : GoString :=
  let stripped := stripControl name
  let lower := Strings.toLower stripped
  match portPrefixes.find? (fun entry => Strings.hasPrefix lower (Strings.toLower entry.1)) with
  | some entry => entry.2 ++ stripped.drop entry.1.length
  | none => stripped

theorem normalizePortName_cases (name : GoString) :
    normalizePortName name = stripControl name ∨
      ∃ entry ∈ portPrefixes,
        normalizePortName name = entry.2 ++ (stripControl name).drop entry.1.length ∧
        Strings.hasPrefix (Strings.toLower (stripControl name)) (Strings.toLower entry.1) := by
  unfold normalizePortName
  simp only
  split
  next entry hfind =>
      have hmatch := List.find?_some hfind
      exact Or.inr ⟨entry, List.mem_of_find?_eq_some hfind, rfl, hmatch⟩
  next => exact Or.inl rfl

theorem portPrefixes_short : ∀ entry ∈ portPrefixes,
    entry.2 ≠ [] ∧ (entry.2.length ≤ 4 ∧ entry.2.length ≤ entry.1.length) ∧
      entry.2.all (fun byte => decide (0x20 ≤ byte.toNat ∧ byte.toNat < 0x7F)) = true ∧
      Strings.toLower entry.1 ≠ [] := by
  decide +kernel

variable {name : GoString}

/-- Only the empty name and names made of control characters have no normal
form. -/
theorem normalizePortName_eq_nil : normalizePortName name = [] ↔ stripControl name = [] := by
  rcases normalizePortName_cases name with hsame | ⟨entry, hentry, hshort, hmatch⟩
  · rw [hsame]
  · obtain ⟨hnonempty, -, -, hlong⟩ := portPrefixes_short entry hentry
    constructor
    · intro hnil
      rw [hshort, List.append_eq_nil_iff] at hnil
      exact absurd hnil.1 hnonempty
    · intro hnil
      -- the long form would have to be a prefix of the empty name
      rw [hnil, Strings.hasPrefix] at hmatch
      have hstarts := List.isPrefixOf_iff_prefix.mp hmatch
      exact absurd (List.prefix_nil.mp hstarts) hlong

theorem normalizePortName_nil : normalizePortName [] = [] := by
  rw [normalizePortName_eq_nil]
  rfl

/-- A short form has at most four bytes, so normalising keeps a name within any
bound that allows these. -/
theorem length_normalizePortName_le {bound : Nat} (hvalid : validString name = true)
    (hname : name.length ≤ bound) (hbound : 4 ≤ bound) :
    (normalizePortName name).length ≤ bound := by
  have hstrip := length_stripControl_le hvalid
  rcases normalizePortName_cases name with hsame | ⟨entry, hentry, hshort, -⟩
  · rw [hsame]
    omega
  · obtain ⟨-, hle, -, -⟩ := portPrefixes_short entry hentry
    rw [hshort, List.length_append, List.length_drop]
    omega

/-- Normalising a clean name neither lengthens it nor brings in a control
character. It may cut through a rune, so the result need not be valid. -/
theorem normalizePortName_clean (hclean : Clean name) :
    (normalizePortName name).length ≤ 255 ∧
      ∀ byte ∈ normalizePortName name, 0x20 ≤ byte.toNat ∧ byte.toNat ≠ 0x7F := by
  have hstrip := stripControl_eq_self hclean.valid hclean.noControl
  have hlength := hclean.length_le
  rcases normalizePortName_cases name with hsame | ⟨entry, hentry, hshort, -⟩
  · rw [hsame, hstrip]
    exact ⟨hlength, hclean.bytes⟩
  · obtain ⟨-, hle, hplain, -⟩ := portPrefixes_short entry hentry
    rw [hshort, hstrip]
    refine ⟨?_, ?_⟩
    · rw [List.length_append, List.length_drop]
      omega
    · intro byte hbyte
      rcases List.mem_append.mp hbyte with hfront | hback
      · have hrange := of_decide_eq_true (List.all_eq_true.mp hplain byte hfront)
        omega
      · exact hclean.bytes byte (List.mem_of_mem_drop hback)

/-! ## Keys -/

structure EdgeKey where
  srcDevice : GoString
  srcPort : GoString
  dstDevice : GoString
  dstPort : GoString
deriving DecidableEq

namespace EdgeKey

def tuple (key : EdgeKey) : GoString ×ₗ GoString ×ₗ GoString ×ₗ GoString :=
  toLex (key.srcDevice, toLex (key.srcPort, toLex (key.dstDevice, key.dstPort)))

theorem tuple_injective : Function.Injective tuple := by
  rintro ⟨srcDevice, srcPort, dstDevice, dstPort⟩ ⟨srcDevice', srcPort', dstDevice', dstPort'⟩
    heq
  simpa [tuple] using heq

/-- Keys are ordered field by field. -/
instance : LinearOrder EdgeKey := LinearOrder.lift' tuple tuple_injective

theorem le_iff {first second : EdgeKey} : first ≤ second ↔ first.tuple ≤ second.tuple := Iff.rfl

/-- The same link seen from the other side. -/
def swap (key : EdgeKey) : EdgeKey :=
  ⟨key.dstDevice, key.dstPort, key.srcDevice, key.srcPort⟩

@[simp] theorem swap_swap (key : EdgeKey) : key.swap.swap = key := rfl

end EdgeKey

def compareEdgeKey (first second : EdgeKey) : Ordering :=
  if first.srcDevice < second.srcDevice then .lt
  else if second.srcDevice < first.srcDevice then .gt
  else if first.srcPort < second.srcPort then .lt
  else if second.srcPort < first.srcPort then .gt
  else if first.dstDevice < second.dstDevice then .lt
  else if second.dstDevice < first.dstDevice then .gt
  else if first.dstPort < second.dstPort then .lt
  else if second.dstPort < first.dstPort then .gt
  else .eq

variable {first second : EdgeKey}

/-- The comparison decides the order of the keys. -/
theorem compareEdgeKey_ne_gt : compareEdgeKey first second ≠ .gt ↔ first ≤ second := by
  rw [EdgeKey.le_iff, EdgeKey.tuple, EdgeKey.tuple, Prod.Lex.toLex_le_toLex,
    Prod.Lex.toLex_le_toLex, Prod.Lex.toLex_le_toLex]
  unfold compareEdgeKey
  split_ifs with h1 h2 h3 h4 h5 h6 h7 h8
  all_goals grind

theorem compareEdgeKey_eq_lt : compareEdgeKey first second = .lt ↔ first < second := by
  rw [← not_le, ← compareEdgeKey_ne_gt, not_not]
  unfold compareEdgeKey
  split_ifs
  all_goals grind

/-- The endpoints in the smaller of the two orders. -/
def canonical (key : EdgeKey) : EdgeKey :=
  if compareEdgeKey key key.swap ≠ .gt then key else key.swap

theorem canonical_eq (key : EdgeKey) : canonical key = min key key.swap := by
  unfold canonical
  rw [min_def]
  exact if_congr compareEdgeKey_ne_gt rfl rfl

theorem canonical_cases (key : EdgeKey) : canonical key = key ∨ canonical key = key.swap := by
  rw [canonical_eq]
  exact min_choice key key.swap

@[simp] theorem canonical_swap (key : EdgeKey) : canonical key.swap = canonical key := by
  rw [canonical_eq, canonical_eq, EdgeKey.swap_swap, min_comm]

@[simp] theorem canonical_canonical (key : EdgeKey) :
    canonical (canonical key) = canonical key := by
  rcases canonical_cases key with hsame | hswap
  · rw [hsame, hsame]
  · rw [hswap, canonical_swap, hswap]

/-- Endpoints have the same canonical order when they are the same or the same
seen from the other side. -/
theorem canonical_eq_canonical :
    canonical first = canonical second ↔ first = second ∨ first = second.swap := by
  constructor
  · intro hsame
    rcases canonical_cases first with hfirst | hfirst
    all_goals rcases canonical_cases second with hsecond | hsecond
    all_goals rw [hfirst, hsecond] at hsame
    · exact Or.inl hsame
    · exact Or.inr hsame
    · apply Or.inr
      rw [← hsame, EdgeKey.swap_swap]
    · apply Or.inl
      rw [← first.swap_swap, hsame, EdgeKey.swap_swap]
  · rintro (rfl | rfl)
    · rfl
    · exact canonical_swap second

/-- With two different devices the smaller device comes first. -/
theorem canonical_of_lt {key : EdgeKey} (hlt : key.srcDevice < key.dstDevice) :
    canonical key = key := by
  unfold canonical compareEdgeKey
  simp [EdgeKey.swap, hlt]

theorem canonical_of_gt {key : EdgeKey} (hgt : key.dstDevice < key.srcDevice) :
    canonical key = key.swap := by
  rw [← canonical_swap]
  exact canonical_of_lt hgt

/-- The endpoints of an observation. -/
def endpoints (edge : Edge) : EdgeKey :=
  ⟨edge.srcDevice, edge.srcPort, edge.dstDevice, edge.dstPort⟩

theorem devices_of_endpoints {edge : Edge} {link : EdgeKey} (hends : endpoints edge = link) :
    edge.srcDevice = link.srcDevice ∧ edge.dstDevice = link.dstDevice := by
  subst hends
  exact ⟨rfl, rfl⟩

/-- The endpoints with normalised port names. -/
def normalizedEndpoints (edge : Edge) : EdgeKey :=
  ⟨edge.srcDevice, normalizePortName edge.srcPort, edge.dstDevice, normalizePortName edge.dstPort⟩

def key (edge : Edge) : EdgeKey := canonical (endpoints edge)

def normalizedGroupKey (edge : Edge) : EdgeKey := canonical (normalizedEndpoints edge)

end TopologyExporter.Graph
