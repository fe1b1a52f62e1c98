import TopologyExporter.Discovery.Snmp

/-! # Neighbour walks

What the protocol walkers share: the fate of one row of a neighbour table, the
result of a walk, and the form of the edges that every walker produces.
-/

namespace TopologyExporter.Discovery

open Go Utf8 Strconv

/-- The fate of one neighbour row. A rejected row did not decode; a dropped row
decoded but is of no use. -/
inductive RowOutcome where
  | rejected
  | dropped
  | outOfScope (neighbour : OutOfScopeNeighbour)
  | edge (edge : Edge)

namespace RowOutcome

def edge? : RowOutcome → Option Edge
  | .edge found => some found
  | _ => none

def outOfScope? : RowOutcome → Option OutOfScopeNeighbour
  | .outOfScope found => some found
  | _ => none

def decoded : RowOutcome → Bool
  | .rejected => false
  | _ => true

end RowOutcome

/-- The edges and out-of-scope neighbours of one module walk, and the walker
outcomes it recorded, each a walker label with an outcome label. -/
structure WalkResult where
  edges : List Edge
  outOfScope : List OutOfScopeNeighbour
  outcomes : List (GoString × GoString)

def outcomeEdges : GoString := str "edges"
def outcomeMIBUnimplemented : GoString := str "mib_unimplemented"
def outcomeNoNeighbours : GoString := str "no_neighbours"
def outcomeWalkerDrift : GoString := str "walker_drift"

def classifyNeighbourOutcome (edgeCount : Nat) (hadPDUs decoded : Bool) : GoString :=
  if 0 < edgeCount then outcomeEdges
  else if !hadPDUs then outcomeMIBUnimplemented
  else if decoded then outcomeNoNeighbours
  else outcomeWalkerDrift

/-- Gathers the rows of a neighbour table into the result of the walk. -/
def collectRows (outcomes : List (GoString × GoString)) (rows : List RowOutcome) : WalkResult :=
  { edges := rows.filterMap RowOutcome.edge?
    outOfScope := rows.filterMap RowOutcome.outOfScope?
    outcomes := outcomes }

/-- The outcome a neighbour walk records for its rows. -/
def rowsOutcome (walker : GoString) (hadPDUs : Bool) (rows : List RowOutcome) :
    List (GoString × GoString) :=
  [(walker, classifyNeighbourOutcome (rows.filterMap RowOutcome.edge?).length hadPDUs
    (rows.any RowOutcome.decoded))]

theorem mem_collectRows {outcomes : List (GoString × GoString)} {rows : List RowOutcome}
    {edge : Edge} :
    edge ∈ (collectRows outcomes rows).edges ↔ RowOutcome.edge edge ∈ rows := by
  simp only [collectRows, List.mem_filterMap]
  constructor
  · rintro ⟨row, hrow, hedge⟩
    cases row with
    | edge found =>
        cases hedge
        exact hrow
    | rejected => cases hedge
    | dropped => cases hedge
    | outOfScope neighbour => cases hedge
  · exact fun hrow => ⟨_, hrow, rfl⟩

/-- A walk of several steps succeeds when each step does. -/
theorem bind_eq_ok {Failure First Second : Type} {first : Except Failure First}
    {next : First → Except Failure Second} {result : Second} :
    (first >>= next) = .ok result ↔ ∃ value, first = .ok value ∧ next value = .ok result := by
  cases first with
  | error failure => simp [bind, Except.bind]
  | ok value => simp [bind, Except.bind]

/-! ## Printable text -/

/-- Printable ASCII of bounded length. -/
structure Plain (bound : Nat) (text : GoString) : Prop where
  graphic : ∀ byte ∈ text, Graphic byte
  length_le : text.length ≤ bound

variable {bound : Nat} {text : GoString} {value : Int}

theorem plain_of_check (hgraphic : text.all (fun byte => decide (Graphic byte)) = true)
    (hlength : text.length ≤ bound) : Plain bound text :=
  ⟨fun byte hbyte => of_decide_eq_true (List.all_eq_true.mp hgraphic byte hbyte), hlength⟩

instance decidablePlain (bound : Nat) (text : GoString) : Decidable (Plain bound text) :=
  decidable_of_iff (text.all (fun byte => decide (Graphic byte)) = true ∧ text.length ≤ bound)
    ⟨fun h => plain_of_check h.1 h.2, fun h => ⟨List.all_eq_true.mpr fun byte hbyte =>
      decide_eq_true (h.graphic byte hbyte), h.length_le⟩⟩

namespace Plain

variable {bound : Nat} {text other : GoString}

theorem ascii (hplain : Plain bound text) : ∀ byte ∈ text, byte.toNat < 0x80 :=
  fun byte hbyte => (hplain.graphic byte hbyte).2.trans (by decide)

theorem valid (hplain : Plain bound text) : validString text = true :=
  validString_ascii hplain.ascii

theorem clean (hplain : Plain 255 text) : Clean text := by
  refine ⟨hplain.valid, hplain.length_le, ?_⟩
  intro rune hrune
  rw [runes_ascii hplain.ascii] at hrune
  obtain ⟨byte, hbyte, rfl⟩ := List.mem_map.mp hrune
  obtain ⟨hlow, hhigh⟩ := hplain.graphic byte hbyte
  simp only [Unicode.isControl, decide_eq_false_iff_not]
  omega

theorem mono {wider : Nat} (hplain : Plain bound text) (hbound : bound ≤ wider) :
    Plain wider text :=
  ⟨hplain.graphic, hplain.length_le.trans hbound⟩

theorem append {otherBound : Nat} (hplain : Plain bound text) (hother : Plain otherBound other) :
    Plain (bound + otherBound) (text ++ other) := by
  refine ⟨?_, ?_⟩
  · intro byte hbyte
    rcases List.mem_append.mp hbyte with hfront | hback
    · exact hplain.graphic byte hfront
    · exact hother.graphic byte hback
  · rw [List.length_append]
    exact Nat.add_le_add hplain.length_le hother.length_le

end Plain

theorem plain_itoa (hvalue : InRange value) : Plain 20 (itoa value) :=
  ⟨graphic_itoa value, itoa_length hvalue⟩

/-- The synthetic name of a port known only by a number. -/
theorem clean_numbered {label : GoString} (hlabel : Plain 16 label) (hvalue : InRange value) :
    Clean (label ++ itoa value) :=
  ((hlabel.append (plain_itoa hvalue)).mono (by decide)).clean

/-- The name of an interface, or its number where it has no name. -/
def interfaceName (ifNames : Map Int GoString) (ifIndex : Int) : GoString :=
  let name := (ifNames.lookup ifIndex).getD []
  if name = [] then str "if" ++ itoa ifIndex else name

theorem clean_interfaceName {ifNames : Map Int GoString}
    (hnames : ∀ index name, ifNames.lookup index = some name → Clean name) {ifIndex : Int}
    (hindex : InRange ifIndex) : Clean (interfaceName ifNames ifIndex) := by
  simp only [interfaceName]
  split
  · exact clean_numbered (by decide) hindex
  next hname =>
      cases hlookup : ifNames.lookup ifIndex with
      | none => simp [hlookup] at hname
      | some name => exact hnames ifIndex name hlookup

theorem clean_nil : Clean [] := ⟨rfl, by decide, by simp⟩

theorem valid_of_graphic (hgraphic : ∀ byte ∈ text, Graphic byte) : validString text = true :=
  (Plain.mk hgraphic le_rfl).valid

/-- A reason list is no longer than its reasons with a separator each. -/
theorem plain_joinReasonCodes {reasons : List GoString}
    (hreasons : ∀ reason ∈ reasons, Plain bound reason) :
    Plain (reasons.length * (bound + 1)) (joinReasonCodes reasons) := by
  have hgather : ∀ (pending ordered : List GoString), (∀ reason ∈ pending, Plain bound reason) →
      (∀ reason ∈ ordered, Plain bound reason) →
      (∀ reason ∈ pending.foldl (fun ordered reason =>
        if reason = [] ∨ reason ∈ ordered then ordered else ordered ++ [reason]) ordered,
        Plain bound reason) ∧
      (pending.foldl (fun ordered reason =>
        if reason = [] ∨ reason ∈ ordered then ordered else ordered ++ [reason])
        ordered).length ≤ ordered.length + pending.length := by
    intro pending
    induction pending with
    | nil => exact fun ordered _ hordered => ⟨hordered, le_rfl⟩
    | cons reason rest ih =>
        intro ordered hpending hordered
        rw [List.forall_mem_cons] at hpending
        rw [List.foldl_cons, List.length_cons]
        split_ifs
        · obtain ⟨hplain, hlength⟩ := ih ordered hpending.2 hordered
          exact ⟨hplain, by omega⟩
        · obtain ⟨hplain, hlength⟩ := ih (ordered ++ [reason]) hpending.2 (by
            intro found hfound
            rcases List.mem_append.mp hfound with hold | hnew
            · exact hordered found hold
            · rw [List.mem_singleton.mp hnew]
              exact hpending.1)
          rw [List.length_append, List.length_singleton] at hlength
          exact ⟨hplain, by omega⟩
  obtain ⟨hplain, hlength⟩ := hgather reasons [] hreasons (by simp)
  refine ⟨?_, ?_⟩
  · exact Net.forall_join (by decide) (fun part hpart => (hplain part hpart).graphic)
  · refine (Net.join_length 0x2C (fun part hpart => (hplain part hpart).length_le)).trans ?_
    exact Nat.mul_le_mul_right _ (by simpa using hlength)

/-- The codes that a walker puts on its edges. -/
def degradedReasons : List GoString :=
  [degradedReasonRequiredTablePartialDecode, degradedReasonMissingSrcPortMapping,
    degradedReasonMissingAdminStatusWalk, degradedReasonInvalidAdminStatusDecode]

theorem plain_degradedReason {reason : GoString} (hreason : reason ∈ degradedReasons) :
    Plain 64 reason := by
  have hall : ∀ code ∈ degradedReasons, code.all (fun byte => decide (Graphic byte)) = true ∧
      code.length ≤ 64 := by
    simp only [degradedReasons, List.forall_mem_cons]
    decide
  exact plain_of_check (hall reason hreason).1 (hall reason hreason).2

/-- The reasons of a walk: one for its required table and at most one more. -/
theorem plain_degradedReasonCodes (requiredDegraded : Bool) {others : List GoString}
    (hothers : others ⊆ degradedReasons) (hlength : others.length ≤ 1) :
    Plain 1024 (joinReasonCodes
      ((if requiredDegraded then [degradedReasonRequiredTablePartialDecode] else []) ++
        others)) := by
  have hrequired : (if requiredDegraded then [degradedReasonRequiredTablePartialDecode]
      else []) ⊆ degradedReasons ∧ (if requiredDegraded then
        [degradedReasonRequiredTablePartialDecode] else []).length ≤ 1 := by
    cases requiredDegraded
    · simp
    · simp [degradedReasons]
  refine (plain_joinReasonCodes (fun reason hreason => plain_degradedReason
    (List.append_subset.mpr ⟨hrequired.1, hothers⟩ hreason))).mono ?_
  rw [List.length_append]
  have hfirst := hrequired.2
  omega

/-- Marks metadata as degraded when there is a reason for it. -/
def markDegraded (degradedReason : GoString) (metadata : Map GoString GoString) :
    Map GoString GoString :=
  if degradedReason = [] then metadata
  else (metadata.insert metadataKeyDegraded (str "true")).insert metadataKeyDegradedReason
    degradedReason

/-! ## The edges of a walk -/

/-- Metadata that can be published as it is. -/
def PublishableMetadata (metadata : Map GoString GoString) : Prop :=
  ∀ key value, metadata.lookup key = some value → key ≠ [] ∧ Plain 64 key ∧ Plain 1024 value

/-- The protocols of the walkers and the ranks of their edges; a lower rank
prevails. -/
def protocolRanks : List (DiscoveryProtocol × Int) :=
  [(discoveryProtocolLLDP, 2), (discoveryProtocolCDP, 3), (discoveryProtocolFDB, 4),
    (discoveryProtocolISIS, 5), (discoveryProtocolOSPF, 6), (discoveryProtocolBGP, 7),
    (discoveryProtocolMPLSTE, 8)]

/-- What all walkers guarantee of an edge. Nothing is said about the length or
the content of the neighbour's name, nor that a port is named at all. -/
structure WalkedEdge (localDevice : GoString) (edge : Edge) : Prop where
  srcDevice_eq : edge.srcDevice = localDevice
  srcPort : Clean edge.srcPort
  dstDevice : validString edge.dstDevice = true
  dstPort : Clean edge.dstPort
  discoveryProto : Plain 16 edge.discoveryProto
  linkKind : Plain 16 edge.linkKind
  metadata : PublishableMetadata edge.metadata
  ranked : (edge.discoveryProto, edge.precedenceRank) ∈ protocolRanks
  fdb_dstPort : edge.discoveryProto = discoveryProtocolFDB → edge.dstPort = []

theorem publishableMetadata_empty : PublishableMetadata ∅ := by
  intro key value hlookup
  simp at hlookup

variable {metadata : Map GoString GoString}

theorem PublishableMetadata.insert (hmetadata : PublishableMetadata metadata) {key value : GoString}
    (hkey : key ≠ []) (hplain : Plain 64 key) (hvalue : Plain 1024 value) :
    PublishableMetadata (metadata.insert key value) := by
  intro found content hlookup
  by_cases hsame : found = key
  · subst hsame
    rw [AList.lookup_insert, Option.some.injEq] at hlookup
    subst hlookup
    exact ⟨hkey, hplain, hvalue⟩
  · rw [AList.lookup_insert_ne hsame] at hlookup
    exact hmetadata found content hlookup

theorem PublishableMetadata.markDegraded (hmetadata : PublishableMetadata metadata)
    {degradedReason : GoString} (hreason : Plain 1024 degradedReason) :
    PublishableMetadata (markDegraded degradedReason metadata) := by
  unfold Discovery.markDegraded
  split
  · exact hmetadata
  · refine PublishableMetadata.insert ?_ (by decide) (by decide) hreason
    exact hmetadata.insert (by decide) (by decide) (by decide)

end TopologyExporter.Discovery
