import TopologyExporter.Federation.Validate

/-! # Snapshot files

The graph is persisted as one document, replaced as a whole. Loading checks the
version and a length cap per field; a document that does not parse or has
another version is moved out of the way. A writer that presents a lease epoch
is refused when the document it would replace carries a higher one. The
encoding of the document is not modelled: a document is read back as it was
written.
-/

namespace TopologyExporter.Snapshot

open Go Discovery Federation

def currentVersion : Int := 3

def maxShortFieldBytes : Nat := 256
def maxProtoBytes : Nat := 64
def maxValidationErrors : Nat := 100

structure File where
  version : Int
  writtenAt : Time
  devices : List Device
  edges : List Edge
  outOfScope : List OutOfScopeNeighbour
  credentialCache : Map GoString GoString
  unconfirmedAges : Map GoString Int
  holder : GoString
  leaseEpoch : Nat
deriving DecidableEq

/-! ## Field caps -/

/-- A field that is too long; for a value of a map, the key it stands under. -/
structure LengthError where
  path : FieldPath
  key : Option GoString
  limit : Nat
  length : Nat
deriving DecidableEq

inductive FieldError where
  | exceeds (error : LengthError)
  | omitted (cap : Nat)
deriving DecidableEq

/-- A field with its name, its text and its cap. -/
structure Capped where
  field : GoString
  key : Option GoString
  text : GoString
  limit : Nat

def Capped.error (list : GoString) (index : Nat) (capped : Capped) : Option LengthError :=
  if capped.limit < capped.text.length then
    some ⟨⟨list, index, capped.field⟩, capped.key, capped.limit, capped.text.length⟩
  else none

/-- The key and the value of every item of a map. -/
def cappedItems (order : RangeOrder) (site : Nat) (name : GoString)
    (items : Map GoString GoString) : List Capped :=
  (items.range order site).flatMap (fun (key, value) =>
    [⟨name ++ str " key", none, key, maxLabelKeyBytes⟩,
      ⟨name ++ str " value", some key, value, maxLabelValueBytes⟩])

def cappedDevice (order : RangeOrder) (device : Device) : List Capped :=
  [⟨str "id", none, device.id, maxDeviceIDBytes⟩,
    ⟨str "vendor", none, device.vendor, maxShortFieldBytes⟩,
    ⟨str "model", none, device.model, maxShortFieldBytes⟩,
    ⟨str "os_version", none, device.osVersion, maxShortFieldBytes⟩,
    ⟨str "site", none, device.site, maxShortFieldBytes⟩] ++
    cappedItems order 7 (str "labels") device.labels

def cappedEdge (order : RangeOrder) (edge : Edge) : List Capped :=
  [⟨str "src_device", none, edge.srcDevice, maxDeviceIDBytes⟩,
    ⟨str "dst_device", none, edge.dstDevice, maxDeviceIDBytes⟩,
    ⟨str "src_port", none, edge.srcPort, maxPortNameBytes⟩,
    ⟨str "dst_port", none, edge.dstPort, maxPortNameBytes⟩,
    ⟨str "discovery_proto", none, edge.discoveryProto, maxProtoBytes⟩,
    ⟨str "link_kind", none, edge.linkKind, maxProtoBytes⟩] ++
    cappedItems order 8 (str "metadata") edge.metadata

def cappedOutOfScope (neighbour : OutOfScopeNeighbour) : List Capped :=
  [⟨str "reporting_device", none, neighbour.reportingDevice, maxDeviceIDBytes⟩,
    ⟨str "reporting_port", none, neighbour.reportingPort, maxPortNameBytes⟩,
    ⟨str "neighbour_hint", none, neighbour.neighbourHint, maxDeviceIDBytes⟩,
    ⟨str "proto", none, neighbour.proto, maxProtoBytes⟩]

/-- The errors of the fields of every item of a list. -/
def listErrors {Item : Type} (list : GoString) (fields : Item → List Capped)
    (items : List Item) : List LengthError :=
  items.zipIdx.flatMap (fun (item, index) => (fields item).filterMap (Capped.error list index))

def fieldErrors (order : RangeOrder) (file : File) : List LengthError :=
  listErrors (str "device") (cappedDevice order) file.devices ++
    listErrors (str "edge") (cappedEdge order) file.edges ++
    listErrors (str "out_of_scope") cappedOutOfScope file.outOfScope

/-- Nothing is added once the cap is reached, which is also when the loops of
the validator stop. -/
def addErr (errors : List LengthError) (error : LengthError) : List LengthError :=
  if maxValidationErrors ≤ errors.length then errors else errors ++ [error]

def validateSnapshotFields (order : RangeOrder) (file : File) : List FieldError :=
  let errors := (fieldErrors order file).foldl addErr []
  errors.map FieldError.exceeds ++
    if maxValidationErrors ≤ errors.length then [.omitted maxValidationErrors] else []

/-! ## Loading and writing -/

/-- What is stored under the snapshot path. -/
inductive Contents where
  | unparsable (bytes : GoString)
  | document (file : File)
deriving DecidableEq

abbrev Disk := Option Contents

inductive LoadError where
  | parse
  | versionMismatch (got want : Int)
  | invalid (errors : List FieldError)
deriving DecidableEq

/-- The snapshot, and what the path holds afterwards. -/
def load (order : RangeOrder) (disk : Disk) : Except LoadError (Option File) × Disk :=
  match disk with
  | none => (.ok none, none)
  | some (.unparsable _) => (.error .parse, none)
  | some (.document file) =>
      if file.version ≠ currentVersion then
        (.error (.versionMismatch file.version currentVersion), none)
      else
        match validateSnapshotFields order file with
        | [] => (.ok (some file), disk)
        | errors => (.error (.invalid errors), disk)

structure StaleEpoch where
  onDisk : Nat
  incoming : Nat
deriving DecidableEq

/-- What is written: the version and the time are filled in when missing. -/
def stamped (now : Time) (file : File) : File :=
  { file with
    version := if file.version = 0 then currentVersion else file.version
    writtenAt := if file.writtenAt.isZero then now else file.writtenAt }

/-- An epoch of 0 is never fenced, and neither is a document that does not
load. -/
def write (order : RangeOrder) (now : Time) (file : File) (disk : Disk) :
    Except StaleEpoch Unit × Disk :=
  if 0 < file.leaseEpoch then
    match load order disk with
    | (.ok (some existing), after) =>
        if file.leaseEpoch < existing.leaseEpoch then
          (.error ⟨existing.leaseEpoch, file.leaseEpoch⟩, after)
        else (.ok (), some (.document (stamped now file)))
    | _ => (.ok (), some (.document (stamped now file)))
  else (.ok (), some (.document (stamped now file)))

/-! ## What loads -/

theorem foldl_addErr_eq_nil {errors held : List LengthError} :
    errors.foldl addErr held = [] ↔ held = [] ∧ errors = [] := by
  induction errors generalizing held with
  | nil => simp
  | cons error rest ih =>
      rw [List.foldl_cons, ih]
      have hsome : addErr held error ≠ [] := by
        unfold addErr
        split_ifs with hfull
        · rintro rfl
          cases hfull
        · simp
      simp [hsome]

/-- Every field of the list's items is within its cap. -/
def Within {Item : Type} (fields : Item → List Capped) (items : List Item) : Prop :=
  ∀ item ∈ items, ∀ capped ∈ fields item, capped.text.length ≤ capped.limit

theorem listErrors_eq_nil {Item : Type} {list : GoString} {fields : Item → List Capped}
    {items : List Item} : listErrors list fields items = [] ↔ Within fields items := by
  simp only [listErrors, List.flatMap_eq_nil_iff, List.filterMap_eq_nil_iff, Capped.error,
    ite_eq_right_iff, reduceCtorEq, imp_false, not_lt, Within]
  exact @forall_mem_zipIdx _ (fun item =>
    ∀ capped ∈ fields item, capped.text.length ≤ capped.limit) _

theorem validateSnapshotFields_eq_nil {order : RangeOrder} {file : File} :
    validateSnapshotFields order file = [] ↔
      Within (cappedDevice order) file.devices ∧ Within (cappedEdge order) file.edges ∧
        Within cappedOutOfScope file.outOfScope := by
  have hfields : fieldErrors order file = [] ↔
      Within (cappedDevice order) file.devices ∧ Within (cappedEdge order) file.edges ∧
        Within cappedOutOfScope file.outOfScope := by
    rw [fieldErrors, List.append_eq_nil_iff, List.append_eq_nil_iff, listErrors_eq_nil,
      listErrors_eq_nil, listErrors_eq_nil, and_assoc]
  rw [← hfields, validateSnapshotFields]
  simp only [List.append_eq_nil_iff, List.map_eq_nil_iff, foldl_addErr_eq_nil, true_and]
  refine ⟨fun hboth => hboth.1, fun hnil => ⟨hnil, ?_⟩⟩
  rw [hnil]
  rfl

/-- The document under the path passes every check of the loader. -/
def Loads (order : RangeOrder) (file : File) : Prop :=
  file.version = currentVersion ∧ validateSnapshotFields order file = []

instance (order : RangeOrder) (file : File) : Decidable (Loads order file) :=
  inferInstanceAs (Decidable (_ ∧ _))

theorem load_document (order : RangeOrder) (file found : File) :
    (load order (some (.document file))).1 = .ok (some found) ↔
      Loads order file ∧ found = file := by
  unfold load Loads
  by_cases hversion : file.version = currentVersion
  · simp only [hversion, ne_eq, not_true_eq_false, if_false, true_and]
    cases validateSnapshotFields order file with
    | nil => simp [eq_comm]
    | cons error rest => simp
  · simp [hversion]

/-- The document under the path, whether it loads or not. -/
def document (disk : Disk) : Option File :=
  match disk with
  | some (.document file) => some file
  | _ => none

/-- A write is refused when the document under the path loads and has a higher
epoch, unless the writer has none. -/
theorem write_cases (order : RangeOrder) (now : Time) (file : File) (disk : Disk) :
    ((write order now file disk).2 = disk ∧ ∃ existing, document disk = some existing ∧
        0 < file.leaseEpoch ∧ Loads order existing ∧ file.leaseEpoch < existing.leaseEpoch) ∨
      ((write order now file disk).2 = some (.document (stamped now file)) ∧
        ∀ existing, document disk = some existing → 0 < file.leaseEpoch → Loads order existing →
          existing.leaseEpoch ≤ file.leaseEpoch) := by
  unfold write
  by_cases hepoch : 0 < file.leaseEpoch
  · rw [if_pos hepoch]
    split
    · next existing after hload =>
        have hdocument : disk = some (.document existing) ∧ after = disk ∧
            Loads order existing := by
          unfold load at hload
          split at hload
          · cases hload
          · cases hload
          · next file =>
              split_ifs at hload with hversion
              · cases hload
              · split at hload
                · next hvalid =>
                    cases hload
                    exact ⟨rfl, rfl, not_not.mp hversion, hvalid⟩
                · cases hload
        obtain ⟨rfl, rfl, hloads⟩ := hdocument
        by_cases hstale : file.leaseEpoch < existing.leaseEpoch
        · rw [if_pos hstale]
          exact Or.inl ⟨rfl, existing, rfl, hepoch, hloads, hstale⟩
        · rw [if_neg hstale]
          refine Or.inr ⟨rfl, ?_⟩
          intro found hfound _ _
          cases hfound
          exact not_lt.mp hstale
    · next hload =>
        refine Or.inr ⟨rfl, ?_⟩
        intro existing hexisting _ hloads
        -- a document that loads would have been found
        have hdisk : disk = some (.document existing) := by
          unfold document at hexisting
          split at hexisting
          · cases hexisting
            rfl
          · cases hexisting
        have hfound := (load_document order existing existing).mpr ⟨hloads, rfl⟩
        rw [← hdisk] at hfound
        exact absurd (Prod.ext hfound rfl : load order disk = (_, _)) (hload existing _)
  · rw [if_neg hepoch]
    exact Or.inr ⟨rfl, fun _ _ hsome => absurd hsome hepoch⟩

end TopologyExporter.Snapshot
