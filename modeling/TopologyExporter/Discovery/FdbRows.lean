import TopologyExporter.Discovery.Fdb

/-! # The rows behind the edges of a forwarding table

The walker keeps one entry per address and fills it in from the bindings of the bridge
table and of all the forwarding databases of the VLAN-aware table, whichever comes last.
So an edge is behind the port that was last read and needs the status that was last read,
and the two may come from different rows.
-/

namespace TopologyExporter.Discovery.Fdb

open Go Utf8 Strconv

/-! ## Rows and cells -/

inductive Table where
  | bridge
  | qBridge
  | vlan (id : Int)
deriving DecidableEq

structure Row where
  table : Table
  index : GoString
deriving DecidableEq

/-- A binding at a row and column, and the key that it is filed under. -/
structure Cell where
  row : Row
  column : Int
  key : GoString
  pdu : Pdu

def Table.oid : Table → GoString
  | .bridge => oidFdbTable
  | .qBridge => oidQBridgeFdbTable
  | .vlan _ => oidFdbTable

/-- The bindings of a table; none if the walk failed. -/
def Table.pdus (agent : Agent) : Table → List Pdu
  | .bridge => (agent.bulkWalk oidFdbTable).toOption.getD []
  | .qBridge => (agent.bulkWalk oidQBridgeFdbTable).toOption.getD []
  | .vlan id => (agent.vlanFdbWalk id).toOption.getD []

/-- The address in an index of the VLAN-aware table. -/
def indexMac (index : GoString) : List UInt8 :=
  ((parseQBridgeIndex index).map Prod.snd).getD []

/-- The key for a row and column. Only the port and the status of the VLAN-aware table are
read. -/
def Row.key (row : Row) (column : Int) : Option GoString :=
  match row.table with
  | .qBridge =>
      if column ≠ colQBridgePort ∧ column ≠ colQBridgeStatus then none
      else (parseQBridgeIndex row.index).map Prod.fst
  | _ => some row.index

def cell (table : Table) (pdu : Pdu) : Option Cell := do
  let suffix ← trimOIDPrefix pdu.name (rowPrefix table.oid)
  let (column, index) ← splitOIDComponent suffix
  if index = [] then none
  else
    let key ← Row.key ⟨table, index⟩ column
    some ⟨⟨table, index⟩, column, key, pdu⟩

def cells (agent : Agent) (table : Table) : List Cell := (table.pdus agent).filterMap (cell table)

def Cell.update (cell : Cell) : FdbEntry → FdbEntry :=
  match cell.row.table with
  | .qBridge => qBridgeColumn cell.column (indexMac cell.row.index) cell.pdu
  | _ => fdbColumn cell.column cell.pdu

variable {found : Cell} {table : Table} {row : Row} {agent : Agent} {params : Params}
  {stpStates : Map Int Int} {mac : List UInt8} {order : RangeOrder}

theorem key_of_cell {pdu : Pdu} (hcell : cell table pdu = some found) :
    found.row.table = table ∧ found.row.key found.column = some found.key := by
  simp only [cell, Option.bind_eq_bind, Option.bind_eq_some_iff] at hcell
  obtain ⟨suffix, -, ⟨column, index⟩, -, hcell⟩ := hcell
  split_ifs at hcell
  obtain ⟨key, hkey, hfound⟩ := Option.bind_eq_some_iff.mp hcell
  cases hfound
  exact ⟨rfl, hkey⟩

/-- The rows of the bridge tables are cells. -/
theorem fdbRow_eq (htable : table ≠ .qBridge) (pdu : Pdu) :
    fdbRow pdu = (cell table pdu).map (fun cell => (cell.key, cell.update)) := by
  have hoid : table.oid = oidFdbTable := by
    cases table with
    | bridge => rfl
    | qBridge => exact absurd rfl htable
    | vlan id => rfl
  unfold fdbRow cell
  rw [hoid]
  cases trimOIDPrefix pdu.name (rowPrefix oidFdbTable) with
  | none => rfl
  | some suffix =>
      cases hsplit : splitOIDComponent suffix with
      | none => simp [hsplit]
      | some parts =>
          obtain ⟨column, index⟩ := parts
          simp only [Option.bind_eq_bind, Option.bind_some, hsplit]
          split_ifs with hindex
          · rfl
          · cases table with
            | bridge => rfl
            | qBridge => exact absurd rfl htable
            | vlan id => rfl

/-- So are those of the VLAN-aware table. -/
theorem qBridgeRow_eq (pdu : Pdu) :
    qBridgeRow pdu = (cell .qBridge pdu).map (fun cell => (cell.key, cell.update)) := by
  unfold qBridgeRow cell
  simp only [Table.oid]
  cases trimOIDPrefix pdu.name (rowPrefix oidQBridgeFdbTable) with
  | none => rfl
  | some suffix =>
      cases hsplit : splitOIDComponent suffix with
      | none => simp [hsplit]
      | some parts =>
          obtain ⟨column, index⟩ := parts
          simp only [Option.bind_eq_bind, Option.bind_some, hsplit, Row.key]
          split_ifs with hindex hcolumn
          · rfl
          · rfl
          · cases hparse : parseQBridgeIndex index with
            | none => rfl
            | some parsed => simp [Cell.update, indexMac, hparse]

/-! ## Entries -/

/-- The cells of the tables that are filed under a key, in the order in which they are
read. -/
def filed (agent : Agent) (tables : List Table) (key : GoString) : List Cell :=
  (tables.flatMap (cells agent)).filter (fun cell => cell.key = key)

/-- The entry that some cells make. -/
def entryOf (filed : List Cell) : Option FdbEntry :=
  if filed = [] then none else some (filed.foldl (fun entry cell => cell.update entry) {})

theorem filed_append (agent : Agent) (first second : List Table) (key : GoString) :
    filed agent (first ++ second) key = filed agent first key ++ filed agent second key := by
  rw [filed, List.flatMap_append, List.filter_append]
  rfl

theorem filed_singleton (agent : Agent) (table : Table) (key : GoString) :
    filed agent [table] key = (cells agent table).filter (fun cell => cell.key = key) := by
  rw [filed, List.flatMap_singleton]

/-- Cells update the entries of a table one after the other. -/
theorem lookup_updateRows_cells {row : Pdu → Option (GoString × (FdbEntry → FdbEntry))}
    (hrow : ∀ pdu, row pdu = (cell table pdu).map (fun cell => (cell.key, cell.update)))
    (pdus : List Pdu) (entries : Map GoString FdbEntry) (key : GoString) :
    (Map.updateRows {} entries (pdus.filterMap row)).lookup key =
      ((pdus.filterMap (cell table)).filter (fun cell => cell.key = key)).foldl
        (fun held cell => some (cell.update (held.getD {}))) (entries.lookup key) := by
  have hrows : pdus.filterMap row =
      (pdus.filterMap (cell table)).map (fun cell => (cell.key, cell.update)) := by
    rw [List.map_filterMap]
    exact List.filterMap_congr fun pdu _ => hrow pdu
  rw [hrows, Map.lookup_updateRows, List.filter_map, List.foldl_map]
  rfl

theorem lookup_fdbTable (htable : table ≠ .qBridge) (agent : Agent) (key : GoString) :
    (fdbTable (table.pdus agent)).lookup key = entryOf (filed agent [table] key) := by
  rw [fdbTable, lookup_updateRows_cells (fdbRow_eq htable), AList.lookup_empty, filed_singleton,
    Map.foldl_update_eq {} Cell.update]
  rfl

theorem lookup_walkQBridgeFdbTable (agent : Agent) (key : GoString) :
    (walkQBridgeFdbTable agent (fdbTable (Table.bridge.pdus agent))).lookup key =
      entryOf (filed agent [.bridge, .qBridge] key) := by
  have hupdate : walkQBridgeFdbTable agent (fdbTable (Table.bridge.pdus agent)) =
      Map.updateRows {} (fdbTable (Table.bridge.pdus agent))
        ((Table.qBridge.pdus agent).filterMap qBridgeRow) := by
    unfold walkQBridgeFdbTable Table.pdus
    cases agent.bulkWalk oidQBridgeFdbTable with
    | error error => rfl
    | ok pdus => rfl
  rw [hupdate, lookup_updateRows_cells qBridgeRow_eq, fdbTable,
    lookup_updateRows_cells (fdbRow_eq (nofun : Table.bridge ≠ .qBridge)), AList.lookup_empty,
    ← List.foldl_append, Map.foldl_update_eq {} Cell.update]
  have hfiled : filed agent [.bridge, .qBridge] key = filed agent [.bridge] key ++
      filed agent [.qBridge] key := filed_append agent [.bridge] [.qBridge] key
  rw [hfiled, filed_singleton, filed_singleton]
  rfl

/-- The VLANs whose tables are read. -/
def vlansWalked (agent : Agent) (params : Params) : List Int :=
  if params.v3 ∨ params.community = [] ∨ 0x40 ∈ params.community then []
  else (discoverVlanIDs agent).take
    (if params.maxVlans ≤ 0 then defaultMaxVlans else params.maxVlans).toNat

/-- The tables that are read into the same entries. Those of one VLAN only fill in what is
missing. -/
def sources (agent : Agent) (params : Params) : List (List Table) :=
  [.bridge, .qBridge] :: (vlansWalked agent params).map (fun id => [.vlan id])

/-- The cells that make the entry of a key. -/
def written (agent : Agent) (params : Params) (key : GoString) : List Cell :=
  (((sources agent params).map (fun tables => filed agent tables key)).find? (· ≠ [])).getD []

theorem entryOf_find? (lists : List (List Cell)) :
    entryOf ((lists.find? (· ≠ [])).getD []) = lists.findSome? entryOf := by
  induction lists with
  | nil => rfl
  | cons first rest ih =>
      rw [List.find?_cons, List.findSome?_cons]
      by_cases hfirst : first = []
      · subst hfirst
        exact ih
      · simp [hfirst, entryOf]

theorem lookup_foldl_mergeVlan (order : RangeOrder) (agent : Agent) (key : GoString)
    (vlans : List Int) (entries : Map GoString FdbEntry) :
    (vlans.foldl (mergeVlan order agent) entries).lookup key =
      (entries.lookup key).or
        (vlans.findSome? (fun id => entryOf (filed agent [.vlan id] key))) := by
  induction vlans generalizing entries with
  | nil => simp
  | cons id rest ih =>
      have hentries : vlanEntries agent id = fdbTable ((Table.vlan id).pdus agent) := by
        unfold vlanEntries
        simp only [Table.pdus]
        cases agent.vlanFdbWalk id with
        | error error => rfl
        | ok pdus => rfl
      rw [List.foldl_cons, ih, mergeVlan, Map.lookup_foldl_insertNew_range, hentries,
        lookup_fdbTable (nofun : Table.vlan id ≠ .qBridge), List.findSome?_cons, Option.or_assoc]
      cases entryOf (filed agent [.vlan id] key) with
      | none => rfl
      | some entry => rfl

/-- The entries of a walk. -/
def walkedEntries (agent : Agent) (order : RangeOrder) (params : Params) :
    Map GoString FdbEntry :=
  walkVlanCommunityFdbs agent order params
    (walkQBridgeFdbTable agent (fdbTable (Table.bridge.pdus agent)))

theorem lookup_walkedEntries (agent : Agent) (order : RangeOrder) (params : Params)
    (key : GoString) :
    (walkedEntries agent order params).lookup key = entryOf (written agent params key) := by
  have hwalk : walkedEntries agent order params =
      (vlansWalked agent params).foldl (mergeVlan order agent)
        (walkQBridgeFdbTable agent (fdbTable (Table.bridge.pdus agent))) := by
    unfold walkedEntries walkVlanCommunityFdbs vlansWalked
    split_ifs <;> rfl
  rw [hwalk, lookup_foldl_mergeVlan, lookup_walkQBridgeFdbTable, written, entryOf_find?, sources,
    List.map_cons, List.findSome?_cons, List.map_map, List.findSome?_map]
  cases entryOf (filed agent [.bridge, .qBridge] key) with
  | none => rfl
  | some entry => rfl

/-! ## What is read last -/

/-- The port that a cell writes, with its row. -/
def Cell.port (cell : Cell) : Option (Row × Int) :=
  if cell.column = colFdbPort ∧ 0 < pduInt cell.pdu then some (cell.row, pduInt cell.pdu) else none

/-- The status that a cell writes, with its row. -/
def Cell.status (cell : Cell) : Option (Row × Int) :=
  if cell.column = colFdbStatus then (pduIntStrict cell.pdu).map (fun status => (cell.row, status))
  else none

/-- The address that a cell of a bridge table writes. -/
def Cell.address (cell : Cell) : Option (Option (List UInt8)) :=
  if cell.row.table ≠ .qBridge ∧ cell.column = colFdbAddress then some (entryMac cell.pdu) else none

/-- The address that a cell of the VLAN-aware table fills in. -/
def Cell.fill (cell : Cell) : Option (List UInt8) :=
  if cell.row.table = .qBridge ∧
      (cell.column = colQBridgePort ∨ (pduIntStrict cell.pdu).isSome) then
    some (indexMac cell.row.index)
  else none

/-- Only ports and status are read from the VLAN-aware table. -/
def Cell.Read (cell : Cell) : Prop :=
  cell.row.table = .qBridge → cell.column = colQBridgePort ∨ cell.column = colQBridgeStatus

def lastPort (filed : List Cell) : Option (Row × Int) := (filed.filterMap Cell.port).getLast?

def lastStatus (filed : List Cell) : Option (Row × Int) := (filed.filterMap Cell.status).getLast?

/-- The address that the bridge tables give last, or else the one that is filled in first. -/
def macOf (filed : List Cell) : Option (List UInt8) :=
  ((filed.filterMap Cell.address).getLast?.getD none).or (filed.filterMap Cell.fill).head?

theorem setPort_eq (pdu : Pdu) (entry : FdbEntry) :
    setPort pdu entry =
      { entry with port := if 0 < pduInt pdu then pduInt pdu else entry.port } := by
  unfold setPort
  split_ifs <;> rfl

theorem fillMac_eq (mac : List UInt8) (entry : FdbEntry) :
    fillMac mac entry = { entry with mac := entry.mac.or (some mac) } := by
  obtain ⟨held, port, status⟩ := entry
  cases held with
  | none => rfl
  | some address => simp [fillMac]

/-- What a binding of a bridge table does to an entry. -/
theorem fdbColumn_eq (column : Int) (pdu : Pdu) (entry : FdbEntry) :
    fdbColumn column pdu entry =
      { mac := if column = colFdbAddress then entryMac pdu else entry.mac
        port := if column = colFdbPort ∧ 0 < pduInt pdu then pduInt pdu else entry.port
        status := if column = colFdbStatus then (pduIntStrict pdu).getD entry.status
          else entry.status } := by
  have hport : colFdbAddress ≠ colFdbPort := by decide
  have hstatus : colFdbAddress ≠ colFdbStatus := by decide
  have hother : colFdbPort ≠ colFdbStatus := by decide
  unfold fdbColumn
  by_cases haddress : column = colFdbAddress
  · simp [haddress, hport, hstatus]
  · by_cases hcolumn : column = colFdbPort
    · simp [hcolumn, hport.symm, hother, setPort_eq]
    · by_cases hlast : column = colFdbStatus
      · cases pduIntStrict pdu with
        | none => simp [hlast, hstatus.symm, hother.symm]
        | some status => simp [hlast, hstatus.symm, hother.symm]
      · simp [haddress, hcolumn, hlast]

/-- What a binding of the VLAN-aware table does to an entry. -/
theorem qBridgeColumn_eq {column : Int}
    (hcolumn : column = colQBridgePort ∨ column = colQBridgeStatus) (mac : List UInt8) (pdu : Pdu)
    (entry : FdbEntry) :
    qBridgeColumn column mac pdu entry =
      { mac := entry.mac.or
          (if column = colQBridgePort ∨ (pduIntStrict pdu).isSome then some mac else none)
        port := if column = colQBridgePort ∧ 0 < pduInt pdu then pduInt pdu else entry.port
        status := if column = colQBridgeStatus then (pduIntStrict pdu).getD entry.status
          else entry.status } := by
  have hne : colQBridgePort ≠ colQBridgeStatus := by decide
  unfold qBridgeColumn
  rcases hcolumn with rfl | rfl
  · simp [fillMac_eq, setPort_eq, hne]
  · rw [if_neg hne.symm]
    cases pduIntStrict pdu with
    | none => simp [hne.symm]
    | some status => simp [fillMac_eq, hne.symm]

theorem update_of_ne {cell : Cell} (htable : cell.row.table ≠ .qBridge) :
    cell.update = fdbColumn cell.column cell.pdu := by
  unfold Cell.update
  split
  next hqBridge => exact absurd hqBridge htable
  next => rfl

theorem update_of_eq {cell : Cell} (htable : cell.row.table = .qBridge) :
    cell.update = qBridgeColumn cell.column (indexMac cell.row.index) cell.pdu := by
  rw [Cell.update, htable]

theorem port_update {cell : Cell} (hread : cell.Read) (entry : FdbEntry) :
    (cell.update entry).port = (cell.port.map Prod.snd).getD entry.port := by
  have hport : (if cell.column = colFdbPort ∧ 0 < pduInt cell.pdu then pduInt cell.pdu
      else entry.port) = (cell.port.map Prod.snd).getD entry.port := by
    unfold Cell.port
    split_ifs <;> rfl
  by_cases htable : cell.row.table = .qBridge
  · rw [update_of_eq htable, qBridgeColumn_eq (hread htable)]
    exact hport
  · rw [update_of_ne htable, fdbColumn_eq]
    exact hport

theorem status_update {cell : Cell} (hread : cell.Read) (entry : FdbEntry) :
    (cell.update entry).status = (cell.status.map Prod.snd).getD entry.status := by
  have hstatus : (if cell.column = colFdbStatus then (pduIntStrict cell.pdu).getD entry.status
      else entry.status) = (cell.status.map Prod.snd).getD entry.status := by
    unfold Cell.status
    split_ifs
    · cases pduIntStrict cell.pdu <;> rfl
    · rfl
  by_cases htable : cell.row.table = .qBridge
  · rw [update_of_eq htable, qBridgeColumn_eq (hread htable)]
    exact hstatus
  · rw [update_of_ne htable, fdbColumn_eq]
    exact hstatus

theorem mac_update_of_ne {cell : Cell} (htable : cell.row.table ≠ .qBridge) (entry : FdbEntry) :
    (cell.update entry).mac = cell.address.getD entry.mac := by
  rw [update_of_ne htable, fdbColumn_eq, Cell.address]
  simp only [htable, ne_eq, not_false_eq_true, true_and]
  split_ifs <;> rfl

theorem mac_update_of_eq {cell : Cell} (htable : cell.row.table = .qBridge) (hread : cell.Read)
    (entry : FdbEntry) : (cell.update entry).mac = entry.mac.or cell.fill := by
  rw [update_of_eq htable, qBridgeColumn_eq (hread htable), Cell.fill]
  simp only [htable, true_and]

theorem snd_getLast? {Item : Type} (write : Item → Option (Row × Int)) (items : List Item) :
    (items.filterMap (fun item => (write item).map Prod.snd)).getLast? =
      (items.filterMap write).getLast?.map Prod.snd := by
  rw [← List.getLast?_map, List.map_filterMap]

/-- The entry has the port that was read last, -/
theorem port_entry {filed : List Cell} (hread : ∀ cell ∈ filed, cell.Read) (entry : FdbEntry) :
    (filed.foldl (fun entry cell => cell.update entry) entry).port =
      ((lastPort filed).map Prod.snd).getD entry.port := by
  rw [Map.foldl_update_last fun cell hcell => port_update (hread cell hcell), snd_getLast?]
  rfl

/-- the status that was read last, -/
theorem status_entry {filed : List Cell} (hread : ∀ cell ∈ filed, cell.Read) (entry : FdbEntry) :
    (filed.foldl (fun entry cell => cell.update entry) entry).status =
      ((lastStatus filed).map Prod.snd).getD entry.status := by
  rw [Map.foldl_update_last fun cell hcell => status_update (hread cell hcell), snd_getLast?]
  rfl

theorem mac_entry_of_eq {filed : List Cell} (htable : ∀ cell ∈ filed, cell.row.table = .qBridge)
    (hread : ∀ cell ∈ filed, cell.Read) (entry : FdbEntry) :
    (filed.foldl (fun entry cell => cell.update entry) entry).mac =
      entry.mac.or (filed.filterMap Cell.fill).head? := by
  induction filed generalizing entry with
  | nil => simp
  | cons cell rest ih =>
      rw [List.forall_mem_cons] at htable hread
      rw [List.foldl_cons, ih htable.2 hread.2, mac_update_of_eq htable.1 hread.1, Option.or_assoc,
        List.filterMap_cons]
      cases cell.fill with
      | none => rfl
      | some mac => rfl

/-- and the address that was read last, or filled in first. -/
theorem mac_entry {first second : List Cell} (hfirst : ∀ cell ∈ first, cell.row.table ≠ .qBridge)
    (hsecond : ∀ cell ∈ second, cell.row.table = .qBridge)
    (hread : ∀ cell ∈ second, cell.Read) :
    ((first ++ second).foldl (fun (entry : FdbEntry) (cell : Cell) => cell.update entry) {}).mac =
      macOf (first ++ second) := by
  have haddress : second.filterMap Cell.address = [] := by
    rw [List.filterMap_eq_nil_iff]
    intro cell hcell
    simp [Cell.address, hsecond cell hcell]
  have hfill : first.filterMap Cell.fill = [] := by
    rw [List.filterMap_eq_nil_iff]
    intro cell hcell
    simp [Cell.fill, hfirst cell hcell]
  rw [List.foldl_append, mac_entry_of_eq hsecond hread,
    Map.foldl_update_last fun cell hcell => mac_update_of_ne (hfirst cell hcell), macOf,
    List.filterMap_append, List.filterMap_append, haddress, hfill, List.append_nil, List.nil_append]

/-- A cell of the VLAN-aware table is of the port or the status, and its index has an
address. -/
theorem qBridge_of_key {column : Int} {key : GoString} (hkey : row.key column = some key)
    (htable : row.table = .qBridge) :
    (column = colQBridgePort ∨ column = colQBridgeStatus) ∧
      (parseQBridgeIndex row.index).map Prod.snd = some (indexMac row.index) := by
  simp only [Row.key, htable] at hkey
  split_ifs at hkey with hcolumn
  obtain ⟨parsed, hparse, -⟩ := Option.map_eq_some_iff.mp hkey
  rw [not_and_or, not_not, not_not] at hcolumn
  exact ⟨hcolumn, by simp [indexMac, hparse]⟩

theorem mem_cells (hfound : found ∈ cells agent table) :
    found.row.table = table ∧ found.row.key found.column = some found.key := by
  obtain ⟨pdu, -, hcell⟩ := List.mem_filterMap.mp hfound
  exact key_of_cell hcell

theorem mem_filed {tables : List Table} {key : GoString} (hfound : found ∈ filed agent tables key) :
    found.row.table ∈ tables ∧ found ∈ cells agent found.row.table ∧ found.Read := by
  obtain ⟨table, htable, hcell⟩ := List.mem_flatMap.mp (List.mem_of_mem_filter hfound)
  obtain ⟨rfl, hkey⟩ := mem_cells hcell
  exact ⟨htable, hcell, fun hqBridge => (qBridge_of_key hkey hqBridge).1⟩

/-- An entry comes from the bridge table and the VLAN-aware one, or from the table of one
VLAN. -/
theorem written_eq (agent : Agent) (params : Params) (key : GoString) :
    written agent params key = [] ∨
      ∃ tables ∈ sources agent params, written agent params key = filed agent tables key := by
  unfold written
  cases hfind : ((sources agent params).map (fun tables => filed agent tables key)).find?
      (· ≠ []) with
  | none => exact Or.inl rfl
  | some found =>
      obtain ⟨tables, htables, rfl⟩ := List.mem_map.mp (List.mem_of_find?_eq_some hfind)
      exact Or.inr ⟨tables, htables, rfl⟩

/-- All tables that are read. -/
def tablesRead (agent : Agent) (params : Params) : List Table := (sources agent params).flatten

theorem mem_written {key : GoString} (hfound : found ∈ written agent params key) :
    found.row.table ∈ tablesRead agent params ∧ found ∈ cells agent found.row.table ∧
      found.Read := by
  rcases written_eq agent params key with hnone | ⟨tables, htables, hwritten⟩
  · rw [hnone] at hfound
    cases hfound
  · rw [hwritten] at hfound
    obtain ⟨htable, hcell⟩ := mem_filed hfound
    exact ⟨List.mem_flatten.mpr ⟨tables, htables, htable⟩, hcell⟩

theorem mac_written (agent : Agent) (params : Params) (key : GoString) :
    ((written agent params key).foldl (fun (entry : FdbEntry) cell => cell.update entry) {}).mac =
      macOf (written agent params key) := by
  rcases written_eq agent params key with hnone | ⟨tables, htables, hwritten⟩
  · rw [hnone]
    rfl
  · rw [hwritten]
    rcases List.mem_cons.mp htables with rfl | hvlan
    · have hsplit := filed_append agent [.bridge] [.qBridge] key
      rw [List.singleton_append] at hsplit
      rw [hsplit]
      apply mac_entry
      · intro cell hcell
        rw [List.mem_singleton.mp (mem_filed hcell).1]
        exact nofun
      · exact fun cell hcell => List.mem_singleton.mp (mem_filed hcell).1
      · exact fun cell hcell => (mem_filed hcell).2.2
    · obtain ⟨id, -, rfl⟩ := List.mem_map.mp hvlan
      rw [← List.append_nil (filed agent [.vlan id] key)]
      apply mac_entry
      · intro cell hcell
        rw [List.mem_singleton.mp (mem_filed hcell).1]
        exact nofun
      · exact nofun
      · exact nofun

/-! ## The edges -/

theorem exists_port_of_lastPort {filed : List Cell} {port : Int}
    (hlast : lastPort filed = some (row, port)) :
    0 < port ∧ ∃ cell ∈ filed, cell.row = row ∧ cell.port = some (row, port) := by
  obtain ⟨cell, hcell, hport⟩ := List.mem_filterMap.mp (List.mem_of_getLast? hlast)
  have hwrite := hport
  unfold Cell.port at hwrite
  split_ifs at hwrite with hpos
  cases hwrite
  exact ⟨hpos.2, cell, hcell, rfl, hport⟩

theorem exists_status_of_lastStatus {filed : List Cell} {status : Int}
    (hlast : lastStatus filed = some (row, status)) :
    ∃ cell ∈ filed, cell.row = row ∧ cell.status = some (row, status) := by
  obtain ⟨cell, hcell, hstatus⟩ := List.mem_filterMap.mp (List.mem_of_getLast? hlast)
  have hwrite := hstatus
  unfold Cell.status at hwrite
  split_ifs at hwrite with hcolumn
  obtain ⟨value, -, hvalue⟩ := Option.map_eq_some_iff.mp hwrite
  cases hvalue
  exact ⟨cell, hcell, rfl, hstatus⟩

/-- The bindings that were read last for a key make an address that is learned on a port:
the status is `learned`, and the port is not blocked. -/
structure Learned (agent : Agent) (params : Params) (stpStates : Map Int Int) (key : GoString)
    (mac : List UInt8) (port : Int) : Prop where
  mac_eq : macOf (written agent params key) = some mac
  port_eq : (lastPort (written agent params key)).map Prod.snd = some port
  status_eq : (lastStatus (written agent params key)).map Prod.snd = some fdbStatusLearned
  length : mac.length = 6
  ordinary : isSpecialMAC mac = false
  forwarding : ∀ state, stpStates.lookup port = some state → state = stpStateForwarding

theorem learnedPort_eq_some_iff {entry : FdbEntry} {port : Int} :
    learnedPort stpStates entry = some port ↔
      (entry.mac.getD []).length = 6 ∧ 0 < entry.port ∧ entry.status = fdbStatusLearned ∧
        isSpecialMAC (entry.mac.getD []) = false ∧
        (∀ state, stpStates.lookup entry.port = some state → state = stpStateForwarding) ∧
        entry.port = port := by
  unfold learnedPort entryDecoded
  cases hstate : stpStates.lookup entry.port with
  | none => simp [and_assoc]
  | some state => simp [and_assoc]

theorem getD_eq_iff_of_ne {Value : Type} {held : Option Value} {initial value : Value}
    (hne : initial ≠ value) : held.getD initial = value ↔ held = some value := by
  rw [Option.getD_eq_iff, or_iff_left]
  exact fun hdefault => hne hdefault.2

/-- The walker takes an entry for learned on a port exactly if it is. -/
theorem learned_iff {key : GoString} {port : Int} :
    Learned agent params stpStates key mac port ↔
      ∃ entry, (walkedEntries agent order params).lookup key = some entry ∧
        learnedPort stpStates entry = some port ∧ entry.mac.getD [] = mac := by
  have hread : ∀ cell ∈ written agent params key, cell.Read :=
    fun cell hcell => (mem_written hcell).2.2
  have hport := port_entry hread {}
  have hstatus := status_entry hread {}
  have hmac := mac_written agent params key
  rw [lookup_walkedEntries, entryOf]
  generalize (written agent params key).foldl
    (fun (entry : FdbEntry) cell => cell.update entry) {} = final at hport hstatus hmac ⊢
  simp only [learnedPort_eq_some_iff]
  constructor
  · intro hlearned
    -- a port was read, so there are cells and an entry
    have hnonempty : written agent params key ≠ [] := by
      intro hnone
      have hport := hlearned.port_eq
      rw [hnone] at hport
      cases hport
    rw [hlearned.port_eq, Option.getD_some] at hport
    rw [hlearned.status_eq, Option.getD_some] at hstatus
    rw [hlearned.mac_eq] at hmac
    obtain ⟨⟨row, last⟩, hlast, rfl⟩ := Option.map_eq_some_iff.mp hlearned.port_eq
    refine ⟨final, if_neg hnonempty, ?_, by rw [hmac]; rfl⟩
    rw [hmac, hport]
    exact ⟨hlearned.length, (exists_port_of_lastPort hlast).1, hstatus, hlearned.ordinary,
      hlearned.forwarding, rfl⟩
  · intro hentry
    obtain ⟨entry, hlookup, ⟨hlength, hpos, hlearned, hordinary, hforwarding, rfl⟩, rfl⟩ := hentry
    split_ifs at hlookup
    cases hlookup
    -- none of the three values is the one that an entry starts with
    refine ⟨?_, (getD_eq_iff_of_ne hpos.ne).mp hport.symm, ?_, hlength, hordinary, hforwarding⟩
    · rw [← hmac]
      refine (getD_eq_iff_of_ne ?_).mp rfl
      intro hnone
      rw [← hnone] at hlength
      cases hlength
    · rw [hlearned] at hstatus
      exact (getD_eq_iff_of_ne (by decide)).mp hstatus.symm

/-- The only address that is learned on its port. -/
def Alone (agent : Agent) (params : Params) (stpStates : Map Int Int) (key : GoString)
    (mac : List UInt8) (port : Int) : Prop :=
  Learned agent params stpStates key mac port ∧
    ∀ other otherMac, Learned agent params stpStates other otherMac port → other = key

theorem eq_singleton_iff_of_nodup {Item : Type} {items : List Item} (hnodup : items.Nodup)
    {item : Item} : items = [item] ↔ item ∈ items ∧ ∀ other ∈ items, other = item := by
  constructor
  · intro heq
    subst heq
    simp
  · intro hall
    obtain ⟨hmem, hall⟩ := hall
    cases items with
    | nil => cases hmem
    | cons head rest =>
        rw [List.forall_mem_cons] at hall
        obtain ⟨rfl, hrest⟩ := hall
        cases rest with
        | nil => rfl
        | cons second others =>
            have hsecond := hrest second List.mem_cons_self
            subst hsecond
            simp at hnodup

/-- The addresses that are learned on a port. -/
theorem lookup_portMACs {port : Int} :
    (portMACs order (walkedEntries agent order params) stpStates).lookup port = some [mac] ↔
      ∃ key, Alone agent params stpStates key mac port := by
  have hrow : ∀ {row : GoString × FdbEntry},
      row ∈ ((walkedEntries agent order params).range order 0).filter
          (fun row => learnedPort stpStates row.2 = some port) ↔
        (walkedEntries agent order params).lookup row.1 = some row.2 ∧
          learnedPort stpStates row.2 = some port := by
    intro row
    rw [List.mem_filter, decide_eq_true_eq]
    exact and_congr_left' Map.mem_range
  -- each key is ranged over once, so a single address on a port is a single key
  have hnodup : (((walkedEntries agent order params).range order 0).filter
      (fun row => learnedPort stpStates row.2 = some port)).Nodup :=
    (List.Nodup.of_map Prod.fst (Map.range_nodup _ order 0)).filter _
  rw [portMACs, Map.lookup_groupBy_append_iff, and_iff_left (List.cons_ne_nil mac []), eq_comm,
    List.map_eq_singleton_iff]
  constructor
  · intro hsingle
    obtain ⟨row, hsingle, hmac⟩ := hsingle
    obtain ⟨hmem, hunique⟩ := (eq_singleton_iff_of_nodup hnodup).mp hsingle
    obtain ⟨hlookup, hlearned⟩ := hrow.mp hmem
    refine ⟨row.1, learned_iff.mpr ⟨row.2, hlookup, hlearned, hmac⟩, ?_⟩
    intro other otherMac hother
    obtain ⟨entry, hentry, hport, -⟩ := learned_iff.mp hother
    exact congrArg Prod.fst (hunique (other, entry) (hrow.mpr ⟨hentry, hport⟩))
  · intro halone
    obtain ⟨key, hlearned, hunique⟩ := halone
    obtain ⟨entry, hlookup, hport, hmac⟩ := learned_iff.mp hlearned
    refine ⟨(key, entry), (eq_singleton_iff_of_nodup hnodup).mpr ⟨hrow.mpr ⟨hlookup, hport⟩, ?_⟩,
      hmac⟩
    intro other hother
    obtain ⟨hentry, hotherPort⟩ := hrow.mp hother
    have hkey := hunique other.1 _ (learned_iff.mpr ⟨other.2, hentry, hotherPort, rfl⟩)
    rw [hkey, hlookup] at hentry
    exact Prod.ext hkey (Option.some.inj hentry).symm

/-- There is an edge for each address that is alone on a port with an interface, and no
other. -/
theorem mem_buildEdges_iff {localDevice : GoString} {bridgePorts : Map Int Int}
    {ifNames : Map Int GoString} {now : Time} {edge : Edge} :
    edge ∈ buildEdges order localDevice (walkedEntries agent order params) bridgePorts ifNames
        stpStates now ↔
      ∃ key mac port ifIdx, Alone agent params stpStates key mac port ∧
        bridgePorts.lookup port = some ifIdx ∧
        edge = newEdge localDevice (interfaceName ifNames ifIdx) mac now := by
  rw [buildEdges, List.mem_filterMap]
  constructor
  · intro hedge
    obtain ⟨⟨port, macs⟩, hmem, hedge⟩ := hedge
    obtain ⟨ifIdx, mac, hport, rfl, rfl⟩ := portEdge_eq hedge
    obtain ⟨key, halone⟩ := lookup_portMACs.mp (Map.mem_range.mp hmem)
    exact ⟨key, mac, port, ifIdx, halone, hport, rfl⟩
  · intro hedge
    obtain ⟨key, mac, port, ifIdx, halone, hport, rfl⟩ := hedge
    refine ⟨(port, [mac]), Map.mem_range.mpr (lookup_portMACs.mpr ⟨key, halone⟩), ?_⟩
    simp [portEdge, hport]

/-! ## Rows that back an edge -/

section Backing

variable (agent : Agent) (params : Params)

/-- The row is one of the address: it stands in the index, or in the column for it. -/
def Addressed (row : Row) (mac : List UInt8) : Prop :=
  match row.table with
  | .qBridge => (parseQBridgeIndex row.index).map Prod.snd = some mac
  | _ => (Strings.split 0x2E row.index).mapM decimalOctet = some mac ∨
      ∃ cell ∈ cells agent row.table, cell.row = row ∧ cell.column = colFdbAddress ∧
        entryMac cell.pdu = some mac

/-- A row of one of the tables that carries the address, the port and the status `learned`. -/
def Carries (row : Row) (mac : List UInt8) (port : Int) : Prop :=
  row.table ∈ tablesRead agent params ∧ Addressed agent row mac ∧
    (∃ cell ∈ cells agent row.table, cell.row = row ∧ cell.port = some (row, port)) ∧
    ∃ cell ∈ cells agent row.table, cell.row = row ∧ cell.status = some (row, fdbStatusLearned)

/-- One row carries the address of the edge, the status `learned` and a port that is
mapped to the port of the edge. -/
def Backed (bridgePorts : Map Int Int) (ifNames : Map Int GoString) (edge : Edge) : Prop :=
  ∃ row mac port ifIdx, Carries agent params row mac port ∧
    bridgePorts.lookup port = some ifIdx ∧ edge.srcPort = interfaceName ifNames ifIdx ∧
    edge.dstDevice = Net.hardwareAddrString mac

/-- The port and the status that were read last for a key are of the same row, and so is the
address. -/
def OneRow (key : GoString) (mac : List UInt8) : Prop :=
  ∃ row port status, lastPort (written agent params key) = some (row, port) ∧
    lastStatus (written agent params key) = some (row, status) ∧ Addressed agent row mac

end Backing

theorem carries_of_oneRow {key : GoString} {port : Int}
    (hlearned : Learned agent params stpStates key mac port) (hrow : OneRow agent params key mac) :
    ∃ row, Carries agent params row mac port := by
  obtain ⟨row, last, status, hport, hstatus, haddressed⟩ := hrow
  have hsame := hlearned.port_eq
  have hthree := hlearned.status_eq
  rw [hport] at hsame
  rw [hstatus] at hthree
  cases hsame
  cases hthree
  obtain ⟨-, cell, hcell, rfl, hwrites⟩ := exists_port_of_lastPort hport
  obtain ⟨other, hother, hsame, hlearns⟩ := exists_status_of_lastStatus hstatus
  obtain ⟨hread, hmem, -⟩ := mem_written hcell
  obtain ⟨-, hmemOther, -⟩ := mem_written hother
  rw [hsame] at hmemOther
  exact ⟨cell.row, hread, haddressed, ⟨cell, hmem, rfl, hwrites⟩, other, hmemOther, hsame, hlearns⟩

theorem exists_of_macOf {filed : List Cell} (hmac : macOf filed = some mac) :
    (∃ cell ∈ filed, cell.address = some (some mac)) ∨ ∃ cell ∈ filed, cell.fill = some mac := by
  rcases Option.or_eq_some_iff.mp hmac with haddress | ⟨-, hfill⟩
  · left
    cases hlast : (filed.filterMap Cell.address).getLast? with
    | none =>
        rw [hlast] at haddress
        cases haddress
    | some written =>
        rw [hlast] at haddress
        cases haddress
        exact List.mem_filterMap.mp (List.mem_of_getLast? hlast)
  · exact Or.inr (List.mem_filterMap.mp (List.mem_of_head? hfill))

/-- The row of a cell that gives the address is one of the address. -/
theorem exists_addressed {key : GoString} (hmac : macOf (written agent params key) = some mac) :
    ∃ cell ∈ written agent params key, Addressed agent cell.row mac := by
  rcases exists_of_macOf hmac with ⟨cell, hcell, haddress⟩ | ⟨cell, hcell, hfill⟩
  · refine ⟨cell, hcell, ?_⟩
    unfold Cell.address at haddress
    split_ifs at haddress with hcolumn
    have hmem := (mem_written hcell).2.1
    unfold Addressed
    split
    next htable => exact absurd htable hcolumn.1
    next => exact Or.inr ⟨cell, hmem, rfl, hcolumn.2, Option.some.inj haddress⟩
  · refine ⟨cell, hcell, ?_⟩
    unfold Cell.fill at hfill
    split_ifs at hfill with htable
    have hparse := (qBridge_of_key (mem_cells (mem_written hcell).2.1).2 htable.1).2
    cases hfill
    unfold Addressed
    rw [htable.1]
    exact hparse

/-- An address that is read from one row is one. -/
theorem oneRow_of_row_eq {key : GoString} {port : Int}
    (hlearned : Learned agent params stpStates key mac port)
    (hsame : ∀ first ∈ written agent params key, ∀ second ∈ written agent params key,
      first.row = second.row) : OneRow agent params key mac := by
  obtain ⟨⟨row, last⟩, hport, -⟩ := Option.map_eq_some_iff.mp hlearned.port_eq
  obtain ⟨⟨statusRow, status⟩, hstatus, -⟩ := Option.map_eq_some_iff.mp hlearned.status_eq
  obtain ⟨-, first, hfirst, rfl, -⟩ := exists_port_of_lastPort hport
  obtain ⟨second, hsecond, rfl, -⟩ := exists_status_of_lastStatus hstatus
  obtain ⟨third, hthird, haddressed⟩ := exists_addressed hlearned.mac_eq
  rw [hsame second hsecond first hfirst] at hstatus
  rw [hsame third hthird first hfirst] at haddressed
  exact ⟨first.row, last, status, hport, hstatus, haddressed⟩

/-- If each address that is alone on a port with an interface was read from one row, every
edge is backed by one. -/
theorem edges_backed_of_oneRow (agent : Agent) (order : RangeOrder) (params : Params)
    (localDevice : GoString) (now : Time) (bridgePorts stpStates : Map Int Int)
    (ifNames : Map Int GoString) (result : WalkResult)
    (hports : walkBasePortTable agent = .ok bridgePorts)
    (hstates : walkStpPortStates agent = .ok stpStates)
    (hnames : walkIfNamesWithFallback agent = .ok ifNames)
    (hwalk : walk agent order params localDevice now = .ok result)
    (hrows : ∀ key mac port, Alone agent params stpStates key mac port →
      (bridgePorts.lookup port).isSome = true → OneRow agent params key mac) :
    ∀ edge ∈ result.edges, Backed agent params bridgePorts ifNames edge := by
  have hedges : result.edges = buildEdges order localDevice (walkedEntries agent order params)
      bridgePorts ifNames stpStates now := by
    obtain ⟨⟨entries, hadPDUs⟩, htable, hwalk⟩ := bind_eq_ok.mp hwalk
    rw [hports, hstates, hnames] at hwalk
    cases hwalk
    obtain ⟨pdus, hpdus, hentries⟩ := bind_eq_ok.mp htable
    cases hentries
    have hbridge : Table.bridge.pdus agent = pdus := by
      simp only [Table.pdus, hpdus]
      rfl
    rw [walkedEntries, hbridge]
  rw [hedges]
  intro edge hedge
  obtain ⟨key, mac, port, ifIdx, halone, hport, rfl⟩ := mem_buildEdges_iff.mp hedge
  have hrow := hrows key mac port halone (Option.isSome_of_mem hport)
  obtain ⟨row, hcarries⟩ := carries_of_oneRow halone.1 hrow
  exact ⟨row, mac, port, ifIdx, hcarries, hport, rfl, rfl⟩

/-! ### A switch with two forwarding databases -/

/-- A switch that answers with these bindings of the VLAN-aware table. Its bridge port 5 is
interface 5. -/
def switchAgent (pdus : List Pdu) : Agent where
  systemGroup := .ok []
  sysObjectID := none
  bulkWalk oid :=
    if oid = oidQBridgeFdbTable then .ok pdus
    else if oid = oidBasePortTable then .ok [⟨str ".1.3.6.1.2.1.17.1.4.1.2.5", .signed 5⟩]
    else .ok []
  vlanFdbWalk _ := .ok []

/-- The binding of a column for a forwarding database, of one address. -/
def fdbBinding (column fdbId : String) (value : Int64) : Pdu :=
  ⟨str ".1.3.6.1.2.1.17.7.1.2.2.1." ++ str column ++ str "." ++ str fdbId ++
    str ".2.0.0.0.0.1", .signed value⟩

def switchParams : Params := ⟨[], true, 0, [], false⟩

theorem exists_eq_ok {Failure Value : Type} {result : Except Failure Value}
    (hsome : result.toOption.isSome = true) : ∃ value, result = .ok value := by
  cases result with
  | error failure => cases hsome
  | ok value => exact ⟨value, rfl⟩

/-- The address is learned on port 5. -/
def learnedPdus : List Pdu := [fdbBinding "2" "1" 5, fdbBinding "3" "1" 3]

/-- In the first database the address is the switch's own, and in the second one it was
learned on no port. -/
def mixedPdus : List Pdu :=
  [fdbBinding "2" "1" 5, fdbBinding "2" "2" 0, fdbBinding "3" "1" 4, fdbBinding "3" "2" 3]

/-- One row makes an edge that it backs. -/
theorem learned_address_backed :
    ∃ bridgePorts ifNames result, walkBasePortTable (switchAgent learnedPdus) = .ok bridgePorts ∧
      walkIfNamesWithFallback (switchAgent learnedPdus) = .ok ifNames ∧
      walk (switchAgent learnedPdus) .insertion switchParams (str "switch") ⟨0, none⟩ =
        .ok result ∧
      result.edges.length = 1 ∧
      ∀ edge ∈ result.edges, Backed (switchAgent learnedPdus) switchParams bridgePorts ifNames
        edge := by
  obtain ⟨hrows, hlength, hportsOk, hstatesOk, hnamesOk⟩ :
      (∀ table ∈ tablesRead (switchAgent learnedPdus) switchParams,
        ∀ cell ∈ cells (switchAgent learnedPdus) table,
          cell.row = ⟨.qBridge, str "1.2.0.0.0.0.1"⟩) ∧
      (walk (switchAgent learnedPdus) .insertion switchParams (str "switch")
        ⟨0, none⟩).toOption.map (fun result => result.edges.length) = some 1 ∧
      (walkBasePortTable (switchAgent learnedPdus)).toOption.isSome = true ∧
      (walkStpPortStates (switchAgent learnedPdus)).toOption.isSome = true ∧
      (walkIfNamesWithFallback (switchAgent learnedPdus)).toOption.isSome = true := by
    decide +kernel
  obtain ⟨bridgePorts, hports⟩ := exists_eq_ok hportsOk
  obtain ⟨stpStates, hstates⟩ := exists_eq_ok hstatesOk
  obtain ⟨ifNames, hnames⟩ := exists_eq_ok hnamesOk
  have hwalkOk : (walk (switchAgent learnedPdus) .insertion switchParams (str "switch")
      ⟨0, none⟩).toOption.isSome = true := by
    rw [← Option.isSome_map, hlength]
    rfl
  obtain ⟨result, hwalk⟩ := exists_eq_ok hwalkOk
  rw [hwalk] at hlength
  refine ⟨bridgePorts, ifNames, result, hports, hnames, hwalk, Option.some.inj hlength, ?_⟩
  refine edges_backed_of_oneRow _ _ _ _ _ _ _ _ _ hports hstates hnames hwalk ?_
  intro key mac port halone hport
  apply oneRow_of_row_eq halone.1
  intro first hfirst second hsecond
  rw [hrows _ (mem_written hfirst).1 _ (mem_written hfirst).2.1,
    hrows _ (mem_written hsecond).1 _ (mem_written hsecond).2.1]

/-- The port of the first row and the status of the second make an edge that no row backs. -/
theorem mixed_rows_make_edge :
    (walk (switchAgent mixedPdus) .insertion switchParams (str "switch") ⟨0, none⟩).toOption.map
        (fun result => result.edges.map (fun edge => (edge.srcPort, edge.dstDevice))) =
      some [(str "if5", str "02:00:00:00:00:01")] ∧
      ∀ bridgePorts ifNames edge,
        ¬ Backed (switchAgent mixedPdus) switchParams bridgePorts ifNames edge := by
  have hcells : ∀ table ∈ tablesRead (switchAgent mixedPdus) switchParams,
      ∀ first ∈ cells (switchAgent mixedPdus) table,
        ∀ second ∈ cells (switchAgent mixedPdus) table, first.row = second.row →
          first.port.isSome = true → second.status ≠ some (second.row, fdbStatusLearned) := by
    decide +kernel
  refine ⟨by decide +kernel, ?_⟩
  intro bridgePorts ifNames edge hbacked
  obtain ⟨row, mac, port, ifIdx, ⟨htable, -, ⟨first, hfirst, hrow, hport⟩, second, hsecond, hsame,
    hstatus⟩, -⟩ := hbacked
  subst hrow
  rw [← hsame] at hstatus
  exact hcells _ htable first hfirst second hsecond hsame.symm (by rw [hport]; rfl) hstatus

end TopologyExporter.Discovery.Fdb
