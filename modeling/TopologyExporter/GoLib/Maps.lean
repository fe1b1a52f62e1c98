import Mathlib

/-! # Maps

A map is a finite association without duplicate keys. Ranging over a map visits
every entry once, in an order the language leaves open: each range loop takes
the order from an oracle, and results hold for every oracle.
-/

namespace Go

abbrev Map (Key Value : Type) := AList (fun _ : Key => Value)

/-- Equality of maps as lists of entries, stated so that it can be evaluated. -/
instance (priority := high) {Key Value : Type} [DecidableEq Key] [DecidableEq Value] :
    DecidableEq (Map Key Value) :=
  fun first second => decidable_of_iff (first.entries = second.entries) AList.ext_iff.symm

/-- One choice of iteration order for every range loop, named by its site. -/
structure RangeOrder where
  arrange : {Item : Type} → Nat → List Item → List Item
  perm : ∀ {Item : Type} (site : Nat) (items : List Item), (arrange site items).Perm items

/-- Entries are visited in the order of their insertion. -/
def RangeOrder.insertion : RangeOrder := ⟨fun _ items => items, fun _ _ => .refl _⟩

/-- Every arrangement of the items of one loop is that of some order. -/
theorem RangeOrder.exists_arrange (order : RangeOrder) (site : Nat) {Item : Type}
    {items arranged : List Item} (hperm : arranged.Perm items) :
    ∃ other : RangeOrder, other.arrange site items = arranged ∧
      ∀ {Kind : Type} (place : Nat) (list : List Kind), place ≠ site →
        other.arrange place list = order.arrange place list := by
  classical
  let arrange : {Kind : Type} → Nat → List Kind → List Kind := fun {Kind} place list =>
    if h : place = site ∧ ∃ same : Item = Kind, list = cast (congrArg List same) items then
      cast (congrArg List h.2.choose) arranged
    else order.arrange place list
  refine ⟨⟨arrange, ?_⟩, ?_, ?_⟩
  · intro Kind place list
    by_cases h : place = site ∧ ∃ same : Item = Kind, list = cast (congrArg List same) items
    · simp only [arrange, dif_pos h]
      obtain ⟨-, same, hlist⟩ := h
      subst same
      have hsame : list = items := hlist
      exact hperm.trans (List.Perm.of_eq hsame.symm)
    · simp only [arrange, dif_neg h]
      exact order.perm place list
  · exact dif_pos ⟨rfl, rfl, rfl⟩
  · intro Kind place list hplace
    exact dif_neg fun h => hplace h.1

/-- Ranging over a slice visits its items, each with its index. -/
theorem forall_mem_zipIdx {Item : Type} {property : Item → Prop} {items : List Item} :
    (∀ indexed ∈ items.zipIdx, property indexed.1) ↔ ∀ item ∈ items, property item := by
  rw [← List.forall_mem_map, List.zipIdx_map_fst]

/-- Different items give different results if no result is given twice. -/
theorem nodup_filterMap_iff {Item Result : Type*} {visit : Item → Option Result}
    {items : List Item} (hnodup : items.Nodup) :
    (items.filterMap visit).Nodup ↔ ∀ first ∈ items, ∀ second ∈ items, ∀ result,
      visit first = some result → visit second = some result → first = second := by
  rw [List.Nodup, List.pairwise_filterMap]
  constructor
  · intro hapart first hfirst second hsecond result hresult hother
    have hsymm : Std.Symm (fun first second => ∀ result, visit first = some result →
        ∀ other, visit second = some other → result ≠ other) :=
      ⟨fun _ _ hdiffer _ hresult _ hother => (hdiffer _ hother _ hresult).symm⟩
    by_contra hne
    exact hapart.forall hfirst hsecond hne result hresult result hother rfl
  · intro hsame
    apply hnodup.pairwise_of_forall_ne
    intro first hfirst second hsecond hne result hresult other hother heq
    subst heq
    exact hne (hsame first hfirst second hsecond result hresult hother)

/-- A loop whose results carry the labels of the items they come from keeps the
labels in order. -/
theorem map_filterMap_sublist {Item Result Label : Type*} {visit : Item → Option Result}
    {label : Item → Label} {labelled : Result → Label} {items : List Item}
    (hlabel : ∀ item ∈ items, ∀ result, visit item = some result →
      labelled result = label item) :
    ((items.filterMap visit).map labelled).Sublist (items.map label) := by
  induction items with
  | nil => simp
  | cons item rest ih =>
      rw [List.forall_mem_cons] at hlabel
      cases hvisit : visit item with
      | none =>
          simp only [List.filterMap_cons, hvisit, List.map_cons]
          exact (ih hlabel.2).cons _
      | some result =>
          simp only [List.filterMap_cons, hvisit, List.map_cons, hlabel.1 result hvisit]
          exact (ih hlabel.2).cons_cons _

namespace Map

variable {Item Key Value : Type} [DecidableEq Key]

/-- The key-value pairs of a map as a range loop visits them. -/
def range (table : Map Key Value) (order : RangeOrder) (site : Nat) : List (Key × Value) :=
  order.arrange site (table.entries.map (fun entry => (entry.1, entry.2)))

omit [DecidableEq Key] in
theorem perm_range (table : Map Key Value) (order : RangeOrder) (site : Nat) :
    (table.range order site).Perm (table.entries.map (fun entry => (entry.1, entry.2))) :=
  order.perm site _

variable {table : Map Key Value} {value : Value} {found : Key} {items : List Item}
  {rows : List (Key × Value)} {row : Key × Option Value} {order : RangeOrder} {site : Nat}
  {values : List Value} {initial : Value}

theorem mem_range {key : Key} :
    (key, value) ∈ table.range order site ↔ table.lookup key = some value := by
  rw [(perm_range table order site).mem_iff, List.mem_map]
  constructor
  · rintro ⟨⟨found, content⟩, hmem, heq⟩
    cases heq
    exact AList.mem_lookup_iff.mpr hmem
  · intro hlookup
    exact ⟨⟨key, value⟩, AList.mem_lookup_iff.mp hlookup, rfl⟩

omit [DecidableEq Key] in
theorem perm_keys_range (table : Map Key Value) (order : RangeOrder) (site : Nat) :
    ((table.range order site).map Prod.fst).Perm table.keys := by
  have hperm := (perm_range table order site).map Prod.fst
  rwa [List.map_map] at hperm

omit [DecidableEq Key] in
theorem range_nodup (table : Map Key Value) (order : RangeOrder) (site : Nat) :
    ((table.range order site).map Prod.fst).Nodup :=
  (perm_keys_range table order site).nodup_iff.mpr table.keys_nodup

/-- A map with one entry. -/
theorem lookup_insert_empty {key : Key} {held : Value} :
    ((∅ : Map Key Value).insert key held).lookup found = some value ↔
      found = key ∧ held = value := by
  by_cases hsame : found = key
  · subst hsame
    rw [AList.lookup_insert]
    simp
  · rw [AList.lookup_insert_ne hsame]
    simp [hsame]

/-! ## Grouping

A loop that files each item under a key and folds it into what that key already
holds. Items without a key are skipped. -/

variable (key : Item → Option Key) (fold : Option Value → Item → Value)

def file (table : Map Key Value) (item : Item) : Map Key Value :=
  match key item with
  | none => table
  | some found => table.insert found (fold (table.lookup found) item)

def groupBy (items : List Item) : Map Key Value := items.foldl (file key fold) ∅

theorem lookup_file (table : Map Key Value) (item : Item) (found : Key) :
    (file key fold table item).lookup found =
      if key item = some found then some (fold (table.lookup found) item)
      else table.lookup found := by
  unfold file
  cases hkey : key item with
  | none => simp
  | some filed =>
      by_cases hsame : filed = found
      · subst hsame
        simp
      · rw [AList.lookup_insert_ne (Ne.symm hsame)]
        simp [hsame]

theorem lookup_foldl_file (table : Map Key Value) (items : List Item) (found : Key) :
    (items.foldl (file key fold) table).lookup found =
      (items.filter (fun item => key item = some found)).foldl
        (fun held item => some (fold held item)) (table.lookup found) := by
  induction items generalizing table with
  | nil => rfl
  | cons item rest ih =>
      rw [List.foldl_cons, ih, lookup_file]
      by_cases hkey : key item = some found
      · simp [hkey]
      · simp [hkey]

/-- What a key holds is folded from its own items, in order. -/
theorem lookup_groupBy (items : List Item) (found : Key) :
    (groupBy key fold items).lookup found =
      (items.filter (fun item => key item = some found)).foldl
        (fun held item => some (fold held item)) none := by
  rw [groupBy, lookup_foldl_file, AList.lookup_empty]

/-- A loop that appends what each item has to the list of its key. -/
theorem lookup_groupBy_append_iff {value : Item → Value} :
    (groupBy key (fun held item => held.getD [] ++ [value item]) items).lookup found =
        some values ↔
      values = (items.filter (fun item => key item = some found)).map value ∧ values ≠ [] := by
  have happend : ∀ (rest : List Item) (held : List Value),
      rest.foldl (fun held item => some (held.getD [] ++ [value item])) (some held) =
        some (held ++ rest.map value) := by
    intro rest
    induction rest with
    | nil => simp
    | cons item rest ih =>
        intro held
        rw [List.foldl_cons, Option.getD_some, ih, List.append_assoc]
        rfl
  rw [lookup_groupBy]
  cases items.filter (fun item => key item = some found) with
  | nil => simp +contextual
  | cons item rest =>
      rw [List.foldl_cons, happend, Option.some.injEq, eq_comm]
      constructor
      · intro hvalues
        rw [hvalues]
        exact ⟨rfl, by simp⟩
      · exact And.left

/-- A loop that appends each row to the list of its key. -/
theorem lookup_groupBy_append :
    (groupBy (fun row => some row.1) (fun held row => held.getD [] ++ [row.2]) rows).lookup found =
        some values ↔
      values = (rows.filter (fun row => row.1 = found)).map Prod.snd ∧ values ≠ [] := by
  rw [lookup_groupBy_append_iff]
  simp only [Option.some.injEq]

/-- A key is there when some item was filed under it. -/
theorem lookup_groupBy_eq_none :
    (groupBy key fold items).lookup found = none ↔ ∀ item ∈ items, key item ≠ some found := by
  have hheld : ∀ (rest : List Item) (value : Value),
      rest.foldl (fun held item => some (fold held item)) (some value) ≠ none := by
    intro rest
    induction rest with
    | nil => simp
    | cons item rest ih => exact fun value => ih (fold (some value) item)
  rw [lookup_groupBy]
  cases hitems : items.filter (fun item => key item = some found) with
  | nil =>
      rw [List.filter_eq_nil_iff] at hitems
      simpa using hitems
  | cons item rest =>
      have hmem : item ∈ items.filter (fun item => key item = some found) := by
        rw [hitems]
        exact List.mem_cons_self ..
      obtain ⟨hitem, hkey⟩ := List.mem_filter.mp hmem
      exact iff_of_false (hheld rest _) fun hnone => hnone item hitem (of_decide_eq_true hkey)

/-- A property of every stored value: filing an item has to keep it. -/
theorem foldl_file_forall {property : Value → Prop}
    (hfold : ∀ held, ∀ item ∈ items, (∀ value, held = some value → property value) →
      property (fold held item))
    (htable : ∀ found value, table.lookup found = some value → property value) :
    ∀ found value, (items.foldl (file key fold) table).lookup found = some value →
      property value := by
  induction items generalizing table with
  | nil => exact htable
  | cons item rest ih =>
      refine ih (fun held next hnext => hfold held next (List.mem_cons_of_mem item hnext)) ?_
      intro found value hlookup
      rw [lookup_file] at hlookup
      split at hlookup
      · cases hlookup
        exact hfold _ item (List.mem_cons_self ..) (htable found)
      · exact htable found value hlookup

/-! ## Keeping the first or the last row -/

/-- A row for a key that is already there changes nothing. -/
def insertNew (table : Map Key Value) (row : Key × Value) : Map Key Value :=
  if row.1 ∈ table then table else table.insert row.1 row.2

theorem lookup_insertNew (table : Map Key Value) (row : Key × Value) (found : Key) :
    (insertNew table row).lookup found =
      (table.lookup found).or (if row.1 = found then some row.2 else none) := by
  unfold insertNew
  by_cases hmem : row.1 ∈ table
  · rw [if_pos hmem]
    by_cases hkey : row.1 = found
    · subst hkey
      obtain ⟨value, hvalue⟩ := Option.isSome_iff_exists.mp (AList.lookup_isSome.mpr hmem)
      simp [hvalue]
    · simp [hkey]
  · rw [if_neg hmem]
    by_cases hkey : row.1 = found
    · subst hkey
      rw [AList.lookup_insert, AList.lookup_eq_none.mpr hmem]
      simp
    · rw [AList.lookup_insert_ne (Ne.symm hkey)]
      simp [hkey]

/-- The first row of a key decides, unless the key was there before. -/
theorem lookup_foldl_insertNew (table : Map Key Value) (rows : List (Key × Value))
    (found : Key) :
    (rows.foldl insertNew table).lookup found =
      (table.lookup found).or ((rows.find? (fun row => row.1 = found)).map Prod.snd) := by
  induction rows generalizing table with
  | nil => simp
  | cons row rest ih =>
      rw [List.foldl_cons, ih, lookup_insertNew, Option.or_assoc, List.find?_cons]
      by_cases hkey : row.1 = found
      · simp [hkey]
      · simp [hkey]

/-- The last row of a key decides. -/
theorem lookup_foldl_insert (table : Map Key Value) (rows : List (Key × Value)) (found : Key) :
    (rows.foldl (fun held row => held.insert row.1 row.2) table).lookup found =
      ((rows.reverse.find? (fun row => row.1 = found)).map Prod.snd).or
        (table.lookup found) := by
  induction rows generalizing table with
  | nil => simp
  | cons row rest ih =>
      rw [List.foldl_cons, ih, List.reverse_cons, List.find?_append]
      cases hrest : rest.reverse.find? (fun row => row.1 = found) with
      | some last => simp
      | none =>
          by_cases hkey : row.1 = found
          · subst hkey
            simp
          · rw [AList.lookup_insert_ne (Ne.symm hkey)]
            simp [hkey]

/-- Among rows with different keys, the first row of a key is the only one. -/
theorem find?_eq_some_iff_of_nodup (hnodup : (rows.map Prod.fst).Nodup) :
    (rows.find? (fun row => row.1 = found)).map Prod.snd = some value ↔ (found, value) ∈ rows := by
  rw [Option.map_eq_some_iff]
  constructor
  · intro hfound
    obtain ⟨row, hfind, rfl⟩ := hfound
    have hkey : row.1 = found := by simpa using List.find?_some hfind
    subst hkey
    exact List.mem_of_find?_eq_some hfind
  · intro hmem
    cases hfind : rows.find? (fun row => row.1 = found) with
    | none => simpa using List.find?_eq_none.mp hfind (found, value) hmem
    | some row =>
        have hkey : row.1 = found := by simpa using List.find?_some hfind
        have hrow := List.mem_of_find?_eq_some hfind
        have hsame : row = (found, value) := List.inj_on_of_nodup_map hnodup hrow hmem hkey
        exact ⟨row, rfl, congrArg Prod.snd hsame⟩

/-- Rows with different keys are all found. -/
theorem lookup_foldl_insert_of_nodup (hnodup : (rows.map Prod.fst).Nodup) :
    (rows.foldl (fun held row => held.insert row.1 row.2) (∅ : Map Key Value)).lookup found =
        some value ↔ (found, value) ∈ rows := by
  rw [lookup_foldl_insert, AList.lookup_empty, Option.or_none, ← List.mem_reverse]
  apply find?_eq_some_iff_of_nodup
  rw [List.map_reverse]
  exact List.nodup_reverse.mpr hnodup

/-- A map keeps one entry for each row exactly if the rows have different keys. -/
theorem length_keys_foldl_insert_iff :
    (rows.foldl (fun held row => held.insert row.1 row.2) (∅ : Map Key Value)).keys.length =
        rows.length ↔ (rows.map Prod.fst).Nodup := by
  have hkeys : (rows.foldl (fun held row => held.insert row.1 row.2)
      (∅ : Map Key Value)).keys.toFinset = (rows.map Prod.fst).toFinset := by
    ext key
    rw [List.mem_toFinset, List.mem_toFinset, ← AList.mem_keys, ← AList.lookup_isSome,
      lookup_foldl_insert, AList.lookup_empty, Option.or_none, Option.isSome_map,
      List.find?_isSome]
    simp
  rw [← List.toFinset_card_of_nodup (AList.keys_nodup _), hkeys, ← List.length_map Prod.fst]
  exact Multiset.toFinset_card_eq_card_iff_nodup

/-- The entries of a map are copied to an empty one, each with what becomes of its value, and
left out if that is nothing. -/
theorem lookup_foldl_insert_filterMap {Other : Type} (copied : Map Key Value) (order : RangeOrder)
    (site : Nat) (visit : Value → Option Other) (found : Key) :
    (((copied.range order site).filterMap (fun row =>
        (visit row.2).map (fun value => (row.1, value)))).foldl
          (fun held row => held.insert row.1 row.2) (∅ : Map Key Other)).lookup found =
      (copied.lookup found).bind visit := by
  have hnodup : (((copied.range order site).filterMap (fun row =>
      (visit row.2).map (fun value => (row.1, value)))).map Prod.fst).Nodup := by
    refine (map_filterMap_sublist ?_).nodup (range_nodup copied order site)
    intro row _ result hresult
    obtain ⟨value, -, rfl⟩ := Option.map_eq_some_iff.mp hresult
    rfl
  apply Option.ext
  intro value
  rw [lookup_foldl_insert_of_nodup hnodup, List.mem_filterMap, Option.bind_eq_some_iff]
  constructor
  · intro hrow
    obtain ⟨⟨key, held⟩, hmem, hvisit⟩ := hrow
    obtain ⟨other, hother, heq⟩ := Option.map_eq_some_iff.mp hvisit
    cases heq
    exact ⟨held, mem_range.mp hmem, hother⟩
  · intro hheld
    obtain ⟨held, hlookup, hvisit⟩ := hheld
    exact ⟨(found, held), mem_range.mpr hlookup, by rw [hvisit]; rfl⟩

/-- In whatever order the entries come, the one of a key is found. -/
theorem find?_of_perm_range (hperm : rows.Perm (table.range order site)) (found : Key) :
    (rows.find? (fun row => row.1 = found)).map Prod.snd = table.lookup found := by
  have hnodup : (rows.map Prod.fst).Nodup :=
    (hperm.map Prod.fst).nodup_iff.mpr (range_nodup table order site)
  apply Option.ext
  intro value
  rw [find?_eq_some_iff_of_nodup hnodup, hperm.mem_iff, mem_range]

/-- The entries of a map are copied over those of another. -/
theorem lookup_foldl_insert_range (table copied : Map Key Value) (order : RangeOrder) (site : Nat)
    (found : Key) :
    ((copied.range order site).foldl (fun held row => held.insert row.1 row.2) table).lookup found =
      (copied.lookup found).or (table.lookup found) := by
  rw [lookup_foldl_insert, find?_of_perm_range (List.reverse_perm _)]

/-- The entries of a map are added to those of another. -/
theorem lookup_foldl_insertNew_range (table added : Map Key Value) (order : RangeOrder)
    (site : Nat) (found : Key) :
    ((added.range order site).foldl insertNew table).lookup found =
      (table.lookup found).or (added.lookup found) := by
  rw [lookup_foldl_insertNew, find?_of_perm_range (List.Perm.refl _)]

/-! ## Writes

A write gives a key a new value or removes it. -/

def write (table : Map Key Value) (row : Key × Option Value) : Map Key Value :=
  match row.2 with
  | some value => table.insert row.1 value
  | none => table.erase row.1

theorem lookup_write_self (table : Map Key Value) (row : Key × Option Value) :
    (write table row).lookup row.1 = row.2 := by
  unfold write
  cases row.2 with
  | none => exact AList.lookup_erase _ _
  | some value => exact AList.lookup_insert _

theorem lookup_write_ne (table : Map Key Value) (hne : found ≠ row.1) :
    (write table row).lookup found = table.lookup found := by
  unfold write
  cases row.2 with
  | none => exact AList.lookup_erase_ne hne
  | some value => exact AList.lookup_insert_ne hne

theorem lookup_foldl_write_of_notMem (table : Map Key Value) {rows : List (Key × Option Value)}
    (hrows : found ∉ rows.map Prod.fst) :
    (rows.foldl write table).lookup found = table.lookup found := by
  induction rows generalizing table with
  | nil => rfl
  | cons row rest ih =>
      rw [List.map_cons, List.mem_cons, not_or] at hrows
      rw [List.foldl_cons, ih _ hrows.2, lookup_write_ne table hrows.1]

/-- Of writes to different keys each has its effect. -/
theorem lookup_foldl_write_of_mem (table : Map Key Value) {rows : List (Key × Option Value)}
    (hnodup : (rows.map Prod.fst).Nodup) (hrow : row ∈ rows) :
    (rows.foldl write table).lookup row.1 = row.2 := by
  induction rows generalizing table with
  | nil => cases hrow
  | cons first rest ih =>
      rw [List.map_cons, List.nodup_cons] at hnodup
      rw [List.foldl_cons]
      rcases List.mem_cons.mp hrow with rfl | hrest
      · rw [lookup_foldl_write_of_notMem _ hnodup.1, lookup_write_self]
      · exact ih _ hnodup.2 hrest

theorem lookup_foldl_erase (table : Map Key Value) (keys : List Key) (found : Key) :
    (keys.foldl (fun held key => held.erase key) table).lookup found =
      if found ∈ keys then none else table.lookup found := by
  induction keys generalizing table with
  | nil => simp
  | cons key rest ih =>
      rw [List.foldl_cons, ih]
      by_cases hsame : found = key
      · subst hsame
        simp
      · simp [AList.lookup_erase_ne hsame, hsame]

/-! ## Tables filled row by row

Each row names a key and updates what the key holds; a key seen for the first
time starts from an initial value. -/

def updateRows (initial : Value) (table : Map Key Value) (rows : List (Key × (Value → Value))) :
    Map Key Value :=
  rows.foldl (file (fun row => some row.1) (fun held row => row.2 (held.getD initial))) table

/-- What a key holds is made by its own rows, in order. -/
theorem lookup_updateRows (initial : Value) (table : Map Key Value)
    (rows : List (Key × (Value → Value))) (found : Key) :
    (updateRows initial table rows).lookup found =
      (rows.filter (fun row => row.1 = found)).foldl
        (fun held row => some (row.2 (held.getD initial))) (table.lookup found) := by
  rw [updateRows, lookup_foldl_file]
  simp only [Option.some.injEq]

theorem foldl_update_eq (initial : Value) (update : Item → Value → Value) (items : List Item) :
    items.foldl (fun held item => some (update item (held.getD initial))) none =
      if items = [] then none
      else some (items.foldl (fun value item => update item value) initial) := by
  have hsome : ∀ (rest : List Item) (value : Value),
      rest.foldl (fun held item => some (update item (held.getD initial))) (some value) =
        some (rest.foldl (fun value item => update item value) value) := by
    intro rest
    induction rest with
    | nil => exact fun _ => rfl
    | cons item rest ih => exact fun value => ih (update item value)
  cases items with
  | nil => rfl
  | cons item rest =>
      rw [if_neg (List.cons_ne_nil item rest)]
      exact hsome rest (update item initial)

/-- If each update writes a part of the value or leaves it as it is, the last one that writes
it decides. -/
theorem foldl_update_last {Part : Type} {part : Value → Part} {write : Item → Option Part}
    {update : Item → Value → Value}
    (hupdate : ∀ item ∈ items, ∀ value, part (update item value) = (write item).getD (part value))
    (initial : Value) :
    part (items.foldl (fun value item => update item value) initial) =
      ((items.filterMap write).getLast?).getD (part initial) := by
  induction items generalizing initial with
  | nil => rfl
  | cons item rest ih =>
      rw [List.forall_mem_cons] at hupdate
      rw [List.foldl_cons, ih hupdate.2, hupdate.1, List.filterMap_cons]
      cases hwrite : write item with
      | none => rfl
      | some value =>
          rw [List.getLast?_cons]
          cases (rest.filterMap write).getLast? with
          | none => rfl
          | some last => rfl

theorem updateRows_forall (property : Value → Prop) (hinitial : property initial)
    {rows : List (Key × (Value → Value))}
    (hrows : ∀ row ∈ rows, ∀ value, property value → property (row.2 value))
    (htable : ∀ found value, table.lookup found = some value → property value) :
    ∀ found value, (updateRows initial table rows).lookup found = some value →
      property value := by
  refine foldl_file_forall _ _ ?_ htable
  intro held row hrow hheld
  refine hrows row hrow _ ?_
  cases held with
  | none => exact hinitial
  | some value => exact hheld value rfl

/-- Every key of the table is the key of a row, or was there before. -/
theorem updateRows_key {rows : List (Key × (Value → Value))}
    (hlookup : (updateRows initial table rows).lookup found = some value) :
    (∃ row ∈ rows, row.1 = found) ∨ ∃ held, table.lookup found = some held := by
  rw [updateRows, lookup_foldl_file] at hlookup
  cases hrows : rows.filter (fun row => some row.1 = some found) with
  | nil =>
      rw [hrows] at hlookup
      exact Or.inr ⟨value, hlookup⟩
  | cons row rest =>
      have hmem : row ∈ rows.filter (fun row => some row.1 = some found) := by
        rw [hrows]
        exact List.mem_cons_self ..
      obtain ⟨hrow, hkey⟩ := List.mem_filter.mp hmem
      exact Or.inl ⟨row, hrow, by simpa using hkey⟩

/-! ## Counters -/

theorem sum_kerase (key : Key) (entries : List (Sigma fun _ : Key => Nat)) :
    ((entries.kerase key).map Sigma.snd).sum + (entries.dlookup key).getD 0 =
      (entries.map Sigma.snd).sum := by
  induction entries with
  | nil => rfl
  | cons entry rest ih =>
      obtain ⟨found, value⟩ := entry
      by_cases hkey : key = found
      · subst hkey
        have hcut : List.kerase key (⟨key, value⟩ :: rest) = rest := List.kerase_cons_eq rfl
        rw [hcut, List.dlookup_cons_eq, Option.getD_some, List.map_cons,
          List.sum_cons, add_comm]
      · rw [List.kerase_cons_ne hkey, List.dlookup_cons_ne _ _ hkey, List.map_cons, List.map_cons,
          List.sum_cons, List.sum_cons, add_assoc, ih]

/-- The sum of a table of counters after one of them is set. -/
theorem sum_range_insert (table : Map Key Nat) (order : RangeOrder) (site : Nat) (key : Key)
    (value : Nat) :
    ((range (table.insert key value) order site).map Prod.snd).sum + (table.lookup key).getD 0 =
      ((table.range order site).map Prod.snd).sum + value := by
  have hsum : ∀ counters : Map Key Nat, ((counters.range order site).map Prod.snd).sum =
      (counters.entries.map Sigma.snd).sum := by
    intro counters
    rw [((perm_range counters order site).map Prod.snd).sum_eq, List.map_map]
    rfl
  rw [hsum, hsum, AList.entries_insert, List.map_cons, List.sum_cons, AList.lookup, add_assoc,
    sum_kerase, add_comm]
end Map

end Go
