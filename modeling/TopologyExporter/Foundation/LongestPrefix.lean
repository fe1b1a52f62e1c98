import TopologyExporter.Foundation.Selection

/-! # Longest prefix match

A block is the set of the words of one width that begin in one way. Of the blocks
that hold a word, each lies within the shorter ones, so the longest beginning gives
the smallest block. A table that is sorted by the length of the beginnings finds it
first, unless it counts some lengths for more than they are.
-/

universe u v

/-! ## Sorting and searching -/

namespace Selection

variable {Item : Type u} {Place : Type v} [LinearOrder Place] {place : Item → Place}

theorem find?_orderedInsert (fits : Item → Bool) (item : Item) {sorted : List Item}
    (hsorted : sorted.Pairwise (fun first second => place first ≤ place second)) :
    (sorted.orderedInsert (fun first second => place first ≤ place second) item).find? fits =
      if fits item then
        match sorted.find? fits with
        | none => some item
        | some best => if place best < place item then some best else some item
      else sorted.find? fits := by
  induction sorted with
  | nil =>
      rw [List.orderedInsert_nil, List.find?_singleton]
      rfl
  | cons first rest ih =>
      rw [List.orderedInsert_cons]
      by_cases hle : place item ≤ place first
      · -- nothing in the list comes before the item
        rw [if_pos hle, List.find?_cons]
        cases hfits : fits item with
        | false => rfl
        | true =>
            cases hbest : (first :: rest).find? fits with
            | none => rfl
            | some best =>
                have hmem := List.mem_of_find?_eq_some hbest
                have hbehind : place item ≤ place best := by
                  rcases List.mem_cons.mp hmem with rfl | hrest
                  · exact hle
                  · exact hle.trans ((List.pairwise_cons.mp hsorted).1 best hrest)
                simp only [if_true, if_neg (not_lt.mpr hbehind)]
      · rw [if_neg hle, List.find?_cons, List.find?_cons]
        cases hfirst : fits first with
        | true =>
            simp only [if_pos (not_le.mp hle), ite_self]
        | false => exact ih (List.pairwise_cons.mp hsorted).2

/-- The first match in the sorted list is the first of the smallest matches. -/
theorem find?_insertionSort (fits : Item → Bool) (items : List Item) :
    (items.insertionSort (fun first second => place first ≤ place second)).find? fits =
      (items.filter fits).argmin place := by
  have : Std.Total (fun first second : Item => place first ≤ place second) :=
    ⟨fun first second => le_total (place first) (place second)⟩
  have : IsTrans Item (fun first second => place first ≤ place second) :=
    ⟨fun _ _ _ hfirst hsecond => hfirst.trans hsecond⟩
  induction items with
  | nil => rfl
  | cons item rest ih =>
      rw [List.insertionSort_cons,
        find?_orderedInsert fits item (List.pairwise_insertionSort _ rest), ih]
      cases hfits : fits item with
      | false => rw [List.filter_cons_of_neg (by simp [hfits])]; rfl
      | true =>
          rw [List.filter_cons_of_pos hfits, List.argmin_cons]
          cases (rest.filter fits).argmin place <;> rfl

/-- The choice depends on the order of the places only. -/
theorem argmin_congr {Other : Type v} [LinearOrder Other] {otherPlace : Item → Other}
    {items : List Item}
    (hplace : ∀ first ∈ items, ∀ second ∈ items,
      (place first < place second ↔ otherPlace first < otherPlace second)) :
    items.argmin place = items.argmin otherPlace := by
  apply Option.ext
  intro least
  rw [argmin_eq_some_iff, argmin_eq_some_iff]
  refine exists_congr fun front => exists_congr fun back => and_congr_right fun hitems => ?_
  have hleast : least ∈ items := by simp [hitems]
  refine and_congr ?_ ?_
  · refine forall_congr' fun item => forall_congr' fun hitem => ?_
    exact hplace least hleast item (by simp [hitems, hitem])
  · refine forall_congr' fun item => forall_congr' fun hitem => ?_
    rw [← not_lt, ← not_lt]
    exact not_congr (hplace item (by simp [hitems, hitem]) least hleast)

/-- If some items are preferred to all others, one of them is chosen if there is one. -/
theorem argmin_prefer {Place : Type} [LinearOrder Place] {place : Item → Place}
    (preferred : Item → Bool) (items : List Item) :
    items.argmin (fun item => toLex (!preferred item, place item)) =
      ((items.filter preferred).argmin place).or (items.argmin place) := by
  rw [← argmin_filter_rank]
  by_cases hany : ∃ item ∈ items, preferred item = true
  · obtain ⟨liked, hliked, hpreferred⟩ := hany
    -- with a preferred item among them, exactly the preferred ones have the least rank
    have hfilter : items.filter (fun item => items.all
        (fun other => decide ((!preferred item) ≤ (!preferred other)))) =
        items.filter preferred := by
      apply List.filter_congr
      intro item _
      rw [Bool.eq_iff_iff, List.all_eq_true]
      constructor
      · intro hall
        have hle := of_decide_eq_true (hall liked hliked)
        cases hitem : preferred item with
        | true => rfl
        | false =>
            rw [hitem, hpreferred] at hle
            exact absurd hle (by decide)
      · intro hitem other _
        simp [hitem]
    rw [hfilter]
    cases hleast : (items.filter preferred).argmin place with
    | some least => rfl
    | none =>
        have hempty := List.filter_eq_nil_iff.mp (List.argmin_eq_none.mp hleast)
        exact absurd hpreferred (hempty liked hliked)
  · have hnone : ∀ item ∈ items, preferred item = false := by
      intro item hitem
      exact Bool.eq_false_iff.mpr fun hpreferred => hany ⟨item, hitem, hpreferred⟩
    have hfilter : items.filter preferred = [] :=
      List.filter_eq_nil_iff.mpr fun item hitem => by simp [hnone item hitem]
    have hall : items.filter (fun item => items.all
        (fun other => decide ((!preferred item) ≤ (!preferred other)))) = items := by
      apply List.filter_eq_self.mpr
      intro item hitem
      rw [List.all_eq_true]
      intro other hother
      simp [hnone item hitem, hnone other hother]
    rw [hfilter, hall]
    rfl

end Selection

/-! ## Blocks -/

namespace PrefixMatch

variable {Symbol : Type u} {Entry : Type v}

/-- The words of one width that begin with `start`. -/
structure Block (Symbol : Type u) where
  width : Nat
  start : List Symbol
  start_le : start.length ≤ width

namespace Block

def Holds (block : Block Symbol) (word : List Symbol) : Prop :=
  word.length = block.width ∧ block.start <+: word

instance decidableHolds [DecidableEq Symbol] (block : Block Symbol) (word : List Symbol) :
    Decidable (block.Holds word) :=
  inferInstanceAs (Decidable (_ ∧ _))

/-- Every word of the block is one of the other. -/
def Within (block other : Block Symbol) : Prop := ∀ word, block.Holds word → other.Holds word

variable {block other : Block Symbol} {word : List Symbol}

/-- Of two blocks with a word in common, the one with the longer beginning lies within
the other. -/
theorem within_iff_of_holds [Nontrivial Symbol] (hblock : block.Holds word)
    (hother : other.Holds word) :
    block.Within other ↔ other.start.length ≤ block.start.length := by
  constructor
  · intro hwithin
    by_contra hlonger
    have hlt : block.start.length < other.start.length := not_le.mp hlonger
    -- a word that leaves the longer beginning where the shorter one ends
    obtain ⟨symbol, hsymbol⟩ := exists_ne (other.start.get ⟨block.start.length, hlt⟩)
    have hfilled : block.Holds
        (block.start ++ List.replicate (block.width - block.start.length) symbol) := by
      refine ⟨?_, List.prefix_append _ _⟩
      rw [List.length_append, List.length_replicate]
      have hle := block.start_le
      omega
    obtain ⟨rest, hrest⟩ := (hwithin _ hfilled).2
    have hplace := congrArg (fun letters => letters[block.start.length]?) hrest
    have hroom : 0 < block.width - block.start.length := by
      have hle := other.start_le
      have hwidth := hblock.1.symm.trans hother.1
      omega
    apply hsymbol
    simpa [List.getElem?_append_left hlt, List.getElem?_append_right, List.getElem?_replicate,
      List.getElem?_eq_getElem hlt, hroom, eq_comm] using hplace
  · intro hle filled hfilled
    have hstart : other.start <+: block.start :=
      List.prefix_of_prefix_length_le hother.2 hblock.2 hle
    exact ⟨hfilled.1.trans (hblock.1.symm.trans hother.1), hstart.trans hfilled.2⟩

theorem eq_of_holds (hblock : block.Holds word) (hother : other.Holds word)
    (hlength : block.start.length = other.start.length) : block = other := by
  have hstart : block.start = other.start :=
    (List.prefix_of_prefix_length_le hblock.2 hother.2 hlength.le).eq_of_length hlength
  have hwidth : block.width = other.width := hblock.1.symm.trans hother.1
  obtain ⟨width, start, hle⟩ := block
  obtain ⟨otherWidth, otherStart, hotherLe⟩ := other
  cases hstart
  cases hwidth
  rfl

end Block

/-! ## Tables of blocks -/

section Table

variable [DecidableEq Symbol] (block : Entry → Block Symbol)

/-- The smallest block that holds the word, the first one if it is there more than once. -/
def narrowest (entries : List Entry) (word : List Symbol) : Option Entry :=
  (entries.filter (fun entry => (block entry).Holds word)).argmin
    (fun entry => OrderDual.toDual (block entry).start.length)

variable {block} {entries : List Entry} {word : List Symbol} {entry : Entry}

theorem narrowest_eq_none_iff :
    narrowest block entries word = none ↔ ∀ entry ∈ entries, ¬ (block entry).Holds word := by
  rw [narrowest, List.argmin_eq_none, List.filter_eq_nil_iff]
  simp only [decide_eq_true_eq]

theorem narrowest_eq_some_iff [Nontrivial Symbol] :
    narrowest block entries word = some entry ↔
      (block entry).Holds word ∧
      (∀ other ∈ entries, (block other).Holds word → (block entry).Within (block other)) ∧
      ∃ front back, entries = front ++ entry :: back ∧
        ∀ other ∈ front, block other ≠ block entry := by
  rw [narrowest, Selection.argmin_eq_some_iff]
  constructor
  · intro hleast
    obtain ⟨front, back, hholding, hfront, hback⟩ := hleast
    have hentry : (block entry).Holds word := by
      have hmem : entry ∈ entries.filter (fun entry => decide ((block entry).Holds word)) := by
        simp [hholding]
      exact of_decide_eq_true (List.mem_filter.mp hmem).2
    -- of two blocks with the word, the one with the longer start is within the other
    have hlonger : ∀ other ∈ entries, (block other).Holds word →
        (block other).start.length ≤ (block entry).start.length := by
      intro other hother hholds
      have hmem : other ∈ front ++ entry :: back := by
        rw [← hholding]
        exact List.mem_filter.mpr ⟨hother, decide_eq_true hholds⟩
      rcases List.mem_append.mp hmem with hbefore | hafter
      · exact (OrderDual.toDual_lt_toDual.mp (hfront other hbefore)).le
      · rcases List.mem_cons.mp hafter with rfl | hlater
        · exact le_refl _
        · exact OrderDual.toDual_le_toDual.mp (hback other hlater)
    refine ⟨hentry, ?_, ?_⟩
    · intro other hother hholds
      exact (Block.within_iff_of_holds hentry hholds).mpr (hlonger other hother hholds)
    · obtain ⟨lead, tail, rfl, hlead, htail⟩ := List.filter_eq_append_iff.mp hholding
      obtain ⟨between, rest, rfl, hbetween, -, -⟩ := List.filter_eq_cons_iff.mp htail
      refine ⟨lead ++ between, rest, by rw [List.append_assoc], ?_⟩
      intro other hother heq
      rcases List.mem_append.mp hother with hbefore | hskipped
      · have hmem : other ∈ front := by
          rw [← hlead]
          exact List.mem_filter.mpr ⟨hbefore, decide_eq_true (heq ▸ hentry)⟩
        have hlt := OrderDual.toDual_lt_toDual.mp (hfront other hmem)
        rw [heq] at hlt
        exact lt_irrefl _ hlt
      · exact hbetween other hskipped (decide_eq_true (heq ▸ hentry))
  · intro hnarrowest
    obtain ⟨hentry, hwithin, front, back, rfl, hfirst⟩ := hnarrowest
    have hlonger : ∀ other ∈ front ++ entry :: back, (block other).Holds word →
        (block other).start.length ≤ (block entry).start.length := fun other hother hholds =>
      (Block.within_iff_of_holds hentry hholds).mp (hwithin other hother hholds)
    refine ⟨front.filter (fun entry => (block entry).Holds word),
      back.filter (fun entry => (block entry).Holds word), by simp [hentry], ?_, ?_⟩
    · intro other hother
      obtain ⟨hmem, hholds⟩ := List.mem_filter.mp hother
      apply OrderDual.toDual_lt_toDual.mpr
      -- an earlier entry with a start of that length would have the same block
      apply lt_of_le_of_ne (hlonger other (by simp [hmem]) (of_decide_eq_true hholds))
      intro hlength
      exact hfirst other hmem (Block.eq_of_holds (of_decide_eq_true hholds) hentry hlength)
    · intro other hother
      obtain ⟨hmem, hholds⟩ := List.mem_filter.mp hother
      exact OrderDual.toDual_le_toDual.mpr
        (hlonger other (by simp [hmem]) (of_decide_eq_true hholds))

/-- The narrowest entry is still that in a part of the table. -/
theorem narrowest_filter [Nontrivial Symbol]
    (hnarrowest : narrowest block entries word = some entry)
    {keep : Entry → Bool} (hkeep : keep entry = true) :
    narrowest block (entries.filter keep) word = some entry := by
  obtain ⟨hholds, hwithin, front, back, rfl, hfirst⟩ := narrowest_eq_some_iff.mp hnarrowest
  refine narrowest_eq_some_iff.mpr ⟨hholds, ?_, front.filter keep, back.filter keep, ?_, ?_⟩
  · intro other hother
    exact hwithin other (List.mem_of_mem_filter hother)
  · rw [List.filter_append, List.filter_cons_of_pos hkeep]
  · intro other hother
    exact hfirst other (List.mem_of_mem_filter hother)

/-! ## Tables that prefer some entries

A rank that is the length of the beginning, but higher for some entries than for all
others. -/

variable {rank : Entry → Nat} {preferred : Entry → Bool}

theorem find?_sorted_eq
    (habove : ∀ first ∈ entries, ∀ second ∈ entries, (block first).Holds word →
      (block second).Holds word → preferred first = true → preferred second = false →
      rank second < rank first)
    (hlength : ∀ first ∈ entries, ∀ second ∈ entries, (block first).Holds word →
      (block second).Holds word → preferred first = preferred second →
      (rank first < rank second ↔ (block first).start.length < (block second).start.length)) :
    (entries.insertionSort (fun first second => rank second ≤ rank first)).find?
        (fun entry => (block entry).Holds word) =
      (narrowest block (entries.filter preferred) word).or (narrowest block entries word) := by
  let holding := entries.filter (fun entry => decide ((block entry).Holds word))
  have hholding : ∀ entry ∈ holding, entry ∈ entries ∧ (block entry).Holds word := by
    intro entry hentry
    obtain ⟨hmem, hholds⟩ := List.mem_filter.mp hentry
    exact ⟨hmem, of_decide_eq_true hholds⟩
  -- the rank puts the preferred entries first and orders by length otherwise
  have horder : holding.argmin (fun entry => OrderDual.toDual (rank entry)) =
      holding.argmin (fun entry => toLex (!preferred entry,
        OrderDual.toDual (block entry).start.length)) := by
    apply Selection.argmin_congr
    intro first hfirst second hsecond
    obtain ⟨hfirstMem, hfirstHolds⟩ := hholding first hfirst
    obtain ⟨hsecondMem, hsecondHolds⟩ := hholding second hsecond
    have habove' := habove second hsecondMem first hfirstMem hsecondHolds hfirstHolds
    have habove := habove first hfirstMem second hsecondMem hfirstHolds hsecondHolds
    have hlength := hlength second hsecondMem first hfirstMem hsecondHolds hfirstHolds
    rw [OrderDual.toDual_lt_toDual, Prod.Lex.toLex_lt_toLex, OrderDual.toDual_lt_toDual]
    cases hp : preferred first with
    | true =>
        cases hq : preferred second with
        | true => simpa using hlength (hq.trans hp.symm)
        | false => simpa using habove hp hq
    | false =>
        cases hq : preferred second with
        | true =>
            refine iff_of_false (not_lt.mpr (habove' hq hp).le) ?_
            intro hlower
            rcases hlower with hlt | heq
            · exact absurd (show true < false from hlt) (by decide)
            · cases heq.1
        | false => simpa using hlength (hq.trans hp.symm)
  have hsorted := @Selection.find?_insertionSort _ _ _
    (fun entry => OrderDual.toDual (rank entry)) (fun entry => (block entry).Holds word) entries
  refine (hsorted.trans horder).trans ?_
  rw [Selection.argmin_prefer, List.filter_comm]
  rfl

end Table

end PrefixMatch
