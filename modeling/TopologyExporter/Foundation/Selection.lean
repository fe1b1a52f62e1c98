import Mathlib

/-! # Selecting from a list

What a loop over a list keeps: the first item of each kind, the first item that
fits, or the first of the smallest ones.
-/

namespace Selection

universe u v

/-! ## The first of each kind

An item is kept unless one with the same key was kept before. -/

section KeepFirst

variable {Item : Type u} {Key : Type v} [DecidableEq Key] (key : Item → Key)

def keepFirst (items : List Item) : List Item :=
  items.foldl (fun kept item =>
    if kept.any (fun found => key found = key item) then kept else kept ++ [item]) []

theorem keepFirst_concat (items : List Item) (last : Item) :
    keepFirst key (items ++ [last]) =
      if (keepFirst key items).any (fun found => key found = key last) then keepFirst key items
      else keepFirst key items ++ [last] := by
  rw [keepFirst, List.foldl_append]
  rfl

variable {key} {items : List Item}

/-- What is kept is the first of its key. -/
theorem mem_keepFirst {item : Item} :
    item ∈ keepFirst key items ↔
      items.find? (fun other => key other = key item) = some item := by
  induction items using List.reverseRecOn generalizing item with
  | nil => simp [keepFirst]
  | append_singleton items last ih =>
      have hany : (keepFirst key items).any (fun found => key found = key last) = true ↔
          ∃ found, items.find? (fun other => key other = key last) = some found := by
        simp only [List.any_eq_true, decide_eq_true_eq]
        constructor
        · rintro ⟨found, hfound, hkey⟩
          rw [ih, hkey] at hfound
          exact ⟨found, hfound⟩
        · rintro ⟨found, hfound⟩
          have hkey : key found = key last := by simpa using List.find?_some hfound
          exact ⟨found, ih.mpr (hkey ▸ hfound), hkey⟩
      rw [keepFirst_concat, List.find?_append]
      split_ifs with hseen
      · rw [ih]
        obtain ⟨found, hfound⟩ := hany.mp hseen
        cases hfirst : items.find? (fun other => key other = key item) with
        | some first => rfl
        | none =>
            -- the last item has a key that came before, so it is not of this one
            have hother : key last ≠ key item := by
              intro hkey
              rw [hkey, hfirst] at hfound
              cases hfound
            simp [hother]
      · have hnone : items.find? (fun other => key other = key last) = none := by
          rw [hany, not_exists] at hseen
          exact Option.eq_none_iff_forall_ne_some.mpr hseen
        rw [List.mem_append, ih, List.mem_singleton]
        constructor
        · rintro (hfirst | rfl)
          · rw [hfirst, Option.some_or]
          · simp [hnone]
        · intro hfind
          cases hfirst : items.find? (fun other => key other = key item) with
          | some first =>
              rw [hfirst, Option.some_or] at hfind
              exact Or.inl hfind
          | none =>
              rw [hfirst, Option.none_or] at hfind
              exact Or.inr (List.mem_singleton.mp (List.mem_of_find?_eq_some hfind))

variable (key) in
theorem exists_mem_keepFirst {item : Item} (hitem : item ∈ items) :
    ∃ kept ∈ keepFirst key items, key kept = key item := by
  have hsome : (items.find? (fun other => key other = key item)).isSome = true :=
    List.find?_isSome.mpr ⟨item, hitem, decide_eq_true rfl⟩
  obtain ⟨kept, hkept⟩ := Option.isSome_iff_exists.mp hsome
  have hkey : key kept = key item := by simpa using List.find?_some hkept
  refine ⟨kept, mem_keepFirst.mpr ?_, hkey⟩
  rw [hkey]
  exact hkept

theorem nodup_keepFirst (items : List Item) : ((keepFirst key items).map key).Nodup := by
  induction items using List.reverseRecOn with
  | nil => exact List.nodup_nil
  | append_singleton items last ih =>
      rw [keepFirst_concat]
      split_ifs with hseen
      · exact ih
      · rw [List.map_append, List.map_singleton, List.nodup_append]
        refine ⟨ih, List.nodup_singleton _, ?_⟩
        intro first hfirst second hsecond heq
        obtain ⟨found, hfound, hkey⟩ := List.mem_map.mp hfirst
        rw [List.mem_singleton] at hsecond
        apply hseen
        rw [List.any_eq_true]
        exact ⟨found, hfound, decide_eq_true (hkey.trans (heq.trans hsecond))⟩

/-- Of items in the order of their places, the first that fits has the lowest place. -/
theorem find?_map_eq_some_iff {Place : Type*} [PartialOrder Place] (place : Item → Place)
    (hsorted : items.Pairwise (fun first second => place first ≤ place second))
    (hplaces : (items.map place).Nodup) {Value : Type*} (value : Item → Value) (fits : Value → Bool)
    {found : Value} :
    (items.map value).find? fits = some found ↔
      ∃ item ∈ items, value item = found ∧ fits found = true ∧
        ∀ other ∈ items, fits (value other) = true → place item ≤ place other := by
  have hfirst : ∀ {first : Value}, (items.map value).find? fits = some first →
      ∃ item ∈ items, value item = first ∧ fits first = true ∧
        ∀ other ∈ items, fits (value other) = true → place item ≤ place other := by
    intro first hfind
    rw [List.find?_map, Option.map_eq_some_iff] at hfind
    obtain ⟨item, hitem, rfl⟩ := hfind
    obtain ⟨hfits, front, back, rfl, hfront⟩ := List.find?_eq_some_iff_append.mp hitem
    refine ⟨item, by simp, rfl, hfits, fun other hother hother' => ?_⟩
    rcases List.mem_append.mp hother with hbefore | hafter
    · have hnot := hfront other hbefore
      rw [Function.comp_apply, hother'] at hnot
      cases hnot
    · rcases List.mem_cons.mp hafter with rfl | hlater
      · exact le_rfl
      · exact (List.pairwise_cons.mp (List.pairwise_append.mp hsorted).2.1).1 other hlater
  refine ⟨hfirst, ?_⟩
  intro ⟨item, hitem, hvalue, hfits, hleast⟩
  cases hfind : (items.map value).find? fits with
  | none =>
      have hnone := List.find?_eq_none.mp hfind found (hvalue ▸ List.mem_map_of_mem hitem)
      exact absurd hfits hnone
  | some first =>
      obtain ⟨lowest, hlowest, rfl, hfitsLowest, hle⟩ := hfirst hfind
      have hplace : place lowest = place item :=
        le_antisymm (hle item hitem (hvalue ▸ hfits)) (hleast lowest hlowest hfitsLowest)
      rw [List.inj_on_of_nodup_map hplaces hlowest hitem hplace, hvalue]

end KeepFirst

/-! ## The first pair that fits -/

theorem find?_product {First : Type u} {Second : Type v} (firsts : List First)
    (seconds : List Second) (fits : First → Bool) (suits : Second → Bool) :
    (firsts.flatMap (fun first => seconds.map (fun second => (first, second)))).find?
        (fun pair => fits pair.1 && suits pair.2) =
      (firsts.find? fits).bind (fun first =>
        (seconds.find? suits).map (fun second => (first, second))) := by
  induction firsts with
  | nil => rfl
  | cons first rest ih =>
      rw [List.flatMap_cons, List.find?_append, ih, List.find?_map, List.find?_cons]
      cases hfits : fits first with
      | true =>
          cases hsuits : seconds.find? suits with
          | none => simp [hfits, hsuits]
          | some second => simp [hfits, hsuits]
      | false =>
          have hnone : seconds.find? (fun second => fits first && suits second) = none := by
            simp [hfits]
          simp only [Function.comp_def, hnone, Option.map_none, Option.none_or]

/-! ## The first of the smallest -/

section Argmin

variable {Item : Type u} {Place : Type v} [LinearOrder Place] {place : Item → Place}

theorem argmin_eq_some_iff {items : List Item} {least : Item} :
    items.argmin place = some least ↔
      ∃ front back, items = front ++ least :: back ∧ (∀ item ∈ front, place least < place item) ∧
        ∀ item ∈ back, place least ≤ place item := by
  constructor
  · intro hleast
    induction items with
    | nil => cases hleast
    | cons first rest ih =>
        rw [List.argmin_cons] at hleast
        cases hrest : rest.argmin place with
        | none =>
            rw [hrest] at hleast
            cases hleast
            rw [List.argmin_eq_none.mp hrest]
            exact ⟨[], [], rfl, by simp, by simp⟩
        | some best =>
            rw [hrest] at hleast
            simp only at hleast
            -- of equal items the earlier one is taken
            split_ifs at hleast with hlt
            · cases hleast
              obtain ⟨front, back, rfl, hfront, hback⟩ := ih hrest
              exact ⟨first :: front, back, rfl, List.forall_mem_cons.mpr ⟨hlt, hfront⟩, hback⟩
            · cases hleast
              refine ⟨[], rest, rfl, by simp, ?_⟩
              intro item hitem
              exact (not_lt.mp hlt).trans (List.le_of_mem_argmin hitem hrest)
  · rintro ⟨front, back, rfl, hfront, hback⟩
    induction front with
    | nil =>
        rw [List.nil_append, List.argmin_cons]
        cases hrest : back.argmin place with
        | none => rfl
        | some best =>
            have hle := hback best (List.argmin_mem hrest)
            simp only
            rw [if_neg (not_lt.mpr hle)]
    | cons first rest ih =>
        rw [List.forall_mem_cons] at hfront
        rw [List.cons_append, List.argmin_cons, ih hfront.2]
        simp only
        rw [if_pos hfront.1]

theorem argmin_map {Source : Type u} (convert : Source → Item) (items : List Source) :
    (items.map convert).argmin place =
      (items.argmin (fun item => place (convert item))).map convert := by
  induction items with
  | nil => rfl
  | cons first rest ih =>
      rw [List.map_cons, List.argmin_cons, List.argmin_cons, ih]
      cases rest.argmin (fun item => place (convert item)) with
      | none => rfl
      | some best =>
          simp only [Option.map_some]
          split_ifs <;> rfl

/-- The better of two choices, the first one if they are as good. -/
def better (place : Item → Place) (first second : Option Item) : Option Item :=
  match first, second with
  | none, second => second
  | some first, none => some first
  | some first, some second => if place second < place first then some second else some first

theorem argmin_append (front back : List Item) :
    (front ++ back).argmin place = better place (front.argmin place) (back.argmin place) := by
  cases hfront : front.argmin place with
  | none =>
      rw [List.argmin_eq_none.mp hfront, List.nil_append]
      rfl
  | some first =>
      cases hback : back.argmin place with
      | none =>
          rw [List.argmin_eq_none.mp hback, List.append_nil]
          exact hfront
      | some second =>
          have hleast : ∀ item ∈ front, place first ≤ place item :=
            fun item hitem => List.le_of_mem_argmin hitem hfront
          have hbest : ∀ item ∈ back, place second ≤ place item :=
            fun item hitem => List.le_of_mem_argmin hitem hback
          obtain ⟨lead, rest, hsplit, hlead, hrest⟩ := argmin_eq_some_iff.mp hfront
          obtain ⟨lead', rest', hsplit', hlead', hrest'⟩ := argmin_eq_some_iff.mp hback
          simp only [better]
          split_ifs with hlt
          · refine argmin_eq_some_iff.mpr ⟨front ++ lead', rest', by simp [hsplit'], ?_, hrest'⟩
            refine List.forall_mem_append.mpr ⟨?_, hlead'⟩
            exact fun item hitem => hlt.trans_le (hleast item hitem)
          · refine argmin_eq_some_iff.mpr ⟨lead, rest ++ back, by simp [hsplit], hlead, ?_⟩
            refine List.forall_mem_append.mpr ⟨hrest, ?_⟩
            exact fun item hitem => (not_lt.mp hlt).trans (hbest item hitem)

/-- Among the items of the smallest rank the smallest one is the smallest of all, if
ranks come first. -/
theorem argmin_filter_rank {Rank : Type v} [LinearOrder Rank] (rank : Item → Rank)
    (items : List Item) :
    (items.filter (fun item => items.all (fun other => rank item ≤ rank other))).argmin place =
      items.argmin (fun item => toLex (rank item, place item)) := by
  cases hleast : items.argmin (fun item => toLex (rank item, place item)) with
  | none =>
      rw [List.argmin_eq_none.mp hleast]
      rfl
  | some least =>
      have hrank : ∀ item ∈ items, rank least ≤ rank item := by
        intro item hitem
        have hle := List.le_of_mem_argmin hitem hleast
        rw [Prod.Lex.toLex_le_toLex] at hle
        exact hle.elim le_of_lt (fun hsame => le_of_eq hsame.1)
      obtain ⟨front, back, hitems, hfront, hback⟩ := argmin_eq_some_iff.mp hleast
      rw [argmin_eq_some_iff]
      -- all items that are kept have the rank of the least one, so only places decide among them
      let best : Item → Bool := fun item => items.all (fun other => rank item ≤ rank other)
      have hbest : ∀ item, best item = true → rank item ≤ rank least := by
        intro item hitem
        have hall := List.all_eq_true.mp hitem least (by simp [hitems])
        exact of_decide_eq_true hall
      refine ⟨front.filter best, back.filter best, ?_, ?_, ?_⟩
      · have hown : best least = true := by
          refine List.all_eq_true.mpr fun item hitem => ?_
          exact decide_eq_true (hrank item hitem)
        change items.filter best = _
        conv_lhs => rw [hitems]
        rw [List.filter_append, List.filter_cons_of_pos hown]
      · intro item hitem
        obtain ⟨hmem, hranked⟩ := List.mem_filter.mp hitem
        have hlt := hfront item hmem
        rw [Prod.Lex.toLex_lt_toLex] at hlt
        rcases hlt with hlower | ⟨-, hsmaller⟩
        · exact absurd hlower (not_lt.mpr (hbest item hranked))
        · exact hsmaller
      · intro item hitem
        obtain ⟨hmem, hranked⟩ := List.mem_filter.mp hitem
        have hle := hback item hmem
        rw [Prod.Lex.toLex_le_toLex] at hle
        rcases hle with hlower | ⟨-, hsmaller⟩
        · exact absurd hlower (not_lt.mpr (hbest item hranked))
        · exact hsmaller

end Argmin

/-! ## Items that are visited or skipped -/

section FilterMap

variable {Item : Type u} {Value : Type v} (select : Item → Option Value)

theorem filterMap_cons_toList (item : Item) (rest : List Item) :
    (item :: rest).filterMap select = (select item).toList ++ rest.filterMap select := by
  rw [List.filterMap_cons]
  cases select item with
  | none => rfl
  | some value => rfl

/-- Replacing one item replaces what it contributes. -/
theorem filterMap_set {items : List Item} {index : Nat} {item : Item}
    (hitem : items[index]? = some item) (other : Item) :
    ∃ before after, items.filterMap select = before ++ ((select item).toList ++ after) ∧
      (items.set index other).filterMap select = before ++ ((select other).toList ++ after) := by
  have hsplit : items = items.take index ++ item :: items.drop (index + 1) := by
    obtain ⟨hindex, rfl⟩ := List.getElem?_eq_some_iff.mp hitem
    rw [← List.drop_eq_getElem_cons hindex, List.take_append_drop]
  have hindex : index < items.length := (List.getElem?_eq_some_iff.mp hitem).1
  refine ⟨(items.take index).filterMap select, (items.drop (index + 1)).filterMap select, ?_, ?_⟩
  · rw [← filterMap_cons_toList, ← List.filterMap_append, ← hsplit]
  · rw [← filterMap_cons_toList, ← List.filterMap_append, List.set_eq_take_append_cons_drop,
      if_pos hindex]

end FilterMap

/-- What only one position of a list contributes to. -/
theorem flatMap_zipIdx_of_others {Item : Type u} {Value : Type v} {items : List Item}
    {contribute : Item × Nat → List Value} {index : Nat}
    (hothers : ∀ item other, other ≠ index → contribute (item, other) = []) :
    items.zipIdx.flatMap contribute =
      items[index]?.elim [] (fun item => contribute (item, index)) := by
  induction items using List.reverseRecOn with
  | nil => rfl
  | append_singleton front item ih =>
      rw [List.zipIdx_append, List.flatMap_append, ih]
      rcases lt_trichotomy index front.length with hbefore | rfl | hafter
      · have hlast := hothers item front.length (Nat.ne_of_gt hbefore)
        rw [List.getElem?_append_left hbefore]
        simpa using hlast
      · simp
      · have hlast := hothers item front.length (Nat.ne_of_lt hafter)
        rw [List.getElem?_eq_none (Nat.le_of_lt hafter),
          List.getElem?_eq_none (by simpa using hafter)]
        simpa using hlast

end Selection
