import Mathlib

/-! # Free names

A name that is taken is replaced by numbered candidates until one of them is free.
Finitely many names are taken and the candidates differ, so the search ends.
-/

namespace FreshName

universe u

variable {Name : Type u} (taken : Name → Prop) [DecidablePred taken] (candidate : Nat → Name)

/-- Tries the given name and then the candidates from an index on, `fuel` of them at most. -/
def search : Nat → Nat → Name → Option Name
  | 0, _, name => if taken name then none else some name
  | fuel + 1, index, name =>
      if taken name then search fuel (index + 1) (candidate index) else some name

variable {taken candidate} {fuel index : Nat} {name : Name}

theorem not_taken_of_search {found : Name}
    (hfound : search taken candidate fuel index name = some found) : ¬ taken found := by
  induction fuel generalizing index name with
  | zero =>
      rw [search] at hfound
      split at hfound
      next => cases hfound
      next hfree =>
        cases hfound
        exact hfree
  | succ fuel ih =>
      rw [search] at hfound
      split at hfound
      next => exact ih hfound
      next hfree =>
        cases hfound
        exact hfree

theorem search_mono {more : Nat} {found : Name} (hmore : fuel ≤ more)
    (hfound : search taken candidate fuel index name = some found) :
    search taken candidate more index name = some found := by
  induction more generalizing fuel index name with
  | zero =>
      rwa [Nat.le_zero.mp hmore] at hfound
  | succ more ih =>
      cases fuel with
      | zero =>
          rw [search] at hfound
          split at hfound
          next => cases hfound
          next hfree =>
            rw [search, if_neg hfree]
            exact hfound
      | succ fuel =>
          rw [search] at hfound ⊢
          split at hfound
          next htaken =>
            rw [if_pos htaken]
            exact ih (Nat.le_of_succ_le_succ hmore) hfound
          next hfree => rwa [if_neg hfree]

theorem taken_of_search_eq_none (hnone : search taken candidate fuel index name = none) :
    taken name := by
  cases fuel with
  | zero =>
      rw [search] at hnone
      split at hnone
      next htaken => exact htaken
      next => cases hnone
  | succ fuel =>
      rw [search] at hnone
      split at hnone
      next htaken => exact htaken
      next => cases hnone

theorem taken_candidates (hnone : search taken candidate fuel index name = none) :
    ∀ tried ∈ List.range' index fuel, taken (candidate tried) := by
  induction fuel generalizing index name with
  | zero => simp
  | succ fuel ih =>
      rw [search] at hnone
      split at hnone
      next =>
        intro tried htried
        rw [List.range'_succ, List.mem_cons] at htried
        rcases htried with rfl | hlater
        · exact taken_of_search_eq_none hnone
        · exact ih hnone tried hlater
      next => cases hnone

/-- A search that may try more candidates than there are taken names finds a free one. -/
theorem exists_search (hinjective : Function.Injective candidate) {names : List Name}
    (hnames : ∀ name, taken name → name ∈ names) (hfuel : names.length < fuel) (index : Nat)
    (name : Name) : ∃ found, search taken candidate fuel index name = some found := by
  cases hsearch : search taken candidate fuel index name with
  | some found => exact ⟨found, rfl⟩
  | none =>
      have hsubset : (List.range' index fuel).map candidate ⊆ names := by
        intro tried htried
        obtain ⟨place, hplace, rfl⟩ := List.mem_map.mp htried
        exact hnames _ (taken_candidates hsearch place hplace)
      have hnodup : ((List.range' index fuel).map candidate).Nodup :=
        List.Nodup.map hinjective List.nodup_range'
      have hlength := (List.subperm_of_subset hnodup hsubset).length_le
      rw [List.length_map, List.length_range'] at hlength
      omega

end FreshName
