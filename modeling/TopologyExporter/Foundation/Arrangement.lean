import Mathlib

/-! # First answers under every arrangement

Names are asked in turn, and the first one that has an answer decides. In which
order they are asked is left open: what can be decided is described without going
through the orders.
-/

namespace Arrangement

universe u v w

variable {Name : Type u} {Question : Type v} {Answer : Type w} {names : List Name}

/-! ## Two questions -/

/-- Two answers come first in one order when one name gives them both, or one of
the two names has no say in the other question. -/
theorem exists_perm_first_iff {one other : Name → Option Answer} {answer reply : Answer} :
    (∃ asked : List Name, asked.Perm names ∧ asked.findSome? one = some answer ∧
        asked.findSome? other = some reply) ↔
      ∃ first ∈ names, ∃ second ∈ names, one first = some answer ∧ other second = some reply ∧
        (first = second ∨ other first = none ∨ one second = none) := by
  classical
  constructor
  · rintro ⟨asked, hperm, hone, hother⟩
    obtain ⟨front, first, back, hasked, hfirst, hfront⟩ := List.findSome?_eq_some_iff.mp hone
    obtain ⟨lead, second, tail, hagain, hsecond, hlead⟩ := List.findSome?_eq_some_iff.mp hother
    refine ⟨first, hperm.mem_iff.mp (by simp [hasked]), second,
      hperm.mem_iff.mp (by simp [hagain]), hfirst, hsecond, ?_⟩
    -- whichever of the two is asked first had no answer to the other question
    rcases List.append_eq_append_iff.mp (hasked.symm.trans hagain) with
      ⟨between, hsplit, hrest⟩ | ⟨between, hsplit, hrest⟩
    · cases between with
      | nil => exact Or.inl (List.cons.inj hrest).1
      | cons head between =>
          obtain ⟨rfl, -⟩ := List.cons.inj hrest
          exact Or.inr (Or.inl (hlead first (by simp [hsplit])))
    · cases between with
      | nil => exact Or.inl (List.cons.inj hrest).1.symm
      | cons head between =>
          obtain ⟨rfl, -⟩ := List.cons.inj hrest
          exact Or.inr (Or.inr (hfront second (by simp [hsplit])))
  · rintro ⟨first, hfirst, second, hsecond, hone, hother, hcompatible⟩
    by_cases hsame : first = second
    · subst hsame
      exact ⟨first :: names.erase first, (List.perm_cons_erase hfirst).symm, by simp [hone],
        by simp [hother]⟩
    · rcases hcompatible with heq | hsilent | hsilent
      · exact absurd heq hsame
      · refine ⟨first :: second :: (names.erase first).erase second, ?_, by simp [hone],
          by simp [hsilent, hother]⟩
        have hmem := (List.mem_erase_of_ne (Ne.symm hsame)).mpr hsecond
        exact ((List.perm_cons_erase hmem).symm.cons first).trans (List.perm_cons_erase hfirst).symm
      · refine ⟨second :: first :: (names.erase second).erase first, ?_, by simp [hsilent, hone],
          by simp [hother]⟩
        have hmem := (List.mem_erase_of_ne hsame).mpr hfirst
        exact ((List.perm_cons_erase hmem).symm.cons second).trans
          (List.perm_cons_erase hsecond).symm

theorem exists_perm_first {one : Name → Option Answer} {answer : Answer} {first : Name}
    (hfirst : first ∈ names) (hone : one first = some answer) :
    ∃ asked : List Name, asked.Perm names ∧ asked.findSome? one = some answer := by
  obtain ⟨asked, hperm, hdecided, -⟩ :=
    exists_perm_first_iff.mpr ⟨first, hfirst, first, hfirst, hone, hone, Or.inl rfl⟩
  exact ⟨asked, hperm, hdecided⟩

/-! ## A good answer in every order -/

/-- Among these questions, whoever answers one has a good answer to one of them. -/
structure Secured (names : List Name) (answer : Question → Name → Option Answer)
    (good : Answer → Prop) (asked : Set Question) : Prop where
  answered : ∃ name ∈ names, ∃ question ∈ asked, answer question name ≠ none
  good : ∀ name ∈ names, (∃ question ∈ asked, answer question name ≠ none) →
    ∃ question ∈ asked, ∃ found, answer question name = some found ∧ good found

variable {answer : Question → Name → Option Answer} {good : Answer → Prop}

/-- Names asked later decide only the questions that are still open. -/
theorem not_good_of_append {placed later : List Name}
    (hplaced : ∀ question found, placed.findSome? (answer question) = some found → ¬ good found)
    (hlater : ∀ question found, placed.findSome? (answer question) = none →
      later.findSome? (answer question) = some found → ¬ good found)
    (question : Question) (found : Answer)
    (hfound : (placed ++ later).findSome? (answer question) = some found) : ¬ good found := by
  rw [List.findSome?_append] at hfound
  cases hdecided : placed.findSome? (answer question) with
  | some decided =>
      rw [hdecided, Option.some_or] at hfound
      exact hplaced question found (hdecided.trans hfound)
  | none =>
      rw [hdecided, Option.none_or] at hfound
      exact hlater question found hdecided hfound

/-- Where no questions are secured, names can be asked one after the other so that
no question is decided by a good answer. -/
theorem exists_perm_avoiding (hnot : ¬ ∃ asked, Secured names answer good asked)
    (placed rest : List Name) (hperm : (placed ++ rest).Perm names)
    (hplaced : ∀ question found, placed.findSome? (answer question) = some found → ¬ good found) :
    ∃ order : List Name, order.Perm names ∧
      ∀ question found, order.findSome? (answer question) = some found → ¬ good found := by
  classical
  obtain ⟨number, hnumber⟩ : ∃ number, rest.length = number := ⟨_, rfl⟩
  induction number generalizing placed rest with
  | zero =>
      rw [List.length_eq_zero_iff.mp hnumber, List.append_nil] at hperm
      exact ⟨placed, hperm, hplaced⟩
  | succ number ih =>
      let undecided : Set Question := { question | placed.findSome? (answer question) = none }
      by_cases hopen : ∃ name ∈ names, ∃ question ∈ undecided, answer question name ≠ none
      · -- the undecided questions are not secured, so somebody has no good answer to them
        obtain ⟨name, hname, ⟨question, hquestion, hanswer⟩, hbad⟩ : ∃ name ∈ names,
            (∃ question ∈ undecided, answer question name ≠ none) ∧
              ∀ question ∈ undecided, ∀ found, answer question name = some found →
                ¬ good found := by
          by_contra hnone
          refine hnot ⟨undecided, hopen, ?_⟩
          intro name hname hanswers
          by_contra hwithout
          refine hnone ⟨name, hname, hanswers, ?_⟩
          intro question hquestion found hfound hgood
          exact hwithout ⟨question, hquestion, found, hfound, hgood⟩
        have hrest : name ∈ rest := by
          rcases List.mem_append.mp (hperm.mem_iff.mpr hname) with hmem | hmem
          · exact absurd (List.findSome?_eq_none_iff.mp hquestion name hmem) hanswer
          · exact hmem
        refine ih (placed ++ [name]) (rest.erase name) ?_ ?_ ?_
        · rw [List.append_assoc, List.singleton_append]
          exact ((List.perm_cons_erase hrest).symm.append_left placed).trans hperm
        · apply not_good_of_append hplaced
          intro question found hdecided hfound
          rw [List.findSome?_singleton] at hfound
          exact hbad question hdecided found hfound
        · rw [List.length_erase_of_mem hrest, hnumber, Nat.add_sub_cancel]
      · -- the names that are left decide nothing any more
        refine ⟨placed ++ rest, hperm, not_good_of_append hplaced ?_⟩
        intro question found hdecided hfound
        obtain ⟨name, hname, hsome⟩ := List.exists_of_findSome?_eq_some hfound
        refine absurd ⟨name, hperm.mem_iff.mp (List.mem_append_right _ hname), question,
          hdecided, ?_⟩ hopen
        rw [hsome]
        exact Option.some_ne_none found

/-- In every order some question is decided by a good answer exactly when there are
questions that are secured. -/
theorem forall_perm_good_iff :
    (∀ order : List Name, order.Perm names →
        ∃ question found, order.findSome? (answer question) = some found ∧ good found) ↔
      ∃ asked, Secured names answer good asked := by
  constructor
  · intro hgood
    by_contra hnot
    obtain ⟨order, hperm, havoids⟩ := exists_perm_avoiding hnot [] names (List.Perm.refl _)
      (by simp)
    obtain ⟨question, found, hfound, hisGood⟩ := hgood order hperm
    exact havoids question found hfound hisGood
  · rintro ⟨asked, ⟨name, hname, hanswers⟩, hgood⟩ order hperm
    classical
    -- the first name that answers any of the questions has a good answer to one
    let answers : Name → Bool := fun name => ∃ question ∈ asked, answer question name ≠ none
    have hsome : (order.find? answers).isSome = true :=
      List.find?_isSome.mpr ⟨name, hperm.mem_iff.mpr hname, decide_eq_true hanswers⟩
    obtain ⟨first, hfind⟩ := Option.isSome_iff_exists.mp hsome
    obtain ⟨hfirst, front, back, horder, hfront⟩ := List.find?_eq_some_iff_append.mp hfind
    have hmem : first ∈ names := hperm.mem_iff.mp (by simp [horder])
    obtain ⟨question, hquestion, found, hfound, hisGood⟩ :=
      hgood first hmem (of_decide_eq_true hfirst)
    have hsilent : front.findSome? (answer question) = none := by
      rw [List.findSome?_eq_none_iff]
      intro earlier hearlier
      by_contra hanswer
      have hnot := hfront earlier hearlier
      rw [Bool.not_eq_true', decide_eq_false_iff_not] at hnot
      exact hnot ⟨question, hquestion, hanswer⟩
    refine ⟨question, found, ?_, hisGood⟩
    rw [horder, List.findSome?_append, hsilent, Option.none_or, List.findSome?_cons, hfound]

end Arrangement
