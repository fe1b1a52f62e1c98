import Mathlib.Data.List.Basic
import Mathlib.Order.Nat

/-! # Memory of buffers

Buffers are allocated one after the other and overwritten in place; none is freed. A
buffer is referred to by its place. Memory is clean from a place on if every buffer there
has been overwritten with zeros, except for those that are still live. Whether it is clean
can be followed back through the allocations and the overwriting: only a buffer that is
dropped, with its contents, is never accounted for.
-/

namespace Buffers

variable {Value : Type} [Zero Value] {memory : List (List Value)} {content : List Value}

/-- The buffer at a place is overwritten with zeros. -/
def wipe (memory : List (List Value)) (place : Nat) : List (List Value) :=
  memory.modify place (List.map fun _ => 0)

def wipeAll (memory : List (List Value)) (places : List Nat) : List (List Value) :=
  places.foldl wipe memory

/-- There are only zeros in the buffer. -/
def Wiped (memory : List (List Value)) (place : Nat) : Prop :=
  ∀ content, memory[place]? = some content → ∀ value ∈ content, value = 0

/-- From `start` on, all buffers but the live ones have been wiped. -/
def Clean (start : Nat) (memory : List (List Value)) (live : List Nat) : Prop :=
  ∀ place, start ≤ place → place ∈ live ∨ Wiped memory place

/-! ## Overwriting -/

variable {place : Nat}

theorem wiped_wipe_iff {other : Nat} :
    Wiped (wipe memory place) other ↔ place = other ∨ Wiped memory other := by
  unfold Wiped wipe
  by_cases hsame : place = other
  · subst hsame
    simp
  · simp [hsame]

theorem wiped_wipeAll_iff {places : List Nat} {other : Nat} :
    Wiped (wipeAll memory places) other ↔ other ∈ places ∨ Wiped memory other := by
  induction places generalizing memory with
  | nil => simp [wipeAll]
  | cons place rest ih =>
      have hrest := @ih (wipe memory place)
      rw [wiped_wipe_iff] at hrest
      rw [List.mem_cons, or_assoc, or_left_comm, eq_comm]
      exact hrest

theorem wipeAll_append (first second : List Nat) :
    wipeAll memory (first ++ second) = wipeAll (wipeAll memory first) second :=
  List.foldl_append

/-! ## Allocation -/

theorem wiped_of_length_le (hplace : memory.length ≤ place) : Wiped memory place := by
  intro content hcontent
  rw [List.getElem?_eq_none hplace] at hcontent
  cases hcontent

theorem wiped_append_iff_of_lt (hplace : place < memory.length) :
    Wiped (memory ++ [content]) place ↔ Wiped memory place := by
  unfold Wiped
  rw [List.getElem?_append_left hplace]

theorem wiped_append_length_iff :
    Wiped (memory ++ [content]) memory.length ↔ ∀ value ∈ content, value = 0 := by
  simp [Wiped]

/-- Nothing else changes. -/
theorem wiped_append_iff_of_ne (hplace : place ≠ memory.length) :
    Wiped (memory ++ [content]) place ↔ Wiped memory place := by
  rcases lt_or_gt_of_ne hplace with hlt | hgt
  · exact wiped_append_iff_of_lt hlt
  · refine iff_of_true (wiped_of_length_le ?_) (wiped_of_length_le hgt.le)
    rw [List.length_append]
    exact hgt

/-! ## Clean memory -/

section Clean

variable {start : Nat} {live : List Nat}

theorem clean_length (memory : List (List Value)) : Clean memory.length memory [] :=
  fun _ hplace => Or.inr (wiped_of_length_le hplace)

theorem clean_congr {other : List Nat} (hmem : ∀ place, place ∈ live ↔ place ∈ other) :
    Clean start memory live ↔ Clean start memory other := by
  unfold Clean
  simp only [hmem]

/-- What is wiped need no longer be live. -/
theorem clean_wipeAll_iff {places : List Nat} :
    Clean start (wipeAll memory places) live ↔ Clean start memory (places ++ live) := by
  unfold Clean
  simp only [wiped_wipeAll_iff, List.mem_append, or_assoc, or_left_comm]

/-- What is allocated may be live. -/
theorem clean_append_live_iff :
    Clean start (memory ++ [content]) (memory.length :: live) ↔ Clean start memory live := by
  unfold Clean
  apply forall_congr'
  intro place
  apply imp_congr_right
  intro _
  by_cases hplace : place = memory.length
  · exact iff_of_true (Or.inl (hplace ▸ List.mem_cons_self))
      (Or.inr (wiped_of_length_le hplace.ge))
  · rw [wiped_append_iff_of_ne hplace, List.mem_cons, or_iff_right hplace]

/-- If it is dropped, there must be nothing in it. -/
theorem clean_append_dropped_iff (hstart : start ≤ memory.length) (hlive : memory.length ∉ live) :
    Clean start (memory ++ [content]) live ↔
      Clean start memory live ∧ ∀ value ∈ content, value = 0 := by
  constructor
  · intro hclean
    constructor
    · intro place hplace
      by_cases hnew : place = memory.length
      · exact Or.inr (wiped_of_length_le hnew.ge)
      · rw [← wiped_append_iff_of_ne hnew]
        exact hclean place hplace
    · rw [← wiped_append_length_iff]
      exact (hclean memory.length hstart).resolve_left hlive
  · intro hclean place hplace
    obtain ⟨hbefore, hcontent⟩ := hclean
    by_cases hnew : place = memory.length
    · subst hnew
      exact Or.inr (wiped_append_length_iff.mpr hcontent)
    · rw [wiped_append_iff_of_ne hnew]
      exact hbefore place hplace

end Clean

end Buffers
