import TopologyExporter.Foundation.Transition

/-! # Callers that share a mutex

Each caller works off its own list of acts. Some acts take or release the mutex,
others are meant for its holder alone. What the callers do one by one decides
what they do together: if each of them locks before the acts that need the mutex
and unlocks after them, then in every interleaving such an act is performed by
the holder.
-/

namespace Mutex

open Transition

inductive Kind where
  | lock
  | unlock
  | guarded
  | free
deriving DecidableEq

variable {Act : Type} (kind : Act → Kind)

/-- The acts left to a caller that holds the mutex or does not: it locks only
when it does not hold the mutex, performs guarded acts only while it does, and
has released it in the end. -/
def Disciplined : Bool → List Act → Prop
  | held, [] => held = false
  | held, act :: rest =>
      match kind act with
      | .lock => held = false ∧ Disciplined true rest
      | .unlock => held = true ∧ Disciplined false rest
      | .guarded => held = true ∧ Disciplined true rest
      | .free => Disciplined held rest

variable {kind}

theorem Disciplined.append {held : Bool} {front back : List Act}
    (hfront : Disciplined kind held front) (hback : Disciplined kind false back) :
    Disciplined kind held (front ++ back) := by
  induction front generalizing held with
  | nil =>
      have hreleased : held = false := hfront
      rw [hreleased]
      exact hback
  | cons act rest ih =>
      rw [List.cons_append]
      unfold Disciplined at hfront ⊢
      cases hkind : kind act <;> simp only [hkind] at hfront ⊢
      case free => exact ih hfront
      all_goals exact ⟨hfront.1, ih hfront.2⟩

theorem disciplined_flatMap {Item : Type} {items : List Item} {acts : Item → List Act}
    (hacts : ∀ item ∈ items, Disciplined kind false (acts item)) :
    Disciplined kind false (items.flatMap acts) := by
  induction items with
  | nil => exact rfl
  | cons item rest ih =>
      rw [List.forall_mem_cons] at hacts
      rw [List.flatMap_cons]
      exact hacts.1.append (ih hacts.2)

/-! ## Interleavings -/

variable {Caller : Type} [DecidableEq Caller]

/-- The holder of the mutex, and the acts left to each caller. -/
structure Shared (Caller Act : Type) where
  holder : Option Caller
  left : Caller → List Act

/-- The caller performs its next act. It waits for the mutex; an unlock releases
it, whoever holds it. -/
def step (kind : Act → Kind) (caller : Caller) (state : Shared Caller Act) :
    Option (Shared Caller Act) :=
  match state.left caller with
  | [] => none
  | act :: rest =>
      match kind act with
      | .lock =>
          if state.holder = none then some ⟨some caller, Function.update state.left caller rest⟩
          else none
      | .unlock => some ⟨none, Function.update state.left caller rest⟩
      | .guarded => some ⟨state.holder, Function.update state.left caller rest⟩
      | .free => some ⟨state.holder, Function.update state.left caller rest⟩

/-- Every caller is where it believes to be. -/
def Orderly (kind : Act → Kind) (state : Shared Caller Act) : Prop :=
  ∀ caller, Disciplined kind (decide (state.holder = some caller)) (state.left caller)

variable {caller : Caller} {state : Shared Caller Act}

/-- An act that leaves the others as they are keeps the order, if it does for the
caller itself. -/
theorem Orderly.update (horderly : Orderly kind state) {holder : Option Caller} {rest : List Act}
    (hown : Disciplined kind (decide (holder = some caller)) rest)
    (hothers : ∀ other ≠ caller, (holder = some other ↔ state.holder = some other)) :
    Orderly kind ⟨holder, Function.update state.left caller rest⟩ := by
  intro other
  change Disciplined kind (decide (holder = some other))
    (Function.update state.left caller rest other)
  by_cases hsame : other = caller
  · subst hsame
    rw [Function.update_self]
    exact hown
  · rw [Function.update_of_ne hsame]
    simp only [hothers other hsame]
    exact horderly other

theorem Orderly.step {next : Shared Caller Act} (horderly : Orderly kind state)
    (hstep : Mutex.step kind caller state = some next) : Orderly kind next := by
  have hown := horderly caller
  unfold Mutex.step at hstep
  cases hleft : state.left caller with
  | nil =>
      rw [hleft] at hstep
      cases hstep
  | cons act rest =>
      rw [hleft] at hstep hown
      unfold Disciplined at hown
      cases hkind : kind act with
      | lock =>
          simp only [hkind] at hstep hown
          split at hstep
          next hfree =>
            cases hstep
            refine horderly.update (by simpa using hown.2) ?_
            intro other hother
            simp [hfree, Ne.symm hother]
          next => cases hstep
      | unlock =>
          simp only [hkind, decide_eq_true_eq] at hstep hown
          cases hstep
          refine horderly.update (by simpa using hown.2) ?_
          intro other hother
          simp [hown.1, Ne.symm hother]
      | guarded =>
          simp only [hkind, decide_eq_true_eq] at hstep hown
          cases hstep
          refine horderly.update (by simpa [hown.1] using hown.2) ?_
          exact fun other _ => Iff.rfl
      | free =>
          simp only [hkind] at hstep hown
          cases hstep
          exact horderly.update hown (fun other _ => Iff.rfl)

/-- In whatever order disciplined callers act, a guarded act is the holder's. -/
theorem holder_of_guarded {left : Caller → List Act}
    (hcallers : ∀ caller, Disciplined kind false (left caller)) {order : List Caller}
    (hrun : run (Mutex.step kind) order ⟨none, left⟩ = some state) {act : Act} {rest : List Act}
    (hnext : state.left caller = act :: rest) (hguarded : kind act = .guarded) :
    state.holder = some caller := by
  have hstart : Orderly kind (⟨none, left⟩ : Shared Caller Act) := by
    intro caller
    simpa using hcallers caller
  have horderly := run_invariant (fun caller state next => Orderly.step) hstart hrun
  have hown := horderly caller
  rw [hnext] at hown
  unfold Disciplined at hown
  simp only [hguarded, decide_eq_true_eq] at hown
  exact hown.1

end Mutex
