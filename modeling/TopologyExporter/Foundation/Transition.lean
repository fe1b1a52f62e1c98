import Mathlib

/-! # Labelled transition systems

A system is a partial step function: an action is either enabled and leads to
one state, or not enabled. All nondeterminism is in the choice of actions, so a
run is a list of actions and can be executed.
-/

namespace Transition

universe u v

variable {State : Type u} {Action : Type v} (step : Action → State → Option State)

/-- Performs the actions in order; `none` when one of them is not enabled. -/
def run : List Action → State → Option State
  | [], state => some state
  | action :: rest, state => (step action state).bind (run rest)

/-- The states that some run from an initial state ends in. -/
def Reachable (initial : State → Prop) (state : State) : Prop :=
  ∃ start actions, initial start ∧ run step actions start = some state

/-- The condition holds of every action of a run in the state it is taken in. -/
def Throughout (condition : Action → State → Prop) : List Action → State → Prop
  | [], _ => True
  | action :: rest, state => condition action state ∧
      ∀ next, step action state = some next → Throughout condition rest next

/-- The run takes the action in the state, after the first actions. -/
def Takes (actions : List Action) (start : State) (front : List Action) (action : Action)
    (state : State) : Prop :=
  front ++ [action] <+: actions ∧ run step front start = some state

/-- What the actions of a run let out, in order. -/
def outputs {Output : Type} (observe : Action → State → Option Output) :
    List Action → State → List Output
  | [], _ => []
  | action :: rest, state =>
      (observe action state).toList ++ (step action state).elim [] (outputs observe rest)

instance decidableThroughout {condition : Action → State → Prop}
    [∀ action state, Decidable (condition action state)] :
    ∀ actions state, Decidable (Throughout step condition actions state)
  | [], _ => isTrue trivial
  | action :: rest, state =>
      match hstep : step action state with
      | none => decidable_of_iff (condition action state) (by simp [Throughout, hstep])
      | some next =>
          have : Decidable (Throughout step condition rest next) := decidableThroughout rest next
          decidable_of_iff (condition action state ∧ Throughout step condition rest next)
            (by simp [Throughout, hstep])

variable {step} {final state : State} {actions : List Action}
  {condition first second : Action → State → Prop} {action : Action} {front : List Action}
  {start : State}

@[simp] theorem run_nil (state : State) : run step [] state = some state := rfl

theorem run_cons_eq_some {rest : List Action} :
    run step (action :: rest) state = some final ↔
      ∃ next, step action state = some next ∧ run step rest next = some final := by
  rw [run, Option.bind_eq_some_iff]

theorem run_append (front back : List Action) (state : State) :
    run step (front ++ back) state = (run step front state).bind (run step back) := by
  induction front generalizing state with
  | nil => rfl
  | cons action front ih =>
      rw [List.cons_append, run, run]
      cases step action state with
      | none => rfl
      | some next => exact ih next

theorem throughout_of_forall_mem (hactions : ∀ action ∈ actions, ∀ state, condition action state)
    (state : State) : Throughout step condition actions state := by
  induction actions generalizing state with
  | nil => trivial
  | cons action rest ih =>
      rw [List.forall_mem_cons] at hactions
      exact ⟨hactions.1 state, fun next _ => ih hactions.2 next⟩

theorem run_invariant_throughout {condition : Action → State → Prop} {invariant : State → Prop}
    (hstep : ∀ action state next, condition action state → invariant state →
      step action state = some next → invariant next)
    {actions : List Action} {state final : State} (hstart : invariant state)
    (hcondition : Throughout step condition actions state)
    (hrun : run step actions state = some final) : invariant final := by
  induction actions generalizing state with
  | nil =>
      cases hrun
      exact hstart
  | cons action rest ih =>
      obtain ⟨next, hnext, hrest⟩ := run_cons_eq_some.mp hrun
      exact ih (hstep action state next hcondition.1 hstart hnext)
        (hcondition.2 next hnext) hrest

/-- What every step preserves, every run preserves. -/
theorem run_invariant {invariant : State → Prop}
    (hstep : ∀ action state next, invariant state → step action state = some next →
      invariant next)
    {actions : List Action} {state final : State} (hstart : invariant state)
    (hrun : run step actions state = some final) : invariant final :=
  run_invariant_throughout (fun action state next _ => hstep action state next) hstart
    (@throughout_of_forall_mem _ _ _ _ (fun _ _ => True) (fun _ _ _ => trivial) state) hrun

/-- What one of the actions brings about and every step preserves holds at the end. -/
theorem run_establishes {property : State → Prop} {cause : Action}
    (hcause : ∀ state next, step cause state = some next → property next)
    (hstep : ∀ action state next, property state → step action state = some next → property next)
    {actions : List Action} (hmem : cause ∈ actions) {start final : State}
    (hrun : run step actions start = some final) : property final := by
  induction actions generalizing start with
  | nil => cases hmem
  | cons action rest ih =>
      obtain ⟨next, hnext, hrest⟩ := run_cons_eq_some.mp hrun
      rcases List.mem_cons.mp hmem with rfl | hlater
      · exact run_invariant hstep (hcause start next hnext) hrest
      · exact ih hlater hrest

/-- The invariant may speak of everything that was let out before. -/
theorem outputs_invariant_throughout {Output : Type} {observe : Action → State → Option Output}
    {invariant : List Output → State → Prop}
    (hstep : ∀ history action state next, condition action state → invariant history state →
      step action state = some next → invariant (history ++ (observe action state).toList) next)
    {history : List Output} (hstart : invariant history state)
    (hcondition : Throughout step condition actions state)
    (hrun : run step actions state = some final) :
    invariant (history ++ outputs step observe actions state) final := by
  induction actions generalizing history state with
  | nil =>
      cases hrun
      simpa [outputs] using hstart
  | cons action rest ih =>
      obtain ⟨next, hnext, hrest⟩ := run_cons_eq_some.mp hrun
      rw [outputs, hnext, Option.elim_some, ← List.append_assoc]
      exact ih (hstep history action state next hcondition.1 hstart hnext)
        (hcondition.2 next hnext) hrest

theorem Throughout.and (hfirst : Throughout step first actions state)
    (hsecond : Throughout step second actions state) :
    Throughout step (fun action state => first action state ∧ second action state) actions
      state := by
  induction actions generalizing state with
  | nil => trivial
  | cons action rest ih =>
      exact ⟨⟨hfirst.1, hsecond.1⟩,
        fun next hnext => ih (hfirst.2 next hnext) (hsecond.2 next hnext)⟩

theorem throughout_append {back : List Action} :
    Throughout step condition (front ++ back) state ↔ Throughout step condition front state ∧
      ∀ middle, run step front state = some middle → Throughout step condition back middle := by
  induction front generalizing state with
  | nil => simp [Throughout]
  | cons action rest ih =>
      simp only [List.cons_append, Throughout, ih, run_cons_eq_some, and_assoc]
      refine and_congr_right fun _ => ?_
      constructor
      · intro hall
        exact ⟨fun next hnext => (hall next hnext).1, fun middle ⟨next, hnext, hrun⟩ =>
          (hall next hnext).2 middle hrun⟩
      · intro hall next hnext
        exact ⟨hall.1 next hnext, fun middle hrun => hall.2 middle ⟨next, hnext, hrun⟩⟩

/-- A run goes on from the action it takes. -/
theorem Takes.run_after (htakes : Takes step actions start front action state)
    (hrun : run step actions start = some final) :
    ∃ next back, actions = front ++ action :: back ∧ step action state = some next ∧
      run step back next = some final := by
  obtain ⟨⟨back, rfl⟩, hreached⟩ := htakes
  rw [List.append_assoc, List.singleton_append] at hrun ⊢
  rw [run_append, hreached, Option.bind_some] at hrun
  obtain ⟨next, hnext, hrest⟩ := run_cons_eq_some.mp hrun
  exact ⟨next, back, rfl, hnext, hrest⟩

/-- What holds at the end of a run but not at its start began at some step. -/
theorem exists_takes {property : State → Prop} {actions : List Action} {start final : State}
    (hrun : run step actions start = some final) (hstart : ¬ property start)
    (hfinal : property final) :
    ∃ front action state next, Takes step actions start front action state ∧
      step action state = some next ∧ ¬ property state ∧ property next := by
  induction actions generalizing start with
  | nil =>
      cases hrun
      exact absurd hfinal hstart
  | cons action rest ih =>
      obtain ⟨next, hnext, hrest⟩ := run_cons_eq_some.mp hrun
      by_cases hproperty : property next
      · exact ⟨[], action, start, next, ⟨⟨rest, rfl⟩, rfl⟩, hnext, hstart, hproperty⟩
      · obtain ⟨front, last, state, after, ⟨hfront, hreached⟩, htaken⟩ := ih hrest hproperty
        refine ⟨action :: front, last, state, after, ⟨?_, ?_⟩, htaken⟩
        · exact List.cons_prefix_cons.mpr ⟨rfl, hfront⟩
        · exact run_cons_eq_some.mpr ⟨next, hnext, hreached⟩

/-- A condition holds throughout when it holds of every action that is taken. -/
theorem throughout_iff_forall_takes :
    Throughout step condition actions start ↔
      ∀ front action state, Takes step actions start front action state →
        condition action state := by
  induction actions generalizing start with
  | nil =>
      refine iff_of_true trivial ?_
      intro front action state htakes
      have hlength := htakes.1.length_le
      simp at hlength
  | cons first rest ih =>
      constructor
      · intro hthroughout front action state ⟨hfront, hreached⟩
        cases front with
        | nil =>
            cases hreached
            cases (List.cons_prefix_cons.mp hfront).1
            exact hthroughout.1
        | cons head front =>
            obtain ⟨hhead, hrest⟩ := List.cons_prefix_cons.mp hfront
            subst hhead
            obtain ⟨next, hnext, hafter⟩ := run_cons_eq_some.mp hreached
            exact ih.mp (hthroughout.2 next hnext) front action state ⟨hrest, hafter⟩
      · intro hall
        refine ⟨hall [] first start ⟨⟨rest, rfl⟩, rfl⟩, fun next hnext => ih.mpr ?_⟩
        intro front action state ⟨hfront, hreached⟩
        apply hall (first :: front) action state
        exact ⟨List.cons_prefix_cons.mpr ⟨rfl, hfront⟩,
          run_cons_eq_some.mpr ⟨next, hnext, hreached⟩⟩

/-- Two conditions that agree where an invariant holds agree on runs. -/
theorem throughout_congr {invariant : State → Prop}
    (hstep : ∀ action state next, invariant state → step action state = some next → invariant next)
    (hiff : ∀ action state, invariant state → (first action state ↔ second action state))
    (hstart : invariant state) :
    Throughout step first actions state ↔ Throughout step second actions state := by
  induction actions generalizing state with
  | nil => exact Iff.rfl
  | cons action rest ih =>
      refine and_congr (hiff action state hstart) ?_
      refine forall_congr' fun next => forall_congr' fun hnext => ?_
      exact ih (hstep action state next hstart hnext)

/-- What an invariant implies holds throughout. -/
theorem throughout_of_invariant {condition : Action → State → Prop} {invariant : State → Prop}
    (hstep : ∀ action state next, invariant state → step action state = some next →
      invariant next)
    (hcondition : ∀ action state, invariant state → condition action state)
    {actions : List Action} {state : State} (hstart : invariant state) :
    Throughout step condition actions state := by
  have htrivial : Throughout step (fun _ _ => True) actions state :=
    throughout_of_forall_mem (fun _ _ _ => trivial) state
  refine (throughout_congr hstep (fun action state hinvariant => ?_) hstart).mp htrivial
  exact iff_of_true trivial (hcondition action state hinvariant)

theorem Reachable.invariant {initial invariant : State → Prop}
    (hinitial : ∀ state, initial state → invariant state)
    (hstep : ∀ action state next, invariant state → step action state = some next →
      invariant next)
    {state : State} (hreachable : Reachable step initial state) : invariant state := by
  obtain ⟨start, actions, hstart, hrun⟩ := hreachable
  exact run_invariant hstep (hinitial start hstart) hrun

theorem Reachable.run {initial : State → Prop} (hreachable : Reachable step initial state)
    (hrun : Transition.run step actions state = some final) : Reachable step initial final := by
  obtain ⟨start, earlier, hstart, hearlier⟩ := hreachable
  refine ⟨start, earlier ++ actions, hstart, ?_⟩
  rw [run_append, hearlier]
  exact hrun

end Transition
