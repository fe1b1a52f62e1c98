import TopologyExporter.Foundation.Transition

/-! # Parts of a run

A run may be cut down to the actions that concern one part of the system. If the
other actions do not show in that part, the remaining actions form a run of their
own and let out what they did before.
-/

namespace Transition

universe u v

/-- How a part of a system is told apart: the actions that concern it, what they
let out, and when a state looks to it like another one. -/
structure Projection {State : Type u} {Action : Type v} {Output : Type}
    (step : Action → State → Option State) (observe : Action → State → Option Output) where
  own : Action → Bool
  keep : Output → Bool
  agree : State → State → Prop
  keep_observe : ∀ {action state output}, observe action state = some output →
    keep output = own action
  agree_other : ∀ {action state next view}, own action = false → agree state view →
    step action state = some next → agree next view
  agree_own : ∀ {action state next view}, own action = true → agree state view →
    step action state = some next → observe action state = observe action view ∧
      ∃ after, step action view = some after ∧ agree next after

variable {State : Type u} {Action : Type v} {Output : Type}
  {step : Action → State → Option State} {observe : Action → State → Option Output}

theorem Projection.filter_observe (part : Projection step observe) (action : Action)
    (state : State) :
    (observe action state).toList.filter part.keep =
      if part.own action then (observe action state).toList else [] := by
  cases hobserve : observe action state with
  | none => simp
  | some output =>
      have hkeep := part.keep_observe hobserve
      by_cases hown : part.own action
      · simp [hkeep, hown]
      · simp [hkeep, hown]

/-- The actions that concern the part run on their own, with the same outputs. -/
theorem Projection.run_filter (part : Projection step observe) {actions : List Action}
    {state final view : State} (hagree : part.agree state view)
    (hrun : run step actions state = some final) :
    (∃ last, run step (actions.filter part.own) view = some last) ∧
      outputs step observe (actions.filter part.own) view =
        (outputs step observe actions state).filter part.keep := by
  induction actions generalizing state view with
  | nil => exact ⟨⟨view, rfl⟩, rfl⟩
  | cons action rest ih =>
      obtain ⟨next, hnext, hrest⟩ := run_cons_eq_some.mp hrun
      rw [outputs, hnext, Option.elim_some, List.filter_append, part.filter_observe]
      by_cases hown : part.own action
      · obtain ⟨hobserve, after, hafter, hagrees⟩ := part.agree_own hown hagree hnext
        obtain ⟨⟨last, hlast⟩, houtputs⟩ := ih hagrees hrest
        rw [List.filter_cons_of_pos hown, if_pos hown]
        refine ⟨⟨last, run_cons_eq_some.mpr ⟨after, hafter, hlast⟩⟩, ?_⟩
        rw [outputs, hafter, Option.elim_some, houtputs, hobserve]
      · rw [List.filter_cons_of_neg hown, if_neg hown, List.nil_append]
        exact ih (part.agree_other (Bool.eq_false_of_not_eq_true hown) hagree hnext) hrest

end Transition
