import Mathlib.Data.List.Basic

/-! # Systems that take one labelled step at a time

A system is a partial step function: `none` means that the action is not enabled.
A run is a list of actions. An invariant is carried along a run from what one step
preserves (`exec_invariant`), also when the steps are only those that meet a
condition on the state before them (`Meets.invariant`).
-/

namespace Transition

variable {State Action : Type*} (step : State → Action → Option State)

/-- Take the listed actions in order. -/
def exec : State → List Action → Option State
  | state, [] => some state
  | state, action :: actions => (step state action).bind fun next => exec next actions

@[simp] theorem exec_nil (state : State) : exec step state [] = some state := rfl

theorem exec_cons (state : State) (action : Action) (actions : List Action) :
    exec step state (action :: actions) =
      (step state action).bind fun next => exec step next actions := rfl

variable {step}

/-- A nonempty run is a first step and a run. -/
theorem exec_cons_eq_some {state final : State} {action : Action} {actions : List Action} :
    exec step state (action :: actions) = some final ↔
      ∃ next, step state action = some next ∧ exec step next actions = some final := by
  rw [exec_cons, Option.bind_eq_some_iff]

/-- A run of two parts passes through a state between them. -/
theorem exec_append_eq_some {state final : State} {first second : List Action} :
    exec step state (first ++ second) = some final ↔
      ∃ middle, exec step state first = some middle ∧ exec step middle second = some final := by
  induction first generalizing state with
  | nil => simp
  | cons action first ih =>
      simp only [List.cons_append, exec_cons_eq_some, ih]
      constructor
      · rintro ⟨next, taken, middle, reached, rest⟩
        exact ⟨middle, ⟨next, taken, reached⟩, rest⟩
      · rintro ⟨middle, ⟨next, taken, reached⟩, rest⟩
        exact ⟨next, taken, middle, reached, rest⟩

/-- What every step preserves holds after a run if it held before. -/
theorem exec_invariant (Holds : State → Prop)
    (preserved : ∀ {state action next}, Holds state → step state action = some next → Holds next)
    {state final : State} {actions : List Action} (start : Holds state)
    (run : exec step state actions = some final) : Holds final := by
  induction actions generalizing state with
  | nil => exact Option.some.inj run ▸ start
  | cons action actions ih =>
      obtain ⟨next, taken, rest⟩ := exec_cons_eq_some.mp run
      exact ih (preserved start taken) rest

variable (step)

/-- Every step of the run meets a condition on the state before it. -/
def Meets (Condition : State → Action → Prop) : State → List Action → Prop
  | _, [] => True
  | state, action :: actions =>
      Condition state action ∧
        ∀ next, step state action = some next → Meets Condition next actions

variable {step} {Condition : State → Action → Prop}

/-- Whether a run meets a condition can be found out step by step. -/
instance decidableMeets [∀ state action, Decidable (Condition state action)] (state : State) :
    (actions : List Action) → Decidable (Meets step Condition state actions)
  | [] => isTrue trivial
  | action :: actions =>
      match taken : step state action with
      | none => decidable_of_iff (Condition state action) (by simp [Meets, taken])
      | some next =>
          have := decidableMeets next actions
          decidable_of_iff (Condition state action ∧ Meets step Condition next actions)
            (by simp [Meets, taken])

theorem Meets.imp {Weaker : State → Action → Prop}
    (weaken : ∀ {state action}, Condition state action → Weaker state action)
    {state : State} {actions : List Action} (meets : Meets step Condition state actions) :
    Meets step Weaker state actions := by
  induction actions generalizing state with
  | nil => trivial
  | cons action actions ih => exact ⟨weaken meets.1, fun next taken => ih (meets.2 next taken)⟩

/-- What the steps that meet the condition preserve holds after a run of such
steps. -/
theorem Meets.invariant (Holds : State → Prop)
    (preserved : ∀ {state action next}, Condition state action → Holds state →
      step state action = some next → Holds next)
    {state final : State} {actions : List Action} (meets : Meets step Condition state actions)
    (start : Holds state) (run : exec step state actions = some final) : Holds final := by
  induction actions generalizing state with
  | nil => exact Option.some.inj run ▸ start
  | cons action actions ih =>
      obtain ⟨next, taken, rest⟩ := exec_cons_eq_some.mp run
      exact ih (meets.2 next taken) (preserved meets.1 start taken) rest

/-- The condition holds at a step, and along the run after it. -/
theorem meets_cons {state next : State} {action : Action} {actions : List Action}
    (here : Condition state action) (taken : step state action = some next)
    (rest : Meets step Condition next actions) : Meets step Condition state (action :: actions) :=
  ⟨here, fun _ also => Option.some.inj (taken.symm.trans also) ▸ rest⟩

theorem Meets.and {Other : State → Action → Prop} {state : State} {actions : List Action}
    (meets : Meets step Condition state actions) (also : Meets step Other state actions) :
    Meets step (fun state action => Condition state action ∧ Other state action) state actions := by
  induction actions generalizing state with
  | nil => trivial
  | cons action actions ih =>
      exact ⟨⟨meets.1, also.1⟩, fun next taken => ih (meets.2 next taken) (also.2 next taken)⟩

/-- A condition and what it preserves make up a stronger condition. -/
theorem Meets.strengthen {Stronger : State → Action → Prop} (Holds : State → Prop)
    (preserved : ∀ {state action next}, Condition state action → Holds state →
      step state action = some next → Holds next)
    (gives : ∀ {state action}, Condition state action → Holds state → Stronger state action)
    {state : State} {actions : List Action} (meets : Meets step Condition state actions)
    (start : Holds state) : Meets step Stronger state actions := by
  induction actions generalizing state with
  | nil => trivial
  | cons action actions ih =>
      exact ⟨gives meets.1 start, fun next taken =>
        ih (meets.2 next taken) (preserved meets.1 start taken)⟩

/-- A condition on the actions alone. -/
theorem meets_of_forall {Allowed : Action → Prop} {state : State} {actions : List Action}
    (all : ∀ action ∈ actions, Allowed action) : Meets step (fun _ action => Allowed action) state actions := by
  induction actions generalizing state with
  | nil => trivial
  | cons action actions ih =>
      exact ⟨all action List.mem_cons_self, fun next _ =>
        ih fun later member => all later (List.mem_cons_of_mem _ member)⟩

/-- Conditions that agree wherever an invariant holds are met by the same runs. -/
theorem meets_congr {Other : State → Action → Prop} (Holds : State → Prop)
    (preserved : ∀ {state action next}, Holds state → step state action = some next → Holds next)
    (agree : ∀ {state}, Holds state → ∀ action, Condition state action ↔ Other state action)
    {state : State} {actions : List Action} (start : Holds state) :
    Meets step Condition state actions ↔ Meets step Other state actions := by
  induction actions generalizing state with
  | nil => exact Iff.rfl
  | cons action actions ih =>
      refine and_congr (agree start action) (forall_congr' fun next => ?_)
      exact imp_congr_right fun taken => ih (preserved start taken)

/-- The condition holds at every step, and so along every part of the run. -/
theorem meets_append {state : State} {first second : List Action} :
    Meets step Condition state (first ++ second) ↔
      Meets step Condition state first ∧
        ∀ middle, exec step state first = some middle → Meets step Condition middle second := by
  induction first generalizing state with
  | nil => simp [Meets]
  | cons action first ih =>
      simp only [List.cons_append, Meets, ih, exec_cons_eq_some]
      constructor
      · rintro ⟨here, later⟩
        refine ⟨⟨here, fun next taken => (later next taken).1⟩, ?_⟩
        rintro middle ⟨next, taken, reached⟩
        exact (later next taken).2 middle reached
      · rintro ⟨⟨here, early⟩, late⟩
        exact ⟨here, fun next taken => ⟨early next taken,
          fun middle reached => late middle ⟨next, taken, reached⟩⟩⟩

/-- Where each step of one system is matched by a run of another over the same actions, with
the same ones that are seen, so is every run. -/
theorem exec_simulates {Twin : Type*} {other : Twin → Action → Option Twin} (seen : Action → Bool)
    (Related : State → Twin → Prop) {Condition : State → Action → Prop}
    (matched : ∀ {state twin action next}, Condition state action → Related state twin →
      step state action = some next → ∃ actions after, exec other twin actions = some after ∧
        actions.filter seen = [action].filter seen ∧ Related next after)
    {state final : State} {twin : Twin} {actions : List Action}
    (meets : Meets step Condition state actions) (related : Related state twin)
    (run : exec step state actions = some final) : ∃ others after, exec other twin others = some after ∧
      others.filter seen = actions.filter seen ∧ Related final after := by
  induction actions generalizing state twin with
  | nil => exact ⟨[], twin, rfl, rfl, Option.some.inj run ▸ related⟩
  | cons action actions ih =>
      obtain ⟨next, taken, rest⟩ := exec_cons_eq_some.mp run
      obtain ⟨first, middle, reached, same, still⟩ := matched meets.1 related taken
      obtain ⟨second, after, later, equal, relates⟩ := ih (meets.2 next taken) still rest
      refine ⟨first ++ second, after, exec_append_eq_some.mpr ⟨middle, reached, later⟩, ?_, relates⟩
      rw [List.filter_append, same, equal, ← List.filter_append]
      rfl

end Transition
