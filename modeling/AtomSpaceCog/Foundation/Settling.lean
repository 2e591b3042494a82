import AtomSpaceCog.Foundation.Transition
import Mathlib.Logic.Hydra
import Mathlib.Algebra.BigOperators.Group.Finset.Piecewise

/-! # Systems that come to rest

What is left to do is a multiset of tasks. Steps that take one task and leave smaller ones in
its place cannot go on for ever, in whatever order they are taken (`Spends.not_endless`), and so
they can be taken until none is left (`Spends.exists_rest`).
-/

namespace Transition

open Relation

variable {State Action Task : Type*}

/-- A task was taken, and at most smaller ones were left in its place. -/
def Spent (Smaller : Task → Task → Prop) (after before : Multiset Task) : Prop :=
  ∃ task others, (∀ each ∈ others, Smaller each task) ∧ after + {task} ≤ before + others

variable {Smaller : Task → Task → Prop}

/-- Tasks can be dropped one by one. -/
theorem cutExpand_drop (kept dropped : Multiset Task) :
    ReflTransGen (CutExpand Smaller) kept (kept + dropped) := by
  induction dropped using Multiset.induction with
  | empty => rw [add_zero]
  | cons task dropped ih =>
      refine ih.tail ?_
      rw [← Multiset.singleton_add, ← add_assoc, add_right_comm]
      exact ⟨0, task, fun _ member => absurd member (Multiset.notMem_zero _), (add_zero _).symm⟩

theorem spent_wf (wf : WellFounded Smaller) : WellFounded (Spent Smaller) := by
  refine Subrelation.wf ?_ wf.cutExpand.transGen
  rintro after before ⟨task, others, smaller, le⟩
  obtain ⟨dropped, same⟩ := Multiset.le_iff_exists_add.mp le
  refine TransGen.tail' (cutExpand_drop after dropped) ⟨others, task, smaller, ?_⟩
  rw [same, add_right_comm]

/-- Steps of one kind, from the states in which an invariant holds, take one task and leave smaller
ones. -/
structure Spends (step : State → Action → Option State) (Own : State → Action → Prop)
    (Holds : State → Prop) (Smaller : Task → Task → Prop) (left : State → Multiset Task) : Prop where
  wf : WellFounded Smaller
  keeps : ∀ {state action next}, Own state action → Holds state → step state action = some next →
    Holds next
  spends : ∀ {state action next}, Own state action → Holds state → step state action = some next →
    Spent Smaller (left next) (left state)

namespace Spends

variable {step : State → Action → Option State} {Own : State → Action → Prop} {Holds : State → Prop}
  {left : State → Multiset Task}

/-- The same holds of fewer steps. -/
theorem imp (spends : Spends step Own Holds Smaller left) {Fewer : State → Action → Prop}
    (among : ∀ {state action}, Fewer state action → Own state action) :
    Spends step Fewer Holds Smaller left where
  wf := spends.wf
  keeps own := spends.keeps (among own)
  spends own := spends.spends (among own)

/-- There is no endless run of these steps. -/
theorem not_endless (spends : Spends step Own Holds Smaller left) {state : State}
    (start : Holds state) : ¬ ∃ path : Nat → State, path 0 = state ∧
      ∀ time, ∃ action, Own (path time) action ∧ step (path time) action = some (path (time + 1)) := by
  rintro ⟨path, rfl, goes⟩
  have holds : ∀ time, Holds (path time) := by
    intro time
    induction time with
    | zero => exact start
    | succ time ih =>
        obtain ⟨action, own, taken⟩ := goes time
        exact spends.keeps own ih taken
  have falls : ∀ time, Spent Smaller (left (path (time + 1))) (left (path time)) := by
    intro time
    obtain ⟨action, own, taken⟩ := goes time
    exact spends.spends own (holds time) taken
  exact (wellFounded_iff_isEmpty_descending_chain.mp (spent_wf spends.wf)).false
    ⟨fun time => left (path time), falls⟩

/-- The steps can be taken until none is left. -/
theorem exists_rest (spends : Spends step Own Holds Smaller left) {state : State}
    (start : Holds state) : ∃ actions final, Meets step Own state actions ∧
      exec step state actions = some final ∧
        ∀ action, Own final action → step final action = none := by
  induction state using (InvImage.wf left (spent_wf spends.wf)).induction with
  | h state ih =>
  by_cases rest : ∀ action, Own state action → step state action = none
  · exact ⟨[], state, trivial, rfl, rest⟩
  · push Not at rest
    obtain ⟨action, own, enabled⟩ := rest
    obtain ⟨next, taken⟩ := Option.ne_none_iff_exists'.mp enabled
    obtain ⟨actions, final, meets, run, still⟩ :=
      ih next (spends.spends own start taken) (spends.keeps own start taken)
    exact ⟨action :: actions, final, meets_cons own taken meets,
      exec_cons_eq_some.mpr ⟨next, taken, run⟩, still⟩

end Spends

/-- Where a run is taken to its end, a condition on the actions alone is met by each. -/
theorem Meets.forall_of_exec {step : State → Action → Option State} {Allowed : Action → Prop}
    {state final : State} {actions : List Action}
    (meets : Meets step (fun _ action => Allowed action) state actions)
    (run : exec step state actions = some final) : ∀ action ∈ actions, Allowed action := by
  induction actions generalizing state with
  | nil => exact fun action member => absurd member List.not_mem_nil
  | cons first actions ih =>
      obtain ⟨next, taken, rest⟩ := exec_cons_eq_some.mp run
      intro action member
      rcases List.mem_cons.mp member with rfl | later
      · exact meets.1
      · exact ih (meets.2 next taken) rest action later

/-- A change of one summand changes the sum by as much. -/
theorem sum_add_le_sum_add {Index : Type*} [DecidableEq Index] {within : Finset Index}
    {before after : Index → Multiset Task} {index : Index} (inside : index ∈ within)
    (same : ∀ other ∈ within, other ≠ index → after other = before other) {taken given : Multiset Task}
    (here : after index + taken ≤ before index + given) :
    ∑ each ∈ within, after each + taken ≤ ∑ each ∈ within, before each + given := by
  have others : ∑ each ∈ within.erase index, after each = ∑ each ∈ within.erase index, before each :=
    Finset.sum_congr rfl fun other member =>
      same other (Finset.mem_of_mem_erase member) (Finset.ne_of_mem_erase member)
  rw [← Finset.sum_erase_add within after inside, ← Finset.sum_erase_add within before inside, others,
    add_assoc, add_assoc]
  exact add_le_add_right here _

end Transition
