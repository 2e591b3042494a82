import AtomSpaceCog.Channel.Fence
import AtomSpaceCog.Channel.Delivery

/-! # What is only ever added to

Each call of `barrier()` is made by one thread, so the times of a barrier are set once
(`Config.Owned`); the calls and the executed elements are only ever added to. What a
thread learns from them stays true (`Config.Grows`).
-/

namespace AtomSpaceCog

open Transition

variable {S : Setting}

/-- The barrier that a client thread is in. -/
def Caller.fence : Caller S → Option Nat
  | .fencing _ _ number _ => some number
  | _ => none

namespace Config

/-- A barrier that a thread is in has not returned, and no other thread is in it. -/
structure Owned (s : Config S) : Prop where
  running : ∀ thread number, (s.caller thread).fence = some number →
    number < s.fences ∧ (s.fence number).returned = none
  one : ∀ thread other number, (s.caller thread).fence = some number →
    (s.caller other).fence = some number → thread = other

/-- What was recorded stays recorded. -/
structure Grows (s next : Config S) : Prop where
  fences : s.fences ≤ next.fences
  begun : ∀ number < s.fences, (next.fence number).begun = (s.fence number).begun
  drained : ∀ number < s.fences, ∀ time, (s.fence number).drained = some time →
    (next.fence number).drained = some time
  returned : ∀ number < s.fences, ∀ time, (s.fence number).returned = some time →
    (next.fence number).returned = some time
  calls : s.calls <+: next.calls
  executed : s.executed <+: next.executed
  runs : s.runs <+: next.runs
  answered : s.answered <+: next.answered

theorem owned_initial (counter : UInt64) (space : S.Space) (locals : S.Local) :
    (Config.initial counter space locals).Owned where
  running _ _ within := by cases within
  one _ _ _ within := by cases within

variable {s next : Config S} {action : Action S}

/-- A step after which every thread is in the barrier that it was in, or in none. -/
theorem Owned.congr (owned : s.Owned) (fences : next.fences = s.fences)
    (returned : ∀ number, (∃ thread, (next.caller thread).fence = some number) →
      (s.fence number).returned = none → (next.fence number).returned = none)
    (callers : ∀ thread number, (next.caller thread).fence = some number →
      (s.caller thread).fence = some number) : next.Owned where
  running thread number within := by
    obtain ⟨used, none⟩ := owned.running thread number (callers thread number within)
    rw [fences]
    exact ⟨used, returned number ⟨thread, within⟩ none⟩
  one thread other number within also :=
    owned.one thread other number (callers thread number within) (callers other number also)

/-- The thread goes on to a state in which it is in no barrier. -/
theorem fence_update {thread : ThreadId} {caller : Caller S} (outside : caller.fence = none)
    (other : ThreadId) (number : Nat)
    (within : (Function.update s.caller thread caller other).fence = some number) :
    (s.caller other).fence = some number := by
  by_cases same : other = thread
  · subst same
    rw [Function.update_self, outside] at within
    cases within
  · rwa [Function.update_of_ne same] at within

theorem Owned.step (owned : s.Owned) (taken : s.step action = some next) : next.Owned := by
  cases moves_of_step taken with
  | edit | take | send | receive | rest | workInsert | workTouch | serve | serveSynchro | arrive
  | release => exact owned.congr rfl (fun _ _ none => none) fun _ _ within => within
  | start | exit | connected | read | enqueue | ask | closeConnection | answer =>
      exact owned.congr rfl (fun _ _ none => none) (fence_update rfl)
  | @drain thread op since number rest here =>
      refine owned.congr rfl (fun other _ none => ?_) fun _ _ within => within
      by_cases same : other = number
      · subst same
        simpa [setFence] using none
      · simpa [setFence, same] using none
  | @block worker number =>
      refine owned.congr rfl (fun other _ none => ?_) fun _ _ within => within
      by_cases same : other = number
      · subst same
        simpa [setFence] using none
      · simpa [setFence, push, same] using none
  | @finish thread op since number rest here =>
      refine owned.congr rfl (fun other within none => ?_) (fence_update rfl)
      obtain ⟨owner, within⟩ := within
      have before := fence_update rfl owner other within
      have different : other ≠ number := by
        rintro rfl
        have same := owned.one owner thread other before (by rw [here]; rfl)
        subst same
        simp [setCaller, Caller.fence] at within
      simpa [setFence, setCaller, different] using none
  | @barrier thread id op since rest here =>
      have inner : ∀ other number, ((Function.update s.caller thread
          (.fencing op since s.fences rest)) other).fence = some number →
          (other = thread ∧ number = s.fences) ∨
            other ≠ thread ∧ (s.caller other).fence = some number := by
        intro other number within
        by_cases same : other = thread
        · subst same
          rw [Function.update_self] at within
          exact Or.inl ⟨rfl, (Option.some.inj within).symm⟩
        · rw [Function.update_of_ne same] at within
          exact Or.inr ⟨same, within⟩
      refine ⟨fun other number within => ?_, fun first second number within also => ?_⟩
      · rcases inner other number within with ⟨-, rfl⟩ | ⟨-, before⟩
        · exact ⟨Nat.lt_succ_self _, by simp [setFence, setCaller]⟩
        · obtain ⟨used, none⟩ := owned.running other number before
          exact ⟨used.trans (Nat.lt_succ_self _), by simpa [setFence, setCaller, used.ne] using none⟩
      · rcases inner first number within with ⟨rfl, rfl⟩ | ⟨-, before⟩ <;>
          rcases inner second _ also with ⟨rfl, same⟩ | ⟨-, after⟩
        · rfl
        · exact absurd (owned.running second s.fences after).1 (Nat.lt_irrefl _)
        · exact absurd (same ▸ (owned.running first number before).1) (Nat.lt_irrefl _)
        · exact owned.one first second number before after

/-- A step that adds to the record of a barrier at most. -/
theorem grows_of_fence {number : Nat} {record : Fence}
    (fence : next.fence = Function.update s.fence number record) (fences : next.fences = s.fences)
    (calls : next.calls = s.calls) (executed : next.executed = s.executed) (runs : next.runs = s.runs)
    (answered : next.answered = s.answered) (begun : record.begun = (s.fence number).begun)
    (drained : ∀ time, (s.fence number).drained = some time → record.drained = some time)
    (returned : ∀ time, (s.fence number).returned = some time → record.returned = some time) :
    s.Grows next := by
  have cases : ∀ other, next.fence other = s.fence other ∨ other = number ∧ next.fence other = record := by
    intro other
    rw [fence]
    by_cases same : other = number
    · exact Or.inr ⟨same, by rw [same, Function.update_self]⟩
    · exact Or.inl (Function.update_of_ne same _ _)
  refine ⟨fences.ge, fun other _ => ?_, fun other _ time => ?_, fun other _ time => ?_,
    calls ▸ List.prefix_refl _, executed ▸ List.prefix_refl _, runs ▸ List.prefix_refl _,
    answered ▸ List.prefix_refl _⟩
  all_goals rcases cases other with same | ⟨rfl, same⟩ <;> rw [same]
  · exact begun
  · exact id
  · exact drained time
  · exact id
  · exact returned time

theorem grows_of_same (fence : next.fence = s.fence) (fences : next.fences = s.fences)
    (calls : s.calls <+: next.calls) (executed : s.executed <+: next.executed)
    (runs : s.runs <+: next.runs) (answered : s.answered <+: next.answered) : s.Grows next where
  fences := fences.ge
  begun _ _ := by rw [fence]
  drained _ _ _ same := by rwa [fence]
  returned _ _ _ same := by rwa [fence]
  calls := calls
  executed := executed
  runs := runs
  answered := answered

theorem grows_step (owned : s.Owned) (taken : s.step action = some next) : s.Grows next := by
  cases moves_of_step taken with
  | start | edit | exit | connected | read | ask | closeConnection | take | send | rest
  | workTouch | serveSynchro | arrive | release =>
      exact grows_of_same rfl rfl (List.prefix_refl _) (List.prefix_refl _) (List.prefix_refl _)
        (List.prefix_refl _)
  | enqueue | workInsert =>
      exact grows_of_same rfl rfl (List.prefix_append _ _) (List.prefix_refl _) (List.prefix_refl _)
        (List.prefix_refl _)
  | receive =>
      exact grows_of_same rfl rfl (List.prefix_refl _) (List.prefix_refl _) (List.prefix_append _ _)
        (List.prefix_refl _)
  | serve =>
      exact grows_of_same rfl rfl (List.prefix_refl _) (List.prefix_append _ _) (List.prefix_refl _)
        (List.prefix_refl _)
  | answer =>
      exact grows_of_same rfl rfl (List.prefix_refl _) (List.prefix_refl _) (List.prefix_refl _)
        (List.prefix_append _ _)
  | @barrier thread id op since rest here =>
      have away : ∀ number < s.fences, Function.update s.fence s.fences
          ⟨id, s.calls.length, none, fun _ => false, none⟩ number = s.fence number :=
        fun number used => Function.update_of_ne used.ne _ _
      refine ⟨Nat.le_succ _, fun number used => ?_, fun number used time same => ?_,
        fun number used time same => ?_, List.prefix_refl _, List.prefix_refl _, List.prefix_refl _,
        List.prefix_refl _⟩
      · exact congrArg Fence.begun (away number used)
      · exact (congrArg Fence.drained (away number used)).trans same
      · exact (congrArg Fence.returned (away number used)).trans same
  | @drain thread op since number rest here draining =>
      refine grows_of_fence rfl rfl rfl rfl rfl rfl rfl (fun time same => ?_) fun _ same => same
      rw [draining] at same
      cases same
  | block =>
      exact grows_of_fence rfl rfl rfl rfl rfl rfl rfl (fun _ same => same) fun _ same => same
  | @finish thread op since number rest here =>
      refine grows_of_fence rfl rfl rfl rfl rfl rfl rfl (fun _ same => same) fun time same => ?_
      rw [(owned.running thread number (by rw [here]; rfl)).2] at same
      cases same

/-- What a barrier covers, it goes on to cover. -/
theorem Grows.covers (grows : s.Grows next) {number : Nat} (used : number < s.fences)
    {call : Call S} (covers : (s.fence number).Covers call) : (next.fence number).Covers call := by
  rcases covers with early | ⟨source, drained, same, early⟩
  · exact Or.inl ((grows.begun number used).symm ▸ early)
  · exact Or.inr ⟨source, drained, grows.drained number used drained same, early⟩

/-- All the bookkeeping of a run. -/
structure Regular (s : Config S) : Prop where
  synced : s.Synced
  paired : s.Paired
  replied : s.Replied
  owned : s.Owned

theorem regular_initial (counter : UInt64) (space : S.Space) (locals : S.Local) :
    (Config.initial counter space locals).Regular where
  synced := synced_initial counter space locals
  paired := paired_initial counter space locals
  replied := replied_initial counter space locals
  owned := owned_initial counter space locals

theorem Regular.step (regular : s.Regular) (taken : s.step action = some next) : next.Regular where
  synced := regular.synced.step taken
  paired := regular.paired.step taken
  replied := regular.replied.step regular.paired taken
  owned := regular.owned.step taken

end Config

end AtomSpaceCog
