import AtomSpaceCog.Channel.Wires
import Mathlib.Algebra.BigOperators.Group.Finset.Piecewise
import Mathlib.Algebra.Order.BigOperators.Group.Finset

/-! # Each element is executed at most once

An element that was handed to `do_send` as often as it was executed or is on its way to
the server (`Config.Counted`), and it is handed over at most once. So what is on its way
has not been executed (`Config.Counted.fresh`), and it is there only once.
-/

namespace AtomSpaceCog

open Dedup Transition

variable {sig : Signature} {S : Setting}

/-- The message is the element with this number. -/
def Wire.Carries (number : Nat) : Wire sig → Bool
  | request entry => entry.tag = number
  | _ => false

namespace Config

/-- How often the element with this number is on its way on a socket. -/
def carried (s : Config S) (number : Nat) (sock : SockId) : Nat :=
  (s.inbox sock).countP (Wire.Carries number)

/-- What was handed to `do_send` was executed or is on its way. -/
def Counted (s : Config S) : Prop :=
  ∀ number, s.handed.countP (fun entry => entry.tag = number) =
    s.executed.countP (fun entry => entry.tag = number) +
      ∑ worker : WorkerId, s.carried number (.worker worker)

theorem counted_initial (counter : UInt64) (space : S.Space) (locals : S.Local) :
    (Config.initial counter space locals).Counted := by
  intro number
  simp [initial, carried]

variable {s next : Config S}

/-- A change on one socket changes the sum by what it changes there. -/
theorem sum_carried_update {worker : WorkerId} {wires : List (Wire S.toSignature)} (number : Nat)
    (inbox : next.inbox = Function.update s.inbox (.worker worker) wires) :
    ∑ other : WorkerId, next.carried number (.worker other) + s.carried number (.worker worker) =
      ∑ other : WorkerId, s.carried number (.worker other) + wires.countP (Wire.Carries number) := by
  have updated : (fun other : WorkerId => next.carried number (.worker other)) =
      Function.update (fun other => s.carried number (.worker other)) worker
        (wires.countP (Wire.Carries number)) := by
    funext other
    by_cases same : other = worker
    · subst same
      rw [Function.update_self, carried, inbox, Function.update_self]
    · rw [Function.update_of_ne same, carried, inbox, Function.update_of_ne (by simpa using same)]
      rfl
  rw [updated, Finset.sum_update_of_mem (Finset.mem_univ worker),
    ← Finset.sum_sdiff (Finset.subset_univ {worker}), Finset.sum_singleton]
  omega

/-- The number of a message that is no element does not matter. -/
theorem carried_update {sock : SockId} {wires : List (Wire S.toSignature)} {number : Nat}
    (inbox : next.inbox = Function.update s.inbox sock wires)
    (same : wires.countP (Wire.Carries number) = s.carried number sock) (other : SockId) :
    next.carried number other = s.carried number other := by
  rw [carried, inbox]
  by_cases own : other = sock
  · subst own
    rw [Function.update_self, same]
  · rw [Function.update_of_ne own]
    rfl

namespace Counted

/-- Steps that neither hand over nor execute an element. -/
theorem congr (counted : s.Counted) (handed : next.handed = s.handed)
    (executed : next.executed = s.executed)
    (same : ∀ number worker, next.carried number (.worker worker) = s.carried number (.worker worker)) :
    next.Counted := by
  intro number
  rw [handed, executed, counted number]
  exact congrArg _ (Finset.sum_congr rfl fun worker _ => (same number worker).symm)

theorem step (counted : s.Counted) (wired : s.Wired) (taken : s.WireStep next) : next.Counted := by
  cases taken with
  | same inbox handed executed fence fences
  | begin id fresh calls inbox handed executed fence fences
  | drain other draining handled calls inbox handed executed fence fences
  | finish other drained ran calls inbox handed executed fence fences =>
      refine counted.congr handed executed fun number worker => ?_
      rw [carried, inbox, carried]
  | block worker other known drained notRan calls inbox handed executed fence fences =>
      refine counted.congr handed executed fun number worker => ?_
      exact carried_update inbox (by simp [carried, Wire.Carries]) (.worker worker)
  | release id socks distinct enough reached calls inbox handed executed fence fences =>
      refine counted.congr handed executed fun number worker => ?_
      rw [carried, carried, inbox]
      dsimp only
      split
      · next released =>
          -- Only a block is passed when sockets are released.
          have block := (reached _ released).2
          split at block
          · next other rest first =>
              rw [first, List.tail_cons, List.countP_cons_of_neg (by simp [Wire.Carries])]
          · exact block.elim
      · rfl
  | push sock wire known calls inbox executed fence fences =>
      rcases known with ⟨thread, msg, rfl, handed⟩ | ⟨worker, entry, rfl, rfl, -, handed⟩
      · refine counted.congr handed executed fun number worker => ?_
        exact carried_update inbox (by simp [carried, Wire.Carries]) (.worker worker)
      · intro number
        have before := counted number
        have sum := sum_carried_update number inbox
        rw [List.countP_append, ← carried] at sum
        rw [handed, executed, List.countP_append, List.countP_singleton]
        rw [List.countP_singleton, Wire.Carries] at sum
        by_cases own : entry.tag = number <;> simp only [own, decide_true, decide_false] at sum ⊢ <;>
          omega
  | serve sock wire rest first known calls inbox handed fence fences =>
      rcases known with ⟨thread, msg, rfl, executed⟩ | ⟨entry, rfl, executed⟩
      · refine counted.congr handed executed fun number worker => ?_
        exact carried_update inbox (by simp [carried, first, Wire.Carries]) (.worker worker)
      · intro number
        obtain ⟨⟨worker, rfl⟩, -⟩ := wired.request sock entry (by rw [first]; exact List.mem_cons_self)
        have before := counted number
        have sum := sum_carried_update number inbox
        rw [show s.carried number (.worker worker) = _ by rw [carried, first, List.countP_cons]] at sum
        rw [handed, executed, List.countP_append, List.countP_singleton]
        rw [Wire.Carries] at sum
        by_cases own : entry.tag = number <;> simp only [own, decide_true, decide_false] at sum ⊢ <;>
          omega

theorem exec (counted : s.Counted) (wired : s.Wired) {actions : List (Action S)}
    (run : Transition.exec Config.step s actions = some next) : next.Counted :=
  (exec_invariant (fun s => s.Counted ∧ s.Wired)
    (fun both taken => ⟨both.1.step both.2 (wireStep_of_step taken),
      both.2.step (wireStep_of_step taken)⟩) ⟨counted, wired⟩ run).1

/-- What is on its way has not been executed. -/
theorem fresh (counted : s.Counted) (ledger : s.Ledger) {worker : WorkerId}
    {entry : Entry S.toSignature} (inside : .request entry ∈ s.inbox (.worker worker)) :
    ∀ ran ∈ s.executed, ran.tag ≠ entry.tag := by
  intro ran executed same
  have once : s.handed.countP (fun other => other.tag = entry.tag) ≤ 1 := by
    have := (List.nodup_iff_count_le_one.mp ledger.handedOnce) entry.tag
    rwa [List.count, List.countP_map] at this
  have here : 0 < s.carried entry.tag (.worker worker) :=
    List.countP_pos_iff.mpr ⟨_, inside, by simp [Wire.Carries]⟩
  have there : 0 < s.executed.countP (fun other => other.tag = entry.tag) :=
    List.countP_pos_iff.mpr ⟨ran, executed, by simpa using same⟩
  have total : s.carried entry.tag (.worker worker) ≤
      ∑ other : WorkerId, s.carried entry.tag (.worker other) :=
    Finset.single_le_sum (f := fun other : WorkerId => s.carried entry.tag (.worker other))
      (fun _ _ => Nat.zero_le _) (Finset.mem_univ worker)
  have := counted entry.tag
  omega

/-- No element is executed twice. -/
theorem executedOnce (counted : s.Counted) (ledger : s.Ledger) :
    (s.executed.map Tagged.tag).Nodup := by
  apply List.nodup_iff_count_le_one.mpr
  intro number
  have once := List.nodup_iff_count_le_one.mp ledger.handedOnce number
  rw [List.count, List.countP_map] at once ⊢
  calc s.executed.countP _
      ≤ s.executed.countP (fun entry => entry.tag = number) +
          ∑ worker : WorkerId, s.carried number (.worker worker) := Nat.le_add_right _ _
    _ = s.handed.countP (fun entry => entry.tag = number) := (counted number).symm
    _ ≤ 1 := once

end Counted

end Config

end AtomSpaceCog
