import AtomSpaceCog.Channel.Settling
import AtomSpaceCog.Channel.Executed
import AtomSpaceCog.Storage.Barrier

/-! # A CogStorage comes to rest

Of the handlers of `CogStorage` only `decode_atom_list` makes requests, and their handler makes
none. So what its operations have begun comes to an end, and then every operation has returned and
every message was executed and its reply handled.
-/

namespace AtomSpaceCog

open Dedup Transition

variable {sexpr : Sexpr} {server : Server}

/-- How many times handlers go on to make requests. -/
def Callback.depth : Option Callback → Nat
  | some .decodeAtomList => 1
  | _ => 0

theorem shallow_cogSetting : (cogSetting sexpr server).Shallow Callback.depth := by
  intro client callback pkt reply
  by_cases list : callback = .decodeAtomList
  · subst list
    refine (runHandler_all .decodeAtomList pkt reply).imp fun request asked => ?_
    obtain ⟨expr, h, rfl⟩ := asked
    exact Nat.zero_lt_one
  · exact all_runHandler list pkt reply

section Runs

/-- The drain of a barrier waits for the others to hand out their blocks. -/
def drainsAlone (s : Config (cogSetting plain .silent)) : Action (cogSetting plain .silent) → Bool
  | .drain _ => !decide s.Blocking
  | _ => true

theorem exclusive_of_drainsAlone {s : Config (cogSetting plain .silent)}
    {action : Action (cogSetting plain .silent)} (alone : drainsAlone s action = true) :
    s.Exclusive action := by
  rintro thread rfl
  simpa [drainsAlone] using alone

/-- A thread is in `barrier`, the blocks are at the server, and another thread has called `barrier`
behind a store. -/
def twoBarriers : List (Action (cogSetting plain .silent)) :=
  [.start 0 .barrier, .barrier 0 7, .drain 0, .block 0 0, .block 1 0, .block 2 0, .block 3 0] ++
    [.start 1 (.storeAtom ⟨.node .concept (bytes "a"), .loose 0⟩), .advance 1, .advance 1, .advance 1,
      .advance 1, .start 1 .barrier, .barrier 1 8]

end Runs

end AtomSpaceCog
