import AtomSpaceCog.Simple.Operations

/-! # An operation against a failing connection

An operation of a `CogSimpleStorage` with no other thread in between, where each `do_send`
and each `do_recv` may throw, and what holds wherever it ends (`Prog.Safe`).
-/

namespace AtomSpaceCog.Simple

variable {Local : Type}

/-- What is seen on the connection; a reply comes with the message sent last. -/
inductive Event where
  | sent (msg : Str)
  | answered (question reply : Str)
deriving DecidableEq

/-- The message that was sent. -/
def Event.text? : Event → Option Str
  | .sent msg => some msg
  | .answered _ _ => none

/-- Carry out a program. For each `do_send` and `do_recv` in turn it is given what
happens: none when it throws, and else the reply, which a `do_send` does not look at. It
throws when nothing is given any more. -/
def Prog.play : Prog Local → List (Option Str) → Local → Str → List Event × Local
  | .exit _, _, state, _ => ([], state)
  | .touch change next, outcomes, state, latest => (next state).play outcomes (change state) latest
  | .connected next, outcomes, state, latest => (next true).play outcomes state latest
  | .lock next, outcomes, state, latest => next.play outcomes state latest
  | .unlock next, outcomes, state, latest => next.play outcomes state latest
  | .send msg next, outcomes, state, _ =>
      match outcomes with
      | some _ :: rest =>
          let (events, final) := next.play rest state msg
          (.sent msg :: events, final)
      | _ => ([], state)
  | .recv next, outcomes, state, latest =>
      match outcomes with
      | some reply :: rest =>
          let (events, final) := (next reply).play rest state latest
          (.answered latest reply :: events, final)
      | _ => ([], state)
  | .closeSocket next, outcomes, state, latest => next.play outcomes state latest
  | .clearSocket next, outcomes, state, latest => next.play outcomes state latest
  | .stuck, _, state, _ => ([], state)

/-- Wherever the program ends, by an exception or not, the state and what was seen up to
then are good. -/
def Prog.Safe (Good : Local → List Event → Prop) : Prog Local → Local → List Event → Str → Prop
  | .exit _, state, seen, _ => Good state seen
  | .touch change next, state, seen, latest => (next state).Safe Good (change state) seen latest
  | .connected next, state, seen, latest => (next true).Safe Good state seen latest
  | .lock next, state, seen, latest => next.Safe Good state seen latest
  | .unlock next, state, seen, latest => next.Safe Good state seen latest
  | .send msg next, state, seen, _ =>
      Good state seen ∧ next.Safe Good state (seen ++ [.sent msg]) msg
  | .recv next, state, seen, latest =>
      Good state seen ∧
        ∀ reply, (next reply).Safe Good state (seen ++ [.answered latest reply]) latest
  | .closeSocket next, state, seen, latest => next.Safe Good state seen latest
  | .clearSocket next, state, seen, latest => next.Safe Good state seen latest
  | .stuck, state, seen, _ => Good state seen

/-- A safe program ends well, whatever happens on the connection. -/
theorem Prog.Safe.play {Good : Local → List Event → Prop} {prog : Prog Local} {state : Local}
    {seen : List Event} {latest : Str} (safe : prog.Safe Good state seen latest)
    (outcomes : List (Option Str)) :
    Good (prog.play outcomes state latest).2 (seen ++ (prog.play outcomes state latest).1) := by
  induction prog generalizing state seen latest outcomes with
  | exit how => simpa [Prog.play, Prog.Safe] using safe
  | stuck => simpa [Prog.play, Prog.Safe] using safe
  | touch change next ih => exact ih state safe outcomes
  | connected next ih => exact ih true safe outcomes
  | lock next ih | unlock next ih | closeSocket next ih | clearSocket next ih => exact ih safe outcomes
  | send msg next ih =>
      obtain ⟨here, later⟩ := safe
      rcases outcomes with _ | ⟨_ | reply, rest⟩
      · simpa [Prog.play] using here
      · simpa [Prog.play] using here
      · simpa [Prog.play] using ih later rest
  | recv next ih =>
      obtain ⟨here, later⟩ := safe
      rcases outcomes with _ | ⟨_ | reply, rest⟩
      · simpa [Prog.play] using here
      · simpa [Prog.play] using here
      · simpa [Prog.play] using ih reply (later reply) rest

end AtomSpaceCog.Simple
