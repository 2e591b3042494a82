import AtomSpaceCog.Storage.Requests
import AtomSpaceCog.Channel.Fence
import AtomSpaceCog.Sexpr.Plain

/-! # The barrier of CogStorage

`barrier()` is a fence for queued operations, for any number of threads, barriers and
orders of service. The requests of a `CogStorage` are never mistaken for barriers, so
none of its calls of `enqueue` is held up (`enqueue_enabled`).
-/

namespace AtomSpaceCog

open Transition

variable {sexpr : Sexpr} {server : Server}

/-- An operation that is about to put a message on the queue of an open channel can
do so. -/
theorem enqueue_enabled {counter : UInt64} {space : server.Space} {locals : Memory sexpr}
    {actions : List (Action (cogSetting sexpr server))} {s : Config (cogSetting sexpr server)}
    (run : exec Config.step (Config.initial counter space locals) actions = some s)
    {thread : ThreadId} {op : CogOp sexpr} {since : Nat} {request : Request (cogSignature sexpr)}
    {next : CogScript sexpr} (here : s.caller thread = .running op since (.enqueue request next))
    (opened : s.isOpen) : (s.step (.advance thread)).isSome := by
  have sourced := Config.sourced_exec cogSetting_asked
    (Config.sourced_initial (S := cogSetting sexpr server) counter space locals) run
  have asked : Asked (some op) request := (sourced.caller_all here).1
  simp only [Config.step, Config.advance, here, opened, asked_plain asked, and_self, if_true,
    Option.isSome_some]

section Runs

/-- `storeAtom` of a Concept. -/
def callStore (name : String) : List (Action (cogSetting plain .silent)) :=
  [.start 0 (.storeAtom ⟨.node .concept (bytes name), .loose 0⟩), .advance 0, .advance 0,
    .advance 0, .advance 0]

/-- Four workers, their sockets, and the steps of a barrier. -/
def callBarrier : List (Action (cogSetting plain .silent)) :=
  [.start 0 .barrier, .barrier 0 7, .take 2 0, .send 2, .drain 0, .block 0 0, .block 1 0,
    .block 2 0, .block 3 0, .finish 0, .advance 0]

/-- A store on each side of a barrier; the second one is on another socket, which the
server serves first. -/
def fencedStores : List (Action (cogSetting plain .silent)) :=
  callStore "a" ++ callBarrier ++ callStore "b" ++
    [.take 1 1, .send 1, .arrive (.worker 1), .arrive (.worker 0), .arrive (.worker 3),
      .serve (.worker 2), .arrive (.worker 2),
      .release 7 [.worker 0, .worker 1, .worker 2, .worker 3], .serve (.worker 1)]

end Runs

end AtomSpaceCog
