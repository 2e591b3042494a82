import AtomSpaceCog.Channel.Serial
import AtomSpaceCog.Simple.Alone
import AtomSpaceCog.Storage.Requests

/-! # Both storage nodes, one operation after the other

The operations that write, and those that set one value, on a `CogSimpleStorage` and, each followed
by a barrier, on a `CogStorage`. They leave the server and the AtomSpaces in the same states,
whichever workers take the messages, whichever sockets the server serves first, and whenever the
handlers run.
-/

namespace AtomSpaceCog

open Transition Simple

/-- The operations that write, or that set one value. -/
inductive Exchange (sexpr : Sexpr) where
  | storeAtom (h : Handle sexpr)
  | storeValue (h key : Handle sexpr)
  | updateValue (h key : Handle sexpr) (delta : Option sexpr.Value)
  | loadValue (h key : Handle sexpr)
  | removeAtom (h : Handle sexpr) (recursive : Bool)
  | setProxy (h : Handle sexpr)
  | proxyOpen
  | killData
  | runQuery (query key : Handle sexpr) (view : Option (Handle sexpr)) (fresh : Bool)

section Names

variable {sexpr : Sexpr} {memory : Memory sexpr} {fidMap : sexpr.FidMap}

/-- The same with another map of frames. -/
def Memory.named (memory : Memory sexpr) (fidMap : sexpr.FidMap) : Memory sexpr :=
  { memory with fidMap := fidMap }

theorem insertAtom_named (table : SpaceId) (atom : sexpr.Content) :
    (memory.named fidMap).insertAtom table atom = (memory.insertAtom table atom).named fidMap := by
  unfold Memory.insertAtom
  induction atom.parts generalizing memory with
  | nil => rfl
  | cons part parts ih =>
      have one : (memory.named fidMap).insertOne table part =
          (memory.insertOne table part).named fidMap := by
        have located : (memory.named fidMap).locate table part = memory.locate table part := rfl
        unfold Memory.insertOne
        rw [located]
        cases memory.locate table part <;> rfl
      rw [List.foldl_cons, List.foldl_cons, one]
      exact ih

theorem addAtoms_named (table : SpaceId) (value : Option sexpr.Value) :
    (memory.named fidMap).addAtoms table value = (memory.addAtoms table value).named fidMap := by
  cases value with
  | none => rfl
  | some value =>
      unfold Memory.addAtoms
      dsimp only
      induction sexpr.atomsIn value generalizing memory with
      | nil => rfl
      | cons atom atoms ih =>
          rw [List.foldl_cons, List.foldl_cons, insertAtom_named]
          exact ih

/-- Setting a value neither reads the map of frames nor changes it. -/
theorem apply_decodeValueHandler {reply : Str} {pkt : Pkt sexpr} {later : Memory sexpr}
    (applied : (decodeValueHandler sexpr reply pkt).apply memory = some later) :
    (decodeValueHandler sexpr reply pkt).apply (memory.named fidMap) = some (later.named fidMap) := by
  unfold decodeValueHandler at applied ⊢
  split at applied
  · split at applied
    · simp only [Work.apply, Option.some.injEq] at applied ⊢
      rw [addAtoms_named, ← applied]
      rfl
    · simp only [Work.apply, Option.some.injEq] at applied ⊢
      rw [← applied]
      rfl
  · cases applied

end Names

namespace Exchange

section Queued

variable {sexpr : Sexpr} {server : Server}

/-- The operation of a `CogStorage`. -/
def queued : Exchange sexpr → CogOp sexpr
  | .storeAtom h => .storeAtom h
  | .storeValue h key => .storeValue h key
  | .updateValue h key delta => .updateValue h key delta
  | .loadValue h key => .loadValue h key
  | .removeAtom h recursive => .removeAtom h recursive
  | .setProxy h => .setProxy h
  | .proxyOpen => .proxyOpen
  | .killData => .killData
  | .runQuery query key view fresh => .runQuery query key view fresh

/-- The Atom that is written is in the AtomSpace of the storage node. -/
def Home (own : Option SpaceId) : Exchange sexpr → Prop
  | .storeAtom h | .storeValue h _ | .updateValue h _ _ | .setProxy h => h.getAtomSpace = own
  | _ => True

/-- A request that makes no other requests. -/
theorem quiet_enqueue (msg : Str) (pkt : Pkt sexpr) {handler : Callback}
    (other : handler ≠ .decodeAtomList) :
    Request.Quiet (S := cogSetting sexpr server) (enqueue sexpr msg pkt handler) :=
  fun reply => all_runHandler other pkt reply

theorem quiet_enqueueNoreply (msg : Str) :
    Request.Quiet (S := cogSetting sexpr server) (.enqueueNoreply msg) := fun _ => trivial

/-- With a barrier after each operation, there is one between any two messages. -/
theorem apartAll_queued (exchanges : List (Exchange sexpr)) :
    (cogSetting sexpr server).ApartAll (exchanges.flatMap fun exchange => [exchange.queued, .barrier])
      true := by
  induction exchanges with
  | nil => trivial
  | cons exchange exchanges ih =>
      have noop : ∀ msg, Request.Quiet (S := cogSetting sexpr server) (noop msg) :=
        fun msg => quiet_enqueue msg _ (by decide)
      have asks : ∀ msg pkt, Request.Quiet (S := cogSetting sexpr server)
          (enqueue sexpr msg pkt .decodeValue) := fun msg pkt => quiet_enqueue msg pkt (by decide)
      have noreply : ∀ msg, Request.Quiet (S := cogSetting sexpr server) (.enqueueNoreply msg) :=
        quiet_enqueueNoreply
      cases exchange with
      | storeAtom h => exact ⟨rfl, fun memory => ⟨rfl, noreply _, ih⟩⟩
      | storeValue h key => exact ⟨rfl, fun memory => ⟨rfl, noreply _, ih⟩⟩
      | updateValue h key delta => exact ⟨rfl, noreply _, ih⟩
      | loadValue h key => exact ⟨rfl, asks _ _, ih⟩
      | removeAtom h recursive => exact ⟨rfl, noop _, ih⟩
      | setProxy h => exact ⟨rfl, fun memory => ⟨rfl, noreply _, rfl, noop _, ih⟩⟩
      | proxyOpen => exact ⟨rfl, noop _, ih⟩
      | killData => exact ⟨rfl, noop _, ih⟩
      | runQuery query key view fresh => exact ⟨rfl, asks _ _, ih⟩

end Queued

section Plain

variable {sexpr : FrameSexpr} {server : Server} {own : Option SpaceId}

/-- The operation of a `CogSimpleStorage`. -/
def plain : Exchange sexpr.toSexpr → SimpleOp sexpr
  | .storeAtom h => .storeAtom h
  | .storeValue h key => .storeValue h key
  | .updateValue h key delta => .updateValue h key delta
  | .loadValue h key => .loadValue h key
  | .removeAtom h recursive => .removeAtom h recursive
  | .setProxy h => .setProxy h
  | .proxyOpen => .proxyOpen
  | .killData => .killData
  | .runQuery query key view fresh => .runQuery query key view fresh

/-- The AtomSpaces around the node are these, and it writes no frames. -/
def Around (memory : Memory sexpr.toSexpr) (node : Node sexpr) : Prop :=
  (∃ fidMap, node.memory = memory.named fidMap) ∧ node.multiSpace = false

/-- What a decoder does is done before the rest of the operation. -/
theorem perform_decode (next : SimpleProg sexpr) (work : CogWork sexpr.toSexpr) (node : Node sexpr)
    (space : server.Space) (reply : Str) : (decode next work).perform server node space reply =
      (work.apply node.memory).bind fun memory =>
        next.perform server { node with memory := memory } space reply := by
  induction work generalizing node with
  | done => rfl
  | insert request rest ih => exact ih node
  | touch change rest ih => exact ih node.memory { node with memory := change node.memory }
  | stuck => rfl

/-- Both storage nodes do the same to a server that is called directly. -/
theorem perform_plain {memory later : Memory sexpr.toSexpr} {node : Node sexpr}
    (around : Around memory node)
    {exchange : Exchange sexpr.toSexpr} (home : exchange.Home own) {space told : server.Space}
    (performed : Script.perform (S := cogSetting sexpr.toSexpr server)
      (CogStorage.script exchange.queued) memory space = some (later, told)) (reply : Str) :
    ∃ final, (CogSimpleStorage.prog own exchange.plain).perform server node space reply =
      some (final, told) ∧ Around later final := by
  obtain ⟨⟨fidMap, same⟩, one⟩ := around
  -- The value in a reply is set alike.
  have sets : ∀ (next : SimpleProg sexpr) msg pkt,
      (∀ node space reply, next.perform server node space reply = some (node, space)) →
      ((decodeValueHandler sexpr.toSexpr (server.run msg space).2 pkt).apply memory).bind
        (fun later => some (later, (server.run msg space).1)) = some (later, told) →
      ∃ final, (decode next (decodeValueHandler sexpr.toSexpr (server.run msg space).2 pkt)).perform
          server node (server.run msg space).1 (server.run msg space).2 = some (final, told) ∧
        Around later final := by
    intro next msg pkt ends set
    obtain ⟨after, applied, pair⟩ := Option.bind_eq_some_iff.mp set
    obtain ⟨rfl, rfl⟩ := Prod.mk.inj (Option.some.inj pair)
    refine ⟨{ node with memory := after.named fidMap }, ?_, ⟨fidMap, rfl⟩, one⟩
    rw [perform_decode, same, apply_decodeValueHandler applied]
    exact ends _ _ _
  cases exchange with
  | storeAtom h =>
      obtain ⟨rfl, rfl⟩ := Prod.mk.inj (Option.some.inj performed)
      refine ⟨node, (perform_storeAtom one (Or.inr home) _ space reply).trans ?_, ⟨fidMap, same⟩, one⟩
      rw [same]
      rfl
  | setProxy h =>
      obtain ⟨rfl, rfl⟩ := Prod.mk.inj (Option.some.inj performed)
      refine ⟨node, (perform_storeAtom one (Or.inr home) _ space reply).trans ?_, ⟨fidMap, same⟩, one⟩
      rw [same]
      rfl
  | storeValue h key =>
      obtain ⟨rfl, rfl⟩ := Prod.mk.inj (Option.some.inj performed)
      have few : decide (h.getAtomSpace ≠ own) = false := decide_eq_false (not_not.mpr home)
      refine ⟨node, (perform_tellFrame one few _ space reply).trans ?_, ⟨fidMap, same⟩, one⟩
      simp only [Simple.read, Prog.perform, id, one, same]
      rfl
  | updateValue h key delta =>
      obtain ⟨rfl, rfl⟩ := Prod.mk.inj (Option.some.inj performed)
      have few : decide (h.getAtomSpace ≠ own) = false := decide_eq_false (not_not.mpr home)
      refine ⟨node, (perform_tellFrame one few _ space reply).trans ?_, ⟨fidMap, same⟩, one⟩
      simp only [Simple.read, Prog.perform, id, one]
      rfl
  | loadValue h key => exact sets (.unlock (.exit .returned)) _ _ (fun _ _ _ => rfl) performed
  | runQuery query key view fresh => exact sets _ _ _ (fun _ _ _ => rfl) performed
  | removeAtom h recursive =>
      obtain ⟨rfl, rfl⟩ := Prod.mk.inj (Option.some.inj performed)
      exact ⟨node, rfl, ⟨fidMap, same⟩, one⟩
  | proxyOpen =>
      obtain ⟨rfl, rfl⟩ := Prod.mk.inj (Option.some.inj performed)
      exact ⟨node, rfl, ⟨fidMap, same⟩, one⟩
  | killData =>
      obtain ⟨rfl, rfl⟩ := Prod.mk.inj (Option.some.inj performed)
      refine ⟨_, rfl, ⟨sexpr.clearFid, ?_⟩, rfl⟩
      change node.memory.named sexpr.clearFid = _
      rw [same]
      rfl

/-- One operation after the other. -/
theorem performAll_plain {exchanges : List (Exchange sexpr.toSexpr)}
    (homes : ∀ exchange ∈ exchanges, exchange.Home own) {memory later : Memory sexpr.toSexpr}
    {node : Node sexpr} (around : Around memory node) {space told : server.Space}
    (performed : (cogSetting sexpr.toSexpr server).performAll
      (exchanges.flatMap fun exchange => [exchange.queued, .barrier]) memory space = some (later, told)) :
    ∃ final, performAll (simpleClient sexpr own) server (exchanges.map plain) node space =
      some (final, told) ∧ Around later final := by
  induction exchanges generalizing memory node space with
  | nil =>
      obtain ⟨rfl, rfl⟩ := Prod.mk.inj (Option.some.inj performed)
      exact ⟨node, rfl, around⟩
  | cons exchange exchanges ih =>
      obtain ⟨⟨middle, between⟩, first, rest⟩ := Option.bind_eq_some_iff.mp performed
      obtain ⟨last, plain, near⟩ := perform_plain around (homes exchange List.mem_cons_self) first []
      obtain ⟨final, after, ends⟩ :=
        ih (fun other inside => homes other (List.mem_cons_of_mem _ inside)) near rest
      refine ⟨final, ?_, ends⟩
      exact Option.bind_eq_some_iff.mpr ⟨(last, between), plain, after⟩

end Plain

end Exchange

variable {sexpr : FrameSexpr} {server : Server} {own : Option SpaceId} {thread user : ThreadId}

section Runs

/-- A server that keeps the texts it is told, and answers each with the same value. -/
def Server.keeping : Server :=
  ⟨List Str, fun text told => (told ++ [text], bytes "(StringValue \"v\")\n")⟩

def kept : Handle plainFrames.toSexpr := ⟨.node .concept (bytes "a"), .loose 0⟩

def keptKey : Handle plainFrames.toSexpr := ⟨.node .predicate (bytes "k"), .loose 1⟩

/-- A value is fetched, and stored again with the Atom. -/
def loadStore : List (Exchange plainFrames.toSexpr) := [.loadValue kept keptKey, .storeAtom kept]

/-- The second message is on the socket of another worker, behind the blocks of the first barrier. -/
def loadStoreQueued : List (Action (cogSetting plainFrames.toSexpr .keeping)) :=
  [.start 0 (.loadValue kept keptKey), .advance 0, .advance 0, .advance 0, .start 0 .barrier,
    .barrier 0 7, .take 2 0, .send 2, .serve (.worker 2), .receive 2, .work 2, .work 2, .drain 0,
    .block 0 0, .block 1 0, .block 2 0, .block 3 0, .finish 0, .advance 0, .start 0 (.storeAtom kept),
    .advance 0, .advance 0, .advance 0, .advance 0, .start 0 .barrier, .barrier 0 8, .take 1 1, .send 1,
    .arrive (.worker 0), .arrive (.worker 1), .arrive (.worker 3), .arrive (.worker 2),
    .release 7 [.worker 0, .worker 1, .worker 2, .worker 3], .serve (.worker 1), .drain 0, .block 0 1,
    .block 1 1, .block 2 1, .block 3 1, .finish 0, .advance 0, .arrive (.worker 0), .arrive (.worker 1),
    .arrive (.worker 2), .arrive (.worker 3), .release 8 [.worker 0, .worker 1, .worker 2, .worker 3]]

def loadStorePlain : List (Simple.Action (simpleClient plainFrames none)) :=
  [.start 5 (.loadValue kept keptKey), .advance 5, .advance 5, .serve, .advance 5, .advance 5, .advance 5,
    .advance 5, .start 5 (.storeAtom kept), .advance 5, .advance 5, .advance 5, .advance 5, .serve,
    .advance 5, .advance 5]

/-- Both begin with a server that was told nothing. -/
def toldNothing : Config (cogSetting plainFrames.toSexpr .keeping) :=
  .initial 0 ([] : List Str) (Memory.empty ())

def toldNothingPlain : State (simpleClient plainFrames none) .keeping :=
  .initial ([] : List Str) ⟨Memory.empty (), false, []⟩

end Runs

end AtomSpaceCog
