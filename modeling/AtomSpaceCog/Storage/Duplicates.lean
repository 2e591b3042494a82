import AtomSpaceCog.Channel.Mirror
import AtomSpaceCog.Storage.Requests
import AtomSpaceCog.Sexpr.Plain

/-! # Stores and removals that are dropped

The messages of `storeAtom`, `storeValue` and `removeAtom` are dropped while an equal one is
pending. Between two barriers nothing comes of it: what the server does with the messages that
are left it could also have done with all of them, if it does not matter to it whether it gets
one of them once or twice.
-/

namespace AtomSpaceCog

open Transition

variable {sexpr : Sexpr} {server : Server}

/-- The operations whose messages may be dropped. -/
def CogOp.Stores : CogOp sexpr → Prop
  | .storeAtom _ | .storeValue _ _ | .removeAtom _ _ => True
  | _ => False

/-- The server is the same after the second of two messages as after the first. -/
def Server.Idempotent (server : Server) (text : Str) : Prop :=
  ∀ space, (server.run text (server.run text space).1).1 = (server.run text space).1

/-- No reply to a store or a removal is looked at. -/
theorem harmless_of_asks {op : CogOp sexpr} (stores : op.Stores)
    {request : Request (cogSignature sexpr)} (asks : op.Asks request)
    (idempotent : server.Idempotent request.text) (counter : UInt64) :
    Msg.Harmless (S := cogSetting sexpr server) (request.toMsg counter).1 where
  silent reply := by
    cases op with
    | storeAtom h =>
        obtain ⟨values, rfl⟩ := asks
        simp only [Config.callback, Request.toMsg, Msg.make_client]
    | storeValue h key =>
        obtain ⟨value, rfl⟩ := asks
        simp only [Config.callback, Request.toMsg, Msg.make_client]
    | removeAtom h recursive =>
        obtain rfl := asks
        simp only [Config.callback, Request.toMsg, noop, enqueue, Msg.make_client, Msg.make_callback]
        rfl
    | _ => exact stores.elim
  idempotent space := by
    rw [Request.toMsg_strToSend]
    exact idempotent space

/-- The scripts of stores and removals do nothing but that. -/
theorem script_stores {op : CogOp sexpr} (stores : op.Stores)
    (idempotent : ∀ request, op.Asks request → server.Idempotent request.text) :
    Script.Stores (S := cogSetting sexpr server) (CogStorage.script op) := by
  have harmless : ∀ request, op.Asks request → ∀ counter,
      Msg.Harmless (S := cogSetting sexpr server) (request.toMsg counter).1 :=
    fun request asks => harmless_of_asks stores asks (idempotent request asks)
  cases op with
  | storeAtom h | storeValue h key =>
      intro isOpen
      cases isOpen
      · trivial
      · exact fun memory => ⟨harmless _ ⟨_, rfl⟩, trivial⟩
  | removeAtom h recursive =>
      intro isOpen
      cases isOpen
      · trivial
      · exact ⟨harmless _ rfl, trivial⟩
  | _ => exact stores.elim

/-- A server whose state is reached with the stores and removals between two barriers, from any
threads, is reached with the same calls when no message is dropped. -/
theorem duplicates_harmless
    (idempotent : ∀ (op : CogOp sexpr) (request : Request (cogSignature sexpr)),
      op.Stores → op.Asks request → server.Idempotent request.text)
    {counter : UInt64} {space : server.Space} {locals : Memory sexpr}
    {earlier actions : List (Action (cogSetting sexpr server))}
    {before final : Config (cogSetting sexpr server)}
    (reached : exec Config.step (Config.initial counter space locals) earlier = some before)
    (rested : before.Rested) (stores : ∀ thread op, .start thread op ∈ actions → op.Stores)
    (run : exec Config.step before actions = some final) :
    ∃ others kept, exec Config.keep before others = some kept ∧
      others.filter Action.ofProgram = actions.filter Action.ofProgram ∧
      kept.asked = final.asked ∧ kept.space = final.space ∧ (final.Settled → kept.Settled) := by
  have known : before.Census ∧ before.Wired ∧ before.Counted ∧ before.Paired := by
    refine exec_invariant (fun s => s.Census ∧ s.Wired ∧ s.Counted ∧ s.Paired) ?_
      ⟨Config.census_initial (S := cogSetting sexpr server) counter space locals,
        Config.wired_initial (S := cogSetting sexpr server) counter space locals,
        Config.counted_initial (S := cogSetting sexpr server) counter space locals,
        Config.paired_initial (S := cogSetting sexpr server) counter space locals⟩ reached
    intro s action next known taken
    obtain ⟨census, wired, counted, paired⟩ := known
    exact ⟨census.step taken, wired.step (Config.wireStep_of_step taken),
      counted.step wired (Config.wireStep_of_step taken), paired.step taken⟩
  obtain ⟨census, wired, counted, paired⟩ := known
  have all : ∀ action ∈ actions, action.Stores := by
    intro action member
    cases action with
    | start thread op =>
        have store := stores thread op member
        exact script_stores store fun request => idempotent op request store
    | _ => trivial
  obtain ⟨others, kept, follows, same, still⟩ :=
    Config.exists_follows rested census wired counted paired all run
  exact ⟨others, kept, follows, same, still.mirrors.asked, still.mirrors.space, still.settled⟩

section Runs

/-- What was told, once. -/
def note (text : Str) (told : List Str) : List Str := if text ∈ told then told else told ++ [text]

theorem note_note (text : Str) (told : List Str) : note text (note text told) = note text told := by
  refine if_pos ?_
  unfold note
  split
  · next known => exact known
  · exact List.mem_append_right told List.mem_cons_self

/-- A server that keeps what it was told. -/
def Server.noting : Server := ⟨List Str, fun text told => (note text told, bytes "#t\n")⟩

/-- No Atoms, no values, an empty queue and a server that was told nothing. -/
def untold : Config (cogSetting plain .noting) := Config.initial 0 [] (Memory.empty ())

/-- A thread calls `storeAtom` of the Concept `a`. -/
def noteStore (thread : ThreadId) : List (Action (cogSetting plain .noting)) :=
  [.start thread (.storeAtom ⟨.node .concept (bytes "a"), .loose 0⟩), .advance thread,
    .advance thread, .advance thread, .advance thread]

/-- Two threads store the Atom, and the second message is dropped. -/
def storeTwice : List (Action (cogSetting plain .noting)) :=
  noteStore 0 ++ noteStore 1 ++ [.take 0 0, .send 0, .serve (.worker 0)]

theorem duplicates_harmless_twice :
    ∃ final, exec Config.step untold storeTwice = some final ∧
      ∃ others kept, exec Config.keep untold others = some kept ∧
        others.filter Action.ofProgram = storeTwice.filter Action.ofProgram ∧
        kept.asked = final.asked ∧ kept.space = final.space ∧ (final.Settled → kept.Settled) := by
  have rested : untold.Rested := by
    refine ⟨fun _ => rfl, rfl, fun _ => rfl, ?_⟩
    intro blocking
    obtain ⟨number, below, -⟩ := blocking
    exact absurd below (Nat.not_lt_zero number)
  have idempotent : ∀ text, Server.noting.Idempotent text := note_note
  refine ⟨_, rfl, duplicates_harmless (fun _ request _ _ => idempotent request.text)
    (show exec Config.step untold [] = some untold from rfl) rested ?_ rfl⟩
  intro thread op member
  simp only [storeTwice, noteStore, List.cons_append, List.nil_append, List.mem_cons, reduceCtorEq,
    Action.start.injEq, false_or, List.not_mem_nil, or_false] at member
  rcases member with ⟨-, rfl⟩ | ⟨-, rfl⟩ <;> trivial

end Runs

end AtomSpaceCog
