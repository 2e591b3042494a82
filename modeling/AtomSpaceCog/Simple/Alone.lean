import AtomSpaceCog.Simple.Snapshot
import AtomSpaceCog.Simple.Fetching

/-! # One thread by itself

What the operations of one thread do, one after the other, as a function of the state of the node
and of the server (`performAll`). A run of a thread that is alone on the socket does the same,
whenever the server gets to the messages (`performed_of_run`).
-/

namespace AtomSpaceCog.Simple

open Transition

variable {Local : Type}

/-- Carry out the rest of an operation on an open connection, with a server that is called directly;
none where it throws or never returns. -/
def Prog.perform (server : Server) :
    Prog Local → Local → server.Space → Str → Option (Local × server.Space)
  | .exit _, state, space, _ => some (state, space)
  | .touch change next, state, space, reply => (next state).perform server (change state) space reply
  | .connected next, state, space, reply => (next true).perform server state space reply
  | .lock next, state, space, reply => next.perform server state space reply
  | .unlock next, state, space, reply => next.perform server state space reply
  | .send msg next, state, space, _ =>
      next.perform server state (server.run msg space).1 (server.run msg space).2
  | .recv next, state, space, reply => (next reply).perform server state space reply
  | .closeSocket next, state, space, reply => next.perform server state space reply
  | .clearSocket next, state, space, reply => next.perform server state space reply
  | .stuck, _, _, _ => none

/-- Questions leave the server as it is, and so an operation that only asks is carried out with the
replies of one state. -/
theorem Prog.Asks.perform {server : Server} {Good : Str → Prop} {prog : Prog Local}
    (asks : prog.Asks Good) {space : server.Space}
    (still : ∀ msg, Good msg → (server.run msg space).1 = space) (state : Local) (latest : Str) :
    prog.perform server state space (server.run latest space).2 =
      (prog.run (fun msg => (server.run msg space).2) state latest).map fun final => (final, space) := by
  induction prog generalizing state latest with
  | exit how | stuck => rfl
  | touch change next ih => exact ih state (asks state) (change state) latest
  | connected next ih => exact ih true (asks true) state latest
  | unlock next ih =>
      obtain ⟨how, rfl⟩ := asks
      rfl
  | send msg next ih =>
      rw [Prog.perform, still msg asks.1]
      exact ih asks.2 state msg
  | recv next ih => exact ih _ (asks _) state latest
  | lock | closeSocket | clearSocket => exact asks.elim

section Machine

variable {client : Client} {server : Server}

/-- Carry out operations one after the other. -/
def performAll (client : Client) (server : Server) :
    List client.Op → client.Local → server.Space → Option (client.Local × server.Space)
  | [], state, space => some (state, space)
  | op :: ops, state, space =>
      ((client.prog op).perform server state space []).bind fun final =>
        performAll client server ops final.1 final.2

/-- The operation that is called. -/
def Action.called : Action client → Option client.Op
  | .start _ op => some op
  | _ => none

/-- The thread goes on, or the server does. -/
def Action.OfThread (thread : ThreadId) : Action client → Prop
  | .start mover _ | .advance mover => mover = thread
  | .serve => True
  | .edit _ | .hangUp _ | .throw _ => False

namespace Direct

variable {d e : Direct client server} {action : Action client} {thread : ThreadId}

/-- What the operation that the thread is in has left to do. -/
def outcome (d : Direct client server) (thread : ThreadId) : Option (client.Local × server.Space) :=
  match d.thread thread with
  | .idle => some (d.locals, d.space)
  | .running _ latest prog => prog.perform server d.locals d.space ((latest.map Prod.snd).getD [])

theorem live_of_step (taken : d.step action = some e) (live : e.sock = .live) : d.sock = .live := by
  cases moves_of_step taken with
  | leave _ _ before | go _ _ _ before => exact before live
  | _ => exact live

/-- A step of the operation leaves its outcome as it is. -/
theorem outcome_advance (taken : d.step (.advance thread) = some e) (live : e.sock = .live) :
    e.outcome thread = d.outcome thread := by
  have before := live_of_step taken live
  simp only [step, advance] at taken
  split at taken
  · cases taken
  · next op latest prog here =>
      have ended : ∀ {how}, prog = .exit how → (d.leave thread).outcome thread = d.outcome thread := by
        rintro how rfl
        rw [outcome, leave_self, outcome, here]
        rfl
      -- The thread goes on with the rest of its operation.
      have goes : ∀ {sock holder locals space heard rest later},
          prog.perform server d.locals d.space ((latest.map Prod.snd).getD []) =
            rest.perform server locals space ((later.map Prod.snd).getD []) →
          (setThread ⟨sock, holder, d.thread, space, locals, heard⟩ thread
            (.running op later rest) : Direct client server).outcome thread = d.outcome thread := by
        intro sock holder locals space heard rest later same
        rw [outcome, setThread_self, outcome, here]
        exact same.symm
      cases prog with
      | exit how => exact Option.some.inj taken ▸ ended rfl
      | touch change rest => exact Option.some.inj taken ▸ goes rfl
      | connected rest =>
          refine Option.some.inj taken ▸ goes ?_
          rw [before]
          rfl
      | lock rest =>
          dsimp only at taken
          split at taken
          · exact Option.some.inj taken ▸ goes rfl
          · cases taken
      | unlock rest => exact Option.some.inj taken ▸ goes rfl
      | send msg rest =>
          dsimp only at taken
          rw [if_pos before] at taken
          exact Option.some.inj taken ▸ goes rfl
      | recv rest =>
          dsimp only at taken
          split at taken
          · cases taken
          · exact Option.some.inj taken ▸ goes rfl
      | closeSocket rest => exact Option.some.inj taken ▸ goes rfl
      | clearSocket rest => exact Option.some.inj taken ▸ goes rfl
      | stuck => cases taken

theorem live_of_exec {actions : List (Action client)}
    (run : Transition.exec Direct.step d actions = some e)
    (live : e.sock = .live) : d.sock = .live := by
  induction actions generalizing d with
  | nil => exact Option.some.inj run ▸ live
  | cons action actions ih =>
      obtain ⟨next, taken, rest⟩ := exec_cons_eq_some.mp run
      exact live_of_step taken (ih rest)

/-- The operations that a thread calls are carried out one after the other. -/
theorem performed_of_exec {actions : List (Action client)}
    (alone : ∀ action ∈ actions, action.OfThread thread)
    (run : Transition.exec Direct.step d actions = some e) (live : e.sock = .live)
    (idle : e.thread thread = .idle) : ((d.outcome thread).bind fun final =>
      performAll client server (actions.filterMap Action.called) final.1 final.2) =
        some (e.locals, e.space) := by
  induction actions generalizing d with
  | nil =>
      obtain rfl := Option.some.inj run
      rw [outcome, idle]
      rfl
  | cons action actions ih =>
      obtain ⟨next, taken, rest⟩ := exec_cons_eq_some.mp run
      have mine := alone action List.mem_cons_self
      have later := ih (fun action member => alone action (List.mem_cons_of_mem _ member)) rest
      cases action with
      | serve => cases taken
      | edit | hangUp | throw => exact mine.elim
      | advance mover =>
          obtain rfl : mover = thread := mine
          rw [outcome_advance taken (live_of_exec rest live)] at later
          exact later
      | start mover op =>
          obtain rfl : mover = thread := mine
          simp only [step, start] at taken
          split at taken
          · next here =>
              obtain rfl := Option.some.inj taken
              rw [outcome, setThread_self] at later
              rw [outcome, here]
              exact later
          · cases taken

end Direct

namespace State

variable {s next : State client server} {action : Action client} {thread : ThreadId}

/-- The other threads are in no operation. -/
def OthersIdle (thread : ThreadId) (s : State client server) : Prop :=
  ∀ other ≠ thread, s.thread other = .idle

theorem OthersIdle.step (others : s.OthersIdle thread) (own : action.OfThread thread)
    (taken : s.step action = some next) : next.OthersIdle thread := by
  -- Nobody else is running, and so nobody else moves.
  have moved : ∀ {mover : ThreadId} {before status : Status client}, s.thread mover = before →
      before ≠ .idle ∨ mover = thread → next.thread = Function.update s.thread mover status →
        next.OthersIdle thread := by
    intro mover before status here busy threads other different
    have own : mover = thread := by
      refine busy.elim (fun busy => ?_) id
      by_contra another
      exact busy (here.symm.trans (others mover another))
    rw [threads, own, Function.update_of_ne different]
    exact others other different
  cases strides_of_step taken with
  | @start mover op begins here threads =>
      subst begins
      exact moved here (Or.inr own) threads
  | edit _ threads | serve _ threads => exact fun other different => threads ▸ others other different
  | leave here threads | turn here threads =>
      exact moved here (Or.inl fun no => by cases no) threads

/-- A thread that is alone on the socket sends nothing while another one waits. -/
theorem alone_of_thread {free : client.Op → Bool} {space : server.Space} {locals : client.Local}
    {actions : List (Action client)} (alone : ∀ action ∈ actions, action.OfThread thread) :
    Meets State.step (State.Alone free) (State.initial space locals : State client server) actions := by
  refine Meets.strengthen (OthersIdle thread) (fun own others taken => others.step own taken)
    (fun {s action} own others => ?_) (meets_of_forall alone) fun _ _ => rfl
  intro mover op latest msg rest advances here _ other op' latest' waits
  obtain ⟨later, there⟩ := waits
  subst advances
  obtain rfl : mover = thread := own
  by_cases same : other = mover
  · subst same
    rw [here] at there
    cases there
  · rw [others other same] at there
    cases there

end State

end Machine

/-- A thread that is alone on the socket carries out its operations one after the other, and the
server is, or will be, in the state that they leave. -/
theorem performed_of_run {sexpr : FrameSexpr} {own : Option SpaceId} {server : Server}
    {space : server.Space} {node : Node sexpr} {actions : List (Action (simpleClient sexpr own))}
    {s : State (simpleClient sexpr own) server} {thread : ThreadId}
    (run : exec State.step (State.initial space node) actions = some s)
    (alone : ∀ action ∈ actions, action.OfThread thread) (idle : s.thread thread = .idle)
    (live : s.sock = .live) :
    performAll (simpleClient sexpr own) server (actions.filterMap Action.called) node space =
      some (s.locals, s.caughtUp.1) := by
  obtain ⟨d, direct, agrees⟩ :=
    State.Agrees.exists_of_run (orderly_prog own) (State.alone_of_thread alone) run
  have performed := Direct.performed_of_exec
    (fun action member => alone action (List.mem_of_mem_filter member)) direct
    (agrees.sock.trans live) (agrees.idle idle)
  rw [agrees.locals, agrees.space] at performed
  rw [← performed]
  -- The steps of the server are no calls.
  have same : (actions.filter Action.ofThreads).filterMap Action.called =
      actions.filterMap Action.called := by
    rw [List.filterMap_filter]
    congr 1
    funext action
    cases action <;> rfl
  rw [same]
  rfl

section Frames

variable {sexpr : FrameSexpr} {own : Option SpaceId} {server : Server} {node : Node sexpr}
  {h : Handle sexpr.toSexpr}

/-- With one AtomSpace, the server is told nothing of frames. -/
theorem perform_tellFrame (one : node.multiSpace = false) {several : Bool} (few : several = false)
    (next : SimpleProg sexpr) (space : server.Space) (reply : Str) :
    (CogSimpleStorage.tellFrame several h next).perform server node space reply =
      next.perform server node space reply := by
  obtain ⟨memory, multiSpace, frames⟩ := node
  obtain rfl : multiSpace = false := one
  rw [few]
  rfl

/-- Then `storeAtom` is one message. -/
theorem perform_storeAtom (one : node.multiSpace = false) (within : own = none ∨ h.getAtomSpace = own)
    (next : SimpleProg sexpr) (space : server.Space) (reply : Str) :
    (CogSimpleStorage.storeAtom own h next).perform server node space reply =
      next.perform server node
        (server.run (AtomSpaceCog.storeAtomText (node.memory.values h) h.atom) space).1
        (server.run (AtomSpaceCog.storeAtomText (node.memory.values h) h.atom) space).2 := by
  have few : decide (own ≠ none ∧ h.getAtomSpace ≠ own) = false := by
    rcases within with rfl | same
    · simp
    · simp [same]
  rw [CogSimpleStorage.storeAtom, perform_tellFrame one few, AtomSpaceCog.storeAtomText]
  by_cases values : node.memory.values h ≠ []
  · simp only [read, Prog.perform, id, if_pos values, one]
    rfl
  · simp only [read, Prog.perform, id, if_neg values, one]
    rfl

end Frames

end AtomSpaceCog.Simple
