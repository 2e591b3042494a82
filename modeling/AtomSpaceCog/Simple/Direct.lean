import AtomSpaceCog.Simple.Pairing

/-! # A server that is called like a function

The threads of a `CogSimpleStorage` with a server that executes a message in the moment in which
it is sent, and has the reply at hand. Stores are told to the real server without waiting, and it
executes them some time later; but no thread can tell it from such a server.
-/

namespace AtomSpaceCog.Simple

open Transition

variable {client : Client} {server : Server}

/-- A message and the reply to it. -/
structure Heard where
  thread : ThreadId
  question : Str
  reply : Str
deriving DecidableEq

namespace Direct

/-- A thread, with the message that its operation sent last and the reply to it. -/
inductive Status (client : Client) where
  | idle
  | running (op : client.Op) (latest : Option (Str × Str)) (prog : Prog client.Local)

end Direct

/-- The threads, the mutex, the socket, and a server that is called directly. -/
structure Direct (client : Client) (server : Server) where
  sock : Sock
  holder : Option ThreadId
  thread : ThreadId → Direct.Status client
  space : server.Space
  locals : client.Local
  /-- The replies that were read. -/
  heard : List Heard

namespace Direct

/-- An open connection. -/
def initial (space : server.Space) (locals : client.Local) : Direct client server where
  sock := .live
  holder := none
  thread := fun _ => .idle
  space := space
  locals := locals
  heard := []

variable (d : Direct client server)

def setThread (thread : ThreadId) (status : Status client) : Direct client server :=
  { d with thread := Function.update d.thread thread status }

/-- The mutex after a thread has let go of it. -/
def released (thread : ThreadId) : Option ThreadId :=
  if d.holder = some thread then none else d.holder

/-- The operation ends; its `lock_guard` is destroyed. -/
def leave (thread : ThreadId) : Direct client server :=
  { d with holder := d.released thread }.setThread thread .idle

/-- The socket after it was closed, if it was open. -/
def shutSock (closed : Sock) : Sock := if d.sock = .live then closed else d.sock

def start (thread : ThreadId) (op : client.Op) : Option (Direct client server) :=
  match d.thread thread with
  | .idle => some (d.setThread thread (.running op none (client.prog op)))
  | .running _ _ _ => none

def advance (thread : ThreadId) : Option (Direct client server) :=
  match d.thread thread with
  | .idle => none
  | .running op latest prog =>
      match prog with
      | .exit _ => some (d.leave thread)
      | .touch change next =>
          some ({ d with locals := change d.locals }.setThread thread
            (.running op latest (next d.locals)))
      | .connected next => some (d.setThread thread (.running op latest (next (d.sock ≠ .unset))))
      | .lock next =>
          if d.holder = none then
            some ({ d with holder := some thread }.setThread thread (.running op latest next))
          else none
      | .unlock next =>
          some ({ d with holder := d.released thread }.setThread thread (.running op latest next))
      | .send msg next =>
          if d.sock = .live then
            let (space, reply) := server.run msg d.space
            some ({ d with space := space }.setThread thread
              (.running op (some (msg, reply)) next))
          else some (d.leave thread)
      | .recv next =>
          match latest with
          | none => none
          | some (question, reply) =>
              some ({ d with heard := d.heard ++ [Heard.mk thread question reply] }.setThread thread
                (.running op latest (next reply)))
      | .closeSocket next => some ({ d with sock := d.shutSock .shut }.setThread thread
          (.running op latest next))
      | .clearSocket next =>
          some ({ d with sock := .unset }.setThread thread (.running op latest next))
      | .stuck => none

def hangUp (thread : ThreadId) : Option (Direct client server) :=
  match d.thread thread with
  | .running _ _ (.recv _) => some ({ d with sock := d.shutSock .unset }.leave thread)
  | _ => none

def throw (thread : ThreadId) : Option (Direct client server) :=
  match d.thread thread with
  | .running _ _ .stuck => some (d.leave thread)
  | _ => none

/-- One step of a thread; the server has nothing to do of its own. -/
def step (d : Direct client server) : Action client → Option (Direct client server)
  | .start thread op => d.start thread op
  | .edit change => some { d with locals := change d.locals }
  | .advance thread => d.advance thread
  | .hangUp thread => d.hangUp thread
  | .throw thread => d.throw thread
  | .serve => none

end Direct

/-- What the server makes of the messages on the socket: its state, and the replies. -/
def catchUp (server : Server) : List Sent → server.Space → List Answer → server.Space × List Answer
  | [], space, outbox => (space, outbox)
  | sent :: rest, space, outbox =>
      catchUp server rest (server.run sent.text space).1
        (if sent.replies then outbox ++ [⟨(server.run sent.text space).2, sent⟩] else outbox)

theorem catchUp_append (inbox more : List Sent) (space : server.Space) (outbox : List Answer) :
    catchUp server (inbox ++ more) space outbox =
      catchUp server more (catchUp server inbox space outbox).1 (catchUp server inbox space outbox).2 := by
  induction inbox generalizing space outbox with
  | nil => rfl
  | cons sent inbox ih => exact ih _ _

/-- The replies that are there already stay in front. -/
theorem catchUp_outbox (inbox : List Sent) (space : server.Space) (outbox : List Answer) :
    catchUp server inbox space outbox =
      ((catchUp server inbox space []).1, outbox ++ (catchUp server inbox space []).2) := by
  induction inbox generalizing space outbox with
  | nil => simp [catchUp]
  | cons sent inbox ih =>
      rw [catchUp, catchUp, ih, ih _ (if sent.replies then _ else _)]
      split <;> simp

theorem catchUp_answers (inbox : List Sent) (space : server.Space) (outbox : List Answer) :
    (catchUp server inbox space outbox).2.map Answer.answers =
      outbox.map Answer.answers ++ inbox.filter Sent.replies := by
  induction inbox generalizing space outbox with
  | nil => simp [catchUp]
  | cons sent inbox ih =>
      rw [catchUp, ih]
      cases replies : sent.replies <;> simp [replies]

/-- What was read, without the numbers of the messages. -/
def Receipt.heard (receipt : Receipt) : Heard :=
  ⟨receipt.thread, receipt.answer.answers.text, receipt.answer.text⟩

/-- The thread does the same with both servers; if it waits, then for the reply that it will
get. -/
def Status.Agrees (replies : List Answer) : Status client → Direct.Status client → Prop
  | .idle, .idle => True
  | .running op _ prog, .running op' latest prog' => op = op' ∧ prog = prog' ∧
      (prog.awaits = true → ∃ answer, replies = [answer] ∧
        latest = some (answer.answers.text, answer.text))
  | _, _ => False

namespace State

variable (s : State client server)

/-- What the server will have made of the messages that were sent. -/
def caughtUp : server.Space × List Answer := catchUp server s.inbox s.space s.outbox

/-- The two servers cannot be told apart. -/
structure Agrees (s : State client server) (d : Direct client server) : Prop where
  sock : d.sock = s.sock
  holder : d.holder = s.holder
  threads : ∀ thread, (s.thread thread).Agrees s.caughtUp.2 (d.thread thread)
  locals : d.locals = s.locals
  heard : d.heard = s.received.map Receipt.heard
  /-- The server called directly is ahead by the messages on the socket. -/
  space : d.space = s.caughtUp.1

theorem agrees_initial (space : server.Space) (locals : client.Local) :
    (State.initial space locals : State client server).Agrees (Direct.initial space locals) where
  sock := rfl
  holder := rfl
  threads _ := trivial
  locals := rfl
  heard := rfl
  space := rfl

variable {s} {next : State client server} {d e : Direct client server} {action : Action client}
  {free : client.Op → Bool}

/-- What was answered or will be. -/
theorem answers_caughtUp : s.caughtUp.2.map Answer.answers = s.owed :=
  catchUp_answers s.inbox s.space s.outbox

theorem caughtUp_send (thread : ThreadId) (status : Status client) (message : Sent) :
    ({ s with sent := s.sent + 1, inbox := s.inbox ++ [message] }.setThread thread status).caughtUp =
      ((server.run message.text s.caughtUp.1).1, s.caughtUp.2 ++
        if message.replies then [⟨(server.run message.text s.caughtUp.1).2, message⟩] else []) := by
  refine (catchUp_append s.inbox [message] s.space s.outbox).trans ?_
  rw [catchUp, catchUp, caughtUp]
  split <;> simp

namespace Agrees

/-- The thread is at the same place with the server that is called directly. -/
theorem running (agrees : s.Agrees d) {thread : ThreadId} {op : client.Op} {latest : Option Sent}
    {prog : Prog client.Local} (here : s.thread thread = .running op latest prog) :
    ∃ heard, d.thread thread = .running op heard prog ∧ (prog.awaits = true →
      ∃ answer, s.caughtUp.2 = [answer] ∧
        heard = some (answer.answers.text, answer.text)) := by
  have own := agrees.threads thread
  rw [here] at own
  cases there : d.thread thread with
  | idle =>
      rw [there] at own
      exact own.elim
  | running op' heard prog' =>
      rw [there] at own
      obtain ⟨rfl, rfl, waits⟩ := own
      exact ⟨heard, rfl, waits⟩

theorem idle (agrees : s.Agrees d) {thread : ThreadId} (here : s.thread thread = .idle) :
    d.thread thread = .idle := by
  have own := agrees.threads thread
  rw [here] at own
  cases there : d.thread thread with
  | idle => rfl
  | running =>
      rw [there] at own
      exact own.elim

/-- A thread moves; the replies to come stay the same, or nobody else waits for one. -/
theorem move (agrees : s.Agrees d) {thread : ThreadId} {status : Status client}
    {after : Direct.Status client} (threads : next.thread = Function.update s.thread thread status)
    (twins : e.thread = Function.update d.thread thread after)
    (kept : next.caughtUp.2 = s.caughtUp.2 ∨
      ∀ other ≠ thread, ∀ op latest, ¬ s.Waits other op latest)
    (own : status.Agrees next.caughtUp.2 after) (other : ThreadId) :
    (next.thread other).Agrees next.caughtUp.2 (e.thread other) := by
  rw [threads, twins]
  by_cases same : other = thread
  · subst same
    rwa [Function.update_self, Function.update_self]
  · rw [Function.update_of_ne same, Function.update_of_ne same]
    have before := agrees.threads other
    rcases kept with equal | nobody
    · rwa [equal]
    · cases here : s.thread other with
      | idle =>
          rw [here] at before
          cases there : d.thread other with
          | idle => trivial
          | running =>
              rw [there] at before
              exact before.elim
      | running op latest prog =>
          obtain ⟨heard, there, -⟩ := agrees.running here
          rw [there]
          refine ⟨rfl, rfl, fun awaits => ?_⟩
          cases prog with
          | recv rest => exact absurd ⟨rest, here⟩ (nobody other same op latest)
          | _ => cases awaits

/-- A thread goes on and does not wait; nothing was sent or read. -/
theorem go (agrees : s.Agrees d) {thread : ThreadId} {op : client.Op} {latest : Option Sent}
    (heard : Option (Str × Str)) {rest : Prog client.Local} (quiet : rest.awaits = false)
    (threads : next.thread = Function.update s.thread thread (.running op latest rest))
    (twins : e.thread = Function.update d.thread thread (.running op heard rest))
    (caught : next.caughtUp = s.caughtUp) (other : ThreadId) :
    (next.thread other).Agrees next.caughtUp.2 (e.thread other) := by
  refine agrees.move threads twins (Or.inl (by rw [caught])) ⟨rfl, rfl, fun awaits => ?_⟩ other
  rw [quiet] at awaits
  cases awaits

theorem released (agrees : s.Agrees d) (thread : ThreadId) : d.released thread = s.released thread := by
  rw [Direct.released, State.released, agrees.holder]

theorem shutSock (agrees : s.Agrees d) (closed : Sock) : d.shutSock closed = s.shutSock closed := by
  rw [Direct.shutSock, State.shutSock, agrees.sock]

/-- An operation ends with both servers. -/
theorem leave (agrees : s.Agrees d) (thread : ThreadId) : (s.leave thread).Agrees (d.leave thread) where
  sock := agrees.sock
  holder := agrees.released thread
  threads := agrees.move rfl rfl (Or.inl rfl) trivial
  locals := agrees.locals
  heard := agrees.heard
  space := agrees.space

theorem send (agrees : s.Agrees d) (settled : s.Settled free) {thread : ThreadId}
    (alone : s.Alone free (.advance thread)) {op : client.Op} {latest : Option Sent} {msg : Str}
    {rest : Prog client.Local}
    (here : s.thread thread = .running op latest (.send msg rest)) (live : s.sock = .live) :
    ({ s with
        sent := s.sent + 1
        inbox := s.inbox ++ [s.message thread msg rest.awaits] }.setThread thread
          (.running op (some (s.message thread msg rest.awaits)) rest)).Agrees
      ({ d with space := (server.run msg d.space).1 }.setThread thread
        (.running op (some (msg, (server.run msg d.space).2)) rest)) := by
  have caught := caughtUp_send (s := s) thread
    (.running op (some (s.message thread msg rest.awaits)) rest) (s.message thread msg rest.awaits)
  refine ⟨agrees.sock, agrees.holder, fun other => ?_, agrees.locals, agrees.heard, ?_⟩
  · cases awaits : rest.awaits with
    | false =>
        rw [awaits] at caught
        refine agrees.move rfl rfl (Or.inl ?_) ?_ other
        · rw [caught]
          exact List.append_nil _
        · refine ⟨rfl, rfl, fun waits => ?_⟩
          rw [awaits] at waits
          cases waits
    | true =>
        rw [awaits] at caught
        have nobody := nobody_waits settled.mannered alone rfl here awaits
        have none : s.caughtUp.2 = [] := by
          apply List.map_eq_nil_iff.mp
          rw [answers_caughtUp, settled.owing.quiet live nobody]
        refine agrees.move rfl rfl (Or.inr fun other _ => nobody other) ?_ other
        refine ⟨rfl, rfl, fun _ => ⟨⟨(server.run msg d.space).2, s.message thread msg true⟩, ?_, rfl⟩⟩
        rw [caught, none, agrees.space]
        rfl
  · rw [caught, agrees.space]
    rfl

theorem recv (agrees : s.Agrees d) (settled : s.Settled free) {thread : ThreadId} {op : client.Op}
    {latest : Option Sent} {rest : Str → Prog client.Local}
    (here : s.thread thread = .running op latest (.recv rest)) {answer : Answer} {replies : List Answer}
    (first : s.outbox = answer :: replies) : ∃ e, d.advance thread = some e ∧
      ({ s with
          outbox := replies
          received := s.received ++ [Receipt.mk thread latest answer] }.setThread thread
            (.running op latest (rest answer.text))).Agrees e := by
  obtain ⟨heard, there, waits⟩ := agrees.running here
  obtain ⟨only, one, rfl⟩ := waits rfl
  obtain ⟨-, mine, nothing⟩ := settled.owing.reads ⟨rest, here⟩ first
  obtain ⟨noReplies, noMessages⟩ := List.append_eq_nil_iff.mp nothing
  obtain rfl : only = answer := by
    rw [caughtUp, catchUp_outbox, first] at one
    exact (List.cons.inj one).1.symm
  obtain ⟨asked, own⟩ := settled.mannered.running here
  refine ⟨{ d with heard := d.heard ++ [Heard.mk thread only.answers.text only.text] }.setThread thread
    (.running op (some (only.answers.text, only.text)) (rest only.text)), ?_, ?_⟩
  · rw [Direct.advance, there]
  · refine ⟨agrees.sock, agrees.holder, ?_, agrees.locals, ?_, ?_⟩
    · refine agrees.move rfl rfl (Or.inr fun other different op' latest' waits => ?_) ?_
      · exact different ((settled.owing.reads waits first).2.1.symm.trans mine)
      · refine ⟨rfl, rfl, fun awaits => ?_⟩
        rw [(own.2.2 _).not_awaits] at awaits
        cases awaits
    · simp [Direct.setThread, State.setThread, agrees.heard, Receipt.heard]
    · -- The state of the server does not depend on the replies that are read.
      have same : ∀ outbox, (catchUp server s.inbox s.space outbox).1 =
          (catchUp server s.inbox s.space []).1 := fun outbox => by rw [catchUp_outbox]
      exact agrees.space.trans ((same _).trans (same _).symm)

/-- A thread goes on with both servers. -/
theorem advance (agrees : s.Agrees d) (settled : s.Settled free) {thread : ThreadId}
    (alone : s.Alone free (.advance thread)) (taken : s.advance thread = some next) :
    ∃ e, d.advance thread = some e ∧ next.Agrees e := by
  simp only [State.advance] at taken
  split at taken
  · cases taken
  · next op latest prog here =>
      obtain ⟨heard, there, -⟩ := agrees.running here
      obtain ⟨asked, own⟩ := settled.mannered.running here
      cases prog with
      | exit how =>
          obtain rfl := Option.some.inj taken
          refine ⟨d.leave thread, ?_, agrees.leave thread⟩
          rw [Direct.advance, there]
      | touch change rest =>
          obtain rfl := Option.some.inj taken
          refine ⟨{ d with locals := change d.locals }.setThread thread
            (.running op heard (rest d.locals)), ?_, agrees.sock, agrees.holder, ?_, ?_, agrees.heard,
              agrees.space⟩
          · rw [Direct.advance, there]
          · refine agrees.go heard (own s.locals).not_awaits rfl ?_ rfl
            rw [agrees.locals]
            rfl
          · exact congrArg change agrees.locals
      | connected rest =>
          obtain rfl := Option.some.inj taken
          refine ⟨d.setThread thread (.running op heard (rest (d.sock ≠ .unset))), ?_, agrees.sock,
            agrees.holder, ?_, agrees.locals, agrees.heard, agrees.space⟩
          · rw [Direct.advance, there]
          · refine agrees.go heard (own _).not_awaits rfl ?_ rfl
            rw [agrees.sock]
            rfl
      | lock rest =>
          dsimp only at taken
          split at taken
          · next unlocked =>
              obtain rfl := Option.some.inj taken
              have orderly : rest.Orderly (free op) true false := own
              refine ⟨{ d with holder := some thread }.setThread thread (.running op heard rest), ?_,
                agrees.sock, rfl, agrees.go heard orderly.not_awaits rfl rfl rfl, agrees.locals,
                  agrees.heard, agrees.space⟩
              rw [Direct.advance, there]
              dsimp only
              rw [if_pos (agrees.holder.trans unlocked)]
          · cases taken
      | unlock rest =>
          obtain rfl := Option.some.inj taken
          have orderly : rest.Orderly (free op) false false := own
          refine ⟨{ d with holder := d.released thread }.setThread thread (.running op heard rest), ?_,
            agrees.sock, agrees.released thread, agrees.go heard orderly.not_awaits rfl rfl rfl,
              agrees.locals, agrees.heard, agrees.space⟩
          rw [Direct.advance, there]
      | send msg rest =>
          dsimp only at taken
          split at taken
          · next live =>
              obtain rfl := Option.some.inj taken
              refine ⟨_, ?_, agrees.send settled alone here live⟩
              rw [Direct.advance, there]
              dsimp only
              rw [if_pos (agrees.sock.trans live)]
          · next dead =>
              obtain rfl := Option.some.inj taken
              refine ⟨d.leave thread, ?_, agrees.leave thread⟩
              rw [Direct.advance, there]
              dsimp only
              rw [if_neg (agrees.sock ▸ dead)]
      | recv rest =>
          dsimp only at taken
          split at taken
          · cases taken
          · next first =>
              obtain rfl := Option.some.inj taken
              exact agrees.recv settled here first
      | closeSocket rest =>
          obtain rfl := Option.some.inj taken
          have orderly : rest.Orderly (free op) _ false := own
          refine ⟨{ d with sock := d.shutSock .shut }.setThread thread (.running op heard rest), ?_,
            agrees.shutSock .shut, agrees.holder, agrees.go heard orderly.not_awaits rfl rfl rfl,
              agrees.locals, agrees.heard, agrees.space⟩
          rw [Direct.advance, there]
      | clearSocket rest =>
          obtain rfl := Option.some.inj taken
          have orderly : rest.Orderly (free op) _ false := own
          refine ⟨{ d with sock := .unset }.setThread thread (.running op heard rest), ?_, rfl,
            agrees.holder, agrees.go heard orderly.not_awaits rfl rfl rfl, agrees.locals, agrees.heard,
              agrees.space⟩
          rw [Direct.advance, there]
      | stuck => cases taken

/-- Whatever is done with the real server can be done with the one that is called directly. -/
theorem step (agrees : s.Agrees d) (settled : s.Settled free)
    (orderly : ∀ op, (client.prog op).Orderly (free op) false false) (alone : s.Alone free action)
    (taken : s.step action = some next) :
    action = .serve ∧ next.Agrees d ∨ action ≠ .serve ∧ ∃ e, d.step action = some e ∧ next.Agrees e := by
  cases action with
  | serve =>
      simp only [State.step, State.serve] at taken
      split at taken
      · cases taken
      · next sent rest first =>
          obtain rfl := Option.some.inj taken
          have caught : s.caughtUp = catchUp server (sent :: rest) s.space s.outbox := by
            rw [caughtUp, first]
          refine Or.inl ⟨rfl, agrees.sock, agrees.holder, fun thread => ?_, agrees.locals, agrees.heard, ?_⟩
          · have own := agrees.threads thread
            rwa [caught] at own
          · rw [agrees.space, caught]
            rfl
  | edit change =>
      obtain rfl := Option.some.inj taken
      refine Or.inr ⟨by simp, _, rfl, agrees.sock, agrees.holder, agrees.threads, ?_, agrees.heard,
        agrees.space⟩
      exact congrArg change agrees.locals
  | start thread op =>
      simp only [State.step, State.start] at taken
      split at taken
      · next here =>
          obtain rfl := Option.some.inj taken
          refine Or.inr ⟨by simp, d.setThread thread (.running op none (client.prog op)), ?_, agrees.sock,
            agrees.holder, ?_, agrees.locals, agrees.heard, agrees.space⟩
          · rw [Direct.step, Direct.start, agrees.idle here]
          · exact agrees.go none (orderly op).not_awaits rfl rfl rfl
      · cases taken
  | hangUp thread =>
      simp only [State.step, State.hangUp] at taken
      split at taken
      · next op latest rest here =>
          obtain rfl := Option.some.inj taken
          obtain ⟨heard, there, -⟩ := agrees.running here
          refine Or.inr ⟨by simp, { d with sock := d.shutSock .unset }.leave thread, ?_, ?_⟩
          · rw [Direct.step, Direct.hangUp, there]
          · have shut : ({ s with sock := s.shutSock .unset } : State client server).Agrees
                { d with sock := d.shutSock .unset } :=
              { agrees with sock := agrees.shutSock .unset }
            exact shut.leave thread
      · cases taken
  | throw thread =>
      simp only [State.step, State.throw] at taken
      split at taken
      · next op latest here =>
          obtain rfl := Option.some.inj taken
          obtain ⟨heard, there, -⟩ := agrees.running here
          refine Or.inr ⟨by simp, d.leave thread, ?_, agrees.leave thread⟩
          rw [Direct.step, Direct.throw, there]
      · cases taken
  | advance thread => exact Or.inr ⟨by simp, agrees.advance settled alone taken⟩

end Agrees

end State

/-- The steps other than those of the server. -/
def Action.ofThreads : Action client → Bool
  | .serve => false
  | _ => true

/-- With a server that is called directly, the server takes no steps. -/
theorem Direct.filter_of_exec {d e : Direct client server} {actions : List (Action client)}
    (run : exec Direct.step d actions = some e) : actions.filter Action.ofThreads = actions := by
  apply List.filter_eq_self.mpr
  induction actions generalizing d with
  | nil => exact fun action member => absurd member List.not_mem_nil
  | cons first actions ih =>
      obtain ⟨next, taken, rest⟩ := exec_cons_eq_some.mp run
      intro action member
      rcases List.mem_cons.mp member with rfl | later
      · cases action with
        | serve => cases taken
        | _ => rfl
      · exact ih rest action later

/-- The same steps of the threads lead to the same with both servers. -/
theorem State.Agrees.exec {free : client.Op → Bool} {s next : State client server}
    {d : Direct client server} (agrees : s.Agrees d) (settled : s.Settled free)
    (orderly : ∀ op, (client.prog op).Orderly (free op) false false) {actions : List (Action client)}
    (alone : Meets State.step (State.Alone free) s actions)
    (run : Transition.exec State.step s actions = some next) :
    ∃ e, Transition.exec Direct.step d (actions.filter Action.ofThreads) = some e ∧ next.Agrees e := by
  have matched : ∀ {s : State client server} {d : Direct client server} {action : Action client}
      {next : State client server}, s.Alone free action → s.Settled free ∧ s.Agrees d →
      s.step action = some next → ∃ actions e, Transition.exec Direct.step d actions = some e ∧
        actions.filter Action.ofThreads = [action].filter Action.ofThreads ∧
          (next.Settled free ∧ next.Agrees e) := by
    intro s d action next alone both taken
    obtain ⟨settled, agrees⟩ := both
    have later := settled.step orderly alone taken
    rcases agrees.step settled orderly alone taken with ⟨rfl, still⟩ | ⟨own, e, also, still⟩
    · exact ⟨[], d, rfl, rfl, later, still⟩
    · exact ⟨[action], e, exec_cons_eq_some.mpr ⟨e, also, rfl⟩, rfl, later, still⟩
  obtain ⟨others, e, also, same, -, still⟩ := exec_simulates Action.ofThreads
    (fun s d => s.Settled free ∧ s.Agrees d) matched alone ⟨settled, agrees⟩ run
  rw [Direct.filter_of_exec also] at same
  exact ⟨e, same ▸ also, still⟩

theorem State.Agrees.exists_of_run {free : client.Op → Bool}
    (orderly : ∀ op, (client.prog op).Orderly (free op) false false) {space : server.Space}
    {locals : client.Local} {actions : List (Action client)} {s : State client server}
    (alone : Meets State.step (State.Alone free) (State.initial space locals) actions)
    (run : Transition.exec State.step (State.initial space locals) actions = some s) :
    ∃ d, Transition.exec Direct.step (Direct.initial space locals) (actions.filter Action.ofThreads) =
      some d ∧ s.Agrees d :=
  (State.agrees_initial space locals).exec (State.settled_initial free space locals) orderly alone run

/-- In every run in which no message with a reply is sent while another operation waits for one, if
one of the two is `proxy_open`, `proxy_close` or `close`: the same steps of the threads lead to the
same state of the node, the same replies and the same places in the operations with a server that
executes each message when it is sent; and when the real server has executed all messages, it is
in the same state. -/
theorem direct_of_run {sexpr : FrameSexpr} {own : Option SpaceId} {server : Server}
    {space : server.Space} {node : Node sexpr} {actions : List (Action (simpleClient sexpr own))}
    {s : State (simpleClient sexpr own) server}
    (run : exec State.step (State.initial space node) actions = some s)
    (alone : Meets State.step (State.Alone SimpleOp.unlocked)
      (State.initial space node : State (simpleClient sexpr own) server) actions) :
    ∃ d : Direct (simpleClient sexpr own) server,
      exec Direct.step (Direct.initial space node) (actions.filter Action.ofThreads) = some d ∧
        s.Agrees d ∧ (s.inbox = [] → d.space = s.space) := by
  obtain ⟨d, also, still⟩ := State.Agrees.exists_of_run (orderly_prog own) alone run
  refine ⟨d, also, still, fun none => ?_⟩
  rw [still.space, State.caughtUp, none]
  rfl

/-- `storeAtom` of the Concept `a`, and a `loadValue` that another thread calls meanwhile; the server
executes the store when it is asked for the value. -/
def storeThenLoad : List (Action (simpleClient plainFrames none)) :=
  [.start 0 (.storeAtom ⟨.node .concept (bytes "a"), .loose 0⟩), .advance 0, .advance 0, .advance 0,
    .advance 0, .advance 0, .start 1 readCount, .advance 1, .advance 1, .serve, .advance 0, .serve,
    .advance 1]

theorem direct_of_run_store_load :
    ∃ s, exec State.step bare storeThenLoad = some s ∧ s.received.length = 1 ∧
      ∃ d : Direct (simpleClient plainFrames none) .valueless,
        exec Direct.step (Direct.initial () (⟨Memory.empty (), false, []⟩ : Node plainFrames))
          (storeThenLoad.filter Action.ofThreads) = some d ∧ s.Agrees d := by
  have locked : Meets State.step (State.Alone SimpleOp.unlocked) bare storeThenLoad := by
    refine State.alone_of_locked ?_
    simp [storeThenLoad, readCount, SimpleOp.unlocked]
  have run : ∃ s, exec State.step bare storeThenLoad = some s ∧ s.received.length = 1 := ⟨_, rfl, rfl⟩
  obtain ⟨s, run, one⟩ := run
  obtain ⟨d, also, agrees, -⟩ := direct_of_run run locked
  exact ⟨s, run, one, d, also, agrees⟩

end AtomSpaceCog.Simple
