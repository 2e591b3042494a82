import AtomSpaceCog.Storage.Operations

/-! # Threads on one socket

The threads of a `CogSimpleStorage` share one socket and one mutex. An operation is a
program of sends, receives and mutex steps, with what it reads and changes of the
state of its node between them. The server answers the messages whose sender goes on
to call `do_recv`, in order. A mutex that a thread holds through a `lock_guard` is
released when its operation ends, also by an exception.
-/

namespace AtomSpaceCog.Simple

variable {Local : Type}

/-- The rest of an operation. -/
inductive Prog (Local : Type) where
  | exit (how : Exit)
  /-- Read and change the state of the node; the rest depends on what was read. -/
  | touch (change : Local → Local) (next : Local → Prog Local)
  /-- `connected()` -/
  | connected (next : Bool → Prog Local)
  /-- `std::lock_guard<std::mutex> lck(_mtx)` -/
  | lock (next : Prog Local)
  /-- The end of its scope. -/
  | unlock (next : Prog Local)
  /-- `do_send` -/
  | send (msg : Str) (next : Prog Local)
  /-- `do_recv` -/
  | recv (next : Str → Prog Local)
  /-- `unistd_close(_sockfd)` -/
  | closeSocket (next : Prog Local)
  /-- `_sockfd = -1` -/
  | clearSocket (next : Prog Local)
  /-- What follows throws, or never returns. -/
  | stuck

/-- The next step is a `do_recv`. -/
def Prog.awaits : Prog Local → Bool
  | .recv _ => true
  | _ => false

/-- A storage node of this kind: its state and its operations. -/
structure Client where
  Local : Type
  Op : Type
  prog : Op → Prog Local

/-- The member `_sockfd`. -/
inductive Sock where
  | live
  /-- The descriptor was closed; `connected()` still holds. -/
  | shut
  | unset
deriving DecidableEq

/-- A message that was sent. -/
structure Sent where
  number : Nat
  thread : ThreadId
  text : Str
  /-- Whether its sender goes on to call `do_recv`. -/
  replies : Bool
deriving DecidableEq

/-- A reply and the message that it answers. -/
structure Answer where
  text : Str
  answers : Sent
deriving DecidableEq

/-- A completed `do_recv`, and the message that its operation had sent last. -/
structure Receipt where
  thread : ThreadId
  latest : Option Sent
  answer : Answer
deriving DecidableEq

variable {client : Client} {server : Server}

/-- A thread. `latest` is the message that its operation sent last. -/
inductive Status (client : Client) where
  | idle
  | running (op : client.Op) (latest : Option Sent) (prog : Prog client.Local)

/-- The threads, the mutex, the socket and the server. -/
structure State (client : Client) (server : Server) where
  sock : Sock
  /-- The thread that holds `_mtx` -/
  holder : Option ThreadId
  thread : ThreadId → Status client
  sent : Nat
  inbox : List Sent
  outbox : List Answer
  space : server.Space
  locals : client.Local
  received : List Receipt

inductive Action (client : Client) where
  /-- A thread calls an operation. -/
  | start (thread : ThreadId) (op : client.Op)
  /-- The program changes its AtomSpaces or the values on its Atoms. -/
  | edit (change : client.Local → client.Local)
  /-- A thread makes the next step of its operation. -/
  | advance (thread : ThreadId)
  /-- `do_recv` finds that the server has closed the connection, or that this node has. -/
  | hangUp (thread : ThreadId)
  /-- What follows throws. -/
  | throw (thread : ThreadId)
  /-- The server executes the next message. -/
  | serve

namespace State

/-- An open connection. -/
def initial (space : server.Space) (locals : client.Local) : State client server where
  sock := .live
  holder := none
  thread := fun _ => .idle
  sent := 0
  inbox := []
  outbox := []
  space := space
  locals := locals
  received := []

variable (s : State client server)

def setThread (thread : ThreadId) (status : Status client) : State client server :=
  { s with thread := Function.update s.thread thread status }

/-- The mutex after a thread has let go of it. -/
def released (thread : ThreadId) : Option ThreadId :=
  if s.holder = some thread then none else s.holder

/-- The operation ends; its `lock_guard` is destroyed. -/
def leave (thread : ThreadId) : State client server :=
  { s with holder := s.released thread }.setThread thread .idle

/-- The next message that is sent. -/
def message (thread : ThreadId) (msg : Str) (replies : Bool) : Sent := ⟨s.sent, thread, msg, replies⟩

/-- The socket after it was closed, if it was open. -/
def shutSock (closed : Sock) : Sock := if s.sock = .live then closed else s.sock

def start (thread : ThreadId) (op : client.Op) : Option (State client server) :=
  match s.thread thread with
  | .idle => some (s.setThread thread (.running op none (client.prog op)))
  | .running _ _ _ => none

/-- A `do_recv` that is under way when the socket is closed may still return. -/
def advance (thread : ThreadId) : Option (State client server) :=
  match s.thread thread with
  | .idle => none
  | .running op latest prog =>
      match prog with
      | .exit _ => some (s.leave thread)
      | .touch change next =>
          some ({ s with locals := change s.locals }.setThread thread
            (.running op latest (next s.locals)))
      | .connected next => some (s.setThread thread (.running op latest (next (s.sock ≠ .unset))))
      | .lock next =>
          if s.holder = none then
            some ({ s with holder := some thread }.setThread thread (.running op latest next))
          else none
      | .unlock next =>
          some ({ s with holder := s.released thread }.setThread thread (.running op latest next))
      | .send msg next =>
          if s.sock = .live then
            let message := s.message thread msg next.awaits
            some ({ s with sent := s.sent + 1, inbox := s.inbox ++ [message] }.setThread thread
              (.running op (some message) next))
          else some (s.leave thread)
      | .recv next =>
          match s.outbox with
          | [] => none
          | answer :: rest =>
              some ({ s with
                outbox := rest
                received := s.received ++ [Receipt.mk thread latest answer] }.setThread thread
                  (.running op latest (next answer.text)))
      | .closeSocket next => some ({ s with sock := s.shutSock .shut }.setThread thread
          (.running op latest next))
      | .clearSocket next =>
          some ({ s with sock := .unset }.setThread thread (.running op latest next))
      | .stuck => none

def hangUp (thread : ThreadId) : Option (State client server) :=
  match s.thread thread with
  | .running _ _ (.recv _) =>
      some ({ s with sock := s.shutSock .unset }.leave thread)
  | _ => none

def throw (thread : ThreadId) : Option (State client server) :=
  match s.thread thread with
  | .running _ _ .stuck => some (s.leave thread)
  | _ => none

def serve : Option (State client server) :=
  match s.inbox with
  | [] => none
  | sent :: rest =>
      let (space, reply) := server.run sent.text s.space
      some { s with
        inbox := rest
        space := space
        outbox := if sent.replies then s.outbox ++ [⟨reply, sent⟩] else s.outbox }

/-- One step of a thread or of the server. -/
def step (s : State client server) : Action client → Option (State client server)
  | .start thread op => s.start thread op
  | .edit change => some { s with locals := change s.locals }
  | .advance thread => s.advance thread
  | .hangUp thread => s.hangUp thread
  | .throw thread => s.throw thread
  | .serve => s.serve

end State

end AtomSpaceCog.Simple
