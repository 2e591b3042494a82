import AtomSpaceCog.Foundation.Transition
import AtomSpaceCog.Foundation.Dedup
import AtomSpaceCog.Channel.Msg
import Mathlib.Algebra.GroupWithZero.Nat
import Mathlib.Data.Fintype.Basic
import Mathlib.Logic.Function.Basic

/-! # One open channel

The client threads, the message buffer, the worker threads with a socket each, and
the server at the other end. A client thread runs the operations of its storage
node as scripts of channel calls; a worker takes one element at a time and runs
`reply_handler` on it. The buffer is taken at the word of its documentation: an
insert drops an element exactly when an equivalent one is pending, each removed
element is handled once, and a barrier first has the pending elements handled, then
makes every worker run the barrier block, and only then lets elements be handled
again. The server serves each socket in order and holds a socket that has reached a
barrier until as many sockets as the barrier names have reached it.

What is only recorded for the statements of the results (`calls`, `handed`,
`executed`, `runs`, `answered`) never decides what a step does, except that a
barrier knows which calls were made before it.
-/

namespace AtomSpaceCog

open Dedup

/-- The macro `NTHREADS`. -/
def nthreads : Nat := 4

instance : NeZero nthreads := ⟨by decide⟩

abbrev WorkerId := Fin nthreads

abbrev ThreadId := Nat

/-- A socket is the `thread_local` one of the thread that opened it. -/
inductive SockId where
  | worker (worker : WorkerId)
  | user (thread : ThreadId)
deriving DecidableEq

variable {sig : Signature}

/-- An element of the message buffer, numbered by the call that inserted it. -/
abbrev Entry (sig : Signature) := Tagged (Msg sig)

/-- What a handler does to the program around it, in order. -/
inductive Work (sig : Signature) (Local : Type) where
  | done
  | insert (request : Request sig) (next : Work sig Local)
  /-- Read and change the state of the program; the rest depends on what was read. -/
  | touch (change : Local → Local) (next : Local → Work sig Local)
  /-- The handler throws, which ends the process, or never returns. -/
  | stuck

/-- How an operation ends. -/
inductive Exit where
  | returned
  /-- The guard `if (not connected()) return;` -/
  | notConnected
  /-- `IOException` from `CHECK_OPEN` -/
  | thrown
deriving DecidableEq

/-- The channel calls of an operation, in order. -/
inductive Script (sig : Signature) (Local : Type) where
  | exit (how : Exit)
  /-- `connected()` -/
  | connected (next : Bool → Script sig Local)
  /-- The operation reads the AtomSpaces and the values on Atoms. -/
  | read (next : Local → Script sig Local)
  /-- `enqueue` or `enqueue_noreply` -/
  | enqueue (request : Request sig) (next : Script sig Local)
  /-- `barrier()` -/
  | barrier (next : Script sig Local)
  /-- `synchro`, and what its handler and the caller make of the reply -/
  | synchro (msg : Str) (next : Str → Script sig Local)
  /-- `close_connection()` -/
  | closeConnection (next : Script sig Local)

/-- A storage node on top of the channel, and the server it talks to. -/
structure Setting extends Signature where
  /-- The state of the client program: its AtomSpaces and the values on Atoms. -/
  Local : Type
  Op : Type
  script : Op → Script toSignature Local
  /-- The state of the server. -/
  Space : Type
  /-- What the server does on a message, and the reply it would send. -/
  run : Str → Space → Space × Str
  /-- The handlers: what a member function does when it is called with a reply and
  a packet. -/
  react : Client → Callback → Data → Str → Work toSignature Local

variable {S : Setting}

/-- A worker thread. -/
inductive Worker (S : Setting) where
  | idle
  /-- `reply_handler` was called. -/
  | sending (entry : Entry S.toSignature)
  /-- In `do_recv`. -/
  | waiting (entry : Entry S.toSignature)
  /-- In the callback, with the rest of its work. -/
  | running (entry : Entry S.toSignature) (rest : Work S.toSignature S.Local)

/-- The number of the element that a worker is handling. -/
def Worker.holds : Worker S → Option Nat
  | idle => none
  | sending entry | waiting entry | running entry _ => some entry.tag

/-- A client thread. `since` counts the enqueue calls that had returned when its
operation was called. -/
inductive Caller (S : Setting) where
  | idle
  | running (op : S.Op) (since : Nat) (script : Script S.toSignature S.Local)
  /-- In `barrier()`. -/
  | fencing (op : S.Op) (since : Nat) (fence : Nat) (next : Script S.toSignature S.Local)
  /-- In `synchro`, the request being sent. -/
  | asking (op : S.Op) (since : Nat) (msg : Str) (next : Str → Script S.toSignature S.Local)

/-- The text of a barrier: `"(cog-barrier %u \"%016lx\")\n"`. -/
def barrierText (sockets : Nat) (id : UInt64) : Str :=
  bytes "(cog-barrier " ++ bytes (toString sockets) ++ bytes " \"" ++
    (List.range 16).map (fun digit => hexDigit (id.toNat / 16 ^ (15 - digit) % 16)) ++
    bytes "\")\n"
where
  hexDigit (value : Nat) : UInt8 := (if value < 10 then 48 + value else 87 + value).toUInt8

/-- The barrier of a channel names the number of its workers. -/
def barrierMsg (id : UInt64) : Str := barrierText nthreads id

/-- What travels to the server. -/
inductive Wire (sig : Signature) where
  | request (entry : Entry sig)
  | synchro (thread : ThreadId) (msg : Str)
  /-- The block of a barrier, with its random identifier. -/
  | block (id : UInt64) (fence : Nat)

/-- The bytes that are sent. -/
def Wire.text : Wire sig → Str
  | request entry => entry.value.strToSend
  | synchro _ msg => msg
  | block id _ => barrierMsg id

/-- A reply and the message that it answers. -/
structure Reply (sig : Signature) where
  text : Str
  answers : Wire sig

/-- A completed call of `enqueue` or `enqueue_noreply`. -/
structure Call (S : Setting) where
  index : Nat
  msg : Msg S.toSignature
  /-- The number of the element that stands for the call. -/
  entry : Nat
  /-- The operation that made the call; none when a handler made it. -/
  source : Option S.Op

/-- A call of `barrier()`. The times are numbers of completed enqueue calls. -/
structure Fence where
  id : UInt64
  begun : Nat
  /-- When the pending elements had been handled. -/
  drained : Option Nat
  /-- The workers that have run the block. -/
  ran : WorkerId → Bool
  returned : Option Nat

/-- A run of a handler. -/
structure HandlerRun (sig : Signature) where
  client : Option sig.Client
  callback : Option sig.Callback
  data : sig.Data
  reply : Str
  /-- The text of the message that the reply answers. -/
  question : Str
  /-- The number of enqueue calls completed before. -/
  time : Nat

/-- The state of the channel, its threads and its server. -/
structure Config (S : Setting) where
  /-- `nullptr != _servinfo` -/
  isOpen : Bool
  /-- `Msg::_sequence_counter` -/
  counter : UInt64
  /-- `_msg_buffer` -/
  pending : List (Entry S.toSignature)
  worker : WorkerId → Worker S
  caller : ThreadId → Caller S
  fence : Nat → Fence
  fences : Nat
  /-- What the server has not read yet. -/
  inbox : SockId → List (Wire S.toSignature)
  /-- Whether the server has stopped serving the socket at a barrier. -/
  held : SockId → Bool
  /-- What the client has not read yet. -/
  outbox : SockId → List (Reply S.toSignature)
  space : S.Space
  locals : S.Local
  calls : List (Call S)
  /-- The elements that `reply_handler` gave to `do_send`. -/
  handed : List (Entry S.toSignature)
  /-- The elements that the server executed. -/
  executed : List (Entry S.toSignature)
  runs : List (HandlerRun S.toSignature)
  /-- The synchronous requests that were answered, with their replies. -/
  answered : List (ThreadId × Str × Str)

namespace Config

/-- A freshly opened channel. -/
def initial (counter : UInt64) (space : S.Space) (locals : S.Local) : Config S where
  isOpen := true
  counter := counter
  pending := []
  worker := fun _ => .idle
  caller := fun _ => .idle
  fence := fun _ => ⟨0, 0, none, fun _ => false, none⟩
  fences := 0
  inbox := fun _ => []
  held := fun _ => false
  outbox := fun _ => []
  space := space
  locals := locals
  calls := []
  handed := []
  executed := []
  runs := []
  answered := []

variable (s : Config S)

/-- The element with this number is pending or being handled. -/
def Live (number : Nat) : Prop :=
  (∃ entry ∈ s.pending, entry.tag = number) ∨ ∃ worker, (s.worker worker).holds = some number

instance (number : Nat) : Decidable (s.Live number) := by
  unfold Live
  infer_instance

/-- Some barrier is making the workers run its block. -/
def Blocking : Prop :=
  ∃ number < s.fences, (s.fence number).drained.isSome ∧
    ∃ worker, (s.fence number).ran worker = false

instance : Decidable s.Blocking := by
  unfold Blocking
  infer_instance

/-- The block of the barrier is on the way to the server. -/
def Travels (number : Nat) : Prop :=
  ∃ worker : WorkerId, ((s.inbox (.worker worker)).any fun
    | .block _ fence => fence = number
    | _ => false) = true

instance (number : Nat) : Decidable (s.Travels number) := by
  unfold Travels
  infer_instance

/-- The identifier belongs to no barrier in flight. -/
def FreshId (id : UInt64) : Prop :=
  ∀ number < s.fences, (s.fence number).id = id →
    (s.fence number).returned.isSome ∧ ¬ s.Travels number

instance (id : UInt64) : Decidable (s.FreshId id) := by
  unfold FreshId
  infer_instance

/-- `_msg_buffer.insert(block)` -/
def insert (source : Option S.Op) (request : Request S.toSignature) : Config S :=
  let (msg, counter) := request.toMsg s.counter
  { s with
    counter := counter
    pending := offer Msg.Equivalent s.pending s.calls.length msg
    calls := s.calls ++
      [⟨s.calls.length, msg, standsFor Msg.Equivalent s.pending s.calls.length msg, source⟩] }

/-- Put a message on a socket. -/
def push (sock : SockId) (wire : Wire S.toSignature) : Config S :=
  { s with inbox := Function.update s.inbox sock (s.inbox sock ++ [wire]) }

def setCaller (thread : ThreadId) (caller : Caller S) : Config S :=
  { s with caller := Function.update s.caller thread caller }

def setWorker (worker : WorkerId) (state : Worker S) : Config S :=
  { s with worker := Function.update s.worker worker state }

def setFence (number : Nat) (fence : Fence) : Config S :=
  { s with fence := Function.update s.fence number fence }

end Config

/-- A text that the server takes for a barrier. -/
def isBarrier (text : Str) : Bool := (bytes "(cog-barrier ").isPrefixOf text

/-- The steps of the threads and of the server. -/
inductive Action (S : Setting) where
  /-- A client thread calls an operation. -/
  | start (thread : ThreadId) (op : S.Op)
  /-- The program changes its AtomSpaces or the values on its Atoms. -/
  | edit (change : S.Local → S.Local)
  /-- A client thread makes the next step of its script, other than `barrier()`. -/
  | advance (thread : ThreadId)
  /-- A client thread calls `barrier()`, which draws the identifier. -/
  | barrier (thread : ThreadId) (id : UInt64)
  /-- The pending elements have been handled. -/
  | drain (thread : ThreadId)
  /-- A worker runs the block of a barrier. -/
  | block (worker : WorkerId) (fence : Nat)
  /-- `barrier()` returns. -/
  | finish (thread : ThreadId)
  /-- `synchro` has its reply. -/
  | answer (thread : ThreadId)
  /-- A worker removes an element from the buffer. -/
  | take (worker : WorkerId) (number : Nat)
  /-- `do_send` in `reply_handler` -/
  | send (worker : WorkerId)
  /-- `do_recv` in `reply_handler` -/
  | receive (worker : WorkerId)
  /-- The next piece of work of a callback. -/
  | work (worker : WorkerId)
  /-- The server executes the next message of a socket. -/
  | serve (sock : SockId)
  /-- The server reaches a barrier on a socket. -/
  | arrive (sock : SockId)
  /-- The server serves the sockets again that have reached a barrier. -/
  | release (id : UInt64) (socks : List SockId)

namespace Config

variable (s : Config S)

def start (thread : ThreadId) (op : S.Op) : Option (Config S) :=
  match s.caller thread with
  | .idle => some (s.setCaller thread (.running op s.calls.length (S.script op)))
  | _ => none

/-- A queued text is never itself a barrier: no operation makes such a text. -/
def advance (thread : ThreadId) : Option (Config S) :=
  match s.caller thread with
  | .running op since script =>
      match script with
      | .exit _ => some (s.setCaller thread .idle)
      | .connected next => some (s.setCaller thread (.running op since (next s.isOpen)))
      | .read next => some (s.setCaller thread (.running op since (next s.locals)))
      | .enqueue request next =>
          if s.isOpen ∧ isBarrier request.text = false then
            some ((s.insert (some op) request).setCaller thread (.running op since next))
          else none
      | .barrier _ => none
      | .synchro msg next =>
          if s.isOpen then
            some ((s.push (.user thread) (.synchro thread msg)).setCaller thread
              (.asking op since msg next))
          else none
      | .closeConnection next =>
          if s.pending = [] ∧ ∀ worker, (s.worker worker).holds = none then
            some ({ s with isOpen := false }.setCaller thread (.running op since next))
          else none
  | _ => none

def barrier (thread : ThreadId) (id : UInt64) : Option (Config S) :=
  match s.caller thread with
  | .running op since (.barrier next) =>
      if s.isOpen ∧ s.FreshId id then
        some (({ s with fences := s.fences + 1 }.setFence s.fences
          ⟨id, s.calls.length, none, fun _ => false, none⟩).setCaller thread
            (.fencing op since s.fences next))
      else none
  | _ => none

/-- The elements standing for the calls made before the barrier, and for those made
by handlers since, have been handled. -/
def drain (thread : ThreadId) : Option (Config S) :=
  match s.caller thread with
  | .fencing _ _ number _ =>
      let fence := s.fence number
      if fence.drained = none ∧
          ∀ call ∈ s.calls, call.index < fence.begun ∨ call.source.isNone → ¬ s.Live call.entry then
        some (s.setFence number { fence with drained := some s.calls.length })
      else none
  | _ => none

def block (worker : WorkerId) (number : Nat) : Option (Config S) :=
  match s.worker worker with
  | .idle =>
      let fence := s.fence number
      if number < s.fences ∧ fence.drained.isSome ∧ fence.ran worker = false then
        some ((s.push (.worker worker) (.block fence.id number)).setFence number
          { fence with ran := Function.update fence.ran worker true })
      else none
  | _ => none

def finish (thread : ThreadId) : Option (Config S) :=
  match s.caller thread with
  | .fencing op since number next =>
      let fence := s.fence number
      if fence.drained.isSome ∧ ∀ worker, fence.ran worker = true then
        some ((s.setFence number { fence with returned := some s.calls.length }).setCaller thread
          (.running op since next))
      else none
  | _ => none

def answer (thread : ThreadId) : Option (Config S) :=
  match s.caller thread, s.outbox (.user thread) with
  | .asking op since msg next, reply :: rest =>
      some ({ s with
        outbox := Function.update s.outbox (.user thread) rest
        answered := s.answered ++ [(thread, msg, reply.text)] }.setCaller thread
          (.running op since (next reply.text)))
  | _, _ => none

def take (worker : WorkerId) (number : Nat) : Option (Config S) :=
  match s.worker worker, s.pending.find? (fun entry => entry.tag = number) with
  | .idle, some entry =>
      if s.Blocking then none
      else some ({ s with pending := s.pending.filter (fun entry => entry.tag ≠ number) }.setWorker
        worker (.sending entry))
  | _, _ => none

def send (worker : WorkerId) : Option (Config S) :=
  match s.worker worker with
  | .sending entry =>
      some (({ s with handed := s.handed ++ [entry] }.push (.worker worker)
        (.request entry)).setWorker worker
          (if entry.value.noreply then .idle else .waiting entry))
  | _ => none

/-- `(msg.client->*msg.callback)(reply, msg.data)` -/
def callback (msg : Msg S.toSignature) (reply : Str) : Work S.toSignature S.Local :=
  match msg.client, msg.callback with
  | some client, some callback => S.react client callback msg.data reply
  | _, _ => .done

def receive (worker : WorkerId) : Option (Config S) :=
  match s.worker worker, s.outbox (.worker worker) with
  | .waiting entry, reply :: rest =>
      let handled : HandlerRun S.toSignature :=
        ⟨entry.value.client, entry.value.callback, entry.value.data, reply.text,
          reply.answers.text, s.calls.length⟩
      some ({ s with
        outbox := Function.update s.outbox (.worker worker) rest
        runs := s.runs ++ [handled] }.setWorker worker
          (.running entry (callback entry.value reply.text)))
  | _, _ => none

def work (worker : WorkerId) : Option (Config S) :=
  match s.worker worker with
  | .running entry rest =>
      match rest with
      | .done => some (s.setWorker worker .idle)
      | .insert request next =>
          if isBarrier request.text = false then
            some ((s.insert none request).setWorker worker (.running entry next))
          else none
      | .touch change next =>
          some ({ s with locals := change s.locals }.setWorker worker
            (.running entry (next s.locals)))
      | .stuck => none
  | _ => none

/-- The server answers exactly those messages whose sender waits for the reply. -/
def serve (sock : SockId) : Option (Config S) :=
  if s.held sock then none
  else
    match s.inbox sock with
    | .request entry :: rest =>
        let (space, reply) := S.run entry.value.strToSend s.space
        some { s with
          inbox := Function.update s.inbox sock rest
          space := space
          executed := s.executed ++ [entry]
          outbox := if entry.value.noreply then s.outbox else
            Function.update s.outbox sock (s.outbox sock ++ [⟨reply, .request entry⟩]) }
    | .synchro thread msg :: rest =>
        let (space, reply) := S.run msg s.space
        some { s with
          inbox := Function.update s.inbox sock rest
          space := space
          outbox := Function.update s.outbox sock (s.outbox sock ++ [⟨reply, .synchro thread msg⟩]) }
    | _ => none

def arrive (sock : SockId) : Option (Config S) :=
  match s.inbox sock with
  | .block _ _ :: _ =>
      if s.held sock then none else some { s with held := Function.update s.held sock true }
  | _ => none

/-- The server is held on this socket at a barrier with this identifier. -/
def HeldAt (id : UInt64) (sock : SockId) : Prop :=
  s.held sock = true ∧
    match s.inbox sock with
    | .block reached _ :: _ => reached = id
    | _ => False

instance (id : UInt64) (sock : SockId) : Decidable (s.HeldAt id sock) := by
  unfold HeldAt
  cases s.inbox sock with
  | nil => infer_instance
  | cons wire rest => cases wire <;> infer_instance

def release (id : UInt64) (socks : List SockId) : Option (Config S) :=
  if socks.Nodup ∧ socks.length = nthreads ∧ ∀ sock ∈ socks, s.HeldAt id sock then
    some { s with
      inbox := fun sock => if sock ∈ socks then (s.inbox sock).tail else s.inbox sock
      held := fun sock => if sock ∈ socks then false else s.held sock }
  else none

/-- One step of a thread or of the server. -/
def step (s : Config S) : Action S → Option (Config S)
  | .start thread op => s.start thread op
  | .edit change => some { s with locals := change s.locals }
  | .advance thread => s.advance thread
  | .barrier thread id => s.barrier thread id
  | .drain thread => s.drain thread
  | .block worker fence => s.block worker fence
  | .finish thread => s.finish thread
  | .answer thread => s.answer thread
  | .take worker number => s.take worker number
  | .send worker => s.send worker
  | .receive worker => s.receive worker
  | .work worker => s.work worker
  | .serve sock => s.serve sock
  | .arrive sock => s.arrive sock
  | .release id socks => s.release id socks

end Config

end AtomSpaceCog
