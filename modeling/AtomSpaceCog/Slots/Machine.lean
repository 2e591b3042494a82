import AtomSpaceCog.Foundation.Text
import AtomSpaceCog.Channel.Machine

/-! # The sockets of several channels

A socket is kept in the `thread_local` slot `s`, of which every thread has one, whichever
channels it works for. `do_send` opens a socket when the slot is empty and uses what it
finds there otherwise. The threads open and close channels, make synchronous requests and
do the work of the queues, step by step; what the queues hold is left open. A descriptor
that was closed may be given out again.
-/

namespace AtomSpaceCog.Slots

abbrev ChannelId := Nat

/-- The network: addresses, and those that a host and a port have. -/
structure Net where
  Address : Type
  getaddrinfo : Str → Str → Option (List Address)

/-- A client thread, or a worker thread of a channel. -/
inductive Thread where
  | user (number : Nat)
  | worker (channel : ChannelId) (index : WorkerId)
deriving DecidableEq

variable {net : Net}

/-- What `_servinfo` points to: the addresses that an opening of a channel has found. -/
structure Servinfo (net : Net) where
  channel : ChannelId
  number : Nat
  addresses : List net.Address

/-- A connected socket, and the `_servinfo` that it was opened with. -/
structure Conn (net : Net) where
  servinfo : Servinfo net
  address : net.Address

/-- The struct `tlso`, and the `_servinfo` that the socket was opened with. -/
structure Slot (net : Net) where
  sockfd : Int
  owner : Option ChannelId
  made : Option (Servinfo net)

/-- A new slot. -/
def Slot.empty : Slot net := ⟨0, none, none⟩

/-- What follows a `do_send`. -/
inductive After where
  /-- Nothing: the message has no reply. -/
  | nothing
  /-- `do_recv`, and the handler is given the reply. -/
  | handler
  /-- `do_recv(true)`, in `open_connection`. -/
  | probe
deriving DecidableEq

/-- Where a thread is. -/
inductive Phase where
  | idle
  /-- In `open_connection`, before `_servinfo` is set. -/
  | opening (channel : ChannelId) (uri : Str)
  /-- In `do_send`. -/
  | sending (channel : ChannelId) (msg : Str) (after : After)
  /-- In `open_sock`, reading the prompt. -/
  | prompt (channel : ChannelId) (msg : Str) (after : After)
  /-- In `do_send`, before `send`. -/
  | writing (channel : ChannelId) (msg : Str) (after : After)
  /-- In `do_recv`. -/
  | receiving (channel : ChannelId) (after : After)
  /-- In `open_connection`, about to close the socket of the probe; whether it went well. -/
  | cleaning (channel : ChannelId) (went : Bool)
  /-- An exception ended the worker thread. -/
  | crashed
deriving DecidableEq

/-- The channel that a thread is using the slot for. -/
def Phase.uses : Phase → Option ChannelId
  | .sending channel _ _ | .prompt channel _ _ | .writing channel _ _ | .receiving channel _
  | .cleaning channel _ => some channel
  | .idle | .opening _ _ | .crashed => none

/-- The channel that a thread is trying out after it has set `_servinfo`. -/
def Phase.probes : Phase → Option ChannelId
  | .sending channel _ .probe | .prompt channel _ .probe | .writing channel _ .probe
  | .receiving channel .probe | .cleaning channel _ => some channel
  | _ => none

/-- Bytes that a channel sent or read, and on what socket; `servinfo` is its `_servinfo`
then. -/
structure Traffic (net : Net) where
  channel : ChannelId
  servinfo : Option (Servinfo net)
  text : Str
  conn : Conn net

/-- The member `_uri`, without arguments. -/
def stripArgs (uri : Str) : Str :=
  match find uri 63 0 with
  | some parg => uri.take parg
  | none => uri

/-- The member `_host` -/
def hostOf (uri : Str) : Str :=
  let host := uri.drop 6
  match findBy host (fun byte => byte = 58 ∨ byte = 47) 0 with
  | some slash => host.take slash
  | none => host

/-- The member `_port` -/
def portOf (uri : Str) : Str :=
  match find (stripArgs uri) 58 (6 + (hostOf uri).length) with
  | none => bytes "17001"
  | some colon =>
      let port := (stripArgs uri).drop (colon + 1)
      match find port 47 0 with
      | some slash => port.take slash
      | none => port

/-- The addresses of a URI, or none where `open_connection` throws. -/
def addressesOf (net : Net) (uri : Str) : Option (List net.Address) :=
  if (bytes "cog://").isPrefixOf uri then net.getaddrinfo (hostOf uri) (portOf uri) else none

example : (hostOf (bytes "cog://h:17/as?x"), portOf (bytes "cog://h:17/as?x")) =
    (bytes "h", bytes "17") := by decide

/-- The channels, the threads and the descriptors of the process. -/
structure State (net : Net) where
  /-- `_servinfo` -/
  servinfo : ChannelId → Option (Servinfo net)
  openings : Nat
  /-- The queue has its worker threads. -/
  staffed : ChannelId → Bool
  slot : Thread → Slot net
  phase : Thread → Phase
  /-- The open sockets by their descriptors. -/
  descriptor : Int → Option (Conn net)
  sent : List (Traffic net)
  /-- The replies that handlers were given. -/
  handed : List (Traffic net)

inductive Action (net : Net) where
  /-- `CogStorage::open` -/
  | openChannel (user : Nat) (channel : ChannelId) (uri : Str)
  /-- `open_connection` has looked up the addresses. -/
  | resolve (user : Nat)
  /-- `synchro`, of an operation that found the channel open. -/
  | synchro (user : Nat) (channel : ChannelId) (msg : Str)
  /-- `reply_handler` -/
  | reply (channel : ChannelId) (index : WorkerId) (msg : Str) (noreply : Bool)
  /-- `close_connection`, of a `close` that found the channel open. -/
  | close (user : Nat) (channel : ChannelId)
  /-- The thread ends. -/
  | exit (user : Nat)
  /-- `do_send` uses the slot, or `open_sock` gives -1. -/
  | look (thread : Thread)
  /-- `open_sock` is given a descriptor and connects to one of the addresses. -/
  | connect (thread : Thread) (sockfd : Int) (choice : Nat)
  /-- `open_sock` has connected, but its `send` fails, and an exception is thrown. -/
  | drop (thread : Thread) (sockfd : Int) (choice : Nat)
  /-- `open_sock` has read the prompt. -/
  | greet (thread : Thread)
  /-- `send` -/
  | write (thread : Thread)
  /-- `do_recv` has read a reply. -/
  | read (thread : Thread) (reply : Str)
  /-- `do_recv` finds the connection closed. -/
  | hangUp (thread : Thread)
  /-- A system call fails, and an exception is thrown. -/
  | fail (thread : Thread)
  /-- `open_connection` closes the socket of its probe. -/
  | clean (user : Nat)

/-- The phase after an exception. -/
def thrown (thread : Thread) (channel : ChannelId) : After → Phase
  | .probe => .cleaning channel false
  | .nothing | .handler =>
      match thread with
      | .user _ => .idle
      | .worker _ _ => .crashed

namespace State

/-- No channel is open. -/
def initial : State net where
  servinfo := fun _ => none
  openings := 0
  staffed := fun _ => false
  slot := fun _ => .empty
  phase := fun _ => .idle
  descriptor := fun _ => none
  sent := []
  handed := []

variable (s : State net)

def setPhase (thread : Thread) (phase : Phase) : State net :=
  { s with phase := Function.update s.phase thread phase }

/-- `close(sockfd)` -/
def closeDescriptor (sockfd : Int) : State net :=
  { s with descriptor := Function.update s.descriptor sockfd none }

/-- `if (0 != s._sockfd) { close(s._sockfd); s._sockfd = 0; }` -/
def closeSlot (thread : Thread) : State net :=
  { s.closeDescriptor (s.slot thread).sockfd with
    slot := Function.update s.slot thread { s.slot thread with sockfd := 0 } }

def openChannel (user : Nat) (channel : ChannelId) (uri : Str) : Option (State net) :=
  if s.phase (.user user) = .idle then
    match s.servinfo channel with
    | some _ => some s
    | none => some (s.setPhase (.user user) (.opening channel uri))
  else none

/-- The bytes that `open_connection` sends. -/
def probeText : Str := bytes ".\n.\n"

def resolve (user : Nat) : Option (State net) :=
  match s.phase (.user user) with
  | .opening channel uri =>
      match addressesOf net uri with
      | none => some (s.setPhase (.user user) .idle)
      | some addresses =>
          some ({ s with
            servinfo := Function.update s.servinfo channel (some ⟨channel, s.openings, addresses⟩)
            openings := s.openings + 1 }.setPhase (.user user) (.sending channel probeText .probe))
  | _ => none

def synchro (user : Nat) (channel : ChannelId) (msg : Str) : Option (State net) :=
  if s.phase (.user user) = .idle ∧ (s.servinfo channel).isSome then
    some (s.setPhase (.user user) (.sending channel msg .handler))
  else none

def reply (channel : ChannelId) (index : WorkerId) (msg : Str) (noreply : Bool) : Option (State net) :=
  if s.phase (.worker channel index) = .idle ∧ s.staffed channel then
    some (s.setPhase (.worker channel index)
      (.sending channel msg (if noreply then .nothing else .handler)))
  else none

/-- The slots of the workers are destroyed with them, and close their sockets. -/
def close (user : Nat) (channel : ChannelId) : Option (State net) :=
  if s.phase (.user user) = .idle ∧ (s.servinfo channel).isSome ∧
      ∀ index, s.phase (.worker channel index) = .idle then
    some { s with
      servinfo := Function.update s.servinfo channel none
      staffed := Function.update s.staffed channel false
      slot := fun thread => match thread with
        | .worker own index => if own = channel then .empty else s.slot (.worker own index)
        | .user number => s.slot (.user number)
      descriptor := fun sockfd =>
        if ∃ index, (s.slot (.worker channel index)).sockfd = sockfd then none
        else s.descriptor sockfd }
  else none

/-- The slot is destroyed with the thread, and closes its socket. -/
def exit (user : Nat) : Option (State net) :=
  if s.phase (.user user) = .idle then
    some { s.closeSlot (.user user) with slot := Function.update s.slot (.user user) .empty }
  else none

def look (thread : Thread) : Option (State net) :=
  match s.phase thread with
  | .sending channel msg after =>
      let slot := s.slot thread
      if slot.sockfd ≠ 0 then some (s.setPhase thread (.writing channel msg after))
      else if (s.servinfo channel).isNone then
        some ({ s with slot := Function.update s.slot thread { slot with sockfd := -1 } }.setPhase thread
          (.writing channel msg after))
      else none
  | _ => none

/-- Descriptor 0 is the standard input. -/
def connect (thread : Thread) (sockfd : Int) (choice : Nat) : Option (State net) :=
  match s.phase thread with
  | .sending channel msg after => do
      let servinfo ← s.servinfo channel
      let address ← servinfo.addresses[choice]?
      if (s.slot thread).sockfd = 0 ∧ 0 < sockfd ∧ (s.descriptor sockfd).isNone then
        some ({ s with
          descriptor := Function.update s.descriptor sockfd (some ⟨servinfo, address⟩)
          slot := Function.update s.slot thread ⟨sockfd, some channel, some servinfo⟩ }.setPhase
            thread (.prompt channel msg after))
      else none
  | _ => none

/-- The new socket is in no slot, and stays open. -/
def drop (thread : Thread) (sockfd : Int) (choice : Nat) : Option (State net) :=
  match s.phase thread with
  | .sending channel _ after => do
      let servinfo ← s.servinfo channel
      let address ← servinfo.addresses[choice]?
      if (s.slot thread).sockfd = 0 ∧ 0 < sockfd ∧ (s.descriptor sockfd).isNone then
        some ({ s with
          descriptor := Function.update s.descriptor sockfd (some ⟨servinfo, address⟩) }.setPhase
            thread (thrown thread channel after))
      else none
  | _ => none

def greet (thread : Thread) : Option (State net) :=
  match s.phase thread with
  | .prompt channel msg after => some (s.setPhase thread (.writing channel msg after))
  | _ => none

def write (thread : Thread) : Option (State net) :=
  match s.phase thread with
  | .writing channel msg after =>
      match s.descriptor (s.slot thread).sockfd with
      | some conn =>
          some ({ s with sent := s.sent ++ [Traffic.mk channel (s.servinfo channel) msg conn] }.setPhase
            thread (if after = After.nothing then .idle else .receiving channel after))
      | none => none
  | _ => none

def read (thread : Thread) (reply : Str) : Option (State net) :=
  match s.phase thread with
  | .receiving channel after =>
      match s.descriptor (s.slot thread).sockfd with
      | some conn =>
          if after = .probe then some (s.setPhase thread (.cleaning channel true))
          else
            some ({ s with
              handed := s.handed ++ [Traffic.mk channel (s.servinfo channel) reply conn] }.setPhase
                thread .idle)
      | none => none
  | _ => none

def hangUp (thread : Thread) : Option (State net) :=
  match s.phase thread with
  | .prompt channel _ after | .receiving channel after =>
      some ((s.closeDescriptor (s.slot thread).sockfd).setPhase thread (thrown thread channel after))
  | _ => none

def fail (thread : Thread) : Option (State net) :=
  match s.phase thread with
  | .sending channel _ after | .prompt channel _ after | .writing channel _ after
  | .receiving channel after => some (s.setPhase thread (thrown thread channel after))
  | _ => none

def clean (user : Nat) : Option (State net) :=
  match s.phase (.user user) with
  | .cleaning channel true =>
      some ({ s.closeSlot (.user user) with
        staffed := Function.update s.staffed channel true }.setPhase (.user user) .idle)
  | .cleaning channel false =>
      some ({ s.closeSlot (.user user) with
        servinfo := Function.update s.servinfo channel none }.setPhase (.user user) .idle)
  | _ => none

/-- One step of a thread. -/
def step (s : State net) : Action net → Option (State net)
  | .openChannel user channel uri => s.openChannel user channel uri
  | .resolve user => s.resolve user
  | .synchro user channel msg => s.synchro user channel msg
  | .reply channel index msg noreply => s.reply channel index msg noreply
  | .close user channel => s.close user channel
  | .exit user => s.exit user
  | .look thread => s.look thread
  | .connect thread sockfd choice => s.connect thread sockfd choice
  | .drop thread sockfd choice => s.drop thread sockfd choice
  | .greet thread => s.greet thread
  | .write thread => s.write thread
  | .read thread reply => s.read thread reply
  | .hangUp thread => s.hangUp thread
  | .fail thread => s.fail thread
  | .clean user => s.clean user

end State

end AtomSpaceCog.Slots
