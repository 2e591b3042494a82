import AtomSpaceCog.Slots.Address
import AtomSpaceCog.Socket.Endings
import AtomSpaceCog.Socket.Sending
import AtomSpaceCog.Simple.Pairing

/-! # Opening and closing the connection

`CogSimpleStorage::open` connects, greets the server and reads its prompt, and
`close` takes leave of the server before it closes the socket. Both forget the
descriptor only at their end: when `send` or `recv` fails in between, the socket
stays open and `connected()` stays true. The end of file is the one failure that
they clean up after (`Connection.call_threw_iff`).
-/

namespace AtomSpaceCog.Simple

/-- What `socket` and `connect` give for an address of the server. -/
structure Attempt where
  /-- The descriptor, unless `socket` fails. -/
  socket : Option Nat
  connects : Bool

/-- What the network does in the course of a call: the results of `send` and of
`recv` in turn. -/
structure Network where
  getaddrinfo : Str → Str → Option (List Attempt)
  sends : List SendResult
  recvs : List RecvResult

/-- The member `_sockfd`, and the descriptors obtained from `socket` that have not
been closed. -/
structure Connection where
  sockfd : Int
  opened : List Int

/-- How a call ends. -/
inductive Ending where
  | returned
  | threw
  /-- It still waits for the network. -/
  | waiting
deriving DecidableEq

variable {Local : Type} {sexpr : FrameSexpr}

namespace Connection

/-- `CogSimpleStorage::connected` -/
def connected (c : Connection) : Bool := 0 < c.sockfd

/-- `unistd_close(_sockfd)` -/
def unistdClose (c : Connection) : Connection := { c with opened := c.opened.erase c.sockfd }

/-- The loop over the addresses of the server, and whether one of them connects. -/
def tryAddresses (c : Connection) : List Attempt → Connection × Bool
  | [] => (c, false)
  | p :: rest =>
      match p.socket with
      | none => { c with sockfd := -1 }.tryAddresses rest
      | some fd =>
          let tried : Connection := ⟨fd, (fd : Int) :: c.opened⟩
          if p.connects then (tried, true)
          else { tried.unistdClose with sockfd := -1 }.tryAddresses rest

/-- `do_send` -/
def doSend (c : Connection) (msg : Str) : List SendResult → Ending × List SendResult
  | [] => (if c.connected then .waiting else .threw, [])
  | result :: sends =>
      match Backend.simple.doSend (.error .notConnected) c.sockfd msg result with
      | .ok _ => (.returned, sends)
      | .error _ => (.threw, sends)

/-- `do_recv(garbage)` -/
def doRecv (c : Connection) (garbage : Bool) (recvs : List RecvResult) :
    Received × Connection × List RecvResult :=
  let (received, sockfd, rest) := Backend.simple.doRecv c.sockfd garbage recvs
  (received, ⟨sockfd, if received = .disconnected then c.unistdClose.opened else c.opened⟩, rest)

/-- `CogSimpleStorage::open`. The greeting is sent without a test of the descriptor. -/
def openStorage (c : Connection) (uri : Str) (net : Network) : Ending × Connection :=
  if c.connected then (.returned, c)
  else
    match net.getaddrinfo (Slots.simpleHostOf uri) (Slots.portBehind uri (Slots.simpleHostOf uri)) with
    | none => (.threw, c)
    | some servinfo =>
        match c.tryAddresses servinfo with
        | (c, false) => (.threw, c)
        | (c, true) =>
            match net.sends with
            | [] => (.waiting, c)
            | .error :: _ => (.threw, c)
            | .sent _ :: _ =>
                match c.doRecv true net.recvs with
                | (.reply _, c, _) => (.returned, c)
                | (.waiting, c, _) => (.waiting, c)
                | (_, c, _) => (.threw, c)

end Connection

/-- Carry out a program on a connection. -/
def Prog.over : Prog Local → Local → Connection → List SendResult → List RecvResult →
    Ending × Connection
  | .exit _, _, c, _, _ => (.returned, c)
  | .touch change next, state, c, sends, recvs => (next state).over (change state) c sends recvs
  | .connected next, state, c, sends, recvs => (next c.connected).over state c sends recvs
  | .lock next, state, c, sends, recvs => next.over state c sends recvs
  | .unlock next, state, c, sends, recvs => next.over state c sends recvs
  | .send msg next, state, c, sends, recvs =>
      match c.doSend msg sends with
      | (.returned, sends) => next.over state c sends recvs
      | (ending, _) => (ending, c)
  | .recv next, state, c, sends, recvs =>
      match c.doRecv false recvs with
      | (.reply text, c, recvs) => (next text).over state c sends recvs
      | (.waiting, c, _) => (.waiting, c)
      | (_, c, _) => (.threw, c)
  | .closeSocket next, state, c, sends, recvs => next.over state c.unistdClose sends recvs
  | .clearSocket next, state, c, sends, recvs => next.over state { c with sockfd := -1 } sends recvs
  | .stuck, _, c, _, _ => (.waiting, c)

/-- The calls that change the connection. -/
inductive Call (sexpr : FrameSexpr) where
  | opening (net : Network)
  | closing (id : UInt64) (node : Node sexpr) (net : Network)

def Call.net : Call sexpr → Network
  | .opening net => net
  | .closing _ _ net => net

namespace Connection

/-- `_uri` is the member of the node. -/
def call (uri : Str) (c : Connection) : Call sexpr → Ending × Connection
  | .opening net => c.openStorage uri net
  | .closing id node net =>
      (CogSimpleStorage.close id (.exit .returned)).over node c net.sends net.recvs

def initial : Connection := ⟨-1, []⟩

/-- The connection after some calls. -/
def after (uri : Str) (history : List (Call sexpr)) : Connection :=
  history.foldl (fun c call => (c.call uri call).2) initial

/-- The descriptors that stay open when the one in `_sockfd` is closed. -/
def others (c : Connection) : List Int := if c.connected then c.unistdClose.opened else c.opened

end Connection

/-- The descriptor of the first address that connects. -/
def firstConnected : List Attempt → Option Nat
  | [] => none
  | p :: rest =>
      match p.socket with
      | none => firstConnected rest
      | some fd => if p.connects then some fd else firstConnected rest

/-- `send` or `recv` fails while the socket is open, or the descriptor is the one that
`do_recv` takes for none. -/
def Call.Breaks (uri : Str) : Call sexpr → Prop
  | .opening net => ∃ servinfo fd,
      net.getaddrinfo (Slots.simpleHostOf uri) (Slots.portBehind uri (Slots.simpleHostOf uri)) =
          some servinfo ∧
        firstConnected servinfo = some fd ∧
          (net.sends.head? = some .error ∨ fd = 0 ∨ ErrorFirst true net.recvs)
  | .closing _ _ net => .error ∈ net.sends.take 2 ∨ ErrorFirst false net.recvs

/-- What a call makes of a connection. -/
inductive Outcome (c : Connection) (breaks : Prop) : Ending × Connection → Prop where
  | kept {ending : Ending} (thrown : ending = .threw → c.connected ∧ breaks) :
      Outcome c breaks (ending, c)
  | obtained {ending : Ending} (fd : Nat) (before : c.connected = false)
      (thrown : ending = .threw → breaks) : Outcome c breaks (ending, ⟨fd, fd :: c.opened⟩)
  | shut {ending : Ending} {c' : Connection} (afterwards : c'.connected = false)
      (opened : c'.opened = c.others) (thrown : ending = .threw → ¬ breaks) :
      Outcome c breaks (ending, c')

namespace Connection

theorem tryAddresses_some {servinfo : List Attempt} {fd : Nat}
    (found : firstConnected servinfo = some fd) (c : Connection) :
    c.tryAddresses servinfo = (⟨fd, fd :: c.opened⟩, true) := by
  induction servinfo generalizing c with
  | nil => cases found
  | cons p rest ih =>
      obtain ⟨_ | other, connects⟩ := p
      · exact ih found _
      · cases connects with
        | true =>
            cases found
            rfl
        | false =>
            have tried := ih found { (⟨other, (other : Int) :: c.opened⟩ : Connection).unistdClose with
              sockfd := -1 }
            simpa [tryAddresses, unistdClose] using tried

theorem tryAddresses_none {servinfo : List Attempt} (missing : firstConnected servinfo = none)
    {c : Connection} (before : c.connected = false) :
    (c.tryAddresses servinfo).2 = false ∧ (c.tryAddresses servinfo).1.connected = false ∧
      (c.tryAddresses servinfo).1.opened = c.opened := by
  induction servinfo generalizing c with
  | nil => exact ⟨rfl, before, rfl⟩
  | cons p rest ih =>
      obtain ⟨_ | fd, connects⟩ := p
      · exact ih missing rfl
      · cases connects with
        | true => cases missing
        | false =>
            have tried := ih missing (c := { (⟨fd, (fd : Int) :: c.opened⟩ : Connection).unistdClose with
              sockfd := -1 }) rfl
            simpa [tryAddresses, unistdClose] using tried

/-- The descriptor zero is not taken for an open socket. -/
theorem connected_obtained (fd : Nat) (opened : List Int) :
    (⟨fd, opened⟩ : Connection).connected = decide (fd ≠ 0) := by
  simp only [connected, decide_eq_decide]
  omega

/-- What becomes of the connection in `do_recv`. -/
theorem doRecv_cases (c : Connection) (garbage : Bool) (recvs : List RecvResult)
    (fits : ∀ chunk, .data chunk ∈ recvs → Backend.simple.Fits chunk) :
    (c.connected = false ∧ ∃ rest, c.doRecv garbage recvs = (.noSocket, c, rest)) ∨
      (c.connected ∧
        ((∃ text rest, c.doRecv garbage recvs = (.reply text, c, rest)) ∨
          (∃ rest, c.doRecv garbage recvs = (.waiting, c, rest)) ∨
          (ErrorFirst garbage recvs ∧ ∃ rest, c.doRecv garbage recvs = (.failed, c, rest)) ∨
          (¬ ErrorFirst garbage recvs ∧
            ∃ rest, c.doRecv garbage recvs = (.disconnected, ⟨0, c.unistdClose.opened⟩, rest)))) := by
  have nonempty : ∀ chunk, .data chunk ∈ recvs → chunk ≠ [] :=
    fun chunk member => (fits chunk member).1
  have failed : (receiveLoop garbage true [] recvs).1 = .failed ↔ ErrorFirst garbage recvs :=
    receiveLoop_failed_iff (fun _ => rfl) [] recvs nonempty
  obtain ⟨inside, asked⟩ := receiveLoop_inside garbage true [] recvs nonempty
  by_cases isOpen : 0 < c.sockfd
  · refine Or.inr ⟨decide_eq_true isOpen, ?_⟩
    rw [← failed]
    simp only [doRecv, Backend.doRecv, Backend.socketOpen, isOpen, decide_true, ↓reduceIte]
    generalize receiveLoop garbage true [] recvs = result at inside asked ⊢
    obtain ⟨outcome, rest⟩ := result
    cases outcome with
    | reply text => exact Or.inl ⟨text, rest, rfl⟩
    | waiting => exact Or.inr (Or.inl ⟨rest, rfl⟩)
    | failed => exact Or.inr (Or.inr (Or.inl ⟨rfl, rest, rfl⟩))
    | disconnected => exact Or.inr (Or.inr (Or.inr ⟨by simp, rest, rfl⟩))
    | outOfBounds => exact absurd rfl inside
    | noSocket => exact absurd rfl asked
  · refine Or.inl ⟨decide_eq_false isOpen, recvs, ?_⟩
    simp only [doRecv, Backend.doRecv, Backend.socketOpen, isOpen, decide_false,
      Bool.false_eq_true, ↓reduceIte, reduceCtorEq]

theorem doSend_connected {c : Connection} (isOpen : c.connected) (msg : Str)
    (sends : List SendResult) :
    c.doSend msg sends = match sends with
      | [] => (.waiting, [])
      | .sent _ :: rest => (.returned, rest)
      | .error :: rest => (.threw, rest) := by
  have positive : 0 < c.sockfd := of_decide_eq_true isOpen
  match sends with
  | [] => simp only [doSend, isOpen, ↓reduceIte]
  | .sent count :: rest =>
      simp only [doSend, Backend.doSend, Backend.sendSocket, positive, ↓reduceIte, bind, Except.bind]
  | .error :: rest =>
      simp only [doSend, Backend.doSend, Backend.sendSocket, positive, ↓reduceIte, bind, Except.bind]

theorem openStorage_outcome (uri : Str) (c : Connection) (net : Network)
    (fits : ∀ chunk, .data chunk ∈ net.recvs → Backend.simple.Fits chunk) :
    Outcome c ((Call.opening net : Call sexpr).Breaks uri) (c.openStorage uri net) := by
  unfold openStorage
  by_cases isOpen : c.connected = true
  · rw [if_pos isOpen]
    exact .kept (by simp)
  rw [if_neg isOpen]
  have before : c.connected = false := Bool.eq_false_iff.mpr isOpen
  have stays : c.others = c.opened := if_neg isOpen
  match resolved : net.getaddrinfo (Slots.simpleHostOf uri)
      (Slots.portBehind uri (Slots.simpleHostOf uri)) with
  | none =>
      refine .shut before stays.symm ?_
      intro _ broken
      obtain ⟨servinfo, fd, given, -⟩ := broken
      rw [resolved] at given
      cases given
  | some servinfo =>
      match found : firstConnected servinfo with
      | none =>
          obtain ⟨missing, shut, opened⟩ := tryAddresses_none found before
          rcases tried : c.tryAddresses servinfo with ⟨c', connects⟩
          rw [tried] at missing shut opened
          obtain rfl : connects = false := missing
          simp only [tried]
          refine .shut shut (opened.trans stays.symm) ?_
          intro _ broken
          obtain ⟨servinfo', fd, given, first, -⟩ := broken
          rw [resolved] at given
          cases given
          rw [found] at first
          cases first
      | some fd =>
          have broken : (net.sends.head? = some .error ∨ fd = 0 ∨ ErrorFirst true net.recvs) →
              (Call.opening net : Call sexpr).Breaks uri :=
            fun fails => ⟨servinfo, fd, resolved, found, fails⟩
          simp only [tryAddresses_some found]
          match sent : net.sends with
          | [] => exact .obtained fd before (by simp)
          | .error :: rest => exact .obtained fd before fun _ => broken (Or.inl (by rw [sent]; rfl))
          | .sent count :: rest =>
              rcases doRecv_cases ⟨fd, fd :: c.opened⟩ true net.recvs fits with
                ⟨none, rest, received⟩ | ⟨live, ⟨text, rest, received⟩ | ⟨rest, received⟩ |
                  ⟨error, rest, received⟩ | ⟨unfailing, rest, received⟩⟩
              · simp only [received]
                refine .obtained fd before fun _ => broken (Or.inr (Or.inl ?_))
                rw [connected_obtained] at none
                simpa using none
              · simp only [received]
                exact .obtained fd before (by simp)
              · simp only [received]
                exact .obtained fd before (by simp)
              · simp only [received]
                exact .obtained fd before fun _ => broken (Or.inr (Or.inr error))
              · simp only [received]
                refine .shut rfl ?_ ?_
                · rw [stays]
                  exact List.erase_cons_head ..
                · intro _ breaks
                  obtain ⟨servinfo', fd', given, first, fails⟩ := breaks
                  rw [resolved] at given
                  cases given
                  rw [found] at first
                  cases first
                  rcases fails with error | zero | error
                  · rw [sent] at error
                    cases error
                  · rw [connected_obtained] at live
                    exact of_decide_eq_true live zero
                  · exact unfailing error

theorem close_outcome (uri : Str) (c : Connection) (id : UInt64) (node : Node sexpr) (net : Network)
    (fits : ∀ chunk, .data chunk ∈ net.recvs → Backend.simple.Fits chunk) :
    Outcome c ((Call.closing id node net).Breaks uri) (c.call uri (.closing id node net)) := by
  simp only [call, CogSimpleStorage.close, Prog.over]
  by_cases isOpen : c.connected = true
  · have gone : c.others = c.unistdClose.opened := if_pos isOpen
    have broken : (.error ∈ net.sends.take 2 ∨ ErrorFirst false net.recvs) →
        (Call.closing id node net).Breaks uri := fun fails => fails
    rw [if_pos isOpen]
    simp only [CogSimpleStorage.proxyClose, CogSimpleStorage.barrier, tell, Prog.over,
      doSend_connected isOpen]
    match sent : net.sends with
    | [] => exact .kept (by simp)
    | .error :: rest => exact .kept fun _ => ⟨isOpen, broken (Or.inl (by simp [sent]))⟩
    | .sent count :: [] => exact .kept (by simp)
    | .sent count :: .error :: rest =>
        exact .kept fun _ => ⟨isOpen, broken (Or.inl (by simp [sent]))⟩
    | .sent count :: .sent count' :: rest =>
        rcases doRecv_cases c false net.recvs fits with
          ⟨none, rest, received⟩ | ⟨-, ⟨text, rest, received⟩ | ⟨rest, received⟩ |
            ⟨error, rest, received⟩ | ⟨unfailing, rest, received⟩⟩
        · rw [isOpen] at none
          cases none
        · simp only [received]
          exact .shut rfl gone.symm (by simp)
        · simp only [received]
          exact .kept (by simp)
        · simp only [received]
          exact .kept fun _ => ⟨isOpen, broken (Or.inr error)⟩
        · simp only [received]
          refine .shut rfl gone.symm ?_
          intro _ breaks
          rcases breaks with error | error
          · simp [sent] at error
          · exact unfailing error
  · have stays : c.others = c.opened := if_neg isOpen
    rw [if_neg isOpen]
    simp only [Prog.over]
    exact .shut rfl stays.symm (by simp)

theorem call_outcome (uri : Str) (c : Connection) (call : Call sexpr)
    (fits : ∀ chunk, .data chunk ∈ call.net.recvs → Backend.simple.Fits chunk) :
    Outcome c (call.Breaks uri) (c.call uri call) := by
  cases call with
  | opening net => exact openStorage_outcome uri c net fits
  | closing id node net => exact close_outcome uri c id node net fits

/-- The descriptors that are open are the one in `_sockfd`, and zeros that were
mistaken for none. -/
def Held (c : Connection) : Prop :=
  (∃ count, c.others = List.replicate count 0) ∧ (c.connected → c.opened = c.sockfd :: c.others)

theorem Held.outcome {c c' : Connection} {breaks : Prop} {ending : Ending} (held : c.Held)
    (outcome : Outcome c breaks (ending, c')) : c'.Held := by
  cases outcome with
  | kept thrown => exact held
  | obtained fd before thrown =>
      have stays : c.others = c.opened := if_neg (by simp [before])
      obtain ⟨⟨count, zeros⟩, -⟩ := held
      rw [stays] at zeros
      by_cases zero : fd = 0
      · subst zero
        have shut := connected_obtained 0 ((0 : Nat) :: c.opened)
        refine ⟨⟨count + 1, ?_⟩, ?_⟩
        · rw [others, shut, zeros]
          rfl
        · intro isOpen
          rw [shut] at isOpen
          cases isOpen
      · have live : (⟨fd, fd :: c.opened⟩ : Connection).connected = true := by
          rw [connected_obtained]
          exact decide_eq_true zero
        have rest : (⟨fd, fd :: c.opened⟩ : Connection).others = c.opened := by
          rw [others, if_pos live]
          exact List.erase_cons_head ..
        refine ⟨⟨count, rest.trans zeros⟩, fun _ => ?_⟩
        rw [rest]
  | shut afterwards opened thrown =>
      have stays : c'.others = c'.opened := if_neg (by simp [afterwards])
      obtain ⟨⟨count, zeros⟩, -⟩ := held
      refine ⟨⟨count, by rw [stays, opened, zeros]⟩, ?_⟩
      intro isOpen
      rw [afterwards] at isOpen
      cases isOpen

/-- No descriptor is left over exactly when no zero is open. -/
theorem Held.others_eq_nil_iff {c : Connection} (held : c.Held) : c.others = [] ↔ 0 ∉ c.opened := by
  obtain ⟨⟨count, zeros⟩, current⟩ := held
  have none : c.others = [] ↔ 0 ∉ c.others := by
    rw [zeros, List.replicate_eq_nil_iff, List.mem_replicate]
    simp
  by_cases isOpen : c.connected = true
  · have positive : 0 < c.sockfd := of_decide_eq_true isOpen
    rw [none, current isOpen, List.mem_cons, not_or]
    exact ⟨fun absent => ⟨by omega, absent⟩, fun absent => absent.2⟩
  · rw [none, others, if_neg isOpen]

theorem held_initial : initial.Held := ⟨⟨0, rfl⟩, by simp [initial, connected]⟩

/-- The descriptors are accounted for after every history of calls. -/
theorem held_after (uri : Str) (history : List (Call sexpr))
    (fits : ∀ call ∈ history, ∀ chunk, .data chunk ∈ call.net.recvs → Backend.simple.Fits chunk) :
    (after uri history).Held := by
  induction history using List.reverseRecOn with
  | nil => exact held_initial
  | append_singleton history call ih =>
      have before := ih fun earlier member => fits earlier (List.mem_append_left _ member)
      have outcome := call_outcome uri (after uri history) call (fits call (by simp))
      rw [after, List.foldl_append]
      exact before.outcome outcome

/-- A call that throws leaves the node disconnected and no descriptor open exactly
when no `send` and no `recv` failed behind the connect, the descriptor was not
zero, and no descriptor zero is left over from an earlier call. -/
theorem call_threw_iff (uri : Str) (history : List (Call sexpr)) (call : Call sexpr)
    (fits : ∀ call' ∈ call :: history, ∀ chunk, .data chunk ∈ call'.net.recvs →
      Backend.simple.Fits chunk)
    (thrown : ((after uri history).call uri call).1 = .threw) :
    (((after uri history).call uri call).2.connected = false ∧
        ((after uri history).call uri call).2.opened = []) ↔
      ¬ call.Breaks uri ∧ 0 ∉ (after uri history).opened := by
  have held := held_after uri history fun earlier member => fits earlier (.tail _ member)
  have outcome := call_outcome uri (after uri history) call (fits call (.head _))
  generalize after uri history = c at *
  rcases result : c.call uri call with ⟨ending, c'⟩
  rw [result] at outcome thrown
  obtain rfl : ending = .threw := thrown
  cases outcome with
  | kept threw =>
      obtain ⟨isOpen, breaks⟩ := threw rfl
      refine iff_of_false ?_ fun condition => condition.1 breaks
      intro clean
      rw [isOpen] at clean
      cases clean.1
  | obtained fd before threw =>
      refine iff_of_false ?_ fun condition => condition.1 (threw rfl)
      intro clean
      cases clean.2
  | shut afterwards opened threw =>
      rw [opened, held.others_eq_nil_iff]
      simp only [afterwards, true_and, threw rfl, not_false_eq_true]

/-- The greeting is sent and the prompt cannot be read: the socket stays open and
the node goes on as if it were connected. -/
theorem call_threw_connected :
    ¬ ∀ (uri : Str) (history : List (Call plainFrames)) (call : Call plainFrames),
      (∀ call' ∈ call :: history, ∀ chunk, .data chunk ∈ call'.net.recvs →
        Backend.simple.Fits chunk) →
      ((after uri history).call uri call).1 = .threw →
        ((after uri history).call uri call).2.connected = false ∧
          ((after uri history).call uri call).2.opened = [] := by
  intro always
  have failed := always (bytes "cog://example.com") []
    (.opening ⟨fun _ _ => some [⟨some 3, true⟩], [.sent 6], [.error]⟩)
    (by simp [Call.net]) (by decide)
  revert failed
  decide

/-- No address of the server connects. -/
def refused : Call plainFrames := .opening ⟨fun _ _ => some [⟨some 3, false⟩], [], []⟩

/-- Two calls in a row that find no server. -/
theorem call_threw_refused :
    (((after (bytes "cog://h") [refused]).call (bytes "cog://h") refused).2.connected = false ∧
        ((after (bytes "cog://h") [refused]).call (bytes "cog://h") refused).2.opened = []) ↔
      ¬ refused.Breaks (bytes "cog://h") ∧ 0 ∉ (after (bytes "cog://h") [refused]).opened :=
  call_threw_iff (bytes "cog://h") [refused] refused (by simp [refused, Call.net]) (by decide)

end Connection

end AtomSpaceCog.Simple
