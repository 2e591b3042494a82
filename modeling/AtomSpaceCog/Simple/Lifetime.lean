import AtomSpaceCog.Simple.Connect
import AtomSpaceCog.Simple.Guarded

/-! # The descriptors of a node

What a `CogSimpleStorage` has open in the course of its life. Whatever calls are made and whatever
the network does, it is the descriptor in `_sockfd` as long as `connected()`, and nothing else: each
descriptor that `socket` gave is closed before it is forgotten. The exception is the descriptor
zero, which `connected()` takes for none.
-/

namespace AtomSpaceCog.Simple

section Programs

variable {Local : Type}

/-- The operation neither closes the socket nor forgets the descriptor, unless `do_recv` does. -/
def Prog.LeavesOpen : Prog Local → Prop
  | .exit _ | .stuck => True
  | .touch _ next => ∀ locals, (next locals).LeavesOpen
  | .connected next => ∀ isOpen, (next isOpen).LeavesOpen
  | .lock next | .unlock next | .send _ next => next.LeavesOpen
  | .recv next => ∀ reply, (next reply).LeavesOpen
  | .closeSocket _ | .clearSocket _ => False

theorem Prog.Guarded.leavesOpen {prog : Prog Local} {held : Bool}
    (guarded : prog.Guarded false held) : prog.LeavesOpen := by
  induction prog generalizing held with
  | exit | stuck => trivial
  | touch change next ih => exact fun locals => ih locals (guarded locals)
  | connected next ih => exact fun isOpen => ih isOpen (guarded isOpen)
  | lock next ih => exact ih guarded.2
  | unlock next ih => exact ih guarded
  | send msg next ih => exact ih guarded.2
  | recv next ih => exact fun reply => ih reply (guarded reply)
  | closeSocket next | clearSocket next => exact absurd guarded.1 Bool.false_ne_true

end Programs

namespace Connection

variable {sexpr : FrameSexpr} {Zero : Prop} {c : Connection}

/-- The descriptor that the node uses, if it has one. -/
def current (c : Connection) : List Int := if c.connected then [c.sockfd] else []

/-- What is open is the descriptor that is used, and zeros if any were given. -/
def Accounted (Zero : Prop) (c : Connection) : Prop :=
  ∃ count, c.opened = c.current ++ List.replicate count 0 ∧ (count = 0 ∨ Zero)

theorem accounted_initial : initial.Accounted Zero := ⟨0, rfl, Or.inl rfl⟩

/-- The descriptor is closed, and is not used any more. -/
theorem Accounted.shut (accounted : c.Accounted Zero) {sockfd : Int} (none : ¬ 0 < sockfd) :
    (⟨sockfd, c.unistdClose.opened⟩ : Connection).Accounted Zero := by
  obtain ⟨count, opened, zeros⟩ := accounted
  have unused : (⟨sockfd, c.unistdClose.opened⟩ : Connection).current = [] :=
    if_neg (by simp [connected, none])
  unfold Accounted
  rw [unused, unistdClose, opened, current]
  split
  · exact ⟨count, List.erase_cons_head .., zeros⟩
  · by_cases zero : c.sockfd = 0
    · exact ⟨count - 1, by simp [zero], zeros.imp_left fun none => by rw [none]⟩
    · exact ⟨count, by simp [zero], zeros⟩

/-- No descriptor was used, and none is. -/
theorem Accounted.unset (accounted : c.Accounted Zero) (before : c.connected = false) {sockfd : Int}
    (none : ¬ 0 < sockfd) : (⟨sockfd, c.opened⟩ : Connection).Accounted Zero := by
  obtain ⟨count, opened, zeros⟩ := accounted
  have unused : (⟨sockfd, c.opened⟩ : Connection).current = [] := if_neg (by simp [connected, none])
  have used : c.current = [] := if_neg (by simp [before])
  exact ⟨count, by rw [unused, ← used]; exact opened, zeros⟩

/-- A descriptor is given where there was none. -/
theorem Accounted.given (accounted : c.Accounted Zero) (before : c.connected = false) {fd : Nat}
    (zero : fd = 0 → Zero) : (⟨fd, fd :: c.opened⟩ : Connection).Accounted Zero := by
  obtain ⟨count, opened, zeros⟩ := accounted
  have used : c.current = [] := if_neg (by simp [before])
  rw [used, List.nil_append] at opened
  unfold Accounted
  rw [current, connected_obtained, opened]
  by_cases none : fd = 0
  · exact ⟨count + 1, by simp [none, List.replicate_succ], Or.inr (zero none)⟩
  · exact ⟨count, by simp [none], zeros⟩

theorem Accounted.doRecv (accounted : c.Accounted Zero) (garbage : Bool) (recvs : List RecvResult) :
    (c.doRecv garbage recvs).2.1.Accounted Zero := by
  by_cases isOpen : 0 < c.sockfd
  · simp only [Connection.doRecv, Backend.doRecv, Backend.socketOpen, isOpen, decide_true,
      ↓reduceIte]
    generalize receiveLoop garbage true [] recvs = result
    obtain ⟨received, rest⟩ := result
    cases received with
    | disconnected => exact accounted.shut (Int.lt_irrefl 0)
    | _ => exact accounted
  · simp only [Connection.doRecv, Backend.doRecv, Backend.socketOpen, isOpen, decide_false,
      Bool.false_eq_true, ↓reduceIte, reduceCtorEq]
    exact accounted

/-- An operation keeps account, wherever it ends. -/
theorem Accounted.over {Local : Type} {prog : Prog Local} (accounted : c.Accounted Zero)
    (leaves : prog.LeavesOpen) (state : Local) (sends : List SendResult) (recvs : List RecvResult) :
    (prog.over state c sends recvs).2.Accounted Zero := by
  induction prog generalizing state c sends recvs with
  | exit how | stuck => exact accounted
  | touch change next ih => exact ih _ accounted (leaves _) _ _ _
  | connected next ih => exact ih _ accounted (leaves _) _ _ _
  | lock next ih | unlock next ih => exact ih accounted leaves _ _ _
  | send msg next ih =>
      simp only [Prog.over]
      split
      · exact ih accounted leaves _ _ _
      · exact accounted
  | recv next ih =>
      have after := accounted.doRecv false recvs
      simp only [Prog.over]
      split
      · next result => exact ih _ (by rwa [result] at after) (leaves _) _ _ _
      · next result => rwa [result] at after
      · next result => rwa [result] at after
  | closeSocket next | clearSocket next => exact leaves.elim

/-- `close` keeps account. -/
theorem Accounted.close (accounted : c.Accounted Zero) (id : UInt64) (node : Node sexpr)
    (sends : List SendResult) (recvs : List RecvResult) :
    ((CogSimpleStorage.close id (.exit .returned) : SimpleProg sexpr).over node c sends
      recvs).2.Accounted Zero := by
  simp only [CogSimpleStorage.close, Prog.over]
  by_cases isOpen : c.connected = true
  · rw [if_pos isOpen]
    simp only [CogSimpleStorage.proxyClose, CogSimpleStorage.barrier, tell, Prog.over]
    have after := accounted.doRecv false recvs
    split
    · split
      · split
        · next result =>
            rw [result] at after
            exact after.shut (by decide)
        · next result => rwa [result] at after
        · next result => rwa [result] at after
      · exact accounted
    · exact accounted
  · rw [if_neg isOpen]
    exact accounted.unset (Bool.eq_false_iff.mpr isOpen) (by decide)

/-- `open` keeps account. -/
theorem Accounted.openStorage (accounted : c.Accounted Zero) (uri : Str) {net : Network}
    (zero : ∀ host port servinfo, net.getaddrinfo host port = some servinfo →
      firstConnected servinfo = some 0 → Zero) : (c.openStorage uri net).2.Accounted Zero := by
  unfold Connection.openStorage
  by_cases isOpen : c.connected = true
  · rw [if_pos isOpen]
    exact accounted
  rw [if_neg isOpen]
  have before : c.connected = false := Bool.eq_false_iff.mpr isOpen
  split
  · exact accounted
  · next servinfo resolved =>
      cases found : firstConnected servinfo with
      | none =>
          obtain ⟨missing, shut, opened⟩ := tryAddresses_none found before
          rcases tried : c.tryAddresses servinfo with ⟨c', connects⟩
          rw [tried] at missing shut opened
          obtain rfl : connects = false := missing
          have forgot := accounted.unset before (of_decide_eq_false shut)
          rw [← opened] at forgot
          exact forgot
      | some fd =>
          have obtained := accounted.given before fun none => zero _ _ _ resolved (none ▸ found)
          have after := obtained.doRecv true net.recvs
          simp only [tryAddresses_some found]
          split
          · exact obtained
          · exact obtained
          · split
            · next result => rwa [result] at after
            · next result => rwa [result] at after
            · next result => rwa [result] at after

end Connection

section Histories

variable {sexpr : FrameSexpr}

/-- A call on a node: `open`, or an operation with what `send` and `recv` give in its course. -/
inductive Use (sexpr : FrameSexpr) where
  | opening (net : Network)
  | operation (op : SimpleOp sexpr) (node : Node sexpr) (sends : List SendResult)
      (recvs : List RecvResult)

/-- The socket that connects has the descriptor zero. -/
def Use.GivesZero : Use sexpr → Prop
  | .opening net => ∃ host port servinfo, net.getaddrinfo host port = some servinfo ∧
      firstConnected servinfo = some 0
  | .operation _ _ _ _ => False

namespace Connection

/-- A call, and what it makes of the connection. -/
def undergo (own : Option SpaceId) (uri : Str) (c : Connection) : Use sexpr → Ending × Connection
  | .opening net => c.openStorage uri net
  | .operation op node sends recvs => (CogSimpleStorage.prog own op).over node c sends recvs

/-- The connection after some calls. -/
def used (own : Option SpaceId) (uri : Str) (uses : List (Use sexpr)) : Connection :=
  uses.foldl (fun c one => (c.undergo own uri one).2) initial

theorem Accounted.undergo {Zero : Prop} {c : Connection} (accounted : c.Accounted Zero)
    (own : Option SpaceId) (uri : Str) {one : Use sexpr} (zero : one.GivesZero → Zero) :
    (c.undergo own uri one).2.Accounted Zero := by
  cases one with
  | opening net =>
      exact accounted.openStorage uri fun host port servinfo resolved found =>
        zero ⟨host, port, servinfo, resolved, found⟩
  | operation op node sends recvs =>
      have guarded := guarded_prog own op
      cases op with
      | close id => exact accounted.close id node sends recvs
      | proxyOpen | proxyClose =>
          refine accounted.over ?_ node sends recvs
          exact fun _ => trivial
      | _ => exact accounted.over guarded.leavesOpen node sends recvs

/-- After any calls of `open`, `close` and the other operations, whether they return, throw or still
wait: what the node has open is the descriptor in `_sockfd` if it is connected, and nothing if it is
not, but for zeros; and there are none of these unless a socket that connects is given the
descriptor zero. -/
theorem descriptors_accounted (own : Option SpaceId) (uri : Str) (uses : List (Use sexpr)) :
    ∃ zeros, (used own uri uses).opened = (used own uri uses).current ++ List.replicate zeros 0 ∧
      (zeros = 0 ∨ ∃ one ∈ uses, one.GivesZero) := by
  suffices kept : ∀ (Zero : Prop) (c : Connection), c.Accounted Zero →
      (∀ one ∈ uses, one.GivesZero → Zero) →
        (uses.foldl (fun c one => (c.undergo own uri one).2) c).Accounted Zero from
    kept _ initial accounted_initial fun one member gives => ⟨one, member, gives⟩
  intro Zero c accounted zero
  induction uses generalizing c with
  | nil => exact accounted
  | cons one uses ih =>
      exact ih _ (accounted.undergo own uri (zero one List.mem_cons_self)) fun other member =>
        zero other (List.mem_cons_of_mem _ member)

end Connection

end Histories

end AtomSpaceCog.Simple
