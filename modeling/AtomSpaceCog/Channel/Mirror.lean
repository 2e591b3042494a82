import AtomSpaceCog.Channel.Keeping
import AtomSpaceCog.Channel.Delivery

/-! # Duplicates dropped and duplicates kept

While only operations run that put harmless messages on the queue, a channel whose buffer
keeps everything can follow one whose buffer drops duplicates (`Config.Mirrors`). It makes
the same steps of the program. When the server executes an element of the one, a worker of
the other handles all the elements that this one stands for. Both servers are then always in
the same state.
-/

namespace AtomSpaceCog

open Dedup Transition

variable {S : Setting}

/-- The step is one of a client thread, or of the program around it. -/
def Action.ofProgram : Action S → Bool
  | .block _ _ | .take _ _ | .send _ | .receive _ | .work _ | .serve _ | .arrive _ | .release _ _ => false
  | _ => true

/-- The script only reads, and puts harmless messages on the queue. -/
def Script.Stores : Script S.toSignature S.Local → Prop
  | .exit _ => True
  | .connected next => ∀ isOpen, (next isOpen).Stores
  | .read next => ∀ state, (next state).Stores
  | .enqueue request next => (∀ counter, (request.toMsg counter).1.Harmless) ∧ next.Stores
  | .barrier _ | .synchro _ _ | .closeConnection _ => False

def Caller.Stores : Caller S → Prop
  | .idle => True
  | .running _ _ script => script.Stores
  | .fencing _ _ _ _ | .asking _ _ _ _ => False

/-- No other operation is called. -/
def Action.Stores : Action S → Prop
  | .start _ op => (S.script op).Stores
  | _ => True

/-- A harmless element, numbered from `first` on. -/
def Recent (first : Nat) (entry : Entry S.toSignature) : Prop :=
  first ≤ entry.tag ∧ entry.value.Harmless

/-- The worker has only such an element to handle. -/
def Worker.Stores (first : Nat) : Worker S → Prop
  | .idle => True
  | .sending entry | .waiting entry => Recent first entry
  | .running _ rest => rest = .done

namespace Config

/-- Nobody is in an operation, and nothing is on the queue or with a worker. The server may
still have messages to read. -/
structure Rested (s : Config S) : Prop where
  callers : ∀ thread, s.caller thread = .idle
  pending : s.pending = []
  workers : ∀ worker, s.worker worker = .idle
  free : ¬ s.Blocking

/-- And the server has read everything. -/
def Settled (s : Config S) : Prop := s.Rested ∧ ∀ sock, s.inbox sock = []

/-- What was asked for, and by which operations, in order. -/
def asked (s : Config S) : List (Msg S.toSignature × Option S.Op) :=
  s.calls.map fun call => (call.msg, call.source)

/-- From the call with the number `first` on, only harmless messages were queued. -/
structure Storing (first : Nat) (s : Config S) : Prop where
  callers : ∀ thread, (s.caller thread).Stores
  workers : ∀ worker, (s.worker worker).Stores first
  pending : ∀ entry ∈ s.pending, Recent first entry
  entries : ∀ call ∈ s.calls, first ≤ call.index → first ≤ call.entry
  late : first ≤ s.calls.length
  free : ¬ s.Blocking

namespace Storing

variable {first : Nat} {s next : Config S}

theorem setCaller (storing : s.Storing first) (thread : ThreadId) {caller : Caller S}
    (stores : caller.Stores) : (s.setCaller thread caller).Storing first :=
  { storing with
    callers := (Function.forall_update_iff s.caller fun _ caller => caller.Stores).mpr
      ⟨stores, fun other _ => storing.callers other⟩
    free := storing.free }

theorem setWorker (storing : s.Storing first) (worker : WorkerId) {state : Worker S}
    (stores : state.Stores first) : (s.setWorker worker state).Storing first :=
  { storing with
    workers := (Function.forall_update_iff s.worker fun _ state => state.Stores first).mpr
      ⟨stores, fun other _ => storing.workers other⟩
    free := storing.free }

theorem insert (storing : s.Storing first) (source : Option S.Op) {request : Request S.toSignature}
    (harmless : ∀ counter, (request.toMsg counter).1.Harmless) :
    (s.insert source request).Storing first :=
  { storing with
    pending := by
      intro entry inside
      rw [insert_pending] at inside
      rcases mem_offer inside with prior | rfl
      · exact storing.pending entry prior
      · exact ⟨storing.late, harmless s.counter⟩
    entries := by
      intro call member recent
      rw [insert_calls] at member
      rcases List.mem_append.mp member with prior | new
      · exact storing.entries call prior recent
      rw [List.mem_singleton.mp new]
      rcases offer_cases Msg.Equivalent s.pending s.calls.length (request.toMsg s.counter).1 with
        ⟨twin, inside, -, -, stands⟩ | ⟨-, -, stands⟩
      · exact stands.symm ▸ (storing.pending twin inside).1
      · exact stands.symm ▸ storing.late
    late := by
      rw [insert_calls, List.length_append]
      exact storing.late.trans (Nat.le_add_right _ _)
    free := storing.free }

theorem caller_stores (storing : s.Storing first) {thread : ThreadId} {caller : Caller S}
    (here : s.caller thread = caller) : caller.Stores := here ▸ storing.callers thread

theorem worker_stores (storing : s.Storing first) {worker : WorkerId} {state : Worker S}
    (here : s.worker worker = state) : state.Stores first := here ▸ storing.workers worker

theorem step (storing : s.Storing first) {action : Action S} (stores : action.Stores)
    (taken : s.step action = some next) : next.Storing first := by
  cases moves_of_step taken with
  | start => exact storing.setCaller _ stores
  | exit => exact storing.setCaller _ trivial
  | connected here => exact storing.setCaller _ (storing.caller_stores here s.isOpen)
  | read here => exact storing.setCaller _ (storing.caller_stores here s.locals)
  | enqueue here =>
      have script := storing.caller_stores here
      exact (storing.insert _ script.1).setCaller _ script.2
  | ask here | closeConnection here | barrier here | drain here | finish here | answer here =>
      exact (storing.caller_stores here).elim
  | edit | serve | serveSynchro | arrive | release => exact { storing with free := storing.free }
  | block idle known drained notRan => exact absurd ⟨_, known, drained, _, notRan⟩ storing.free
  | @take worker number entry idle member numbered free =>
      have fewer : { s with pending := s.pending.filter fun entry => entry.tag ≠ number }.Storing first :=
        { storing with
          pending := fun other inside => storing.pending other (List.mem_of_mem_filter inside)
          free := storing.free }
      exact fewer.setWorker worker (storing.pending entry member)
  | @send worker entry here =>
      have sent : ({ s with handed := s.handed ++ [entry] }.push (.worker worker)
          (.request entry)).Storing first := { storing with free := storing.free }
      have recent : Recent first entry := storing.worker_stores here
      refine sent.setWorker worker ?_
      split
      · trivial
      · exact recent
  | @receive worker entry reply rest here arrived =>
      have recent : Recent first entry := storing.worker_stores here
      have read : Storing first { s with
          outbox := Function.update s.outbox (.worker worker) rest
          runs := s.runs ++ [(⟨entry.value.client, entry.value.callback, entry.value.data,
            reply.text, reply.answers.text, s.calls.length⟩ : HandlerRun S.toSignature)] } :=
        { storing with free := storing.free }
      exact read.setWorker worker (recent.2.silent reply.text)
  | rest => exact storing.setWorker _ trivial
  | workInsert here => cases storing.worker_stores here
  | workTouch here => cases storing.worker_stores here

end Storing

section Copies

variable {s : Config S}

/-- The elements of a buffer that keeps everything that one element stands for. -/
def copies (s : Config S) (number : Nat) : List (Entry S.toSignature) :=
  (s.calls.filter fun call => call.entry = number).map fun call => ⟨call.index, call.msg⟩

theorem mem_copies {number : Nat} {copy : Entry S.toSignature} :
    copy ∈ copies s number ↔ ∃ call ∈ s.calls, call.entry = number ∧ copy = ⟨call.index, call.msg⟩ := by
  simp only [copies, List.mem_map, List.mem_filter, decide_eq_true_eq, and_assoc]
  exact exists_congr fun call => and_congr_right fun _ => and_congr_right fun _ => eq_comm

theorem copies_nodup (ledger : s.Ledger) (number : Nat) :
    ((copies s number).map Tagged.tag).Nodup := by
  have distinct : (s.calls.map Call.index).Nodup := by
    rw [ledger.numbered]
    exact List.nodup_range
  rw [copies, List.map_map]
  exact distinct.sublist (List.filter_sublist.map _)

/-- An element on its way stands for some call, and its copies all have its text. -/
theorem copies_text (census : s.Census) {entry : Entry S.toSignature} (handed : entry ∈ s.handed) :
    copies s entry.tag ≠ [] ∧
      ∀ copy ∈ copies s entry.tag, copy.value.strToSend = entry.value.strToSend := by
  constructor
  · obtain ⟨call, member, kept, index, -⟩ := census.registered entry (Or.inr (Or.inr handed))
    exact List.ne_nil_of_mem (mem_copies.mpr ⟨call, member, kept.trans index, rfl⟩)
  · intro copy member
    obtain ⟨call, inside, number, rfl⟩ := mem_copies.mp member
    obtain ⟨other, accepted, tagged, same⟩ := census.stands call inside
    have equal := census.ledger.eq_of_handed accepted handed (tagged.trans number)
    exact equal ▸ same

end Copies

/-- The channel `k`, which keeps everything, has followed the channel `s`. -/
structure Mirrors (first : Nat) (s k : Config S) : Prop where
  isOpen : k.isOpen = s.isOpen
  counter : k.counter = s.counter
  caller : k.caller = s.caller
  locals : k.locals = s.locals
  space : k.space = s.space
  held : k.held = s.held
  asked : k.asked = s.asked
  workers : ∀ worker, k.worker worker = .idle
  free : ¬ k.Blocking
  outbox : ∀ worker : WorkerId, k.outbox (.worker worker) = []
  /-- On the sockets of `k` is what was there at the beginning. -/
  inbox : ∀ sock, ∃ later : List (Entry S.toSignature),
    s.inbox sock = k.inbox sock ++ later.map .request ∧ ∀ entry ∈ later, Recent first entry
  expects : ∀ worker : WorkerId, ∀ wire ∈ k.inbox (.worker worker), wire.expects = false
  old : ∀ sock entry, .request entry ∈ k.inbox sock → entry.tag < first
  /-- Pending are the calls whose elements have not been executed. -/
  pending : ∀ entry, entry ∈ k.pending ↔ ∃ call ∈ s.calls, first ≤ call.index ∧
    entry = ⟨call.index, call.msg⟩ ∧ ∀ ran ∈ s.executed, ran.tag ≠ call.entry
  harmless : ∀ entry ∈ k.pending, entry.value.Harmless
  distinct : (k.pending.map Tagged.tag).Nodup

namespace Mirrors

variable {first : Nat} {s next k : Config S}

/-- Nobody waits on the socket of a worker at rest. -/
theorem owed_nil (rested : s.Rested) (paired : s.Paired) (worker : WorkerId) :
    s.owed (.worker worker) = [] := by
  refine (congrFun paired (.worker worker)).trans ?_
  rw [awaited, rested.workers worker]
  rfl

/-- A channel follows itself when it begins. -/
theorem refl (rested : s.Rested) (ledger : s.Ledger) (wired : s.Wired) (paired : s.Paired) :
    s.Mirrors s.calls.length s where
  isOpen := rfl
  counter := rfl
  caller := rfl
  locals := rfl
  space := rfl
  held := rfl
  asked := rfl
  workers := rested.workers
  free := rested.free
  outbox worker := List.map_eq_nil_iff.mp (List.append_eq_nil_iff.mp (owed_nil rested paired worker)).1
  inbox sock := ⟨[], (List.append_nil _).symm, fun _ member => absurd member List.not_mem_nil⟩
  expects worker wire inside := by
    have none := (List.append_eq_nil_iff.mp (owed_nil rested paired worker)).2
    simpa using List.filter_eq_nil_iff.mp none wire inside
  old sock entry inside := ledger.below entry (Or.inr (Or.inr (wired.request sock entry inside).2))
  pending entry := by
    rw [rested.pending]
    refine ⟨fun member => absurd member List.not_mem_nil, ?_⟩
    intro left
    obtain ⟨call, member, recent, -⟩ := left
    exact absurd (ledger.index_lt member) recent.not_gt
  harmless := by
    rw [rested.pending]
    exact fun _ member => absurd member List.not_mem_nil
  distinct := by
    rw [rested.pending]
    exact List.nodup_nil

variable (mirrors : s.Mirrors first k)
include mirrors

theorem length : k.calls.length = s.calls.length := by
  have same : k.asked.length = s.asked.length := congrArg List.length mirrors.asked
  rwa [Config.asked, Config.asked, List.length_map, List.length_map] at same

theorem setCaller (thread : ThreadId) (caller : Caller S) :
    Mirrors first (s.setCaller thread caller) (k.setCaller thread caller) :=
  { mirrors with
    caller := by
      change Function.update k.caller thread caller = Function.update s.caller thread caller
      rw [mirrors.caller]
    free := mirrors.free }

theorem edit (change : S.Local → S.Local) :
    Mirrors first { s with locals := change s.locals } { k with locals := change k.locals } :=
  { mirrors with
    locals := congrArg change mirrors.locals
    free := mirrors.free }

/-- A call puts its message on both queues, but a duplicate only on one. -/
theorem insert (ledger : s.Ledger) (wired : s.Wired) (late : first ≤ s.calls.length)
    (source : Option S.Op) {request : Request S.toSignature}
    (harmless : ∀ counter, (request.toMsg counter).1.Harmless) :
    Mirrors first (s.insert source request)
      (k.keepInsert { k with counter := (request.toMsg k.counter).2 } source request) :=
  { mirrors with
    counter := by
      change (request.toMsg k.counter).2 = (request.toMsg s.counter).2
      rw [mirrors.counter]
    asked := by
      have same : k.asked = s.asked := mirrors.asked
      change List.map _ (k.calls ++ [_]) = List.map _ (s.calls ++ [_])
      rw [List.map_append, List.map_append, mirrors.counter]
      exact congrArg (· ++ [((request.toMsg s.counter).1, source)]) same
    free := mirrors.free
    pending := by
      intro entry
      have executed : ∀ ran ∈ s.executed, ran.tag ≠
          standsFor Msg.Equivalent s.pending s.calls.length (request.toMsg s.counter).1 := by
        intro ran member
        have sent := wired.executed ran member
        rcases offer_cases Msg.Equivalent s.pending s.calls.length (request.toMsg s.counter).1 with
          ⟨twin, inside, -, -, stands⟩ | ⟨-, -, stands⟩
        · rw [stands]
          exact ledger.apart ran sent twin inside
        · rw [stands]
          exact (ledger.below ran (Or.inr (Or.inr sent))).ne
      change entry ∈ k.pending ++ [_] ↔ _
      rw [insert_calls, List.mem_append, mirrors.pending, mirrors.length, mirrors.counter,
        List.mem_singleton]
      simp only [List.mem_append, List.mem_singleton]
      constructor
      · intro inside
        rcases inside with ⟨call, member, rest⟩ | rfl
        · exact ⟨call, Or.inl member, rest⟩
        · exact ⟨_, Or.inr rfl, late, rfl, executed⟩
      · intro left
        obtain ⟨call, member, recent, same, rest⟩ := left
        rcases member with prior | rfl
        · exact Or.inl ⟨call, prior, recent, same, rest⟩
        · exact Or.inr same
    harmless := by
      intro entry inside
      rcases List.mem_append.mp inside with prior | new
      · exact mirrors.harmless entry prior
      · rw [List.mem_singleton.mp new]
        exact harmless k.counter
    distinct := by
      change ((k.pending ++ [_]).map Tagged.tag).Nodup
      rw [List.map_append]
      refine mirrors.distinct.append (List.nodup_singleton _) ?_
      intro number inside new
      obtain ⟨entry, member, rfl⟩ := List.mem_map.mp inside
      obtain ⟨call, prior, -, rfl, -⟩ := (mirrors.pending entry).mp member
      have below := ledger.index_lt prior
      have same : call.index = k.calls.length := List.mem_singleton.mp new
      rw [mirrors.length] at same
      omega }

/-- Elements that are sent later than `first` are for the other channel to forget. -/
theorem send {worker : WorkerId} {entry : Entry S.toSignature} (recent : Recent first entry)
    {state : Worker S} : Mirrors first
      (({ s with handed := s.handed ++ [entry] }.push (.worker worker) (.request entry)).setWorker
        worker state) k :=
  { mirrors with
    inbox := by
      intro sock
      obtain ⟨later, same, all⟩ := mirrors.inbox sock
      change ∃ later, Function.update s.inbox _ _ sock = _ ∧ _
      by_cases own : sock = .worker worker
      · subst own
        refine ⟨later ++ [entry], ?_, ?_⟩
        · rw [Function.update_self]
          change s.inbox (.worker worker) ++ _ = _
          rw [same, List.map_append, List.append_assoc]
          rfl
        · intro other member
          rcases List.mem_append.mp member with prior | new
          · exact all other prior
          · exact List.mem_singleton.mp new ▸ recent
      · rw [Function.update_of_ne own]
        exact ⟨later, same, all⟩ }

/-- What the server still had to read at the beginning it serves for both. -/
theorem serve_old {sock : SockId} {wire : Wire S.toSignature} {rest old : List (Wire S.toSignature)}
    (arrived : s.inbox sock = wire :: rest) (here : k.inbox sock = wire :: old) :
    ∀ other, ∃ later : List (Entry S.toSignature),
      Function.update s.inbox sock rest other =
        Function.update k.inbox sock old other ++ later.map .request ∧
      ∀ entry ∈ later, Recent first entry := by
  intro other
  obtain ⟨later, same, all⟩ := mirrors.inbox other
  refine ⟨later, ?_, all⟩
  by_cases own : other = sock
  · subst own
    rw [here, arrived, List.cons_append] at same
    rw [Function.update_self, Function.update_self]
    exact (List.cons.inj same).2
  · rw [Function.update_of_ne own, Function.update_of_ne own]
    exact same

theorem head_eq {sock : SockId} {wire wire' : Wire S.toSignature} {rest old : List (Wire S.toSignature)}
    (arrived : s.inbox sock = wire' :: rest) (here : k.inbox sock = wire :: old) : wire = wire' := by
  obtain ⟨later, same, -⟩ := mirrors.inbox sock
  rw [arrived, here, List.cons_append] at same
  exact (List.cons.inj same).1.symm

/-- An element from before `first` stands for no later call. -/
theorem pending_of_old {sock : SockId} {entry : Entry S.toSignature}
    (entries : ∀ call ∈ s.calls, first ≤ call.index → first ≤ call.entry)
    (inside : .request entry ∈ k.inbox sock) (other : Entry S.toSignature) :
    other ∈ k.pending ↔ ∃ call ∈ s.calls, first ≤ call.index ∧ other = ⟨call.index, call.msg⟩ ∧
      ∀ ran ∈ s.executed ++ [entry], ran.tag ≠ call.entry := by
  have below := mirrors.old sock entry inside
  rw [mirrors.pending]
  refine exists_congr fun call => and_congr_right fun member => and_congr_right fun recent =>
    and_congr_right fun _ => ?_
  rw [List.forall_mem_append, List.forall_mem_singleton]
  refine (and_iff_left ?_).symm
  exact (below.trans_le (entries call member recent)).ne

/-- The server executes an element from before `first`. -/
theorem serve_request {sock : SockId} {entry : Entry S.toSignature}
    {rest old : List (Wire S.toSignature)}
    (entries : ∀ call ∈ s.calls, first ≤ call.index → first ≤ call.entry)
    (arrived : s.inbox sock = .request entry :: rest) (here : k.inbox sock = .request entry :: old)
    {outbox : SockId → List (Reply S.toSignature)} :
    Mirrors first
      { s with
        inbox := Function.update s.inbox sock rest
        space := (S.run entry.value.strToSend s.space).1
        executed := s.executed ++ [entry]
        outbox := outbox }
      { k with
        inbox := Function.update k.inbox sock old
        space := (S.run entry.value.strToSend k.space).1
        executed := k.executed ++ [entry] } := by
  have inside : Wire.request entry ∈ k.inbox sock := by
    rw [here]
    exact List.mem_cons_self
  have kept : ∀ {other wire}, wire ∈ Function.update k.inbox sock old other → wire ∈ k.inbox other :=
    fun member => Wired.mem_serve here member
  exact
    { mirrors with
      space := by
        change (S.run _ k.space).1 = (S.run _ s.space).1
        rw [mirrors.space]
      free := mirrors.free
      inbox := mirrors.serve_old arrived here
      expects := fun other wire member => mirrors.expects other wire (kept member)
      old := fun other element member => mirrors.old other element (kept member)
      pending := mirrors.pending_of_old entries inside }

/-- The server executes a request that was sent on a client thread's own socket. -/
theorem serve_synchro {sock : SockId} {thread : ThreadId} {msg : Str}
    {rest old : List (Wire S.toSignature)} (arrived : s.inbox sock = .synchro thread msg :: rest)
    (here : k.inbox sock = .synchro thread msg :: old)
    {outbox outbox' : SockId → List (Reply S.toSignature)}
    (same : ∀ worker : WorkerId, outbox' (.worker worker) = k.outbox (.worker worker)) :
    Mirrors first
      { s with
        inbox := Function.update s.inbox sock rest
        space := (S.run msg s.space).1
        outbox := outbox }
      { k with
        inbox := Function.update k.inbox sock old
        space := (S.run msg k.space).1
        outbox := outbox' } := by
  have kept : ∀ {other wire}, wire ∈ Function.update k.inbox sock old other → wire ∈ k.inbox other :=
    fun member => Wired.mem_serve here member
  exact
    { mirrors with
      space := by
        change (S.run _ k.space).1 = (S.run _ s.space).1
        rw [mirrors.space]
      free := mirrors.free
      outbox := fun worker => (same worker).trans (mirrors.outbox worker)
      inbox := mirrors.serve_old arrived here
      expects := fun other wire member => mirrors.expects other wire (kept member)
      old := fun other element member => mirrors.old other element (kept member) }

/-- The server reaches a barrier from before `first`. -/
theorem arrive {held : SockId → Bool} :
    Mirrors first { s with held := held } { k with held := held } :=
  { mirrors with held := rfl, free := mirrors.free }

/-- Only blocks from before `first` are on the sockets. -/
theorem heldAt {id : UInt64} {sock : SockId} (reached : s.HeldAt id sock) :
    k.HeldAt id sock ∧ k.inbox sock ≠ [] := by
  obtain ⟨held, block⟩ := reached
  obtain ⟨later, same, -⟩ := mirrors.inbox sock
  cases here : k.inbox sock with
  | nil =>
      rw [same, here, List.nil_append] at block
      cases later <;> exact block.elim
  | cons wire old =>
      rw [same, here, List.cons_append] at block
      refine ⟨⟨?_, ?_⟩, List.cons_ne_nil _ _⟩
      · rw [mirrors.held, held]
      · rw [here]
        cases wire <;> exact block

/-- The server goes on after a barrier from before `first`. -/
theorem release {id : UInt64} {socks : List SockId} (reached : ∀ sock ∈ socks, s.HeldAt id sock) :
    Mirrors first
      { s with
        inbox := fun sock => if sock ∈ socks then (s.inbox sock).tail else s.inbox sock
        held := fun sock => if sock ∈ socks then false else s.held sock }
      { k with
        inbox := fun sock => if sock ∈ socks then (k.inbox sock).tail else k.inbox sock
        held := fun sock => if sock ∈ socks then false else k.held sock } :=
  { mirrors with
    held := by
      funext sock
      dsimp only
      rw [mirrors.held]
    free := mirrors.free
    inbox := by
      intro sock
      obtain ⟨later, same, all⟩ := mirrors.inbox sock
      refine ⟨later, ?_, all⟩
      dsimp only
      split
      · next released =>
          have nonempty := (mirrors.heldAt (reached sock released)).2
          rw [same, List.tail_append_of_ne_nil nonempty]
      · exact same
    expects := fun worker wire inside => mirrors.expects worker wire (Wired.mem_release inside)
    old := fun sock entry inside => mirrors.old sock entry (Wired.mem_release inside) }

/-- The server executes a later element: a worker of the other channel handles all the elements
that it stands for. -/
theorem serve_copies (census : s.Census) (wired : s.Wired) (counted : s.Counted) {worker : WorkerId}
    {entry : Entry S.toSignature} {rest : List (Wire S.toSignature)}
    (free : s.held (.worker worker) = false)
    (arrived : s.inbox (.worker worker) = .request entry :: rest)
    (here : k.inbox (.worker worker) = []) {outbox : SockId → List (Reply S.toSignature)} :
    ∃ after, exec keep k ((copies s entry.tag).flatMap (handling worker)) = some after ∧
      Mirrors first
        { s with
          inbox := Function.update s.inbox (.worker worker) rest
          space := (S.run entry.value.strToSend s.space).1
          executed := s.executed ++ [entry]
          outbox := outbox } after := by
  obtain ⟨later, same, all⟩ := mirrors.inbox (.worker worker)
  rw [arrived, here, List.nil_append] at same
  obtain ⟨entry', later, rfl⟩ : ∃ entry' later', later = entry' :: later' := by
    cases later with
    | nil => cases same
    | cons entry' later => exact ⟨entry', later, rfl⟩
  rw [List.map_cons, List.cons.injEq, Wire.request.injEq] at same
  obtain ⟨rfl, rfl⟩ := same
  rw [List.forall_mem_cons] at all
  have inside : Wire.request entry ∈ s.inbox (.worker worker) := by
    rw [arrived]
    exact List.mem_cons_self
  have handed := (wired.request _ entry inside).2
  have fresh := counted.fresh census.ledger inside
  have waiting : ∀ copy ∈ copies s entry.tag, copy ∈ k.pending := by
    intro copy member
    obtain ⟨call, known, number, rfl⟩ := mem_copies.mp member
    have recent : first ≤ call.index :=
      all.1.1.trans (number ▸ census.ledger.entry_le call known)
    exact (mirrors.pending _).mpr ⟨call, known, recent, rfl, number ▸ fresh⟩
  have ready : k.Ready worker :=
    ⟨mirrors.workers worker, mirrors.free, here, mirrors.outbox worker, by rw [mirrors.held, free]⟩
  obtain ⟨after, run, handles⟩ := keep_handles ready mirrors.distinct waiting
    (copies_nodup census.ledger entry.tag) fun copy member => mirrors.harmless copy (waiting copy member)
  refine ⟨after, run, ?_⟩
  obtain ⟨nonempty, text⟩ := copies_text census handed
  refine ⟨handles.isOpen.trans mirrors.isOpen, handles.counter.trans mirrors.counter,
    handles.caller.trans mirrors.caller, handles.locals.trans mirrors.locals, ?_,
    handles.held.trans mirrors.held, ?_, ?_, ?_, ?_, ?_, ?_, ?_, ?_, ?_, ?_⟩
  · rw [handles.space, mirrors.space]
    exact runAll_idempotent all.1.2.idempotent nonempty text s.space
  · exact (congrArg (List.map _) handles.calls).trans mirrors.asked
  · rw [handles.worker]
    exact mirrors.workers
  · rw [Blocking.congr handles.fence handles.fences]
    exact mirrors.free
  · rw [handles.outbox]
    exact mirrors.outbox
  · intro sock
    rw [handles.inbox]
    change ∃ later, Function.update s.inbox _ _ sock = _ ∧ _
    by_cases own : sock = .worker worker
    · subst own
      rw [Function.update_self, here]
      exact ⟨later, rfl, all.2⟩
    · rw [Function.update_of_ne own]
      exact mirrors.inbox sock
  · rw [handles.inbox]
    exact mirrors.expects
  · rw [handles.inbox]
    exact mirrors.old
  · intro other
    rw [handles.pending, List.mem_filter, decide_eq_true_eq, mirrors.pending]
    simp only [List.forall_mem_append, List.forall_mem_singleton]
    constructor
    · intro both
      obtain ⟨⟨call, known, recent, equal, executed⟩, apart⟩ := both
      refine ⟨call, known, recent, equal, executed, fun number => ?_⟩
      refine apart _ (mem_copies.mpr ⟨call, known, number.symm, rfl⟩) ?_
      rw [equal]
    · intro left
      obtain ⟨call, known, recent, equal, executed, apart⟩ := left
      refine ⟨⟨call, known, recent, equal, executed⟩, fun copy member number => ?_⟩
      obtain ⟨twin, inside', stands, rfl⟩ := mem_copies.mp member
      rw [equal] at number
      exact apart (stands.symm.trans (congrArg Call.entry (census.call_eq inside' known number.symm)))
  · intro other member
    rw [handles.pending] at member
    exact mirrors.harmless other (List.mem_of_mem_filter member)
  · rw [handles.pending]
    exact mirrors.distinct.sublist (List.filter_sublist.map _)

end Mirrors

/-- The channel `k` has followed the channel `s`, with all that lets it go on. -/
structure Follows (first : Nat) (s k : Config S) : Prop where
  storing : s.Storing first
  census : s.Census
  wired : s.Wired
  counted : s.Counted
  mirrors : s.Mirrors first k

namespace Follows

variable {first : Nat} {s next k : Config S}

/-- Handling an element is no step of the program. -/
theorem filter_handling (worker : WorkerId) (entries : List (Entry S.toSignature)) :
    (entries.flatMap (handling worker)).filter Action.ofProgram = [] := by
  rw [List.filter_eq_nil_iff]
  intro action member
  obtain ⟨entry, -, inside⟩ := List.mem_flatMap.mp member
  have none : ∀ other ∈ handling worker entry, ¬ other.ofProgram = true := by
    cases noreply : entry.value.noreply <;> simp [handling, noreply, Action.ofProgram]
  exact none action inside

/-- The channel that keeps everything can follow each step. -/
theorem mirrors_step (follows : s.Follows first k) {action : Action S} (taken : s.step action = some next) :
    ∃ actions after, exec keep k actions = some after ∧
      actions.filter Action.ofProgram = [action].filter Action.ofProgram ∧
      next.Mirrors first after := by
  obtain ⟨storing, census, wired, counted, mirrors⟩ := follows
  have callers : ∀ {thread caller}, s.caller thread = caller → k.caller thread = caller :=
    fun here => (congrFun mirrors.caller _).trans here
  have same : ∀ {after}, k.keep action = some after → next.Mirrors first after →
      ∃ actions after, exec keep k actions = some after ∧
        actions.filter Action.ofProgram = [action].filter Action.ofProgram ∧
        next.Mirrors first after := by
    intro after moved still
    exact ⟨[action], after, by rw [exec_cons, moved]; rfl, rfl, still⟩
  have nothing : [action].filter Action.ofProgram = [] → next.Mirrors first k →
      ∃ actions after, exec keep k actions = some after ∧
        actions.filter Action.ofProgram = [action].filter Action.ofProgram ∧
        next.Mirrors first after :=
    fun unseen still => ⟨[], k, rfl, unseen.symm, still⟩
  cases moves_of_step taken with
  | @start thread op idle =>
      have moved : k.step (.start thread op) = some (k.started thread op) := by
        rw [step, Config.start, callers idle]
      refine same (keep_of_step rfl moved) ?_
      rw [started, started, mirrors.length]
      exact mirrors.setCaller _ _
  | @edit change => exact same (keep_of_step rfl rfl) (mirrors.edit change)
  | @exit thread op since how here =>
      have moved : k.step (.advance thread) = some (k.setCaller thread .idle) := by
        rw [step, Config.advance, callers here]
      refine same (keep_of_step ?_ moved) (mirrors.setCaller _ _)
      rw [inserting, callers here]
  | @connected thread op since rest here =>
      have moved : k.step (.advance thread) =
          some (k.setCaller thread (.running op since (rest k.isOpen))) := by
        rw [step, Config.advance, callers here]
      refine same (keep_of_step ?_ moved) ?_
      · rw [inserting, callers here]
      · rw [mirrors.isOpen]
        exact mirrors.setCaller _ _
  | @read thread op since rest here =>
      have moved : k.step (.advance thread) =
          some (k.setCaller thread (.running op since (rest k.locals))) := by
        rw [step, Config.advance, callers here]
      refine same (keep_of_step ?_ moved) ?_
      · rw [inserting, callers here]
      · rw [mirrors.locals]
        exact mirrors.setCaller _ _
  | @enqueue thread op since request rest here opened plain =>
      have script := storing.caller_stores here
      have opened' : k.isOpen = true := mirrors.isOpen.trans opened
      have inserted : k.step (.advance thread) =
          some ((k.insert (some op) request).setCaller thread (.running op since rest)) := by
        rw [step, Config.advance, callers here]
        exact if_pos ⟨opened', plain⟩
      have moved : k.keep (.advance thread) = some ((k.keepInsert
          { k with counter := (request.toMsg k.counter).2 } (some op) request).setCaller thread
            (.running op since rest)) := by
        rw [keep, inserted, inserting, callers here]
        rfl
      refine same moved ?_
      exact (mirrors.insert census.ledger wired storing.late (some op) script.1).setCaller _ _
  | ask here | closeConnection here | barrier here | drain here | finish here | answer here =>
      exact (storing.caller_stores here).elim
  | block idle known drained notRan => exact absurd ⟨_, known, drained, _, notRan⟩ storing.free
  | take => exact nothing rfl { mirrors with free := mirrors.free }
  | @send worker entry here =>
      have recent : Recent first entry := storing.worker_stores here
      exact nothing rfl (mirrors.send recent)
  | receive => exact nothing rfl { mirrors with free := mirrors.free }
  | rest => exact nothing rfl { mirrors with free := mirrors.free }
  | workInsert here => cases storing.worker_stores here
  | workTouch here => cases storing.worker_stores here
  | @serve sock entry rest free arrived =>
      have free' : k.held sock = false := (congrFun mirrors.held sock).trans free
      obtain ⟨⟨worker, rfl⟩, -⟩ := wired.request sock entry (by rw [arrived]; exact List.mem_cons_self)
      cases here : k.inbox (.worker worker) with
      | nil =>
          obtain ⟨after, run, still⟩ := mirrors.serve_copies census wired counted free arrived here
          exact ⟨_, after, run, filter_handling worker _, still⟩
      | cons wire old =>
          obtain rfl : wire = .request entry := mirrors.head_eq arrived here
          have silent : (!entry.value.noreply) = false :=
            mirrors.expects worker (.request entry) (by rw [here]; exact List.mem_cons_self)
          have unanswered : entry.value.noreply = true := by simpa using silent
          have moved : k.step (.serve (.worker worker)) = some { k with
              inbox := Function.update k.inbox (.worker worker) old
              space := (S.run entry.value.strToSend k.space).1
              executed := k.executed ++ [entry] } := by
            simp only [step, Config.serve, free', here, unanswered, if_true, Bool.false_eq_true, if_false]
          exact same (keep_of_step rfl moved) (mirrors.serve_request storing.entries arrived here)
  | @serveSynchro sock thread msg rest free arrived =>
      have free' : k.held sock = false := (congrFun mirrors.held sock).trans free
      cases here : k.inbox sock with
      | nil =>
          obtain ⟨later, equal, -⟩ := mirrors.inbox sock
          rw [arrived, here] at equal
          cases later <;> cases equal
      | cons wire old =>
          obtain rfl : wire = .synchro thread msg := mirrors.head_eq arrived here
          have moved : k.step (.serve sock) = some { k with
              inbox := Function.update k.inbox sock old
              space := (S.run msg k.space).1
              outbox := Function.update k.outbox sock (k.outbox sock ++
                [⟨(S.run msg k.space).2, .synchro thread msg⟩]) } := by
            simp only [step, Config.serve, free', here, Bool.false_eq_true, if_false]
          refine same (keep_of_step rfl moved) (mirrors.serve_synchro arrived here fun worker => ?_)
          refine Function.update_of_ne ?_ _ _
          intro own
          subst own
          have silent := mirrors.expects worker _ (by rw [here]; exact List.mem_cons_self)
          cases silent
  | @arrive sock id number rest arrived free =>
      have free' : k.held sock = false := (congrFun mirrors.held sock).trans free
      cases here : k.inbox sock with
      | nil =>
          obtain ⟨later, equal, -⟩ := mirrors.inbox sock
          rw [arrived, here] at equal
          cases later <;> cases equal
      | cons wire old =>
          obtain rfl : wire = .block id number := mirrors.head_eq arrived here
          have moved : k.step (.arrive sock) =
              some { k with held := Function.update k.held sock true } := by
            simp only [step, Config.arrive, free', here, Bool.false_eq_true, if_false]
          refine same (keep_of_step rfl moved) ?_
          rw [mirrors.held]
          exact mirrors.arrive
  | @release id socks distinct enough reached =>
      have moved : k.step (.release id socks) = some { k with
          inbox := fun sock => if sock ∈ socks then (k.inbox sock).tail else k.inbox sock
          held := fun sock => if sock ∈ socks then false else k.held sock } := by
        refine if_pos ⟨distinct, enough, fun sock member => ?_⟩
        exact (mirrors.heldAt (reached sock member)).1
      exact same (keep_of_step rfl moved) (mirrors.release reached)

theorem step (follows : s.Follows first k) {action : Action S} (stores : action.Stores)
    (taken : s.step action = some next) : ∃ actions after, exec keep k actions = some after ∧
      actions.filter Action.ofProgram = [action].filter Action.ofProgram ∧
      next.Follows first after := by
  obtain ⟨actions, after, run, seen, still⟩ := follows.mirrors_step taken
  exact ⟨actions, after, run, seen,
    { storing := follows.storing.step stores taken
      census := follows.census.step taken
      wired := follows.wired.step (wireStep_of_step taken)
      counted := follows.counted.step follows.wired (wireStep_of_step taken)
      mirrors := still }⟩

/-- When the one has nothing left to do, neither has the other. -/
theorem settled (follows : s.Follows first k) (settled : s.Settled) : k.Settled := by
  obtain ⟨rested, empty⟩ := settled
  obtain ⟨-, census, wired, -, mirrors⟩ := follows
  refine ⟨⟨?_, ?_, mirrors.workers, mirrors.free⟩, fun sock => ?_⟩
  · rw [mirrors.caller]
    exact rested.callers
  · rw [List.eq_nil_iff_forall_not_mem]
    intro entry member
    obtain ⟨call, known, -, -, executed⟩ := (mirrors.pending entry).mp member
    obtain ⟨other, accepted, tagged, -⟩ := census.stands call known
    have sent : other ∈ s.handed := by
      rcases accepted with inside | ⟨worker, held⟩ | sent
      · rw [rested.pending] at inside
        exact absurd inside List.not_mem_nil
      · rw [unsent, rested.workers worker] at held
        cases held
      · exact sent
    rcases wired.handed other sent with ran | ⟨sock, inside⟩
    · exact executed other ran tagged
    · rw [empty sock] at inside
      exact absurd inside List.not_mem_nil
  · obtain ⟨later, equal, -⟩ := mirrors.inbox sock
    rw [empty sock] at equal
    exact (List.append_eq_nil_iff.mp equal.symm).1

end Follows

/-- Whatever a channel at rest does while only harmless messages are queued, one whose buffer
keeps everything can follow it. -/
theorem exists_follows {s final : Config S} (rested : s.Rested) (census : s.Census) (wired : s.Wired)
    (counted : s.Counted) (paired : s.Paired) {actions : List (Action S)}
    (stores : ∀ action ∈ actions, action.Stores) (run : exec Config.step s actions = some final) :
    ∃ others after, exec keep s others = some after ∧
      others.filter Action.ofProgram = actions.filter Action.ofProgram ∧
      final.Follows s.calls.length after := by
  have begins : s.Follows s.calls.length s :=
    { storing :=
        { callers := fun thread => by rw [rested.callers]; trivial
          workers := fun worker => by rw [rested.workers]; trivial
          pending := fun entry inside => by
            rw [rested.pending] at inside
            exact absurd inside List.not_mem_nil
          entries := fun call known recent => absurd (census.ledger.index_lt known) recent.not_gt
          late := le_refl _
          free := rested.free }
      census := census
      wired := wired
      counted := counted
      mirrors := Mirrors.refl rested census.ledger wired paired }
  exact exec_simulates Action.ofProgram (Follows s.calls.length)
    (fun stores follows taken => follows.step stores taken) (meets_of_forall stores) begins run

end Config

end AtomSpaceCog
