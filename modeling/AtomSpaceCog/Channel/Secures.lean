import AtomSpaceCog.Channel.Duties

/-! # What operations make sure of

Between two channel calls of an operation the other threads, the handlers and the server go
on. `Script.Secures` says that an operation ends with a goal reached, whatever they do, as
long as the record only grows and an invariant holds. A thread that calls operations one after
the other has reached the goal when it is idle again (`Config.secured_exec`).
-/

namespace AtomSpaceCog

open Transition

variable {S : Setting}

namespace Config

theorem Grows.refl (s : Config S) : s.Grows s where
  fences := Nat.le_refl _
  begun _ _ := rfl
  drained _ _ _ same := same
  returned _ _ _ same := same
  calls := List.prefix_refl _
  executed := List.prefix_refl _
  runs := List.prefix_refl _
  answered := List.prefix_refl _

theorem Grows.trans {s next later : Config S} (first : s.Grows next) (second : next.Grows later) :
    s.Grows later where
  fences := first.fences.trans second.fences
  begun number used :=
    (second.begun number (used.trans_le first.fences)).trans (first.begun number used)
  drained number used time same :=
    second.drained number (used.trans_le first.fences) time (first.drained number used time same)
  returned number used time same :=
    second.returned number (used.trans_le first.fences) time (first.returned number used time same)
  calls := first.calls.trans second.calls
  executed := first.executed.trans second.executed
  runs := first.runs.trans second.runs
  answered := first.answered.trans second.answered

/-- A state that a run can come to later. -/
def Later (Valid : Config S → Prop) (s later : Config S) : Prop := s.Grows later ∧ Valid later

theorem Later.trans {Valid : Config S → Prop} {s next later : Config S} (first : s.Later Valid next)
    (second : next.Later Valid later) : s.Later Valid later :=
  ⟨first.1.trans second.1, second.2⟩

/-- A call of `enqueue` for the request has returned since. -/
def EnqueuedSince (s later : Config S) (request : Request S.toSignature) : Prop :=
  ∃ call ∈ later.calls, s.calls.length ≤ call.index ∧ ∃ counter, call.msg = (request.toMsg counter).1

/-- A barrier that was begun since has returned. -/
def BarrierSince (s later : Config S) (number : Nat) : Prop :=
  number < later.fences ∧ s.calls.length ≤ (later.fence number).begun ∧
    (later.fence number).drained.isSome ∧
      ∃ time ≤ later.calls.length, (later.fence number).returned = some time

end Config

section Secures

variable (Valid : Config S → Prop) (Replies : Config S → Str → Str → Prop) (Goal : Config S → Prop)

/-- The rest of an operation reaches the goal, if it ends. -/
def Script.Secures : Script S.toSignature S.Local → Config S → Prop
  | .exit _, s => Goal s
  | .connected next, s => ∀ later, s.Later Valid later → (next later.isOpen).Secures later
  | .read next, s => ∀ later, s.Later Valid later → (next later.locals).Secures later
  | .enqueue request next, s =>
      ∀ later, s.Later Valid later → s.EnqueuedSince later request → next.Secures later
  | .barrier next, s =>
      ∀ later number, s.Later Valid later → s.BarrierSince later number → next.Secures later
  | .synchro msg next, s =>
      ∀ later reply, s.Later Valid later → Replies later msg reply → (next reply).Secures later
  | .closeConnection next, s => ∀ later, s.Later Valid later → next.Secures later

/-- The thread reaches the goal before it is idle. -/
def Caller.Secures (s : Config S) : Caller S → Prop
  | .idle => Goal s
  | .running _ _ script => script.Secures Valid Replies Goal s
  | .fencing _ _ number next => ∃ before : Config S,
      (Script.barrier next).Secures Valid Replies Goal before ∧ before.Grows s ∧
        number < s.fences ∧ before.calls.length ≤ (s.fence number).begun
  | .asking _ _ msg next => ∃ before : Config S,
      (Script.synchro msg next).Secures Valid Replies Goal before ∧ before.Grows s

/-- The operations, called one after the other, reach the goal. -/
def Config.SecuresAll : List S.Op → Config S → Prop
  | [], s => Goal s
  | op :: ops, s =>
      ∀ later, s.Later Valid later → (S.script op).Secures Valid Replies (SecuresAll ops) later

variable {Valid Replies Goal} {s next : Config S}

theorem Script.Secures.mono {script : Script S.toSignature S.Local}
    (stable : ∀ {s later}, s.Later Valid later → Goal s → Goal later) (later : s.Later Valid next)
    (secures : script.Secures Valid Replies Goal s) : script.Secures Valid Replies Goal next := by
  cases script with
  | exit => exact stable later secures
  | connected | read | closeConnection =>
      exact fun last after => secures last (later.trans after)
  | enqueue request rest =>
      intro last after enqueued
      obtain ⟨call, member, since, made⟩ := enqueued
      exact secures last (later.trans after)
        ⟨call, member, later.1.calls.length_le.trans since, made⟩
  | barrier rest =>
      intro last number after fenced
      obtain ⟨used, begun, done⟩ := fenced
      exact secures last number (later.trans after) ⟨used, later.1.calls.length_le.trans begun, done⟩
  | synchro msg rest => exact fun last reply after => secures last reply (later.trans after)

theorem Config.SecuresAll.mono {ops : List S.Op}
    (stable : ∀ {s later}, s.Later Valid later → Goal s → Goal later) (later : s.Later Valid next)
    (secures : s.SecuresAll Valid Replies Goal ops) : next.SecuresAll Valid Replies Goal ops := by
  cases ops with
  | nil => exact stable later secures
  | cons op ops => exact fun last after => secures last (later.trans after)

/-- A thread that does not move reaches the goal as before. -/
theorem Caller.Secures.mono {caller : Caller S}
    (stable : ∀ {s later}, s.Later Valid later → Goal s → Goal later) (later : s.Later Valid next)
    (secures : caller.Secures Valid Replies Goal s) : caller.Secures Valid Replies Goal next := by
  cases caller with
  | idle => exact stable later secures
  | running => exact Script.Secures.mono stable later secures
  | fencing op since number rest =>
      obtain ⟨before, prior, grows, used, begun⟩ := secures
      refine ⟨before, prior, grows.trans later.1, used.trans_le later.1.fences, ?_⟩
      rwa [later.1.begun number used]
  | asking op since msg rest =>
      obtain ⟨before, prior, grows⟩ := secures
      exact ⟨before, prior, grows.trans later.1⟩

end Secures

section Steps

variable {Valid : Config S → Prop} {Replies : Config S → Str → Str → Prop} {Goal : Config S → Prop}
  {s next : Config S} {action : Action S} {thread : ThreadId}

/-- The operation that the action calls on this thread. -/
def Action.calledBy (thread : ThreadId) : Action S → Option S.Op
  | .start other op => if other = thread then some op else none
  | _ => none

/-- What is asked of a step for a thread to rely on it. -/
structure Config.Sound (Valid : Config S → Prop) (Replies : Config S → Str → Str → Prop)
    (thread : ThreadId) (s : Config S) (action : Action S) : Prop where
  owned : s.Owned
  valid : ∀ next, s.step action = some next → Valid next
  replies : ∀ op since msg rest reply replies, action = .answer thread →
    s.caller thread = .asking op since msg rest → s.outbox (.user thread) = reply :: replies →
      ∀ next, s.step action = some next → Replies next msg reply.text

theorem Config.Sound.later (sound : s.Sound Valid Replies thread action)
    (taken : s.step action = some next) : s.Later Valid next :=
  ⟨grows_step sound.owned taken, sound.valid next taken⟩

/-- A step of one thread moves it towards the goal, and leaves the others where they are. -/
theorem Caller.Secures.move (stable : ∀ {s later}, s.Later Valid later → Goal s → Goal later)
    (later : s.Later Valid next) (secures : (s.caller thread).Secures Valid Replies Goal s)
    {mover : ThreadId} {caller : Caller S} (callers : next.caller = Function.update s.caller mover caller)
    (own : mover = thread → caller.Secures Valid Replies Goal next) :
    (next.caller thread).Secures Valid Replies Goal next := by
  rw [callers]
  by_cases same : thread = mover
  · rw [same, Function.update_self]
    exact own same.symm
  · rw [Function.update_of_ne same]
    exact secures.mono stable later

theorem Caller.Secures.step (stable : ∀ {s later}, s.Later Valid later → Goal s → Goal later)
    (sound : s.Sound Valid Replies thread action) (taken : s.step action = some next)
    (outside : action.calledBy thread = none)
    (secures : (s.caller thread).Secures Valid Replies Goal s) :
    (next.caller thread).Secures Valid Replies Goal next := by
  have later := sound.later taken
  have own : ∀ {mover caller}, s.caller mover = caller → mover = thread →
      caller.Secures Valid Replies Goal s := by
    intro mover caller here same
    rw [← here, same]
    exact secures
  cases Config.moves_of_step taken with
  | edit | drain | block | take | send | receive | rest | workInsert | workTouch | serve
  | serveSynchro | arrive | release => exact secures.mono stable later
  | @start mover op idle =>
      refine secures.move stable later rfl fun same => ?_
      rw [Action.calledBy, if_pos same] at outside
      cases outside
  | exit here => exact secures.move stable later rfl fun same => stable later (own here same)
  | connected here | read here | closeConnection here =>
      exact secures.move stable later rfl fun same => own here same _ later
  | @enqueue mover op since request rest here =>
      refine secures.move stable later rfl fun same => own here same _ later ?_
      exact ⟨_, List.mem_append_right _ List.mem_cons_self, Nat.le_refl _, s.counter, rfl⟩
  | ask here =>
      exact secures.move stable later rfl fun same => ⟨s, own here same, later.1⟩
  | @barrier mover id op since rest here =>
      refine secures.move stable later rfl fun same => ⟨s, own here same, later.1, Nat.lt_succ_self _, ?_⟩
      exact (congrArg Fence.begun (Function.update_self (β := fun _ => Fence) s.fences
        ⟨id, s.calls.length, none, fun _ => false, none⟩ s.fence)).ge
  | @finish mover op since number rest here drained =>
      refine secures.move stable later rfl fun same => ?_
      obtain ⟨before, prior, grows, used, begun⟩ := own here same
      have record : ∀ {α : Type} (field : Fence → α), field (Function.update s.fence number
          { s.fence number with returned := some s.calls.length } number) =
            field { s.fence number with returned := some s.calls.length } :=
        fun field => congrArg field (Function.update_self ..)
      refine prior _ number ⟨grows.trans later.1, later.2⟩
        ⟨used, begun.trans (record Fence.begun).ge, ?_, s.calls.length, Nat.le_refl _, record Fence.returned⟩
      exact (congrArg Option.isSome (record Fence.drained)).trans drained
  | @answer mover op since msg rest reply replies here arrived =>
      refine secures.move stable later rfl fun same => ?_
      obtain ⟨before, prior, grows⟩ := own here same
      subst same
      exact prior _ reply.text ⟨grows.trans later.1, later.2⟩
        (sound.replies op since msg rest reply replies rfl here arrived _ taken)

/-- A thread that has called operations one after the other, and is idle again, has reached the
goal. -/
theorem Config.secured_exec (stable : ∀ {s later}, s.Later Valid later → Goal s → Goal later)
    {ops : List S.Op} {final : Config S} {actions : List (Action S)}
    (sound : Meets Config.step (Config.Sound Valid Replies thread) s actions)
    (secures : (s.caller thread).Secures Valid Replies (SecuresAll Valid Replies Goal ops) s)
    (calls : actions.filterMap (Action.calledBy thread) = ops)
    (run : exec Config.step s actions = some final) (idle : final.caller thread = .idle) :
    Goal final := by
  induction actions generalizing s ops with
  | nil =>
      obtain rfl := Option.some.inj run
      subst calls
      rw [idle] at secures
      exact secures
  | cons action actions ih =>
      obtain ⟨next, taken, rest⟩ := exec_cons_eq_some.mp run
      have later := sound.1.later taken
      rw [List.filterMap_cons] at calls
      cases called : action.calledBy thread with
      | none =>
          rw [called] at calls
          exact ih (sound.2 next taken) (secures.step (SecuresAll.mono stable) sound.1 taken called)
            calls rest
      | some op =>
          rw [called] at calls
          subst calls
          cases Config.moves_of_step taken with
          | @start mover other free =>
              rw [Action.calledBy] at called
              split at called
              · next same =>
                  obtain rfl := Option.some.inj called
                  subst same
                  rw [free] at secures
                  have moved : (s.started mover other).caller mover =
                      .running other s.calls.length (S.script other) := Function.update_self ..
                  refine ih (sound.2 _ taken) ?_ rfl rest
                  rw [moved]
                  exact secures _ later
              · cases called
          | _ => cases called

end Steps

namespace Config

section Waited

variable {s later : Config S}

/-- A call of `enqueue` for this text has returned, after so many others. -/
def Made (s : Config S) (since : Nat) (text : Str) : Prop :=
  ∃ call ∈ s.calls, since ≤ call.index ∧ call.msg.strToSend = text

/-- A barrier has waited for such calls, and has returned. -/
structure WaitedBy (s : Config S) (since : Nat) (texts : List Str) (number : Nat) : Prop where
  used : number < s.fences
  begun : since ≤ (s.fence number).begun
  drained : (s.fence number).drained.isSome
  returned : ∃ time ≤ s.calls.length, (s.fence number).returned = some time
  covers : ∀ text ∈ texts, ∃ call ∈ s.calls, since ≤ call.index ∧ (s.fence number).Covers call ∧
    call.msg.strToSend = text

/-- Some barrier has waited for such calls. -/
def Waited (s : Config S) (since : Nat) (texts : List Str) : Prop :=
  ∃ number, s.WaitedBy since texts number

variable {since : Nat}

theorem Made.mono (grows : s.Grows later) {text : Str} (made : s.Made since text) :
    later.Made since text := by
  obtain ⟨call, member, same⟩ := made
  exact ⟨call, grows.calls.subset member, same⟩

theorem EnqueuedSince.made {request : Request S.toSignature} (before : since ≤ s.calls.length)
    (enqueued : s.EnqueuedSince later request) : later.Made since request.text := by
  obtain ⟨call, member, after, counter, made⟩ := enqueued
  exact ⟨call, member, before.trans after, by rw [made, Request.toMsg_strToSend]⟩

theorem WaitedBy.mono (grows : s.Grows later) {texts : List Str} {number : Nat}
    (waited : s.WaitedBy since texts number) : later.WaitedBy since texts number where
  used := waited.used.trans_le grows.fences
  begun := waited.begun.trans (grows.begun number waited.used).ge
  drained := by
    obtain ⟨time, same⟩ := Option.isSome_iff_exists.mp waited.drained
    rw [grows.drained number waited.used time same]
    rfl
  returned := by
    obtain ⟨time, before, same⟩ := waited.returned
    exact ⟨time, before.trans grows.calls.length_le, grows.returned number waited.used time same⟩
  covers text member := by
    obtain ⟨call, inside, after, covered, made⟩ := waited.covers text member
    exact ⟨call, grows.calls.subset inside, after, grows.covers waited.used covered, made⟩

theorem Waited.mono (grows : s.Grows later) {texts : List Str} (waited : s.Waited since texts) :
    later.Waited since texts := by
  obtain ⟨number, waited⟩ := waited
  exact ⟨number, waited.mono grows⟩

/-- A barrier waits for the calls that had returned when it was called. -/
theorem BarrierSince.waited (ledger : s.Ledger) (grows : s.Grows later)
    (before : since ≤ s.calls.length) {number : Nat} (fenced : s.BarrierSince later number)
    {texts : List Str} (made : ∀ text ∈ texts, s.Made since text) :
    later.WaitedBy since texts number := by
  obtain ⟨used, begun, drained, returned⟩ := fenced
  refine ⟨used, before.trans begun, drained, returned, fun text member => ?_⟩
  obtain ⟨call, inside, after, same⟩ := made text member
  exact ⟨call, grows.calls.subset inside, after,
    Or.inl ((ledger.index_lt inside).trans_le begun), same⟩

/-- An early call is one of the first ones. -/
theorem Grows.mem_calls (ledger : s.Ledger) (census : later.Census) (grows : s.Grows later)
    {call : Call S} (member : call ∈ later.calls) (early : call.index < s.calls.length) :
    call ∈ s.calls := by
  have listed : call.index ∈ s.calls.map Call.index := by
    rw [ledger.numbered]
    exact List.mem_range.mpr early
  obtain ⟨other, inside, same⟩ := List.mem_map.mp listed
  rw [census.call_eq member (grows.calls.subset inside) same.symm]
  exact inside

/-- When the server executes a message that was called for after the barrier returned, it has
executed those that the barrier has waited for. -/
theorem WaitedBy.executed (grows : s.Grows later) (synced : later.Synced) {texts : List Str}
    {number : Nat} (waited : s.WaitedBy since texts number) {sock : SockId}
    {entry : Entry S.toSignature} {rest : List (Wire S.toSignature)} {next : Config S}
    (first : later.inbox sock = .request entry :: rest) (taken : later.step (.serve sock) = some next)
    (new : s.calls.length ≤ entry.tag) :
    ∀ text ∈ texts, ∃ call ∈ s.calls, since ≤ call.index ∧
      ∃ ran ∈ later.executed, ran.tag = call.entry ∧ ran.value.strToSend = text := by
  have synced' := synced.step taken
  cases moves_of_step taken with
  | serveSynchro free other =>
      rw [first] at other
      cases other
  | serve free other =>
      rw [first] at other
      cases other
      have handed := (synced.wired.request sock entry (by rw [first]; exact List.mem_cons_self)).2
      obtain ⟨late, inside, kept, index, msg⟩ := synced.census.registered entry (Or.inr (Or.inr handed))
      obtain ⟨time, before, same⟩ := waited.returned
      have still := grows.returned number waited.used time same
      intro text member
      obtain ⟨call, known, after, covers, made⟩ := waited.covers text member
      have member' := grows.calls.subset known
      obtain ⟨earlier, ran, tagged⟩ := synced'.fenced.order number later.executed entry [] rfl
        ⟨late, inside, ⟨time, still, before.trans (index ▸ new)⟩, kept.trans index⟩ call member'
        (grows.covers waited.used covers)
      refine ⟨call, known, after, earlier, ran, tagged, ?_⟩
      exact (synced'.text_eq member' (List.mem_append_left _ ran) tagged).trans made

/-- What was not called for before is a later call. -/
theorem Grows.late_of_text (ledger : s.Ledger) (synced : later.Synced) (grows : s.Grows later)
    {entry : Entry S.toSignature} (accepted : later.Accepted entry)
    (new : ∀ call ∈ s.calls, call.msg.strToSend ≠ entry.value.strToSend) :
    s.calls.length ≤ entry.tag := by
  obtain ⟨call, inside, -, index, msg⟩ := synced.census.registered entry accepted
  by_contra early
  apply new call (grows.mem_calls ledger synced.census inside (index ▸ Nat.lt_of_not_le early))
  rw [msg]

end Waited

end Config

section Open

/-- The rest of an operation does not close the connection. -/
def Script.NeverCloses {sig : Signature} {Local : Type} : Script sig Local → Prop
  | .exit _ => True
  | .connected next => ∀ isOpen, (next isOpen).NeverCloses
  | .read next => ∀ state, (next state).NeverCloses
  | .enqueue _ next => next.NeverCloses
  | .barrier next => next.NeverCloses
  | .synchro _ next => ∀ reply, (next reply).NeverCloses
  | .closeConnection _ => False

/-- The thread does not close the connection. -/
def Caller.NeverCloses : Caller S → Prop
  | .idle => True
  | .running _ _ script => script.NeverCloses
  | .fencing _ _ _ next => next.NeverCloses
  | .asking _ _ _ next => ∀ reply, (next reply).NeverCloses

/-- The connection is open, and no thread is about to close it. -/
structure Config.StaysOpen (s : Config S) : Prop where
  isOpen : s.isOpen = true
  callers : ∀ thread, (s.caller thread).NeverCloses

theorem Config.staysOpen_initial (counter : UInt64) (space : S.Space) (locals : S.Local) :
    (Config.initial counter space locals).StaysOpen where
  isOpen := rfl
  callers _ := trivial

theorem Config.StaysOpen.step {s next : Config S} (stays : s.StaysOpen) {action : Action S}
    (taken : s.step action = some next)
    (starts : ∀ thread op, action = .start thread op → (S.script op).NeverCloses) :
    next.StaysOpen := by
  have move : ∀ {thread caller}, next.isOpen = s.isOpen →
      next.caller = Function.update s.caller thread caller → caller.NeverCloses →
        next.StaysOpen := by
    intro thread caller same callers never
    refine ⟨same.trans stays.isOpen, ?_⟩
    rw [callers]
    exact (Function.forall_update_iff s.caller fun _ caller => caller.NeverCloses).mpr
      ⟨never, fun other _ => stays.callers other⟩
  have never : ∀ {thread caller}, s.caller thread = caller → caller.NeverCloses :=
    fun {thread} _ here => here ▸ stays.callers thread
  cases Config.moves_of_step taken with
  | edit | drain | block | take | send | receive | rest | workInsert | workTouch | serve
  | serveSynchro | arrive | release => exact ⟨stays.isOpen, stays.callers⟩
  | start => exact move rfl rfl (starts _ _ rfl)
  | exit => exact move rfl rfl trivial
  | connected here | read here | answer here => exact move rfl rfl (never here _)
  | enqueue here | ask here | barrier here | finish here =>
      have rest := never here
      exact move rfl rfl rest
  | closeConnection here => exact (never here).elim

end Open

section Attained

variable {duty : Duty S} {s : Config S} {thread : ThreadId}

/-- Nothing but calls of this thread starts anything, and the program changes nothing itself. -/
def Action.From (thread : ThreadId) : Action S → Prop
  | .start other _ => other = thread
  | .edit _ => False
  | _ => True

instance (thread : ThreadId) : (action : Action S) → Decidable (action.From thread)
  | .start other _ => inferInstanceAs (Decidable (other = thread))
  | .edit _ => .isFalse id
  | .advance _ | .barrier _ _ | .drain _ | .block _ _ | .finish _ | .answer _ | .take _ _ | .send _
  | .receive _ | .work _ | .serve _ | .arrive _ | .release _ _ => .isTrue trivial

def Caller.isIdle {S : Setting} : Caller S → Bool
  | .idle => true
  | _ => false

theorem Caller.eq_idle {S : Setting} {caller : Caller S} (idle : caller.isIdle = true) :
    caller = .idle := by
  cases caller with
  | idle => rfl
  | _ => cases idle

/-- What is started there, the thread calls. -/
theorem Action.From.calls {actions : List (Action S)} (alone : ∀ action ∈ actions, action.From thread)
    {other : ThreadId} {op : S.Op} (member : .start other op ∈ actions) :
    op ∈ actions.filterMap (Action.calledBy thread) := by
  have same : other = thread := alone _ member
  exact List.mem_filterMap.mpr ⟨_, member, by rw [same, Action.calledBy, if_pos rfl]⟩

/-- An open channel, whose calls are numbered. -/
def Config.Usable (s : Config S) : Prop := s.isOpen = true ∧ s.Ledger

/-- Whoever waits in `synchro` gets an answer to its own message. -/
theorem Config.Serving.answers (serving : s.Serving duty) {op : S.Op} {since : Nat} {msg : Str}
    {rest : Str → Script S.toSignature S.Local} {reply : Reply S.toSignature}
    {replies : List (Reply S.toSignature)} (here : s.caller thread = .asking op since msg rest)
    (arrived : s.outbox (.user thread) = reply :: replies) : duty.Replies thread msg reply.text := by
  have answers := serving.kept.replies (.user thread) reply (by rw [arrived]; exact List.mem_cons_self)
  have owed := serving.regular.paired.asking here
  rw [Config.owed, arrived, List.map_cons, List.cons_append] at owed
  rwa [(List.cons.inj owed).1] at answers

/-- The server has answered the thread since. -/
def Config.AnsweredSince (s later : Config S) (thread : ThreadId) (msg reply : Str) : Prop :=
  (thread, msg, reply) ∈ later.answered.drop s.answered.length

theorem Config.AnsweredSince.mono {later last : Config S} {msg reply : Str}
    (grows : later.Grows last) (answered : s.AnsweredSince later thread msg reply) :
    s.AnsweredSince last thread msg reply :=
  (grows.answered.drop _).subset answered

/-- What the thread is told since this state. -/
def Config.Told (duty : Duty S) (thread : ThreadId) (s later : Config S) (msg reply : Str) : Prop :=
  duty.Replies thread msg reply ∧ s.AnsweredSince later thread msg reply

/-- The channel is open after each step. -/
def KeepsOpen (s : Config S) (action : Action S) : Prop :=
  ∀ next, s.step action = some next → next.isOpen = true

/-- Where no operation closes the channel, it is open after each step. -/
theorem Config.StaysOpen.keepsOpen (stays : s.StaysOpen) {actions : List (Action S)}
    (opens : ∀ other op, .start other op ∈ actions → (S.script op).NeverCloses) :
    Meets Config.step KeepsOpen s actions := by
  have opening : Meets Config.step (fun _ action => ∀ other op, action = .start other op →
      (S.script op).NeverCloses) s actions :=
    meets_of_forall fun action member other op same => opens other op (same ▸ member)
  refine opening.strengthen Config.StaysOpen ?_ ?_ stays
  · exact fun starts stays taken => stays.step taken starts
  · exact fun starts stays next taken => (stays.step taken starts).isOpen

/-- When a thread has called operations one after the other, it has reached the goal, while the
others keep to the duty. -/
theorem Config.attained_exec (met : duty.Met) {Valid Goal : Config S → Prop}
    (valid : ∀ {s : Config S}, s.isOpen = true → s.Serving duty → Valid s)
    (stable : ∀ {s later : Config S}, s.Grows later → Goal s → Goal later) {ops : List S.Op}
    {final : Config S} {actions : List (Action S)} (serving : s.Serving duty)
    (idle : s.caller thread = .idle) (does : Meets Config.step (DoesDuty duty) s actions)
    (opened : Meets Config.step KeepsOpen s actions)
    (secures : s.SecuresAll Valid (s.Told duty thread) Goal ops)
    (calls : actions.filterMap (Action.calledBy thread) = ops)
    (run : exec Config.step s actions = some final) (done : final.caller thread = .idle) :
    Goal final := by
  have sound : Meets Config.step (Config.Sound Valid (s.Told duty thread) thread) s actions := by
    refine (does.and opened).strengthen (fun state => state.Serving duty ∧ s.Grows state) ?_ ?_
      ⟨serving, .refl s⟩
    · intro state action next condition holds taken
      exact ⟨holds.1.step met condition.1 taken,
        holds.2.trans (grows_step holds.1.regular.owned taken)⟩
    · intro state action condition holds
      refine ⟨holds.1.regular.owned, fun next taken => ?_, ?_⟩
      · exact valid (condition.2 next taken) (holds.1.step met condition.1 taken)
      · intro op since msg rest reply replies same here arrived next taken
        refine ⟨holds.1.answers here arrived, ?_⟩
        subst same
        cases moves_of_step taken with
        | answer here' arrived' =>
            rw [here] at here'
            rw [arrived] at arrived'
            cases here'
            cases arrived'
            change (thread, msg, reply.text) ∈
              (state.answered ++ [(thread, msg, reply.text)]).drop s.answered.length
            rw [List.drop_append_of_le_length holds.2.answered.length_le]
            exact List.mem_append_right _ List.mem_cons_self
  apply secured_exec (fun later goal => stable later.1 goal) sound _ calls run done
  rw [idle]
  exact secures

end Attained

end AtomSpaceCog
