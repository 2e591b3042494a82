import AtomSpaceCog.Channel.Record
import AtomSpaceCog.Channel.Sources

/-! # What handlers bring about

A handler runs among other handlers, and between two pieces of its work the state of the
program may change. A `Duty` speaks which requests are made, what the server may answer, how
the state may change, and what each text brings about; `Work.Ensures` speaks that a handler
keeps to it, as long as the others do. Then all that was on the queue before a barrier has
been brought about when the barrier is drained (`Config.Kept`).
-/

namespace AtomSpaceCog

open Dedup Transition

variable {sig : Signature} {Local : Type} {S : Setting}

/-- What is asked for, what is answered, what may happen to the state of the program
meanwhile, and what has happened when a handler is done. -/
structure Duty (S : Setting) where
  /-- The state of the program at first. -/
  start : S.Local
  /-- What is known of a change that the handler of an element makes, by its number and text. -/
  Known : Nat → Str → S.Local → S.Local → Prop
  Rely : S.Local → S.Local → Prop
  Asks : Request S.toSignature → Prop
  /-- What is known of the request of a call, by its number. -/
  May : Nat → Request S.toSignature → Prop
  /-- The messages that `synchro` may send. -/
  Speaks : Str → Prop
  /-- What the server may answer to an element. -/
  Answers : Nat → Str → Str → Prop
  /-- What it may answer to a thread. -/
  Replies : ThreadId → Str → Str → Prop
  /-- What the handler of a text brings about, and the requests it makes. -/
  Post : Nat → Str → S.Local → (Request S.toSignature → Prop) → Prop
  refl : ∀ state, Rely state state
  trans : ∀ {state now later}, Rely state now → Rely now later → Rely state later
  /-- What was brought about stays. -/
  stable : ∀ {number text state later asked more}, Rely state later →
    (∀ request, asked request → more request) →
      Post number text state asked → Post number text later more

/-- What the server may answer to what it is sent. -/
def Duty.Answered (duty : Duty S) : Wire S.toSignature → Str → Prop
  | .request entry, reply => duty.Answers entry.tag entry.value.strToSend reply
  | .synchro thread msg, reply => duty.Replies thread msg reply
  | .block _ _, _ => True

/-- The work brings about what its text is for, if it ends, and keeps to what the others rely
on; in between the state may change. -/
def Work.Ensures (duty : Duty S) (number : Nat) (text : Str) :
    Work S.toSignature S.Local → S.Local → (Request S.toSignature → Prop) → Prop
  | .done, state, asked => duty.Post number text state asked
  | .insert request next, state, asked =>
      duty.Asks request ∧
        next.Ensures duty number text state fun other => asked other ∨ other = request
  | .touch change next, state, asked =>
      ∀ now, duty.Rely state now → duty.Known number text now (change now) →
        duty.Rely now (change now) ∧ (next now).Ensures duty number text (change now) asked
  | .stuck, _, _ => True

/-- The rest of an operation makes such requests, whatever it reads. -/
def Script.Keeps (duty : Duty S) : Script S.toSignature S.Local → Prop
  | .exit _ => True
  | .connected next => ∀ isOpen, (next isOpen).Keeps duty
  | .read next => ∀ state, duty.Rely duty.start state → (next state).Keeps duty
  | .enqueue request next => duty.Asks request ∧ next.Keeps duty
  | .barrier next => next.Keeps duty
  | .synchro msg next => duty.Speaks msg ∧ ∀ reply, (next reply).Keeps duty
  | .closeConnection next => next.Keeps duty

/-- What is left of the operation of a thread makes such requests. -/
def Caller.Keeps (duty : Duty S) : Caller S → Prop
  | .idle => True
  | .running _ _ script => script.Keeps duty
  | .fencing _ _ _ next => next.Keeps duty
  | .asking _ _ msg next => duty.Speaks msg ∧ ∀ reply, (next reply).Keeps duty

theorem Script.All.keeps {duty : Duty S} (speaks : ∀ msg, duty.Speaks msg)
    {script : Script S.toSignature S.Local} (all : script.All duty.Asks) : script.Keeps duty := by
  induction script with
  | exit => trivial
  | connected next ih => exact fun isOpen => ih isOpen (all isOpen)
  | read next ih => exact fun state _ => ih state (all state)
  | enqueue request next ih => exact ⟨all.1, ih all.2⟩
  | barrier next ih | closeConnection next ih => exact ih all
  | synchro msg next ih => exact ⟨speaks msg, fun reply => ih reply (all reply)⟩

/-- Every handler keeps to the duty. -/
structure Duty.Met (duty : Duty S) : Prop where
  silent : ∀ number msg state asked, duty.Asks (.enqueueNoreply msg) →
    duty.May number (.enqueueNoreply msg) → duty.Rely duty.start state →
      duty.Post number msg state asked
  handler : ∀ number client msg data callback reply state asked,
    duty.Asks (.enqueue client msg data callback) →
      duty.May number (.enqueue client msg data callback) → duty.Answers number msg reply →
        duty.Rely duty.start state →
          (S.react client callback data reply).Ensures duty number msg state asked

variable {duty : Duty S}

theorem Work.Ensures.mono {number : Nat} {text : Str} {work : Work S.toSignature S.Local} {state later : S.Local}
    {asked more : Request S.toSignature → Prop} (rely : duty.Rely state later)
    (subset : ∀ request, asked request → more request) (ensures : work.Ensures duty number text state asked) :
    work.Ensures duty number text later more := by
  induction work generalizing state later asked more with
  | done => exact duty.stable rely subset ensures
  | insert request next ih => exact ⟨ensures.1, ih rely (fun other => Or.imp_left (subset other)) ensures.2⟩
  | touch change next ih =>
      intro now goes known
      obtain ⟨kept, later⟩ := ensures now (duty.trans rely goes) known
      exact ⟨kept, ih now (duty.refl _) subset later⟩
  | stuck => trivial

/-- What the handler of a message does with its reply. -/
theorem Duty.Met.callback (met : duty.Met) {request : Request S.toSignature} {counter : UInt64}
    {number : Nat} {reply : Str} {state : S.Local} {asked : Request S.toSignature → Prop}
    (asks : duty.Asks request) (may : duty.May number request)
    (answers : duty.Answers number request.text reply) (since : duty.Rely duty.start state) :
    (Config.callback (request.toMsg counter).1 reply).Ensures duty number request.text state
      asked := by
  cases request with
  | enqueue client msg data handler =>
      simp only [Config.callback, Request.toMsg, Msg.make_client, Msg.make_callback, Msg.make_data]
      exact met.handler number client msg data handler reply state asked asks may answers since
  | enqueueNoreply msg =>
      simp only [Config.callback, Request.toMsg, Msg.make_client]
      exact met.silent number msg state asked asks may since

theorem Duty.Met.post_of_noreply (met : duty.Met) {request : Request S.toSignature} {counter : UInt64}
    {number : Nat} {state : S.Local} {asked : Request S.toSignature → Prop}
    (asks : duty.Asks request) (may : duty.May number request)
    (noreply : (request.toMsg counter).1.noreply = true) (since : duty.Rely duty.start state) :
    duty.Post number request.text state asked := by
  cases request with
  | enqueue client msg data handler =>
      rw [Request.toMsg, Msg.make_noreply] at noreply
      cases noreply
  | enqueueNoreply msg => exact met.silent number msg state asked asks may since

/-- The duty, with other requests. -/
def Duty.widen (duty : Duty S) (Asks : Request S.toSignature → Prop) (Speaks : Str → Prop) : Duty S :=
  { duty with
    Asks := Asks
    Speaks := Speaks }

section Widen

variable {Asks : Request S.toSignature → Prop} {Speaks : Str → Prop}

theorem Work.Ensures.widen (more : ∀ request, duty.Asks request → Asks request) {number : Nat}
    {text : Str}
    {work : Work S.toSignature S.Local} {state : S.Local} {asked : Request S.toSignature → Prop}
    (ensures : work.Ensures duty number text state asked) :
    work.Ensures (duty.widen Asks Speaks) number text state asked := by
  induction work generalizing state asked with
  | done => exact ensures
  | insert request next ih => exact ⟨more request ensures.1, ih ensures.2⟩
  | touch change next ih =>
      intro now goes known
      obtain ⟨kept, later⟩ := ensures now goes known
      exact ⟨kept, ih now later⟩
  | stuck => trivial

/-- Requests without replies may be made as well, if there is nothing to bring about for them. -/
theorem Duty.Met.widen (met : duty.Met) (more : ∀ request, duty.Asks request → Asks request)
    (silent : ∀ request, Asks request → duty.Asks request ∨ (∃ msg, request = .enqueueNoreply msg) ∧
      ∀ number state asked, duty.Post number request.text state asked) :
    (duty.widen Asks Speaks).Met where
  silent number msg state asked asks may since := by
    rcases silent _ asks with own | ⟨-, post⟩
    · exact met.silent number msg state asked own may since
    · exact post number state asked
  handler number client msg data callback reply state asked asks may answers since := by
    rcases silent _ asks with own | ⟨⟨other, same⟩, -⟩
    · exact (met.handler number client msg data callback reply state asked own may answers
        since).widen more
    · cases same

end Widen

namespace Config

/-- A handler made the request among the first calls. -/
def AskedBefore (s : Config S) (time : Nat) (request : Request S.toSignature) : Prop :=
  ∃ call ∈ s.calls, call.index < time ∧ call.source = none ∧
    ∃ counter, call.msg = (request.toMsg counter).1

/-- A handler made the request. -/
def AskedFor (s : Config S) : Request S.toSignature → Prop := s.AskedBefore s.calls.length

variable {s next : Config S}

theorem AskedBefore.mono (calls : s.calls <+: next.calls) {time later : Nat} (le : time ≤ later)
    {request : Request S.toSignature} (asked : s.AskedBefore time request) :
    next.AskedBefore later request := by
  obtain ⟨call, member, early, rest⟩ := asked
  exact ⟨call, calls.subset member, early.trans_le le, rest⟩

theorem AskedFor.mono (calls : s.calls <+: next.calls) (request : Request S.toSignature) :
    s.AskedFor request → next.AskedFor request :=
  AskedBefore.mono calls calls.length_le

/-- What is asked of a step. -/
structure Dutiful (duty : Duty S) (s : Config S) (action : Action S) (next : Config S) : Prop where
  known : ∀ worker entry rest, action = .work worker → s.worker worker = .running entry rest →
    duty.Known entry.tag entry.value.strToSend s.locals next.locals
  may : ∀ source request, s.inserting action = some (source, request) →
    duty.May s.calls.length request
  edits : ∀ change, action = .edit change → duty.Rely s.locals (change s.locals)
  starts : ∀ thread op, action = .start thread op → (S.script op).Keeps duty
  answers : ∀ sock wire rest, action = .serve sock → s.inbox sock = wire :: rest →
    duty.Answered wire (S.run wire.text s.space).2

/-- The handlers are on the way to what they bring about, or have done so. -/
structure Kept (duty : Duty S) (s : Config S) : Prop where
  replies : ∀ sock, ∀ reply ∈ s.outbox sock, duty.Answered reply.answers reply.text
  sent : ∀ worker entry, s.worker worker = .waiting entry ∨ (∃ rest, s.worker worker = .running entry rest) →
    entry ∈ s.handed ∧ entry.value.noreply = false
  running : ∀ worker entry rest, s.worker worker = .running entry rest →
    rest.Ensures duty entry.tag entry.value.strToSend s.locals s.AskedFor
  handled : ∀ entry ∈ s.handed, (∃ worker, (s.worker worker).holds = some entry.tag) ∨
    duty.Post entry.tag entry.value.strToSend s.locals s.AskedFor
  drained : ∀ number time, (s.fence number).drained = some time → ∀ call ∈ s.calls,
    (s.fence number).Covers call → duty.Post call.entry call.msg.strToSend s.locals (s.AskedBefore time)

theorem kept_initial (counter : UInt64) (space : S.Space) (locals : S.Local) :
    (Config.initial counter space locals).Kept duty where
  replies _ _ member := absurd member List.not_mem_nil
  sent worker entry held := by
    rcases held with held | ⟨rest, held⟩ <;> cases held
  running _ _ _ same := by cases same
  handled _ member := absurd member List.not_mem_nil
  drained _ _ same := by cases same

/-- The state of the program, and the requests that were made and are still to come. -/
structure Charged (duty : Duty S) (s : Config S) : Prop where
  since : duty.Rely duty.start s.locals
  callers : ∀ thread, (s.caller thread).Keeps duty
  calls : ∀ call ∈ s.calls, ∃ counter request, duty.Asks request ∧ duty.May call.index request ∧
    call.msg = (request.toMsg counter).1

theorem charged_initial (counter : UInt64) (space : S.Space) :
    (Config.initial counter space duty.start).Charged duty where
  since := duty.refl _
  callers _ := trivial
  calls _ member := absurd member List.not_mem_nil

namespace Charged

variable {action : Action S}

/-- A step keeps to what the others rely on. -/
theorem rely (kept : s.Kept duty) (taken : s.step action = some next)
    (dutiful : s.Dutiful duty action next) : duty.Rely s.locals next.locals := by
  have known := dutiful.known
  cases moves_of_step taken with
  | start | exit | connected | read | enqueue | ask | closeConnection | barrier | drain | block
  | finish | answer | take | send | receive | rest | workInsert | serve | serveSynchro | arrive
  | release => exact duty.refl _
  | edit => exact dutiful.edits _ rfl
  | @workTouch worker entry change rest here =>
      exact (kept.running worker entry _ here s.locals (duty.refl _) (known worker entry _ rfl here)).1

/-- A request that is about to be inserted is one of those that are made. -/
theorem inserting (charged : s.Charged duty) (kept : s.Kept duty) {source : Option S.Op}
    {request : Request S.toSignature} (inserts : s.inserting action = some (source, request)) :
    duty.Asks request := by
  unfold Config.inserting at inserts
  split at inserts
  · next thread =>
      split at inserts
      · next here =>
          cases inserts
          have all := charged.callers thread
          rw [here] at all
          exact all.1
      · cases inserts
  · next worker =>
      split at inserts
      · next here =>
          cases inserts
          exact (kept.running worker _ _ here).1
      · cases inserts
  · cases inserts

theorem callers_step (charged : s.Charged duty) (taken : s.step action = some next)
    (dutiful : s.Dutiful duty action next) (thread : ThreadId) : (next.caller thread).Keeps duty := by
  have move : ∀ {thread caller}, next.caller = Function.update s.caller thread caller →
      caller.Keeps duty → ∀ other, (next.caller other).Keeps duty := by
    intro thread caller callers keeps
    rw [callers]
    exact (Function.forall_update_iff s.caller fun _ caller => caller.Keeps duty).mpr
      ⟨keeps, fun other _ => charged.callers other⟩
  have keeps : ∀ {thread caller}, s.caller thread = caller → caller.Keeps duty :=
    fun {thread} _ here => here ▸ charged.callers thread
  cases moves_of_step taken with
  | edit | drain | block | take | send | receive | rest | workInsert | workTouch | serve
  | serveSynchro | arrive | release => exact charged.callers thread
  | start => exact move rfl (dutiful.starts _ _ rfl) thread
  | exit => exact move rfl trivial thread
  | connected here => exact move rfl (keeps here _) thread
  | read here => exact move rfl (keeps here _ charged.since) thread
  | answer here => exact move rfl ((keeps here).2 _) thread
  | enqueue here => exact move rfl (keeps here).2 thread
  | ask here | closeConnection here | barrier here | finish here =>
      have rest := keeps here
      exact move rfl rest thread

theorem step (charged : s.Charged duty) (kept : s.Kept duty) (taken : s.step action = some next)
    (dutiful : s.Dutiful duty action next) : next.Charged duty where
  since := duty.trans charged.since (rely kept taken dutiful)
  callers := charged.callers_step taken dutiful
  calls := by
    rcases calls_of_step taken with ⟨-, calls⟩ | ⟨source, request, inserts, calls, -⟩
    · rw [calls]
      exact charged.calls
    · rw [calls, insert_calls]
      intro call member
      rcases List.mem_append.mp member with prior | new
      · exact charged.calls call prior
      · rw [List.mem_singleton.mp new]
        exact ⟨s.counter, request, charged.inserting kept inserts, dutiful.may _ _ inserts, rfl⟩

/-- An element carries one of the requests. -/
theorem asked (charged : s.Charged duty) (census : s.Census) {entry : Entry S.toSignature}
    (accepted : s.Accepted entry) :
    ∃ counter request, duty.Asks request ∧ duty.May entry.tag request ∧
      entry.value = (request.toMsg counter).1 := by
  obtain ⟨call, member, -, index, msg⟩ := census.registered entry accepted
  rw [← msg, ← index]
  exact charged.calls call member

/-- What waits to be served in `synchro` was asked by a thread. -/
theorem spoken (charged : s.Charged duty) (paired : s.Paired) {sock : SockId} {thread : ThreadId}
    {msg : Str} {rest : List (Wire S.toSignature)}
    (first : s.inbox sock = .synchro thread msg :: rest) : duty.Speaks msg := by
  have owed : Wire.synchro thread msg ∈ s.owed sock := by
    apply List.mem_append_right
    rw [first]
    exact List.mem_filter.mpr ⟨List.mem_cons_self, rfl⟩
  rw [show s.owed = s.awaited from paired] at owed
  cases sock with
  | worker worker =>
      change Wire.synchro thread msg ∈ (s.worker worker).awaits at owed
      cases state : s.worker worker with
      | waiting entry =>
          rw [state] at owed
          cases List.mem_singleton.mp owed
      | _ =>
          rw [state] at owed
          exact absurd owed List.not_mem_nil
  | user asker =>
      change Wire.synchro thread msg ∈ (s.caller asker).awaits asker at owed
      have keeps := charged.callers asker
      cases state : s.caller asker with
      | asking op since asked next =>
          rw [state] at owed keeps
          cases List.mem_singleton.mp owed
          exact keeps.1
      | _ =>
          rw [state] at owed
          exact absurd owed List.not_mem_nil

end Charged

namespace Kept

theorem fence_of_update {number : Nat} {record : Fence}
    (fence : next.fence = Function.update s.fence number record)
    (begun : record.begun = (s.fence number).begun) (drained : record.drained = (s.fence number).drained) :
    (next.fence number).begun = (s.fence number).begun ∧
      (next.fence number).drained = (s.fence number).drained := by
  rw [fence, Function.update_self]
  exact ⟨begun, drained⟩

theorem fence_of_ne {number other : Nat} {record : Fence} (different : other ≠ number)
    (fence : next.fence = Function.update s.fence number record) :
    (next.fence other).begun = (s.fence other).begun ∧
      (next.fence other).drained = (s.fence other).drained := by
  rw [fence, Function.update_of_ne different]
  exact ⟨rfl, rfl⟩

/-- A step that leaves the workers and what was handed over as they are. -/
theorem congr (kept : s.Kept duty) (rely : duty.Rely s.locals next.locals)
    (calls : s.calls <+: next.calls) (workers : next.worker = s.worker) (handed : next.handed = s.handed)
    (replies : ∀ sock, ∀ reply ∈ next.outbox sock, duty.Answered reply.answers reply.text)
    (drained : ∀ number time, (next.fence number).drained = some time → ∀ call ∈ next.calls,
      (next.fence number).Covers call →
        duty.Post call.entry call.msg.strToSend next.locals (next.AskedBefore time)) : next.Kept duty where
  replies := replies
  sent := by rw [workers, handed]; exact kept.sent
  running worker entry rest here := by
    rw [workers] at here
    exact (kept.running worker entry rest here).mono rely (AskedFor.mono calls)
  handled entry member := by
    rw [handed] at member
    rw [workers]
    exact (kept.handled entry member).imp_right (duty.stable rely (AskedFor.mono calls))
  drained := drained

/-- What was drained before stays so. -/
theorem still_drained (kept : s.Kept duty) (dated : s.Dated) {action : Action S}
    (taken : s.step action = some next) (rely : duty.Rely s.locals next.locals)
    (calls : s.calls <+: next.calls) {number : Nat}
    (fence : (next.fence number).begun = (s.fence number).begun ∧
      (next.fence number).drained = (s.fence number).drained) {time : Nat}
    (same : (next.fence number).drained = some time) {call : Call S} (member : call ∈ next.calls)
    (covers : (next.fence number).Covers call) :
    duty.Post call.entry call.msg.strToSend next.locals (next.AskedBefore time) := by
  rw [fence.2] at same
  have before : (s.fence number).Covers call := by
    unfold Fence.Covers at covers ⊢
    rwa [fence.1, fence.2] at covers
  have known := mem_calls_of_lt taken member (dated.index_lt before)
  exact duty.stable rely (fun request => AskedBefore.mono calls (Nat.le_refl _))
    (kept.drained number time same call known before)

/-- When a barrier is drained, all that it covers has been brought about. -/
theorem post_of_dead (kept : s.Kept duty) (census : s.Census) {call : Call S} (member : call ∈ s.calls)
    (dead : ¬ s.Live call.entry) : duty.Post call.entry call.msg.strToSend s.locals s.AskedFor := by
  obtain ⟨entry, sent, tagged, same⟩ := census.handed_of_dead member dead
  rcases kept.handled entry sent with ⟨worker, holds⟩ | post
  · exact absurd (Or.inr ⟨worker, tagged ▸ holds⟩) dead
  · rw [show call.msg.strToSend = entry.value.strToSend from same, ← tagged]
    exact post

/-- A worker goes on with its element. -/
theorem setWorker (kept : s.Kept duty) {worker : WorkerId} {state : Worker S}
    (workers : next.worker = Function.update s.worker worker state)
    (grown : s.handed ⊆ next.handed)
    (handed : ∀ entry ∈ next.handed, entry ∈ s.handed ∨ state.holds = some entry.tag ∨
      duty.Post entry.tag entry.value.strToSend next.locals next.AskedFor) (rely : duty.Rely s.locals next.locals)
    (calls : s.calls <+: next.calls)
    (replies : ∀ sock, ∀ reply ∈ next.outbox sock, duty.Answered reply.answers reply.text)
    (drained : ∀ number time, (next.fence number).drained = some time → ∀ call ∈ next.calls,
      (next.fence number).Covers call →
        duty.Post call.entry call.msg.strToSend next.locals (next.AskedBefore time))
    (sent : ∀ entry, state = .waiting entry ∨ (∃ rest, state = .running entry rest) →
      entry ∈ next.handed ∧ entry.value.noreply = false)
    (running : ∀ entry rest, state = .running entry rest →
      rest.Ensures duty entry.tag entry.value.strToSend next.locals next.AskedFor)
    (handled : ∀ number, (s.worker worker).holds = some number → state.holds = some number ∨
      ∀ entry ∈ s.handed, entry.tag = number →
        duty.Post entry.tag entry.value.strToSend next.locals next.AskedFor) : next.Kept duty where
  replies := replies
  sent := by
    rw [workers]
    exact (Function.forall_update_iff s.worker fun _ held => ∀ entry,
      held = .waiting entry ∨ (∃ rest, held = .running entry rest) →
        entry ∈ next.handed ∧ entry.value.noreply = false).mpr
          ⟨sent, fun other _ entry held => (kept.sent other entry held).imp_left (grown ·)⟩
  running := by
    rw [workers]
    refine (Function.forall_update_iff s.worker fun _ held => ∀ entry rest,
      held = .running entry rest → rest.Ensures duty entry.tag entry.value.strToSend
        next.locals next.AskedFor).mpr ⟨running, fun other _ entry rest here => ?_⟩
    exact (kept.running other entry rest here).mono rely (AskedFor.mono calls)
  handled entry member := by
    rw [workers]
    rcases handed entry member with prior | holds | post
    · rcases kept.handled entry prior with ⟨other, holds⟩ | post
      · by_cases same : other = worker
        · subst same
          rcases handled entry.tag holds with still | post
          · exact Or.inl ⟨other, by rw [Function.update_self, still]⟩
          · exact Or.inr (post entry prior rfl)
        · exact Or.inl ⟨other, by rw [Function.update_of_ne same, holds]⟩
      · exact Or.inr (duty.stable rely (AskedFor.mono calls) post)
    · exact Or.inl ⟨worker, by rw [Function.update_self, holds]⟩
    · exact Or.inr post
  drained := drained

theorem step (kept : s.Kept duty) (met : duty.Met) (charged : s.Charged duty) (regular : s.Regular)
    {action : Action S} (taken : s.step action = some next) (dutiful : s.Dutiful duty action next) :
    next.Kept duty := by
  obtain ⟨census, wired, dated, fenced⟩ := regular.synced
  have rely := Charged.rely kept taken dutiful
  have known := dutiful.known
  have calls : s.calls <+: next.calls := (grows_step regular.owned taken).calls
  -- A step that leaves the record of a barrier alone leaves alone what it has waited for.
  have drained : next.fence = s.fence → ∀ number time, (next.fence number).drained = some time →
      ∀ call ∈ next.calls, (next.fence number).Covers call →
        duty.Post call.entry call.msg.strToSend next.locals (next.AskedBefore time) :=
    fun fence number time same call member covers =>
      kept.still_drained dated taken rely calls (by rw [fence]; exact ⟨rfl, rfl⟩) same member covers
  cases moves_of_step taken with
  | start | edit | exit | connected | read | enqueue | ask | closeConnection | arrive | release =>
      exact kept.congr rely calls rfl rfl kept.replies (drained rfl)
  | @answer thread op since msg rest reply replies here arrived =>
      refine kept.congr rely calls rfl rfl (fun sock element member => ?_) (drained rfl)
      exact kept.replies sock element (Replied.mem_read arrived member)
  | @serveSynchro sock thread msg rest free first =>
      refine kept.congr rely calls rfl rfl (fun other element member => ?_) (drained rfl)
      rcases Replied.mem_put member with prior | new
      · exact kept.replies other element prior
      · rw [new]
        exact dutiful.answers sock _ rest rfl first
  | @serve sock entry rest free first =>
      refine kept.congr rely calls rfl rfl (fun other element member => ?_) (drained rfl)
      dsimp only at member
      split at member
      · exact kept.replies other element member
      · rcases Replied.mem_put member with prior | new
        · exact kept.replies other element prior
        · rw [new]
          exact dutiful.answers sock _ rest rfl first
  | @barrier thread id op since rest here opened fresh =>
      refine kept.congr rely calls rfl rfl kept.replies fun number time same call member covers => ?_
      by_cases new : number = s.fences
      · subst new
        cases (congrArg Fence.drained (Function.update_self ..)).symm.trans same
      · exact kept.still_drained dated taken rely calls (fence_of_ne new rfl) same member covers
  | @drain thread op since number rest here draining handled =>
      refine kept.congr rely calls rfl rfl kept.replies fun other time same call member covers => ?_
      by_cases own : other = number
      · subst own
        have fence : (s.setFence other { s.fence other with drained := some s.calls.length }).fence
            other = { s.fence other with drained := some s.calls.length } := Function.update_self ..
        rw [fence] at same covers
        obtain rfl : s.calls.length = time := Option.some.inj same
        refine kept.post_of_dead census member (handled call member ?_)
        rcases covers with early | ⟨own, -⟩
        · exact Or.inl early
        · exact Or.inr (by rw [own]; rfl)
      · exact kept.still_drained dated taken rely calls (fence_of_ne own rfl) same member covers
  | @block worker number idle known done notRan =>
      refine kept.congr rely calls rfl rfl kept.replies fun other time same call member covers => ?_
      refine kept.still_drained dated taken rely calls ?_ same member covers
      by_cases own : other = number
      · subst own
        exact fence_of_update rfl rfl rfl
      · exact fence_of_ne own rfl
  | @finish thread op since number rest here done ran =>
      refine kept.congr rely calls rfl rfl kept.replies fun other time same call member covers => ?_
      refine kept.still_drained dated taken rely calls ?_ same member covers
      by_cases own : other = number
      · subst own
        exact fence_of_update rfl rfl rfl
      · exact fence_of_ne own rfl
  | @take worker number entry idle member numbered free =>
      refine kept.setWorker rfl (List.Subset.refl _) (fun _ => Or.inl) rely calls kept.replies (drained rfl) ?_ ?_ ?_
      · intro other held
        rcases held with held | ⟨rest, held⟩ <;> cases held
      · intro other rest held
        cases held
      · intro other holds
        rw [idle] at holds
        cases holds
  | @send worker entry here =>
      have unsent : s.unsent worker = some entry := by
        rw [Config.unsent, here]
        rfl
      refine kept.setWorker rfl (List.subset_append_left _ _) ?_ rely calls kept.replies (drained rfl) ?_ ?_ ?_
      · intro other member
        rcases List.mem_append.mp member with prior | new
        · exact Or.inl prior
        rw [List.mem_singleton.mp new]
        cases noreply : entry.value.noreply with
        | true =>
            obtain ⟨counter, request, asks, may, made⟩ :=
              charged.asked census (Or.inr (Or.inl ⟨worker, unsent⟩))
            rw [made] at noreply ⊢
            rw [Request.toMsg_strToSend]
            have post : duty.Post entry.tag request.text s.locals s.AskedFor :=
              met.post_of_noreply asks may noreply charged.since
            exact Or.inr (Or.inr (duty.stable rely (AskedFor.mono calls) post))
        | false => exact Or.inr (Or.inl rfl)
      · intro other held
        cases noreply : entry.value.noreply with
        | true =>
            rw [noreply] at held
            rcases held with held | ⟨rest, held⟩ <;> cases held
        | false =>
            rw [noreply] at held
            rcases held with held | ⟨rest, held⟩ <;> cases held
            exact ⟨List.mem_append_right _ List.mem_cons_self, noreply⟩
      · intro other rest held
        split at held <;> cases held
      · intro number holds
        rw [here] at holds
        refine Or.inr fun other member same => ?_
        exact absurd ((Option.some.inj holds).trans same.symm)
          (census.ledger.unsentHanded worker entry unsent other member)
  | @receive worker entry reply rest here arrived =>
      obtain ⟨handed, expects⟩ := kept.sent worker entry (Or.inl here)
      have own := answered_own regular.paired here arrived
      refine kept.setWorker rfl (List.Subset.refl _) (fun _ => Or.inl) rely calls ?_ (drained rfl) ?_ ?_ ?_
      · exact fun sock element member => kept.replies sock element (Replied.mem_read arrived member)
      · intro other held
        rcases held with held | ⟨rest, held⟩ <;> cases held
        exact ⟨handed, expects⟩
      · intro other rest held
        cases held
        obtain ⟨counter, request, asks, may, made⟩ := charged.asked census (Or.inr (Or.inr handed))
        have answers := kept.replies _ reply (by rw [arrived]; exact List.mem_cons_self)
        rw [own, Duty.Answered, made, Request.toMsg_strToSend] at answers
        rw [made, Request.toMsg_strToSend]
        exact met.callback asks may answers charged.since
      · intro number holds
        rw [here] at holds
        exact Or.inl holds
  | @rest worker entry here =>
      have post := kept.running worker entry .done here
      obtain ⟨handed, -⟩ := kept.sent worker entry (Or.inr ⟨_, here⟩)
      refine kept.setWorker rfl (List.Subset.refl _) (fun _ => Or.inl) rely calls kept.replies (drained rfl) ?_ ?_ ?_
      · intro other held
        rcases held with held | ⟨rest, held⟩ <;> cases held
      · intro other rest held
        cases held
      · intro number holds
        rw [here] at holds
        refine Or.inr fun other member same => ?_
        have equal : other = entry := List.inj_on_of_nodup_map census.ledger.handedOnce member handed
          (same.trans (Option.some.inj holds).symm)
        subst equal
        exact post
  | @workInsert worker entry request rest here plain =>
      have ensures := kept.running worker entry _ here
      obtain ⟨handed, expects⟩ := kept.sent worker entry (Or.inr ⟨_, here⟩)
      refine kept.setWorker rfl (List.Subset.refl _) (fun _ => Or.inl) rely calls kept.replies (drained rfl) ?_ ?_ ?_
      · intro other held
        rcases held with held | ⟨rest, held⟩ <;> cases held
        exact ⟨handed, expects⟩
      · intro other rest' held
        cases held
        refine Work.Ensures.mono rely (fun other asked => ?_) ensures.2
        rcases asked with prior | rfl
        · exact AskedFor.mono calls other prior
        · refine ⟨_, List.mem_append_right _ List.mem_cons_self, ?_, rfl, s.counter, rfl⟩
          change s.calls.length < (s.calls ++ [_]).length
          rw [List.length_append]
          exact Nat.lt_succ_self _
      · intro number holds
        rw [here] at holds
        exact Or.inl holds
  | @workTouch worker entry change rest here =>
      have ensures := kept.running worker entry _ here
      obtain ⟨handed, expects⟩ := kept.sent worker entry (Or.inr ⟨_, here⟩)
      refine kept.setWorker rfl (List.Subset.refl _) (fun _ => Or.inl) rely calls kept.replies (drained rfl) ?_ ?_ ?_
      · intro other held
        rcases held with held | ⟨rest, held⟩ <;> cases held
        exact ⟨handed, expects⟩
      · intro other rest' held
        cases held
        exact (ensures s.locals (duty.refl _) (known worker entry _ rfl here)).2
      · intro number holds
        rw [here] at holds
        exact Or.inl holds

end Kept

section Runs

/-- The bookkeeping of a run, with what its handlers are on the way to. -/
structure Serving (duty : Duty S) (s : Config S) : Prop where
  regular : s.Regular
  charged : s.Charged duty
  kept : s.Kept duty

theorem serving_initial (duty : Duty S) (counter : UInt64) (space : S.Space) :
    (Config.initial counter space duty.start).Serving duty where
  regular := regular_initial counter space duty.start
  charged := charged_initial counter space
  kept := kept_initial counter space duty.start

/-- Where no thread is in an operation and no reply is expected, another duty can be taken up. -/
theorem Serving.takeUp {other : Duty S} (serving : s.Serving duty)
    (idle : ∀ thread, s.caller thread = .idle) (since : other.Rely other.start s.locals)
    (answers : ∀ wire reply, duty.Answered wire reply → other.Answered wire reply)
    (asks : ∀ request, duty.Asks request → other.Asks request ∧ (∀ number, other.May number request) ∧
      (∃ msg, request = .enqueueNoreply msg) ∧
        ∀ number state asked, other.Post number request.text state asked) :
    s.Serving other := by
  have handed : ∀ entry ∈ s.handed, entry.value.noreply = true ∧
      ∀ state asked, other.Post entry.tag entry.value.strToSend state asked := by
    intro entry member
    obtain ⟨counter, request, made, -, same⟩ :=
      serving.charged.asked serving.regular.synced.census (Or.inr (Or.inr member))
    obtain ⟨-, -, ⟨msg, rfl⟩, post⟩ := asks request made
    rw [same, Request.toMsg_strToSend]
    exact ⟨by rw [Request.toMsg, Msg.make_noreply], post entry.tag⟩
  refine ⟨serving.regular, ⟨since, fun thread => ?_, fun call member => ?_⟩, ?_⟩
  · rw [idle thread]
    trivial
  · obtain ⟨counter, request, made, -, same⟩ := serving.charged.calls call member
    exact ⟨counter, request, (asks request made).1, (asks request made).2.1 _, same⟩
  constructor
  · exact fun sock reply member => answers _ _ (serving.kept.replies sock reply member)
  · exact serving.kept.sent
  · intro worker entry rest here
    obtain ⟨member, expects⟩ := serving.kept.sent worker entry (Or.inr ⟨rest, here⟩)
    rw [(handed entry member).1] at expects
    cases expects
  · exact fun entry member => Or.inr ((handed entry member).2 _ _)
  · intro number time same call member covers
    obtain ⟨counter, request, made, -, text⟩ := serving.charged.calls call member
    rw [text, Request.toMsg_strToSend]
    exact (asks request made).2.2.2 _ _ _

/-- Each step does what is asked of it. -/
def DoesDuty (duty : Duty S) (s : Config S) (action : Action S) : Prop :=
  ∀ next, s.step action = some next → s.Dutiful duty action next

theorem Serving.step (met : duty.Met) (serving : s.Serving duty) {action : Action S}
    (does : s.DoesDuty duty action) (taken : s.step action = some next) : next.Serving duty where
  regular := serving.regular.step taken
  charged := serving.charged.step serving.kept taken (does next taken)
  kept := serving.kept.step met serving.charged serving.regular taken (does next taken)

theorem serving_exec (met : duty.Met) {final : Config S} {actions : List (Action S)}
    (serving : s.Serving duty) (does : Meets Config.step (DoesDuty duty) s actions)
    (run : exec Config.step s actions = some final) : final.Serving duty :=
  does.invariant (Serving duty) (fun does serving taken => serving.step met does taken) serving run

/-- What is brought about in a run is relied on from its first state on. -/
theorem relied_exec (met : duty.Met) {final : Config S} {actions : List (Action S)}
    (serving : s.Serving duty) (does : Meets Config.step (DoesDuty duty) s actions)
    (run : exec Config.step s actions = some final) : duty.Rely s.locals final.locals := by
  induction actions generalizing s with
  | nil =>
      obtain rfl := Option.some.inj run
      exact duty.refl s.locals
  | cons action actions ih =>
      obtain ⟨next, taken, rest⟩ := exec_cons_eq_some.mp run
      have first := Charged.rely serving.kept taken (does.1 next taken)
      exact duty.trans first (ih (serving.step met does.1 taken) (does.2 next taken) rest)

/-- What is known at the end of a run, and was so before whatever may happen, is known all
along. -/
theorem known_exec (met : duty.Met) {Known : S.Local → Prop}
    (backward : ∀ {state later}, duty.Rely state later → Known later → Known state)
    {final : Config S} {actions : List (Action S)} (serving : s.Serving duty)
    (does : Meets Config.step (DoesDuty duty) s actions)
    (run : exec Config.step s actions = some final) (known : Known final.locals) :
    Meets Config.step (fun s action => ∀ next, s.step action = some next → Known next.locals) s
      actions := by
  induction actions generalizing s with
  | nil => trivial
  | cons action actions ih =>
      obtain ⟨next, taken, rest⟩ := exec_cons_eq_some.mp run
      have later := serving.step met does.1 taken
      have here := backward (relied_exec met later (does.2 next taken) rest) known
      refine ⟨fun other also => ?_, fun other also => ?_⟩
      · obtain rfl := Option.some.inj (taken.symm.trans also)
        exact here
      · obtain rfl := Option.some.inj (taken.symm.trans also)
        exact ih later (does.2 next taken) rest

/-- Where one thread calls all the operations, the others go on to be idle. -/
theorem idle_exec {thread : ThreadId} {final : Config S} {actions : List (Action S)}
    (starts : ∀ other op, .start other op ∈ actions → other = thread)
    (idle : ∀ other ≠ thread, s.caller other = .idle)
    (run : exec Config.step s actions = some final) : ∀ other ≠ thread, final.caller other = .idle := by
  have acts : Meets Config.step (fun _ action => ∀ other op, action = .start other op → other = thread)
      s actions := meets_of_forall fun action member other op same => starts other op (same ▸ member)
  apply acts.invariant (fun s => ∀ other ≠ thread, s.caller other = .idle) _ idle run
  intro state action next condition idle taken other apart
  have still : ∀ {mover caller}, next.caller = Function.update state.caller mover caller →
      (mover = other → state.caller other ≠ .idle ∨ mover = thread) → next.caller other = .idle := by
    intro mover caller callers moves
    by_cases same : mover = other
    · rcases moves same with busy | own
      · exact absurd (idle other apart) busy
      · exact absurd (same.symm.trans own) apart
    · rw [callers, Function.update_of_ne (Ne.symm same)]
      exact idle other apart
  cases moves_of_step taken with
  | edit | drain | block | take | send | receive | rest | workInsert | workTouch | serve
  | serveSynchro | arrive | release => exact idle other apart
  | start => exact still rfl fun _ => Or.inr (condition _ _ rfl)
  | exit here | connected here | read here | enqueue here | ask here | closeConnection here
  | barrier here | finish here | answer here =>
      refine still rfl fun same => Or.inl ?_
      rw [← same, here]
      simp

end Runs

end Config

end AtomSpaceCog
