import AtomSpaceCog.Channel.Census

/-! # Replies and those who wait for them

On every socket, the replies that were not read and the requests that were not
served are together the one request that the thread of the socket waits for, or
nothing (`Config.Paired`). So a handler is given the reply to its own element
(`Config.answered_own`), and a call has been answered, or its element is still on its
way (`Config.Served`), provided that no call is stood for by an element that was
queued for somebody else.
-/

namespace AtomSpaceCog

open Dedup Transition

variable {sig : Signature} {S : Setting}

/-- The sender waits for a reply to the message. -/
def Wire.expects : Wire sig → Bool
  | request entry => !entry.value.noreply
  | synchro _ _ => true
  | block _ _ => false

/-- The messages were queued for the same requester: a run of the handler for one is
one for the other. -/
structure Msg.SameRequest (msg other : Msg sig) : Prop where
  client : msg.client = other.client
  callback : msg.callback = other.callback
  data : msg.data = other.data
  noreply : msg.noreply = other.noreply
  text : msg.strToSend = other.strToSend

theorem Msg.SameRequest.refl (msg : Msg sig) : msg.SameRequest msg := ⟨rfl, rfl, rfl, rfl, rfl⟩

/-- The handler was run for the message, on its client, with its packet and with a
reply to its text. -/
structure HandlerRun.Answers (run : HandlerRun sig) (msg : Msg sig) : Prop where
  client : run.client = msg.client
  callback : run.callback = msg.callback
  data : run.data = msg.data
  question : run.question = msg.strToSend

/-- What a worker waits for. -/
def Worker.awaits : Worker S → List (Wire S.toSignature)
  | waiting entry => [.request entry]
  | _ => []

/-- What a client thread waits for. -/
def Caller.awaits (thread : ThreadId) : Caller S → List (Wire S.toSignature)
  | asking _ _ msg _ => [.synchro thread msg]
  | _ => []

namespace Config

/-- What the thread of a socket waits for. -/
def awaited (s : Config S) : SockId → List (Wire S.toSignature)
  | .worker worker => (s.worker worker).awaits
  | .user thread => (s.caller thread).awaits thread

/-- The messages whose replies were not read, and those that will be replied to. -/
def owed (s : Config S) (sock : SockId) : List (Wire S.toSignature) :=
  (s.outbox sock).map Reply.answers ++ (s.inbox sock).filter Wire.expects

/-- Every socket owes what its thread waits for. -/
def Paired (s : Config S) : Prop := s.owed = s.awaited

theorem awaited_setCaller (s : Config S) (thread : ThreadId) (caller : Caller S) :
    (s.setCaller thread caller).awaited =
      Function.update s.awaited (.user thread) (caller.awaits thread) := by
  funext sock
  cases sock with
  | worker worker => rw [Function.update_of_ne (by simp)]; rfl
  | user other =>
      by_cases same : other = thread
      · subst same
        simp [awaited, setCaller]
      · rw [Function.update_of_ne (by simpa using same)]
        simp [awaited, setCaller, same]

theorem awaited_setWorker (s : Config S) (worker : WorkerId) (state : Worker S) :
    (s.setWorker worker state).awaited =
      Function.update s.awaited (.worker worker) state.awaits := by
  funext sock
  cases sock with
  | user thread => rw [Function.update_of_ne (by simp)]; rfl
  | worker other =>
      by_cases same : other = worker
      · subst same
        simp [awaited, setWorker]
      · rw [Function.update_of_ne (by simpa using same)]
        simp [awaited, setWorker, same]

/-- A thread that goes on to wait for the same changes nothing. -/
theorem awaited_of_caller {s next : Config S} {thread : ThreadId} {before caller : Caller S}
    (here : s.caller thread = before) (callers : next.caller = Function.update s.caller thread caller)
    (workers : next.worker = s.worker) (same : before.awaits thread = caller.awaits thread) :
    s.awaited = next.awaited := by
  have update : next.awaited = (s.setCaller thread caller).awaited := by
    funext sock
    cases sock <;> simp only [awaited, setCaller, callers, workers]
  rw [update, awaited_setCaller, ← same, ← here]
  exact (Function.update_eq_self (.user thread) s.awaited).symm

theorem awaited_of_worker {s next : Config S} {worker : WorkerId} {before state : Worker S}
    (here : s.worker worker = before) (workers : next.worker = Function.update s.worker worker state)
    (callers : next.caller = s.caller) (same : before.awaits = state.awaits) :
    s.awaited = next.awaited := by
  have update : next.awaited = (s.setWorker worker state).awaited := by
    funext sock
    cases sock <;> simp only [awaited, setWorker, callers, workers]
  rw [update, awaited_setWorker, ← same, ← here]
  exact (Function.update_eq_self (.worker worker) s.awaited).symm

theorem owed_push (s : Config S) (sock : SockId) (wire : Wire S.toSignature) :
    (s.push sock wire).owed =
      Function.update s.owed sock (s.owed sock ++ if wire.expects then [wire] else []) := by
  funext other
  by_cases same : other = sock
  · subst same
    simp [owed, push, List.filter_cons]
  · simp [owed, push, same]

/-- A reply that is read is owed no more. -/
theorem owed_read (s : Config S) {sock : SockId} {reply : Reply S.toSignature}
    {rest : List (Reply S.toSignature)} (arrived : s.outbox sock = reply :: rest) :
    { s with outbox := Function.update s.outbox sock rest }.owed =
      Function.update s.owed sock (s.owed sock).tail := by
  funext other
  by_cases same : other = sock
  · subst same
    simp [owed, arrived]
  · simp [owed, same]

/-- A message that is served without a reply was not owed one. -/
theorem owed_drop (s : Config S) {sock : SockId} {wire : Wire S.toSignature}
    {rest : List (Wire S.toSignature)} (first : s.inbox sock = wire :: rest)
    (silent : wire.expects = false) :
    { s with inbox := Function.update s.inbox sock rest }.owed = s.owed := by
  funext other
  by_cases same : other = sock
  · subst same
    simp [owed, first, silent]
  · simp [owed, same]

/-- Serving a message with a reply changes nothing about what is owed. -/
theorem owed_reply (s : Config S) {sock : SockId} (reply : Reply S.toSignature)
    {rest : List (Wire S.toSignature)} (first : s.inbox sock = reply.answers :: rest)
    (expects : reply.answers.expects = true) :
    { s with
      inbox := Function.update s.inbox sock rest
      outbox := Function.update s.outbox sock (s.outbox sock ++ [reply]) }.owed = s.owed := by
  funext other
  by_cases same : other = sock
  · subst same
    simp [owed, first, expects]
  · simp [owed, same]

/-- Nothing is owed for the block of a barrier. -/
theorem owed_release (s : Config S) {id : UInt64} {socks : List SockId}
    (reached : ∀ sock ∈ socks, s.HeldAt id sock) :
    { s with
      inbox := fun sock => if sock ∈ socks then (s.inbox sock).tail else s.inbox sock
      held := fun sock => if sock ∈ socks then false else s.held sock }.owed = s.owed := by
  funext sock
  by_cases released : sock ∈ socks
  · have block := (reached sock released).2
    simp only [owed, if_pos released]
    split at block
    · next number rest first => simp [first, Wire.expects]
    · exact block.elim
  · simp only [owed, if_neg released]

theorem paired_initial (counter : UInt64) (space : S.Space) (locals : S.Local) :
    (Config.initial counter space locals).Paired := by
  funext sock
  cases sock <;> rfl

/-- What a waiting worker is owed. -/
theorem Paired.waiting {s : Config S} (paired : s.Paired) {worker : WorkerId}
    {entry : Entry S.toSignature} (here : s.worker worker = .waiting entry) :
    s.owed (.worker worker) = [.request entry] := by
  rw [paired, awaited, here]
  rfl

/-- What a client thread in `synchro` is owed. -/
theorem Paired.asking {s : Config S} (paired : s.Paired) {thread : ThreadId} {op : S.Op}
    {since : Nat} {msg : Str} {next : Str → Script S.toSignature S.Local}
    (here : s.caller thread = .asking op since msg next) :
    s.owed (.user thread) = [.synchro thread msg] := by
  rw [paired, awaited, here]
  rfl

/-- A handler is given the reply to its own element. -/
theorem answered_own {s : Config S} (paired : s.Paired) {worker : WorkerId}
    {entry : Entry S.toSignature} {reply : Reply S.toSignature} {rest : List (Reply S.toSignature)}
    (here : s.worker worker = .waiting entry) (arrived : s.outbox (.worker worker) = reply :: rest) :
    reply.answers = .request entry := by
  have owed := paired.waiting here
  rw [Config.owed, arrived, List.map_cons, List.cons_append] at owed
  exact (List.cons.inj owed).1

theorem Paired.step {s next : Config S} {action : Action S} (paired : s.Paired)
    (taken : s.step action = some next) : next.Paired := by
  unfold Paired at paired ⊢
  cases moves_of_step taken with
  | edit | drain | arrive => exact paired
  | start here | exit here | connected here | read here | enqueue here | closeConnection here
  | barrier here | finish here =>
      refine paired.trans ?_
      exact awaited_of_caller here rfl rfl rfl
  | take here | rest here | workInsert here | workTouch here =>
      refine paired.trans ?_
      exact awaited_of_worker here rfl rfl rfl
  | @ask thread op since msg rest here =>
      have idle : s.owed (.user thread) = [] := by rw [paired, awaited, here]; rfl
      refine (owed_push s (.user thread) (.synchro thread msg)).trans ?_
      rw [idle, paired, awaited_setCaller]
      rfl
  | @block worker number idle =>
      refine (owed_push s (.worker worker) (.block (s.fence number).id number)).trans ?_
      simp only [Wire.expects, Bool.false_eq_true, if_false, List.append_nil, Function.update_eq_self]
      exact paired
  | @answer thread op since msg rest reply replies here arrived =>
      refine (owed_read s arrived).trans ?_
      rw [Paired.asking paired here, paired, awaited_setCaller]
      rfl
  | @send worker entry here =>
      have idle : s.owed (.worker worker) = [] := by rw [paired, awaited, here]; rfl
      refine (owed_push { s with handed := s.handed ++ [entry] } (.worker worker) (.request entry)).trans ?_
      change Function.update s.owed _ (s.owed _ ++ _) = _
      rw [idle, paired, awaited_setWorker]
      congr 1
      cases noreply : entry.value.noreply <;> simp [Wire.expects, noreply, Worker.awaits]
  | @receive worker entry reply rest here arrived =>
      refine (owed_read s arrived).trans ?_
      rw [Paired.waiting paired here, paired, awaited_setWorker]
      rfl
  | @serve sock entry rest free first =>
      cases noreply : entry.value.noreply with
      | true => exact (owed_drop s first (by simp [Wire.expects, noreply])).trans paired
      | false =>
          exact (owed_reply s ⟨(S.run entry.value.strToSend s.space).2, .request entry⟩ first
             (by simp [Wire.expects, noreply])).trans paired
  | @serveSynchro sock thread msg rest free first =>
      exact (owed_reply s ⟨(S.run msg s.space).2, .synchro thread msg⟩ first rfl).trans
        paired
  | release distinct enough reached => exact (owed_release s reached).trans paired

/-- The element is pending, or a worker has it and has no reply yet. -/
def OnTheWay (s : Config S) (entry : Entry S.toSignature) : Prop :=
  entry ∈ s.pending ∨ ∃ worker, s.worker worker = .sending entry ∨ s.worker worker = .waiting entry

/-- Another thread's step leaves a worker as it is. -/
theorem worker_of_ne {s : Config S} {worker other : WorkerId} {state before : Worker S}
    (here : s.worker worker = before) {held : Worker S} (same : s.worker other = held)
    (different : before ≠ held) : Function.update s.worker worker state other = held := by
  rw [Function.update_of_ne, same]
  rintro rfl
  exact different (here.symm.trans same)

/-- An element stays on the way until its handler is run. -/
theorem onTheWay_step {s next : Config S} {action : Action S} (ledger : s.Ledger) (paired : s.Paired)
    (taken : s.step action = some next) {entry : Entry S.toSignature}
    (replies : entry.value.noreply = false) (way : s.OnTheWay entry) :
    next.OnTheWay entry ∨
      ∃ run ∈ next.runs, run.Answers entry.value ∧ run.time = s.calls.length := by
  have carry : (∀ element ∈ s.pending, element ∈ next.pending) →
      (∀ worker, s.worker worker = .sending entry ∨ s.worker worker = .waiting entry →
        next.worker worker = s.worker worker) → next.OnTheWay entry := by
    intro pending workers
    rcases way with member | ⟨worker, held⟩
    · exact Or.inl (pending entry member)
    · exact Or.inr ⟨worker, by rwa [workers worker held]⟩
  cases moves_of_step taken with
  | start | edit | exit | connected | read | ask | closeConnection | barrier | drain | block | finish
  | answer | serve | serveSynchro | arrive | release =>
      exact Or.inl (carry (fun _ member => member) fun _ _ => rfl)
  | enqueue => exact Or.inl (carry (fun _ member => subset_offer member) fun _ _ => rfl)
  | @take worker number element idle member numbered =>
      refine Or.inl ?_
      rcases way with inside | ⟨other, held⟩
      · by_cases same : entry.tag = number
        · have equal : entry = element :=
            List.inj_on_of_nodup_map ledger.pendingOnce inside member (same.trans numbered.symm)
          exact Or.inr ⟨worker, Or.inl (by simp [setWorker, equal])⟩
        · exact Or.inl (by simpa [setWorker] using ⟨inside, same⟩)
      · refine Or.inr ⟨other, held.imp (fun held => ?_) fun held => ?_⟩ <;>
          exact worker_of_ne idle held (by simp)
  | @send worker element here =>
      refine Or.inl ?_
      rcases way with inside | ⟨other, held⟩
      · exact Or.inl inside
      · by_cases same : other = worker
        · subst same
          rw [here] at held
          obtain rfl : element = entry := by simpa using held
          exact Or.inr ⟨other, Or.inr (by simp [setWorker, replies])⟩
        · exact Or.inr ⟨other, by simpa [setWorker, push, same] using held⟩
  | @receive worker element reply rest here arrived =>
      rcases way with inside | ⟨other, held⟩
      · exact Or.inl (Or.inl inside)
      · by_cases same : other = worker
        · subst same
          rw [here] at held
          obtain rfl : element = entry := by simpa using held
          have own := answered_own paired here arrived
          exact Or.inr ⟨_, List.mem_append_right _ List.mem_cons_self, ⟨rfl, rfl, rfl, by rw [own]; rfl⟩, rfl⟩
        · exact Or.inl (Or.inr ⟨other, by simpa [setWorker, same] using held⟩)
  | rest here | workTouch here =>
      refine Or.inl (carry (fun _ member => member) fun other held => ?_)
      rcases held with held | held <;>
        exact (worker_of_ne here held (by simp)).trans held.symm
  | workInsert here =>
      refine Or.inl (carry (fun _ member => subset_offer member) fun other held => ?_)
      rcases held with held | held <;>
        exact (worker_of_ne here held (by simp)).trans held.symm

/-- A run of a handler stays recorded. -/
theorem runs_step {s next : Config S} {action : Action S} (taken : s.step action = some next) :
    s.runs ⊆ next.runs := by
  cases moves_of_step taken with
  | receive => exact List.subset_append_left _ _
  | _ => exact List.Subset.refl _

/-- Every call that waits for a reply has had its handler run, or an element queued
for the same requester is on the way. -/
def Served (s : Config S) : Prop :=
  ∀ call ∈ s.calls, call.msg.noreply = false →
    (∃ entry, s.OnTheWay entry ∧ call.msg.SameRequest entry.value) ∨
      ∃ run ∈ s.runs, run.Answers call.msg ∧ call.index < run.time

/-- The action puts no request for a reply on the queue while a message with its text
is pending that was queued for another requester. -/
def OwnTwin (s : Config S) (action : Action S) : Prop :=
  ∀ source request, s.inserting action = some (source, request) →
    ∀ entry ∈ s.pending, entry.value.strToSend = request.text →
      (request.toMsg s.counter).1.noreply = false →
        (request.toMsg s.counter).1.SameRequest entry.value

/-- The action puts nothing on the queue while a message with its text is pending. -/
def InsertsAlone (s : Config S) (action : Action S) : Prop :=
  match s.inserting action with
  | some (_, request) => ∀ entry ∈ s.pending, entry.value.strToSend ≠ request.text
  | none => True

instance (s : Config S) (action : Action S) : Decidable (s.InsertsAlone action) := by
  unfold InsertsAlone
  split <;> infer_instance

theorem ownTwin_of_insertsAlone {s : Config S} {action : Action S} (alone : s.InsertsAlone action) :
    s.OwnTwin action := by
  intro source request inserts entry member same
  rw [InsertsAlone, inserts] at alone
  exact absurd same (alone entry member)

theorem Served.step {s next : Config S} {action : Action S} (census : s.Census) (paired : s.Paired)
    (own : s.OwnTwin action) (served : s.Served) (taken : s.step action = some next) :
    next.Served := by
  have earlier : ∀ call ∈ s.calls, call.msg.noreply = false →
      (∃ entry, next.OnTheWay entry ∧ call.msg.SameRequest entry.value) ∨
        ∃ run ∈ next.runs, run.Answers call.msg ∧ call.index < run.time := by
    intro call member replies
    rcases served call member replies with ⟨entry, way, same⟩ | ⟨run, ran, rest⟩
    · rcases onTheWay_step census.ledger paired taken (same.noreply ▸ replies) way with
        still | ⟨run, ran, answers, time⟩
      · exact Or.inl ⟨entry, still, same⟩
      · refine Or.inr ⟨run, ran, ⟨?_, ?_, ?_, ?_⟩, time ▸ census.ledger.index_lt member⟩
        · exact answers.client.trans same.client.symm
        · exact answers.callback.trans same.callback.symm
        · exact answers.data.trans same.data.symm
        · exact answers.question.trans same.text.symm
    · exact Or.inr ⟨run, runs_step taken ran, rest⟩
  rcases calls_of_step taken with ⟨-, calls⟩ | ⟨source, request, inserts, calls, pending⟩
  · rw [Served, calls]
    exact earlier
  intro call member replies
  rw [calls, insert_calls] at member
  rcases List.mem_append.mp member with prior | new
  · exact earlier call prior replies
  rw [List.mem_singleton.mp new] at replies ⊢
  obtain ⟨element, inside, -, same⟩ := exists_standsFor Msg.Equivalent s.pending s.calls.length
    (request.toMsg s.counter).1
  refine Or.inl ⟨element, Or.inl (by rw [pending]; exact inside), ?_⟩
  rcases same with rfl | ⟨twin, equivalent⟩
  · exact Msg.SameRequest.refl _
  · have text := equivalent.strToSend_eq (request.toMsg_wellMade _)
      (census.ledger.made element (Or.inl twin))
    refine own source request inserts element twin ?_ replies
    rw [← request.toMsg_strToSend s.counter]
    exact text.symm

theorem served_exec {counter : UInt64} {space : S.Space} {locals : S.Local}
    {actions : List (Action S)} {final : Config S}
    (own : Meets Config.step OwnTwin (Config.initial counter space locals) actions)
    (run : exec Config.step (Config.initial counter space locals) actions = some final) :
    final.Served := by
  refine (own.invariant (fun s => s.Census ∧ s.Paired ∧ s.Served) ?_ ?_ run).2.2
  · rintro s action next own ⟨census, paired, served⟩ taken
    exact ⟨census.step taken, paired.step taken, served.step census paired own taken⟩
  · exact ⟨census_initial counter space locals, paired_initial counter space locals,
      fun call member => absurd member List.not_mem_nil⟩

/-- With an empty buffer and no worker that has an element, nothing is on the way. -/
theorem not_onTheWay {s : Config S} (empty : s.pending = [])
    (idle : ∀ worker, (s.worker worker).holds = none) (entry : Entry S.toSignature) :
    ¬ s.OnTheWay entry := by
  rintro (inside | ⟨worker, held | held⟩)
  · rw [empty] at inside
    exact absurd inside List.not_mem_nil
  all_goals
    have none := idle worker
    rw [held] at none
    cases none

/-- Nobody has a reply to an element that was not executed, and a worker that handed
out an element with a reply waits until it has been. -/
structure Replied (s : Config S) : Prop where
  reply : ∀ sock, ∀ reply ∈ s.outbox sock, ∀ entry, reply.answers = .request entry →
    entry ∈ s.executed
  handed : ∀ entry ∈ s.handed, entry.value.noreply = false →
    entry ∈ s.executed ∨ ∃ worker, s.worker worker = .waiting entry

theorem replied_initial (counter : UInt64) (space : S.Space) (locals : S.Local) :
    (Config.initial counter space locals).Replied where
  reply _ _ member := absurd member List.not_mem_nil
  handed _ member := absurd member List.not_mem_nil

namespace Replied

variable {s next : Config S}

theorem congr (replied : s.Replied) (executed : s.executed ⊆ next.executed)
    (outbox : ∀ sock, ∀ reply ∈ next.outbox sock, reply ∈ s.outbox sock ∨
      ∀ entry, reply.answers = .request entry → entry ∈ next.executed)
    (handed : ∀ entry ∈ next.handed, entry.value.noreply = false → entry ∈ s.handed ∨
      ∃ worker, next.worker worker = .waiting entry)
    (workers : ∀ worker entry, s.worker worker = .waiting entry →
      next.worker worker = .waiting entry ∨ entry ∈ next.executed) : next.Replied where
  reply sock reply member entry answers := by
    rcases outbox sock reply member with prior | new
    · exact executed (replied.reply sock reply prior entry answers)
    · exact new entry answers
  handed entry sent replies := by
    rcases handed entry sent replies with prior | waits
    · rcases replied.handed entry prior replies with ran | ⟨worker, waits⟩
      · exact Or.inl (executed ran)
      · exact (workers worker entry waits).symm.imp_right fun still => ⟨worker, still⟩
    · exact Or.inr waits

/-- What is read off a socket was on it. -/
theorem mem_read {sock other : SockId} {reply element : Reply S.toSignature}
    {rest : List (Reply S.toSignature)} (arrived : s.outbox sock = reply :: rest)
    (member : element ∈ Function.update s.outbox sock rest other) : element ∈ s.outbox other := by
  by_cases same : other = sock
  · subst same
    rw [Function.update_self] at member
    rw [arrived]
    exact List.mem_cons_of_mem _ member
  · rwa [Function.update_of_ne same] at member

/-- What is put on a socket was on it or is new. -/
theorem mem_put {sock other : SockId} {reply element : Reply S.toSignature}
    (member : element ∈ Function.update s.outbox sock (s.outbox sock ++ [reply]) other) :
    element ∈ s.outbox other ∨ element = reply := by
  by_cases same : other = sock
  · subst same
    rw [Function.update_self] at member
    exact (List.mem_append.mp member).imp_right List.mem_singleton.mp
  · rw [Function.update_of_ne same] at member
    exact Or.inl member

theorem step (replied : s.Replied) (paired : s.Paired) {action : Action S}
    (taken : s.step action = some next) : next.Replied := by
  have still : ∀ {worker : WorkerId} {before state : Worker S}, s.worker worker = before →
      (∀ entry, before ≠ .waiting entry) → ∀ other entry, s.worker other = .waiting entry →
        Function.update s.worker worker state other = .waiting entry := by
    intro worker before state here never other entry waits
    exact worker_of_ne here waits (never entry)
  cases moves_of_step taken with
  | start | edit | exit | connected | read | enqueue | ask | closeConnection | barrier | drain | block
  | finish | arrive | release =>
      exact replied.congr (List.Subset.refl _) (fun _ _ member => Or.inl member)
        (fun _ sent _ => Or.inl sent) fun _ _ waits => Or.inl waits
  | answer here arrived =>
      exact replied.congr (List.Subset.refl _) (fun _ _ member => Or.inl (mem_read arrived member))
        (fun _ sent _ => Or.inl sent) fun _ _ waits => Or.inl waits
  | take here | rest here | workInsert here | workTouch here =>
      exact replied.congr (List.Subset.refl _) (fun _ _ member => Or.inl member)
        (fun _ sent _ => Or.inl sent) fun other entry waits =>
          Or.inl (still here (by simp) other entry waits)
  | @send worker element here =>
      refine replied.congr (List.Subset.refl _) (fun _ _ member => Or.inl member)
        (fun entry sent replies => ?_) fun other entry waits =>
          Or.inl (still here (by simp) other entry waits)
      rcases List.mem_append.mp sent with prior | new
      · exact Or.inl prior
      · refine Or.inr ⟨worker, ?_⟩
        rw [← List.mem_singleton.mp new]
        simp [setWorker, replies]
  | @receive worker element reply rest here arrived =>
      refine replied.congr (List.Subset.refl _) (fun _ _ member => Or.inl (mem_read arrived member))
        (fun _ sent _ => Or.inl sent) fun other entry waits => ?_
      by_cases same : other = worker
      · subst same
        refine Or.inr (replied.reply _ reply (by rw [arrived]; exact List.mem_cons_self) entry ?_)
        exact answered_own paired waits arrived
      · exact Or.inl (by simpa [setWorker, same] using waits)
  | @serve sock element rest free first =>
      refine replied.congr (List.subset_append_left _ _) (fun other reply member => ?_)
        (fun _ sent _ => Or.inl sent) fun _ _ waits => Or.inl waits
      dsimp only at member
      split at member
      · exact Or.inl member
      · refine (mem_put member).imp_right ?_
        rintro rfl entry answers
        cases answers
        simp
  | @serveSynchro sock thread msg rest free first =>
      refine replied.congr (List.Subset.refl _) (fun other reply member => ?_)
        (fun _ sent _ => Or.inl sent) fun _ _ waits => Or.inl waits
      refine (mem_put member).imp_right ?_
      rintro rfl entry answers
      cases answers

/-- An element with a reply that no worker holds and that was handed out was
executed. -/
theorem executed_of_dead (replied : s.Replied) {entry : Entry S.toSignature}
    (sent : entry ∈ s.handed) (replies : entry.value.noreply = false) (dead : ¬ s.Live entry.tag) :
    entry ∈ s.executed := by
  rcases replied.handed entry sent replies with ran | ⟨worker, waits⟩
  · exact ran
  · exact absurd (Or.inr ⟨worker, by rw [waits]; rfl⟩) dead

end Replied

end Config

end AtomSpaceCog
