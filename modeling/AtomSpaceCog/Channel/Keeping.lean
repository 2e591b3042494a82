import AtomSpaceCog.Channel.Executed

/-! # A buffer that keeps every message

The channel with a buffer that drops nothing (`Config.keep`). There a worker can handle the
elements that one element of the other buffer stands for in one go (`Config.keep_handles`);
when their message does nothing the second time, this does to the server what the one
element does (`foldl_idempotent`).
-/

namespace AtomSpaceCog

open Dedup Transition

variable {S : Setting}

/-- The handler of the message does nothing, and the server does not see whether it was
sent once or twice. -/
structure Msg.Harmless (msg : Msg S.toSignature) : Prop where
  silent : ∀ reply, Config.callback msg reply = (.done : Work S.toSignature S.Local)
  idempotent : ∀ space, (S.run msg.strToSend (S.run msg.strToSend space).1).1 =
    (S.run msg.strToSend space).1

/-- What the server does on the messages of elements, one after the other. -/
def Setting.runAll (S : Setting) (entries : List (Entry S.toSignature)) (space : S.Space) : S.Space :=
  entries.foldl (fun space entry => (S.run entry.value.strToSend space).1) space

/-- Elements with one text that does nothing the second time. -/
theorem runAll_idempotent {text : Str}
    (idempotent : ∀ space, (S.run text (S.run text space).1).1 = (S.run text space).1)
    {entries : List (Entry S.toSignature)} (nonempty : entries ≠ [])
    (same : ∀ entry ∈ entries, entry.value.strToSend = text) (space : S.Space) :
    S.runAll entries space = (S.run text space).1 := by
  induction entries generalizing space with
  | nil => exact absurd rfl nonempty
  | cons entry entries ih =>
      rw [Setting.runAll, List.foldl_cons, same entry List.mem_cons_self]
      cases entries with
      | nil => rfl
      | cons second rest =>
          have later := ih (List.cons_ne_nil _ _)
            (fun other member => same other (List.mem_cons_of_mem _ member)) (S.run text space).1
          exact later.trans (idempotent space)

namespace Config

/-- `_msg_buffer.insert(block)` with a buffer that drops nothing, in the step to `next`. -/
def keepInsert (s next : Config S) (source : Option S.Op) (request : Request S.toSignature) : Config S :=
  let msg := (request.toMsg s.counter).1
  { next with
    pending := s.pending ++ [⟨s.calls.length, msg⟩]
    calls := s.calls ++ [⟨s.calls.length, msg, s.calls.length, source⟩] }

/-- One step of a channel whose buffer drops nothing. -/
def keep (s : Config S) (action : Action S) : Option (Config S) :=
  (s.step action).map fun next =>
    match s.inserting action with
    | none => next
    | some (source, request) => s.keepInsert next source request

theorem keep_of_step {s next : Config S} {action : Action S} (plain : s.inserting action = none)
    (taken : s.step action = some next) : s.keep action = some next := by
  rw [keep, taken, plain]
  rfl

/-- The worker has nothing to do, and nothing is on its socket. -/
structure Ready (s : Config S) (worker : WorkerId) : Prop where
  idle : s.worker worker = .idle
  free : ¬ s.Blocking
  inbox : s.inbox (.worker worker) = []
  outbox : s.outbox (.worker worker) = []
  held : s.held (.worker worker) = false

/-- The elements were handled, and nothing else has happened. -/
structure Handles (s : Config S) (entries : List (Entry S.toSignature)) (next : Config S) : Prop where
  isOpen : next.isOpen = s.isOpen
  counter : next.counter = s.counter
  worker : next.worker = s.worker
  caller : next.caller = s.caller
  fence : next.fence = s.fence
  fences : next.fences = s.fences
  inbox : next.inbox = s.inbox
  held : next.held = s.held
  outbox : next.outbox = s.outbox
  locals : next.locals = s.locals
  calls : next.calls = s.calls
  space : next.space = S.runAll entries s.space
  pending : next.pending =
    s.pending.filter fun other => ∀ entry ∈ entries, other.tag ≠ entry.tag

theorem Handles.refl (s : Config S) : s.Handles [] s where
  isOpen := rfl
  counter := rfl
  worker := rfl
  caller := rfl
  fence := rfl
  fences := rfl
  inbox := rfl
  held := rfl
  outbox := rfl
  locals := rfl
  calls := rfl
  space := rfl
  pending := by simp

theorem Handles.trans {s middle next : Config S} {first second : List (Entry S.toSignature)}
    (early : s.Handles first middle) (late : middle.Handles second next) :
    s.Handles (first ++ second) next where
  isOpen := late.isOpen.trans early.isOpen
  counter := late.counter.trans early.counter
  worker := late.worker.trans early.worker
  caller := late.caller.trans early.caller
  fence := late.fence.trans early.fence
  fences := late.fences.trans early.fences
  inbox := late.inbox.trans early.inbox
  held := late.held.trans early.held
  outbox := late.outbox.trans early.outbox
  locals := late.locals.trans early.locals
  calls := late.calls.trans early.calls
  space := by rw [late.space, early.space, Setting.runAll, Setting.runAll, Setting.runAll, List.foldl_append]
  pending := by
    rw [late.pending, early.pending, List.filter_filter]
    refine List.filter_congr fun entry _ => ?_
    simp only [List.forall_mem_append, Bool.decide_and, Bool.and_comm]

theorem Blocking.congr {s next : Config S} (fence : next.fence = s.fence)
    (fences : next.fences = s.fences) : next.Blocking ↔ s.Blocking := by
  unfold Blocking
  rw [fence, fences]

theorem Handles.ready {s next : Config S} {entries : List (Entry S.toSignature)}
    (handles : s.Handles entries next) {worker : WorkerId} (ready : s.Ready worker) :
    next.Ready worker where
  idle := by rw [handles.worker, ready.idle]
  free := by rw [Blocking.congr handles.fence handles.fences]; exact ready.free
  inbox := by rw [handles.inbox, ready.inbox]
  outbox := by rw [handles.outbox, ready.outbox]
  held := by rw [handles.held, ready.held]

/-- An element is found by its number. -/
theorem find_pending {pending : List (Entry S.toSignature)} (distinct : (pending.map Tagged.tag).Nodup)
    {entry : Entry S.toSignature} (member : entry ∈ pending) :
    pending.find? (fun other => other.tag = entry.tag) = some entry := by
  cases found : pending.find? (fun other => other.tag = entry.tag) with
  | none => exact absurd (decide_eq_true rfl) (List.find?_eq_none.mp found entry member)
  | some other =>
      have same : other.tag = entry.tag := by simpa using List.find?_some found
      rw [List.inj_on_of_nodup_map distinct (List.mem_of_find?_eq_some found) member same]

/-- The steps of a worker and the server that handle one element. -/
def handling (worker : WorkerId) (entry : Entry S.toSignature) : List (Action S) :=
  [.take worker entry.tag, .send worker, .serve (.worker worker)] ++
    if entry.value.noreply then [] else [.receive worker, .work worker]

/-- A worker that is ready can handle a pending element. -/
theorem keep_handles_one {s : Config S} {worker : WorkerId} (ready : s.Ready worker)
    (distinct : (s.pending.map Tagged.tag).Nodup) {entry : Entry S.toSignature}
    (member : entry ∈ s.pending) (harmless : entry.value.Harmless) :
    ∃ next, exec keep s (handling worker entry) = some next ∧ s.Handles [entry] next := by
  have found := find_pending distinct member
  have workers : Function.update s.worker worker .idle = s.worker := by
    rw [← ready.idle]
    exact Function.update_eq_self worker s.worker
  have inboxes : Function.update s.inbox (.worker worker) [] = s.inbox := by
    rw [← ready.inbox]
    exact Function.update_eq_self (SockId.worker worker) s.inbox
  have outboxes : Function.update s.outbox (.worker worker) [] = s.outbox := by
    rw [← ready.outbox]
    exact Function.update_eq_self (SockId.worker worker) s.outbox
  have handles : ∀ runs, s.Handles [entry] { s with
      pending := s.pending.filter fun other => other.tag ≠ entry.tag
      handed := s.handed ++ [entry]
      executed := s.executed ++ [entry]
      space := (S.run entry.value.strToSend s.space).1
      runs := runs } := fun runs =>
    { Handles.refl s with
      space := rfl
      pending := by simp only [List.forall_mem_singleton] }
  cases noreply : entry.value.noreply with
  | true =>
      refine ⟨_, ?_, handles s.runs⟩
      simp [handling, noreply, exec_cons, keep, step, Config.take, Config.send, Config.serve,
        inserting, ready.idle, found, ready.free, push, setWorker, ready.inbox, ready.held,
        workers, inboxes]
  | false =>
      refine ⟨_, ?_, handles (s.runs ++ [⟨entry.value.client, entry.value.callback,
        entry.value.data, (S.run entry.value.strToSend s.space).2, entry.value.strToSend,
        s.calls.length⟩])⟩
      simp [handling, noreply, exec_cons, keep, step, Config.take, Config.send, Config.serve,
        Config.receive, Config.work, inserting, ready.idle, found, ready.free, push, setWorker,
        ready.inbox, ready.held, ready.outbox, workers, inboxes, outboxes, harmless.silent, Wire.text]

/-- And so it can handle any of them, one after the other. -/
theorem keep_handles {s : Config S} {worker : WorkerId} (ready : s.Ready worker)
    (distinct : (s.pending.map Tagged.tag).Nodup) {entries : List (Entry S.toSignature)}
    (inside : ∀ entry ∈ entries, entry ∈ s.pending) (apart : (entries.map Tagged.tag).Nodup)
    (harmless : ∀ entry ∈ entries, entry.value.Harmless) :
    ∃ next, exec keep s (entries.flatMap (handling worker)) = some next ∧ s.Handles entries next := by
  induction entries generalizing s with
  | nil => exact ⟨s, rfl, Handles.refl s⟩
  | cons entry entries ih =>
      rw [List.forall_mem_cons] at inside harmless
      rw [List.map_cons, List.nodup_cons] at apart
      obtain ⟨middle, first, early⟩ := keep_handles_one ready distinct inside.1 harmless.1
      have still : ∀ other ∈ entries, other ∈ middle.pending := by
        intro other member
        rw [early.pending]
        refine List.mem_filter.mpr ⟨inside.2 other member, ?_⟩
        rw [decide_eq_true_eq, List.forall_mem_singleton]
        intro same
        exact apart.1 (same ▸ List.mem_map_of_mem member)
      have once : (middle.pending.map Tagged.tag).Nodup := by
        rw [early.pending]
        exact distinct.sublist (List.filter_sublist.map _)
      obtain ⟨next, rest, late⟩ := ih (early.ready ready) once still apart.2 harmless.2
      exact ⟨next, exec_append_eq_some.mpr ⟨middle, first, rest⟩, early.trans late⟩

end Config

end AtomSpaceCog
