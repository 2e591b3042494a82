import AtomSpaceCog.Channel.Keeping
import AtomSpaceCog.Channel.Progress
import AtomSpaceCog.Channel.Secures
import Mathlib.Data.List.ReduceOption

/-! # Messages one after the other

Where a barrier stands between any two calls of `enqueue`, the server executes their messages in
the order of the calls (`Config.Spaced.inOrder`). A thread that is alone on the channel, and calls
`barrier` between its messages, finds that everything is as if the server were called directly, and
the handlers with its replies (`performed_serially`).
-/

namespace AtomSpaceCog

open Dedup Transition

section Lists

variable {Element : Type} {first second : List Element}

/-- Whatever comes later in the first list is behind it in the second. -/
theorem nodup_of_order (once : second.Nodup) (member : ∀ element ∈ first, element ∈ second)
    (order : first.Pairwise fun early late => ∀ front back, second = front ++ late :: back →
      early ∈ front) : first.Nodup := by
  refine order.imp_of_mem fun {early late} _ inside before same => ?_
  obtain ⟨front, back, split⟩ := List.append_of_mem (member late inside)
  have ahead := before front back split
  rw [split] at once
  exact (List.disjoint_of_nodup_append once) (same ▸ ahead) List.mem_cons_self

/-- Two lists of the same elements in one order are equal. -/
theorem eq_of_order (once : second.Nodup) (same : ∀ element, element ∈ first ↔ element ∈ second)
    (order : first.Pairwise fun early late => ∀ front back, second = front ++ late :: back →
      early ∈ front) : first = second := by
  have distinct := nodup_of_order once (fun element => (same element).mp) order
  induction second generalizing first with
  | nil => exact List.eq_nil_iff_forall_not_mem.mpr fun element inside =>
      List.not_mem_nil ((same element).mp inside)
  | cons head second ih =>
      cases first with
      | nil => exact absurd ((same head).mpr List.mem_cons_self) List.not_mem_nil
      | cons own first =>
          obtain ⟨ahead, order⟩ := List.pairwise_cons.mp order
          obtain ⟨absent, distinct⟩ := List.nodup_cons.mp distinct
          obtain ⟨new, single⟩ := List.nodup_cons.mp once
          -- Nothing is in front of the first element.
          obtain rfl : own = head := by
            rcases List.mem_cons.mp ((same head).mpr List.mem_cons_self) with equal | inside
            · exact equal.symm
            · exact absurd (ahead head inside [] second rfl) List.not_mem_nil
          congr 1
          refine ih single (fun element => ?_) (order.imp_of_mem ?_) distinct
          · constructor
            · intro inside
              rcases List.mem_cons.mp ((same element).mp (List.mem_cons_of_mem _ inside)) with
                rfl | inside'
              · exact absurd inside absent
              · exact inside'
            · intro inside
              rcases List.mem_cons.mp ((same element).mpr (List.mem_cons_of_mem _ inside)) with
                rfl | inside'
              · exact absurd inside new
              · exact inside'
          · intro early late inside _ before front back split
            have behind := before (own :: front) back (by rw [split, List.cons_append])
            rcases List.mem_cons.mp behind with rfl | behind
            · exact absurd inside absent
            · exact behind

end Lists

variable {S : Setting}

namespace Config

/-- A barrier has waited for every call, and has returned. -/
def Clear (s : Config S) : Prop :=
  ∀ call ∈ s.calls, ∃ number < s.fences, (s.fence number).Covers call ∧
    ∃ time ≤ s.calls.length, (s.fence number).returned = some time

/-- Between two calls there was a barrier. -/
def Spaced (s : Config S) : Prop :=
  ∀ call ∈ s.calls, ∀ late ∈ s.calls, call.index < late.index →
    ∃ number < s.fences, (s.fence number).Covers call ∧ (s.fence number).Follows late

variable {s next : Config S}

theorem Clear.grow (clear : s.Clear) (grows : s.Grows next) (calls : next.calls = s.calls) :
    next.Clear := by
  intro call member
  obtain ⟨number, used, covers, time, before, returned⟩ := clear call (calls ▸ member)
  exact ⟨number, used.trans_le grows.fences, grows.covers used covers, time, calls ▸ before,
    grows.returned number used time returned⟩

theorem Spaced.grow (spaced : s.Spaced) (grows : s.Grows next) (calls : next.calls = s.calls) :
    next.Spaced := by
  intro call member late inside before
  obtain ⟨number, used, covers, time, returned, after⟩ :=
    spaced call (calls ▸ member) late (calls ▸ inside) before
  exact ⟨number, used.trans_le grows.fences, grows.covers used covers, time,
    grows.returned number used time returned, after⟩

/-- A call that finds all others behind barriers. -/
theorem Spaced.insert (spaced : s.Spaced) (clear : s.Clear) (ledger : s.Ledger)
    (source : Option S.Op) (request : Request S.toSignature) : (s.insert source request).Spaced := by
  intro call member late inside before
  rw [insert_calls] at member inside
  have old : ∀ {call : Call S}, call ∈ s.calls → call.index < s.calls.length := ledger.index_lt
  rcases List.mem_append.mp inside with inside | new
  · rcases List.mem_append.mp member with member | new
    · exact spaced call member late inside before
    · rw [List.mem_singleton.mp new] at before
      exact absurd (old inside) before.not_gt
  · have last : late.index = s.calls.length := by rw [List.mem_singleton.mp new]
    rcases List.mem_append.mp member with member | new
    · obtain ⟨number, used, covers, time, behind, returned⟩ := clear call member
      exact ⟨number, used, covers, time, returned, last ▸ behind⟩
    · rw [List.mem_singleton.mp new, last] at before
      exact absurd before (Nat.lt_irrefl _)

theorem Ledger.increasing (ledger : s.Ledger) :
    s.calls.Pairwise fun call late => call.index < late.index := by
  rw [← List.pairwise_map, ledger.numbered]
  exact List.pairwise_lt_range

/-- With barriers between the calls, their messages are executed in the order of the calls. -/
theorem Spaced.inOrder (spaced : s.Spaced) (synced : s.Synced) (counted : s.Counted)
    (all : ∀ call ∈ s.calls, ∃ entry ∈ s.executed, entry.tag = call.entry) :
    s.calls.map Call.entry = s.executed.map Tagged.tag := by
  have ledger := synced.census.ledger
  refine eq_of_order (counted.executedOnce ledger) (fun number => ?_) ?_
  · constructor
    · intro inside
      obtain ⟨call, member, rfl⟩ := List.mem_map.mp inside
      obtain ⟨entry, ran, tagged⟩ := all call member
      exact List.mem_map.mpr ⟨entry, ran, tagged⟩
    · intro inside
      obtain ⟨entry, ran, rfl⟩ := List.mem_map.mp inside
      obtain ⟨call, member, kept, index, -⟩ :=
        synced.census.registered entry (Or.inr (Or.inr (synced.wired.executed entry ran)))
      exact List.mem_map.mpr ⟨call, member, kept.trans index⟩
  · rw [List.pairwise_map]
    refine ledger.increasing.imp_of_mem fun {call late} member inside before front back split => ?_
    obtain ⟨number, -, covers, follows⟩ := spaced call member late inside before
    obtain ⟨ahead, rest, split', same, after⟩ := List.map_eq_append_iff.mp split
    obtain ⟨entry, behind, here, tagged, -⟩ := List.map_eq_cons_iff.mp after
    obtain ⟨earlier, early, own⟩ := synced.fenced.order number ahead entry behind (here ▸ split')
      ⟨late, inside, follows, tagged.symm⟩ call member covers
    exact same ▸ List.mem_map.mpr ⟨earlier, early, own⟩

/-- Then the texts are the same. -/
theorem Spaced.texts (spaced : s.Spaced) (synced : s.Synced) (counted : s.Counted)
    (all : ∀ call ∈ s.calls, ∃ entry ∈ s.executed, entry.tag = call.entry) :
    s.executed.map (fun entry => entry.value.strToSend) =
      s.calls.map fun call => call.msg.strToSend := by
  have order := spaced.inOrder synced counted all
  refine List.ext_getElem ?_ fun position inside also => ?_
  · simpa using (congrArg List.length order).symm
  · simp only [List.length_map] at inside also
    have tagged : s.executed[position].tag = s.calls[position].entry := by
      have here := List.getElem_of_eq order.symm (by simpa using inside)
      simpa using here
    rw [List.getElem_map, List.getElem_map]
    exact synced.text_eq (List.getElem_mem also) (List.getElem_mem inside) tagged

end Config

/-! ## The server is called directly -/

section Direct

variable {sig : Signature} {Local : Type}

/-- What a handler makes of the state of the program; none where it throws or never returns. -/
def Work.apply : Work sig Local → Local → Option Local
  | .done, state => some state
  | .insert _ next, state => next.apply state
  | .touch change next, state => (next state).apply (change state)
  | .stuck, _ => none

/-- What the handler of the request does with a reply. -/
def Request.handle (reply : Str) : Request S.toSignature → Work S.toSignature S.Local
  | .enqueue client _ data handler => S.react client handler data reply
  | .enqueueNoreply _ => .done

theorem callback_toMsg (request : Request S.toSignature) (counter : UInt64) (reply : Str) :
    Config.callback (request.toMsg counter).1 reply = request.handle reply := by
  unfold Config.callback
  cases request with
  | enqueue client msg data handler =>
      rw [Request.toMsg, Msg.make_client, Msg.make_callback, Msg.make_data]
      rfl
  | enqueueNoreply msg =>
      rw [Request.toMsg, Msg.make_client]
      rfl

/-- What the server does on texts, one after the other. -/
def Setting.after (S : Setting) (texts : List Str) (space : S.Space) : S.Space :=
  texts.foldl (fun space text => (S.run text space).1) space

theorem Setting.after_snoc (texts : List Str) (text : Str) (space : S.Space) :
    S.after (texts ++ [text]) space = (S.run text (S.after texts space)).1 :=
  List.foldl_concat ..

/-- Carry out the rest of an operation on an open channel, with a server that is called directly. -/
def Script.perform : Script S.toSignature S.Local → S.Local → S.Space → Option (S.Local × S.Space)
  | .exit _, state, space => some (state, space)
  | .connected next, state, space => (next true).perform state space
  | .read next, state, space => (next state).perform state space
  | .enqueue request next, state, space =>
      ((request.handle (S.run request.text space).2).apply state).bind fun later =>
        next.perform later (S.run request.text space).1
  | .barrier next, state, space => next.perform state space
  | .synchro msg next, state, space =>
      (next (S.run msg space).2).perform state (S.run msg space).1
  | .closeConnection _, _, _ => none

/-- Carry out operations one after the other. -/
def Setting.performAll (S : Setting) : List S.Op → S.Local → S.Space → Option (S.Local × S.Space)
  | [], state, space => some (state, space)
  | op :: ops, state, space =>
      ((S.script op).perform state space).bind fun final => S.performAll ops final.1 final.2

end Direct

/-! ## One thread -/

/-- Nothing is put on the queue when the handler of the message runs, if it has one. -/
structure Msg.Quiet (msg : Msg S.toSignature) : Prop where
  inserts : ∀ reply, (Config.callback msg reply : Work S.toSignature S.Local).All fun _ => False
  noreply : msg.noreply = true → ∀ reply,
    Config.callback msg reply = (.done : Work S.toSignature S.Local)

def Request.Quiet (request : Request S.toSignature) : Prop :=
  ∀ reply, (request.handle reply : Work S.toSignature S.Local).All fun _ => False

theorem Request.Quiet.toMsg {request : Request S.toSignature} (quiet : request.Quiet)
    (counter : UInt64) :
    (request.toMsg counter).1.Quiet where
  inserts reply := by
    rw [callback_toMsg]
    exact quiet reply
  noreply silent reply := by
    cases request with
    | enqueue client msg data handler =>
        rw [Request.toMsg, Msg.make_noreply] at silent
        cases silent
    | enqueueNoreply msg => exact callback_toMsg (.enqueueNoreply msg) counter reply

/-- Between a call of `enqueue` and the next one, and before the state of the program is read, there
is a barrier; `clear` when there was one before. -/
def Script.Apart (Then : Bool → Prop) : Script S.toSignature S.Local → Bool → Prop
  | .exit _, clear => Then clear
  | .connected next, clear => (next true).Apart Then clear
  | .read next, clear => clear = true ∧ ∀ state, (next state).Apart Then clear
  | .enqueue request next, clear => clear = true ∧ request.Quiet ∧ next.Apart Then false
  | .barrier next, _ => next.Apart Then true
  | .synchro _ _, _ | .closeConnection _, _ => False

/-- So it is in operations that are called one after the other. -/
def Setting.ApartAll (S : Setting) : List S.Op → Bool → Prop
  | [], _ => True
  | op :: ops, clear => (S.script op).Apart (S.ApartAll ops) clear

/-- What a thread has left to do. -/
def Caller.Apart (Then : Bool → Prop) : Caller S → Bool → Prop
  | .idle, clear => Then clear
  | .running _ _ script, clear => script.Apart Then clear
  | .fencing _ _ _ next, _ => next.Apart Then true
  | .asking _ _ _ _, _ => False

def Caller.perform (state : S.Local) (space : S.Space) : Caller S → Option (S.Local × S.Space)
  | .idle => some (state, space)
  | .running _ _ script | .fencing _ _ _ script => script.perform state space
  | .asking _ _ _ _ => none

def Worker.Quiet : Worker S → Prop
  | .idle => True
  | .sending entry | .waiting entry => entry.value.Quiet
  | .running _ rest => rest.All fun _ => False

namespace Config

/-- One thread is in an operation, and the server has been asked for nothing by `synchro`. -/
structure Telling (thread : ThreadId) (space : S.Space) (s : Config S) : Prop where
  opened : s.isOpen = true
  others : ∀ other ≠ thread, s.caller other = .idle
  pending : ∀ entry ∈ s.pending, entry.value.Quiet
  workers : ∀ worker, (s.worker worker).Quiet
  silent : ∀ sock other msg, Wire.synchro other msg ∉ s.inbox sock
  space : s.space = S.runAll s.executed space

variable {thread : ThreadId} {space : S.Space} {s next : Config S} {action : Action S}

theorem telling_initial (counter : UInt64) (start : S.Local) :
    (Config.initial counter space start).Telling thread space where
  opened := rfl
  others _ _ := rfl
  pending _ member := absurd member List.not_mem_nil
  workers _ := trivial
  silent _ _ _ := List.not_mem_nil
  space := rfl

namespace Telling

/-- Only this thread is in an operation. -/
theorem own (telling : s.Telling thread space) {mover : ThreadId} {caller : Caller S}
    (here : s.caller mover = caller) (busy : caller ≠ .idle) : mover = thread := by
  by_contra different
  exact busy (here.symm.trans (telling.others mover different))

/-- The thread goes on. -/
theorem move (telling : s.Telling thread space) {mover : ThreadId} {caller : Caller S}
    (same : mover = thread) (callers : next.caller = Function.update s.caller mover caller)
    (opened : next.isOpen = s.isOpen) (workers : next.worker = s.worker)
    (inbox : next.inbox = s.inbox) (spaces : next.space = s.space)
    (executed : next.executed = s.executed)
    (pending : ∀ entry ∈ next.pending, entry ∈ s.pending ∨ entry.value.Quiet) :
    next.Telling thread space where
  opened := opened.trans telling.opened
  others other different := by
    rw [callers, same, Function.update_of_ne different]
    exact telling.others other different
  pending entry member := (pending entry member).elim (telling.pending entry) id
  workers := workers ▸ telling.workers
  silent := inbox ▸ telling.silent
  space := by
    rw [spaces, executed]
    exact telling.space

/-- A worker goes on. -/
theorem work (telling : s.Telling thread space) {worker : WorkerId} {state : Worker S}
    (workers : next.worker = Function.update s.worker worker state) (quiet : state.Quiet)
    (callers : next.caller = s.caller) (opened : next.isOpen = s.isOpen) (spaces : next.space = s.space)
    (executed : next.executed = s.executed) (pending : next.pending ⊆ s.pending)
    (inbox : ∀ sock other msg, Wire.synchro other msg ∈ next.inbox sock →
      Wire.synchro other msg ∈ s.inbox sock) : next.Telling thread space where
  opened := opened.trans telling.opened
  others := callers ▸ telling.others
  pending entry member := telling.pending entry (pending member)
  workers other := by
    rw [workers]
    by_cases same : other = worker
    · rw [same, Function.update_self]
      exact quiet
    · rw [Function.update_of_ne same]
      exact telling.workers other
  silent sock other msg inside := telling.silent sock other msg (inbox sock other msg inside)
  space := by
    rw [spaces, executed]
    exact telling.space

/-- A barrier or the server goes on. -/
theorem pass (telling : s.Telling thread space) (callers : next.caller = s.caller)
    (workers : next.worker = s.worker) (opened : next.isOpen = s.isOpen)
    (pending : next.pending = s.pending)
    (inbox : ∀ sock other msg, Wire.synchro other msg ∈ next.inbox sock →
      Wire.synchro other msg ∈ s.inbox sock)
    (spaces : next.space = S.runAll next.executed space) : next.Telling thread space where
  opened := opened.trans telling.opened
  others := callers ▸ telling.others
  pending := pending ▸ telling.pending
  workers := workers ▸ telling.workers
  silent sock other msg inside := telling.silent sock other msg (inbox sock other msg inside)
  space := spaces

theorem step (telling : s.Telling thread space) (mine : action.From thread) {Then : Bool → Prop}
    {clear : Bool} (apart : (s.caller thread).Apart Then clear) (taken : s.step action = some next) :
    next.Telling thread space := by
  -- What the thread has left to do only puts messages on the queue.
  have goes : ∀ {mover : ThreadId} {caller : Caller S}, s.caller mover = caller → caller ≠ .idle →
      mover = thread ∧ caller.Apart Then clear := by
    intro mover caller here busy
    obtain rfl := telling.own here busy
    exact ⟨rfl, here ▸ apart⟩
  cases moves_of_step taken with
  | @start mover op =>
      obtain rfl : mover = thread := mine
      exact telling.move rfl rfl rfl rfl rfl rfl rfl fun _ => Or.inl
  | edit => exact mine.elim
  | exit here | connected here | read here | barrier here | finish here =>
      obtain ⟨same, -⟩ := goes here (by rintro ⟨⟩)
      exact telling.move same rfl rfl rfl rfl rfl rfl fun _ => Or.inl
  | @enqueue _ _ _ request _ here =>
      obtain ⟨same, -, quiet, -⟩ := goes here (by rintro ⟨⟩)
      refine telling.move same rfl rfl rfl rfl rfl rfl fun entry member => ?_
      rcases mem_offer member with old | rfl
      · exact Or.inl old
      · exact Or.inr (quiet.toMsg s.counter)
  | ask here | closeConnection here | answer here =>
      obtain ⟨-, never⟩ := goes here (by rintro ⟨⟩)
      exact never.elim
  | drain here => exact telling.pass rfl rfl rfl rfl (fun _ _ _ => id) telling.space
  | block =>
      refine telling.pass rfl rfl rfl rfl (fun sock other msg inside => ?_) telling.space
      exact (Wired.mem_push inside).elim id fun new => by cases new.2
  | take idle member =>
      exact telling.work rfl (telling.pending _ member) rfl rfl rfl rfl
        (List.filter_subset_self _) fun _ _ _ => id
  | @send worker entry here =>
      have quiet : (Worker.sending entry).Quiet := here ▸ telling.workers worker
      refine telling.work rfl ?_ rfl rfl rfl rfl (List.Subset.refl _) fun sock other msg inside => ?_
      · split
        · trivial
        · exact quiet
      · exact (Wired.mem_push inside).elim id fun new => by cases new.2
  | @receive worker entry reply rest here =>
      have quiet : (Worker.waiting entry).Quiet := here ▸ telling.workers worker
      exact telling.work rfl (quiet.inserts reply.text) rfl rfl rfl rfl (List.Subset.refl _)
        fun _ _ _ => id
  | rest here =>
      exact telling.work rfl trivial rfl rfl rfl rfl (List.Subset.refl _) fun _ _ _ => id
  | @workInsert worker entry request rest here =>
      have quiet : (Worker.running entry (.insert request rest)).Quiet := here ▸ telling.workers worker
      exact quiet.1.elim
  | @workTouch worker entry change rest here =>
      have quiet : (Worker.running entry (.touch change rest)).Quiet := here ▸ telling.workers worker
      exact telling.work rfl (quiet s.locals) rfl rfl rfl rfl (List.Subset.refl _) fun _ _ _ => id
  | @serve sock entry rest free first =>
      have ran : S.runAll (s.executed ++ [entry]) space = (S.run entry.value.strToSend s.space).1 := by
        rw [telling.space, Setting.runAll, List.foldl_append]
        rfl
      exact telling.pass rfl rfl rfl rfl (fun _ _ _ => Wired.mem_serve first) ran.symm
  | serveSynchro free first =>
      exact absurd (first ▸ List.mem_cons_self) (telling.silent _ _ _)
  | arrive => exact telling.pass rfl rfl rfl rfl (fun _ _ _ => id) telling.space
  | release => exact telling.pass rfl rfl rfl rfl (fun _ _ _ => Wired.mem_release) telling.space

end Telling

/-- The texts of the calls. -/
def told (s : Config S) : List Str := s.calls.map fun call => call.msg.strToSend

/-- The element with this number stands for the last call, and this is the reply that a server gives
that has executed the messages of the calls before. -/
def LastCall (space : S.Space) (s : Config S) (number : Nat) (reply : Str) : Prop :=
  ∃ earlier call, s.calls = earlier ++ [call] ∧ call.entry = number ∧
    reply = (S.run call.msg.strToSend
      (S.after (earlier.map fun call => call.msg.strToSend) space)).2

end Config

/-- With this reply, the worker brings about this state of the program. -/
def Worker.Makes (state : S.Local) (due : Option S.Local) (reply : Str) : Worker S → Prop
  | .idle => False
  | .sending entry | .waiting entry => (Config.callback entry.value reply).apply state = due
  | .running _ rest => rest.apply state = due

namespace Config

variable {thread : ThreadId} {space : S.Space} {s next : Config S} {action : Action S}
  {due : Option S.Local}

/-- The state of the program when the handlers of all calls have run: that of the last call is the
only one that may still have to. -/
inductive Owes (space : S.Space) (s : Config S) (due : Option S.Local) : Prop
  | nothing (pending : s.pending = []) (idle : ∀ worker, s.worker worker = .idle)
      (done : due = some s.locals)
  | pending (entry : Entry S.toSignature) (reply : Str) (last : s.LastCall space entry.tag reply)
      (pending : s.pending = [entry]) (idle : ∀ worker, s.worker worker = .idle)
      (makes : (callback entry.value reply).apply s.locals = due)
  | working (worker : WorkerId) (number : Nat) (reply : Str) (last : s.LastCall space number reply)
      (pending : s.pending = []) (others : ∀ other ≠ worker, s.worker other = .idle)
      (holds : (s.worker worker).holds = some number)
      (makes : (s.worker worker).Makes s.locals due reply)
      (answers : ∀ answer ∈ s.outbox (.worker worker), answer.text = reply)

namespace Owes

/-- Steps of the thread, of barriers, and of the server between messages. -/
theorem congr (owes : s.Owes space due) (calls : next.calls = s.calls)
    (pending : next.pending = s.pending)
    (worker : next.worker = s.worker) (locals : next.locals = s.locals)
    (outbox : ∀ worker, next.outbox (.worker worker) = s.outbox (.worker worker)) :
    next.Owes space due := by
  cases owes with
  | nothing empty idle done =>
      exact .nothing (pending.trans empty) (worker ▸ idle) (locals ▸ done)
  | pending entry reply last one idle makes =>
      exact .pending entry reply (by rwa [LastCall, calls]) (pending.trans one) (worker ▸ idle)
        (locals ▸ makes)
  | working own number reply last empty others holds makes answers =>
      exact .working own number reply (by rwa [LastCall, calls]) (pending.trans empty) (worker ▸ others)
        (worker ▸ holds) (locals ▸ worker ▸ makes) (outbox own ▸ answers)

/-- When a barrier has waited for every call, every handler has run. -/
theorem done_of_clear (owes : s.Owes space due) (clear : s.Clear) (synced : s.Synced) :
    s.pending = [] ∧ (∀ worker, s.worker worker = .idle) ∧ due = some s.locals := by
  have dead : ∀ {number reply}, s.LastCall space number reply → ¬ s.Live number := by
    rintro number reply ⟨earlier, call, calls, rfl, -⟩
    have member : call ∈ s.calls := by
      rw [calls]
      exact List.mem_append_right _ (List.mem_singleton.mpr rfl)
    obtain ⟨fence, used, covers, time, -, returned⟩ := clear call member
    have finished : (s.fence fence).returned.isSome := by rw [returned]; rfl
    exact synced.fenced.handled fence
      (synced.dated.ran fence 0 (synced.dated.returned fence finished 0)) call member covers
  cases owes with
  | nothing empty idle done => exact ⟨empty, idle, done⟩
  | pending entry reply last one =>
      refine absurd (Or.inl ⟨entry, ?_, rfl⟩) (dead last)
      rw [one]
      exact List.mem_singleton.mpr rfl
  | working worker number reply last empty others holds =>
      exact absurd (Or.inr ⟨worker, holds⟩) (dead last)

/-- A worker has nothing to read while it waits for nothing. -/
theorem outbox_nil (paired : s.Paired) {worker : WorkerId} (none : (s.worker worker).awaits = []) :
    s.outbox (.worker worker) = [] := by
  have owed : s.owed (.worker worker) = [] := (congrFun paired _).trans none
  exact List.map_eq_nil_iff.mp (List.append_eq_nil_iff.mp owed).1

/-- Only this worker is at work. -/
theorem working_of_busy (owes : s.Owes space due) {worker : WorkerId} (busy : s.worker worker ≠ .idle) :
    ∃ number reply, s.LastCall space number reply ∧ s.pending = [] ∧
      (∀ other ≠ worker, s.worker other = .idle) ∧ (s.worker worker).holds = some number ∧
        (s.worker worker).Makes s.locals due reply ∧
          ∀ answer ∈ s.outbox (.worker worker), answer.text = reply := by
  cases owes with
  | nothing empty idle | pending _ _ _ _ idle => exact absurd (idle worker) busy
  | working own number reply last empty others holds makes answers =>
      by_cases same : worker = own
      · subst same
        exact ⟨number, reply, last, empty, others, holds, makes, answers⟩
      · exact absurd (others worker same) busy

/-- The worker goes on. -/
theorem work (owes : s.Owes space due) {worker : WorkerId} (busy : s.worker worker ≠ .idle)
    {state : Worker S} (workers : next.worker = Function.update s.worker worker state)
    (calls : next.calls = s.calls) (pending : next.pending = s.pending)
    (holds : state.holds = (s.worker worker).holds)
    (makes : ∀ reply, (s.worker worker).Makes s.locals due reply →
      (∀ answer ∈ s.outbox (.worker worker), answer.text = reply) →
        state.Makes next.locals due reply ∧ ∀ answer ∈ next.outbox (.worker worker), answer.text = reply) :
    next.Owes space due := by
  obtain ⟨number, reply, last, empty, others, held, made, answers⟩ := owes.working_of_busy busy
  obtain ⟨later, read⟩ := makes reply made answers
  refine .working worker number reply (by rwa [LastCall, calls]) (pending.trans empty)
    (fun other different => ?_) ?_ ?_ read
  · rw [workers, Function.update_of_ne different]
    exact others other different
  · rw [workers, Function.update_self, holds]
    exact held
  · rw [workers, Function.update_self]
    exact later

/-- The worker is idle again. -/
theorem rest (owes : s.Owes space due) {worker : WorkerId} (busy : s.worker worker ≠ .idle)
    (workers : next.worker = Function.update s.worker worker .idle) (pending : next.pending = s.pending)
    (locals : next.locals = s.locals)
    (makes : ∀ reply, (s.worker worker).Makes s.locals due reply → due = some s.locals) :
    next.Owes space due := by
  obtain ⟨number, reply, last, empty, others, held, made, answers⟩ := owes.working_of_busy busy
  refine .nothing (pending.trans empty) (fun other => ?_) (locals ▸ makes reply made)
  rw [workers]
  by_cases same : other = worker
  · rw [same, Function.update_self]
  · rw [Function.update_of_ne same]
    exact others other same

/-- A worker waits for the reply to the first message on its socket. -/
theorem waiting_of_first (paired : s.Paired) {worker : WorkerId} {entry : Entry S.toSignature}
    {rest : List (Wire S.toSignature)} (replies : entry.value.noreply = false)
    (first : s.inbox (.worker worker) = .request entry :: rest) :
    s.worker worker = .waiting entry ∧ s.outbox (.worker worker) = [] := by
  have owed : s.owed (.worker worker) = (s.worker worker).awaits := congrFun paired _
  rw [Config.owed, first, List.filter_cons_of_pos (by simp [Wire.expects, replies])] at owed
  cases here : s.worker worker with
  | waiting other =>
      rw [here] at owed
      have length := congrArg List.length owed
      simp only [Worker.awaits, List.length_append, List.length_map, List.length_cons,
        List.length_nil] at length
      have unread : s.outbox (.worker worker) = [] := List.length_eq_zero_iff.mp (by omega)
      rw [unread, List.map_nil, List.nil_append] at owed
      cases (List.cons.inj owed).1
      exact ⟨rfl, unread⟩
  | idle | sending | running =>
      rw [here] at owed
      exact absurd (List.append_eq_nil_iff.mp owed).2 (List.cons_ne_nil _ _)

/-- The server has executed all messages before the one that a worker waits for. -/
theorem space_of_first (telling : s.Telling thread space) (regular : s.Regular) (counted : s.Counted)
    (spaced : s.Spaced) {sock : SockId} {number : Nat} {reply : Str} {entry : Entry S.toSignature}
    {rest : List (Wire S.toSignature)} (last : s.LastCall space number reply)
    (numbered : entry.tag = number) (first : s.inbox sock = .request entry :: rest)
    (taken : s.step (.serve sock) = some next) :
    (S.run entry.value.strToSend s.space).2 = reply := by
  obtain ⟨earlier, call, calls, own, rfl⟩ := last
  obtain ⟨same, executed⟩ : next.calls = s.calls ∧ next.executed = s.executed ++ [entry] := by
    cases moves_of_step taken with
    | serve _ other =>
        rw [first] at other
        cases other
        exact ⟨rfl, rfl⟩
    | serveSynchro _ other =>
        rw [first] at other
        cases other
  have synced := regular.synced.step taken
  have spaced := spaced.grow (grows_step regular.owned taken) same
  have inside : call ∈ next.calls := by
    rw [same, calls]
    exact List.mem_append_right _ (List.mem_singleton.mpr rfl)
  have all : ∀ other ∈ next.calls, ∃ ran ∈ next.executed, ran.tag = other.entry := by
    intro other member
    rw [executed]
    rw [same, calls] at member
    rcases List.mem_append.mp member with early | equal
    · have increasing := regular.synced.census.ledger.increasing
      rw [calls] at increasing
      have before := (List.pairwise_append.mp increasing).2.2 other early call (List.mem_singleton.mpr rfl)
      have member : other ∈ next.calls := by
        rw [same, calls]
        exact List.mem_append_left _ early
      obtain ⟨fence, -, covers, follows⟩ := spaced other member call inside before
      obtain ⟨ran, ahead, tagged⟩ := synced.fenced.order fence s.executed entry [] executed
        ⟨call, inside, follows, own.trans numbered.symm⟩ other member covers
      exact ⟨ran, List.mem_append_left _ ahead, tagged⟩
    · rw [List.mem_singleton.mp equal]
      exact ⟨entry, List.mem_append_right _ (List.mem_singleton.mpr rfl), numbered.trans own.symm⟩
  have texts := spaced.texts synced (counted.step regular.synced.wired (wireStep_of_step taken)) all
  rw [executed, same, calls, List.map_append, List.map_append] at texts
  obtain ⟨before, last⟩ := List.append_inj' texts rfl
  have caughtUp : s.space = S.after (earlier.map fun call => call.msg.strToSend) space := by
    rw [telling.space, ← before, Setting.after, List.foldl_map]
    rfl
  have text : entry.value.strToSend = call.msg.strToSend := (List.cons.inj last).1
  rw [caughtUp, text]

theorem step (owes : s.Owes space due) (telling : s.Telling thread space) (regular : s.Regular)
    (counted : s.Counted) (spaced : s.Spaced) (mine : action.From thread)
    (plain : s.inserting action = none) (taken : s.step action = some next) : next.Owes space due := by
  cases moves_of_step taken with
  | start | exit | connected | read | ask | closeConnection | barrier | drain | block | finish | arrive
  | release => exact owes.congr rfl rfl rfl rfl fun _ => rfl
  | answer =>
      exact owes.congr rfl rfl rfl rfl fun worker => by simp [setCaller]
  | edit => exact mine.elim
  | enqueue here | workInsert here =>
      rw [inserting, here] at plain
      cases plain
  | @take worker number entry idle member numbered =>
      cases owes with
      | nothing empty | working _ _ _ _ empty =>
          rw [empty] at member
          exact absurd member List.not_mem_nil
      | pending own reply last one all makes =>
          rw [one, List.mem_singleton] at member
          subst member
          refine .working worker entry.tag reply last ?_ (fun other different => ?_) ?_ ?_ ?_
          · simp [setWorker, one, numbered]
          · simpa [setWorker, different] using all other
          · simp [setWorker, Worker.holds]
          · simpa [setWorker, Worker.Makes] using makes
          · intro answer inside
            have none : s.outbox (.worker worker) = [] := outbox_nil regular.paired (by rw [idle]; rfl)
            exact absurd (none ▸ inside) List.not_mem_nil
  | @send worker entry here =>
      have busy : s.worker worker ≠ .idle := by rw [here]; rintro ⟨⟩
      have quiet : (Worker.sending entry).Quiet := here ▸ telling.workers worker
      cases silent : entry.value.noreply with
      | true =>
          refine owes.rest busy rfl rfl rfl fun reply makes => ?_
          rw [here] at makes
          have done : (callback entry.value reply : Work S.toSignature S.Local) = .done :=
            quiet.noreply silent reply
          rw [Worker.Makes, done] at makes
          exact makes.symm
      | false =>
          refine owes.work busy rfl rfl rfl (by rw [here]; rfl)
            fun reply makes answers => ⟨?_, answers⟩
          rw [here] at makes
          exact makes
  | @receive worker entry answer rest here arrived =>
      have busy : s.worker worker ≠ .idle := by rw [here]; rintro ⟨⟩
      refine owes.work busy rfl rfl rfl (by rw [here]; rfl) fun reply makes answers => ⟨?_, ?_⟩
      · rw [here] at makes
        have own : answer.text = reply := answers answer (by rw [arrived]; exact List.mem_cons_self)
        rw [own]
        exact makes
      · intro other inside
        have later : other ∈ rest := by simpa [setWorker] using inside
        exact answers other (by rw [arrived]; exact List.mem_cons_of_mem _ later)
  | @rest worker entry here =>
      have busy : s.worker worker ≠ .idle := by rw [here]; rintro ⟨⟩
      refine owes.rest busy rfl rfl rfl fun reply makes => ?_
      rw [here] at makes
      exact makes.symm
  | @workTouch worker entry change rest here =>
      have busy : s.worker worker ≠ .idle := by rw [here]; rintro ⟨⟩
      refine owes.work busy rfl rfl rfl (by rw [here]; rfl) fun reply makes answers => ⟨?_, answers⟩
      rw [here] at makes
      exact makes
  | @serve sock entry rest free first =>
      have inside : Wire.request entry ∈ s.inbox sock := by
        rw [first]
        exact List.mem_cons_self
      obtain ⟨⟨worker, rfl⟩, -⟩ := regular.synced.wired.request sock entry inside
      cases silent : entry.value.noreply with
      | true => exact owes.congr rfl rfl rfl rfl fun _ => rfl
      | false =>
          obtain ⟨here, unread⟩ := waiting_of_first regular.paired silent first
          have busy : s.worker worker ≠ .idle := by rw [here]; rintro ⟨⟩
          obtain ⟨number, reply, last, empty, others, holds, makes, -⟩ := owes.working_of_busy busy
          have numbered : entry.tag = number := by
            rw [here] at holds
            exact Option.some.inj holds
          refine .working worker number reply last empty others holds makes fun answer read => ?_
          have one : answer = ⟨(S.run entry.value.strToSend s.space).2, .request entry⟩ := by
            simpa [unread] using read
          rw [one]
          exact space_of_first telling regular counted spaced last numbered first taken
  | serveSynchro free first => exact absurd (first ▸ List.mem_cons_self) (telling.silent _ _ _)

/-- A call of `enqueue` behind a barrier. -/
theorem enqueue (owes : s.Owes space due) (clear : s.Clear) (synced : s.Synced) (source : Option S.Op)
    (request : Request S.toSignature) : due = some s.locals ∧ (s.insert source request).Owes space
      ((request.handle (S.run request.text (S.after s.told space)).2).apply s.locals) := by
  obtain ⟨empty, idle, done⟩ := owes.done_of_clear clear synced
  have alone : (s.insert source request).pending = [⟨s.calls.length, (request.toMsg s.counter).1⟩] := by
    rw [insert_pending, empty]
    rfl
  have own : standsFor Msg.Equivalent s.pending s.calls.length (request.toMsg s.counter).1 =
      s.calls.length := by
    rw [empty]
    rfl
  refine ⟨done, .pending _ (S.run request.text (S.after s.told space)).2
    ⟨s.calls, _, insert_calls s source request, own, ?_⟩ alone idle ?_⟩
  · rw [Request.toMsg_strToSend]
    rfl
  · rw [callback_toMsg]
    rfl

end Owes

/-- What comes of the calls so far, of the operation that the thread is in, and of those that it goes
on to call. -/
def outcome (thread : ThreadId) (space : S.Space) (ops : List S.Op) (due : Option S.Local)
    (s : Config S) :
    Option (S.Local × S.Space) :=
  due.bind fun state => ((s.caller thread).perform state (S.after s.told space)).bind fun final =>
    S.performAll ops final.1 final.2

/-- There are barriers between the calls so far and between those to come. -/
structure Serial (thread : ThreadId) (space : S.Space) (ops : List S.Op) (due : Option S.Local)
    (s : Config S) : Prop where
  spaced : s.Spaced
  ready : ∃ clear, (clear = true → s.Clear) ∧ (s.caller thread).Apart (S.ApartAll ops) clear
  /-- Nothing is put on the queue during a barrier. -/
  fencing : ∀ number, (s.caller thread).fence = some number →
    number < s.fences ∧ (s.fence number).begun = s.calls.length
  owes : s.Owes space due

namespace Serial

variable {ops later : List S.Op}

/-- The thread is where it was. -/
theorem pass (serial : s.Serial thread space ops due) (grows : s.Grows next)
    (calls : next.calls = s.calls)
    (callers : next.caller thread = s.caller thread) (owes : next.Owes space due) :
    ∃ due', next.Serial thread space ops due' ∧
      s.outcome thread space ops due = next.outcome thread space ops due' := by
  obtain ⟨clear, cleared, apart⟩ := serial.ready
  refine ⟨due, ⟨serial.spaced.grow grows calls, ⟨clear, fun now => (cleared now).grow grows calls, ?_⟩,
    fun number fencing => ?_, owes⟩, ?_⟩
  · rw [callers]
    exact apart
  · obtain ⟨used, begun⟩ := serial.fencing number (callers ▸ fencing)
    exact ⟨used.trans_le grows.fences, (grows.begun number used).trans (calls ▸ begun)⟩
  · rw [outcome, outcome, callers, told, told, calls]

/-- The thread goes on without a call of `enqueue`, and stays out of `barrier`. -/
theorem move (serial : s.Serial thread space ops due) (grows : s.Grows next)
    (calls : next.calls = s.calls)
    (owes : next.Owes space due) (outside : (next.caller thread).fence = none)
    (apart : ∀ clear, (s.caller thread).Apart (S.ApartAll ops) clear →
      (next.caller thread).Apart (S.ApartAll later) clear)
    (same : s.outcome thread space ops due = next.outcome thread space later due) :
    ∃ due', next.Serial thread space later due' ∧
      s.outcome thread space ops due = next.outcome thread space later due' := by
  obtain ⟨clear, cleared, ready⟩ := serial.ready
  refine ⟨due, ⟨serial.spaced.grow grows calls, ⟨clear, fun now => (cleared now).grow grows calls,
    apart clear ready⟩, fun number fencing => ?_, owes⟩, same⟩
  rw [outside] at fencing
  cases fencing

theorem step (telling : s.Telling thread space) (regular : s.Regular) (counted : s.Counted)
    (serial : s.Serial thread space ((action.calledBy thread).toList ++ later) due)
    (mine : action.From thread) (taken : s.step action = some next) :
    ∃ due', next.Serial thread space later due' ∧
      s.outcome thread space ((action.calledBy thread).toList ++ later) due =
        next.outcome thread space later due' := by
  have grows := grows_step regular.owned taken
  have owes : s.inserting action = none → next.Owes space due := fun plain =>
    serial.owes.step telling regular counted serial.spaced mine plain taken
  cases moves_of_step taken with
  | @start mover op idle =>
      obtain rfl : mover = thread := mine
      have calls : (Action.start mover op : Action S).calledBy mover = some op := if_pos rfl
      refine serial.move grows rfl (owes rfl) ?_ (fun clear apart => ?_) ?_
      · simp [setCaller, Caller.fence]
      · rw [idle, calls] at apart
        simp only [setCaller, Function.update_self]
        exact apart
      · rw [outcome, outcome, idle, calls]
        simp [setCaller, Caller.perform, told, Setting.performAll]
  | edit => exact mine.elim
  | @exit mover op since how here =>
      obtain rfl := telling.own here (by rintro ⟨⟩)
      refine serial.move grows rfl (owes (by rw [inserting, here])) ?_ (fun clear apart => ?_) ?_
      · simp [setCaller, Caller.fence]
      · rw [here] at apart
        simp only [setCaller, Function.update_self]
        exact apart
      · rw [outcome, outcome, here]
        simp [setCaller, Caller.perform, told, Script.perform, Action.calledBy]
  | @connected mover op since rest here =>
      obtain rfl := telling.own here (by rintro ⟨⟩)
      refine serial.move grows rfl (owes (by rw [inserting, here])) ?_ (fun clear apart => ?_) ?_
      · simp [setCaller, Caller.fence]
      · rw [here] at apart
        simp only [setCaller, Function.update_self, telling.opened]
        exact apart
      · rw [outcome, outcome, here]
        simp [setCaller, Caller.perform, told, Script.perform, Action.calledBy, telling.opened]
  | @read mover op since rest here =>
      obtain rfl := telling.own here (by rintro ⟨⟩)
      obtain ⟨clear, cleared, apart⟩ := serial.ready
      rw [here] at apart
      obtain ⟨-, -, done⟩ := serial.owes.done_of_clear (cleared apart.1) regular.synced
      refine serial.move grows rfl (owes (by rw [inserting, here])) ?_ (fun clear apart => ?_) ?_
      · simp [setCaller, Caller.fence]
      · rw [here] at apart
        simp only [setCaller, Function.update_self]
        exact apart.2 s.locals
      · rw [outcome, outcome, here, done]
        simp [setCaller, Caller.perform, told, Script.perform, Action.calledBy]
  | @enqueue mover op since request rest here =>
      obtain rfl := telling.own here (by rintro ⟨⟩)
      obtain ⟨clear, cleared, apart⟩ := serial.ready
      rw [here] at apart
      have now := cleared apart.1
      obtain ⟨done, last⟩ := serial.owes.enqueue now regular.synced (some op) request
      refine ⟨_, ⟨serial.spaced.insert now regular.synced.census.ledger (some op) request,
        ⟨false, (by rintro ⟨⟩), ?_⟩, fun number fencing => ?_, last.congr rfl rfl rfl rfl fun _ => rfl⟩, ?_⟩
      · simp only [setCaller, Function.update_self]
        exact apart.2.2
      · simp [setCaller, Caller.fence] at fencing
      · have more : ((s.insert (some op) request).setCaller mover (.running op since rest)).told =
            s.told ++ [request.text] := by
          change (s.insert (some op) request).calls.map _ = _
          rw [insert_calls, List.map_append, List.map_singleton, Request.toMsg_strToSend]
          rfl
        rw [outcome, outcome, here, done, more, Setting.after_snoc]
        simp only [Option.bind_some, Caller.perform, Script.perform, Option.bind_assoc, setCaller,
          Function.update_self]
        rfl
  | ask here | closeConnection here | answer here =>
      obtain rfl := telling.own here (by rintro ⟨⟩)
      obtain ⟨clear, -, apart⟩ := serial.ready
      rw [here] at apart
      exact apart.elim
  | @barrier mover id op since rest here =>
      obtain rfl := telling.own here (by rintro ⟨⟩)
      obtain ⟨clear, cleared, apart⟩ := serial.ready
      rw [here] at apart
      refine ⟨due, ⟨serial.spaced.grow grows rfl, ⟨clear, fun now => (cleared now).grow grows rfl, ?_⟩,
        fun number fencing => ?_, owes rfl⟩, ?_⟩
      · simp only [setCaller, Function.update_self]
        exact apart
      · obtain rfl : s.fences = number := by simpa [setCaller, Caller.fence] using fencing
        exact ⟨Nat.lt_succ_self _, by simp [setCaller, setFence]⟩
      · rw [outcome, outcome, here]
        simp [setCaller, setFence, Caller.perform, told, Script.perform, Action.calledBy]
  | @finish mover op since number rest here =>
      obtain rfl := telling.own here (by rintro ⟨⟩)
      obtain ⟨used, begun⟩ := serial.fencing number (by rw [here]; rfl)
      obtain ⟨clear, -, apart⟩ := serial.ready
      rw [here] at apart
      refine ⟨due, ⟨serial.spaced.grow grows rfl, ⟨true, fun _ call member => ?_, ?_⟩,
        fun number fencing => ?_, owes rfl⟩, ?_⟩
      · -- The barrier was called after every call of `enqueue`.
        refine ⟨number, used, Or.inl ?_, s.calls.length, Nat.le_refl _, by simp [setCaller, setFence]⟩
        have early := regular.synced.census.ledger.index_lt member
        simpa [setCaller, setFence, begun] using early
      · simp only [setCaller, Function.update_self]
        exact apart
      · simp [setCaller, Caller.fence] at fencing
      · rw [outcome, outcome, here]
        simp [setCaller, setFence, Caller.perform, told, Action.calledBy]
  | drain | block | take | send | receive | serve | serveSynchro | arrive | release =>
      exact serial.pass grows rfl rfl (owes rfl)
  | rest here | workTouch here => exact serial.pass grows rfl rfl (owes (by rw [inserting, here]))
  | @workInsert worker entry request rest here =>
      have quiet : (Worker.running entry (.insert request rest)).Quiet := here ▸ telling.workers worker
      exact quiet.1.elim

theorem exec {actions : List (Action S)} (telling : s.Telling thread space) (regular : s.Regular)
    (counted : s.Counted)
    (serial : s.Serial thread space (actions.filterMap (Action.calledBy thread)) due)
    (mine : ∀ action ∈ actions, action.From thread)
    (run : Transition.exec Config.step s actions = some next) :
    ∃ due', next.Telling thread space ∧ next.Regular ∧ next.Counted ∧ next.Serial thread space [] due' ∧
      s.outcome thread space (actions.filterMap (Action.calledBy thread)) due =
        next.outcome thread space [] due' := by
  induction actions generalizing s due with
  | nil =>
      obtain rfl := Option.some.inj run
      exact ⟨due, telling, regular, counted, serial, rfl⟩
  | cons action actions ih =>
      obtain ⟨middle, taken, rest⟩ := exec_cons_eq_some.mp run
      have own := mine action List.mem_cons_self
      have split : (action :: actions).filterMap (Action.calledBy thread) =
          (action.calledBy thread).toList ++ actions.filterMap (Action.calledBy thread) := by
        rw [List.filterMap_cons]
        cases action.calledBy thread <;> rfl
      rw [split] at serial ⊢
      obtain ⟨clear, -, apart⟩ := serial.ready
      obtain ⟨due', later, same⟩ := serial.step telling regular counted own taken
      obtain ⟨due'', telling, regular, counted, last, told⟩ := ih (telling.step own apart taken)
        (regular.step taken) (counted.step regular.synced.wired (wireStep_of_step taken)) later
        (fun other inside => mine other (List.mem_cons_of_mem _ inside)) rest
      exact ⟨due'', telling, regular, counted, last, same.trans told⟩

end Serial

end Config

/-- A thread that is alone on a channel, and calls `barrier` between its messages and before it reads
the state of the program: when the channel has come to rest, the program and the server are in the
states that the operations lead to when the server is called directly. -/
theorem performed_serially {thread : ThreadId} {start : S.Local} {space : S.Space} {counter : UInt64}
    {actions : List (Action S)} {final : Config S}
    (run : exec Config.step (Config.initial counter space start) actions = some final)
    (alone : ∀ action ∈ actions, action.From thread)
    (apart : S.ApartAll (actions.filterMap (Action.calledBy thread)) true) (rest : final.AtRest) :
    S.performAll (actions.filterMap (Action.calledBy thread)) start space =
      some (final.locals, final.space) := by
  have initial : (Config.initial counter space start : Config S).Serial thread space
      (actions.filterMap (Action.calledBy thread)) (some start) :=
    ⟨fun _ member => absurd member List.not_mem_nil,
      ⟨true, fun _ _ member => absurd member List.not_mem_nil, apart⟩,
      (fun _ fencing => by cases fencing), .nothing rfl (fun _ => rfl) rfl⟩
  obtain ⟨due, telling, regular, counted, serial, same⟩ :=
    initial.exec (Config.telling_initial counter start) (Config.regular_initial counter space start)
      (Config.counted_initial counter space start) alone run
  have executed : ∀ call ∈ final.calls, ∃ entry ∈ final.executed, entry.tag = call.entry := by
    intro call member
    obtain ⟨entry, ran, tagged, -⟩ := rest.executed regular.synced call member
    exact ⟨entry, ran, tagged⟩
  have space_eq : S.after final.told space = final.space := by
    rw [Config.told, ← serial.spaced.texts regular.synced counted executed, telling.space, Setting.after,
      List.foldl_map]
    rfl
  have done : due = some final.locals := by
    cases serial.owes with
    | nothing _ _ done => exact done
    | pending entry _ _ one =>
        rw [rest.pending] at one
        cases one
    | working worker _ _ _ _ _ holds =>
        rw [rest.workers worker] at holds
        cases holds
  calc S.performAll (actions.filterMap (Action.calledBy thread)) start space
      = (Config.initial counter space start).outcome thread space
          (actions.filterMap (Action.calledBy thread)) (some start) := rfl
    _ = final.outcome thread space [] (some final.locals) := done ▸ same
    _ = some (final.locals, final.space) := by
        rw [Config.outcome, rest.callers thread, space_eq]
        rfl

end AtomSpaceCog
