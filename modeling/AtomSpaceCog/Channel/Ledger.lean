import AtomSpaceCog.Channel.Steps

/-! # Where the elements of the buffer are

An accepted element is pending, in the hands of one worker that has not sent it, or
handed to `do_send`, and in only one of these places (`Config.Ledger`). Three kinds
of steps matter to it: an insert, a removal and a send (`Config.LedgerStep`). Every
call is stood for by an accepted element (`Config.Stands`).
-/

namespace AtomSpaceCog

open Dedup Transition

variable {S : Setting}

/-- The element that a worker has removed and not yet sent. -/
def Worker.unsent : Worker S → Option (Entry S.toSignature)
  | sending entry => some entry
  | _ => none

namespace Config

/-- The element that each worker has removed and not yet sent. -/
def unsent (s : Config S) (worker : WorkerId) : Option (Entry S.toSignature) :=
  (s.worker worker).unsent

/-- The element was accepted into the buffer. -/
def Accepted (s : Config S) (entry : Entry S.toSignature) : Prop :=
  entry ∈ s.pending ∨ (∃ worker, s.unsent worker = some entry) ∨ entry ∈ s.handed

/-- What a step does to the calls, the buffer and the elements sent. -/
inductive LedgerStep (s next : Config S) : Prop where
  | same (calls : next.calls = s.calls) (pending : next.pending = s.pending)
      (unsent : next.unsent = s.unsent) (handed : next.handed = s.handed)
  | insert (source : Option S.Op) (request : Request S.toSignature)
      (calls : next.calls = (s.insert source request).calls)
      (pending : next.pending = (s.insert source request).pending)
      (unsent : next.unsent = s.unsent) (handed : next.handed = s.handed)
  | take (worker : WorkerId) (entry : Entry S.toSignature) (member : entry ∈ s.pending)
      (idle : s.unsent worker = none) (calls : next.calls = s.calls)
      (pending : next.pending = s.pending.filter fun other => other.tag ≠ entry.tag)
      (unsent : next.unsent = Function.update s.unsent worker (some entry))
      (handed : next.handed = s.handed)
  | send (worker : WorkerId) (entry : Entry S.toSignature) (held : s.unsent worker = some entry)
      (calls : next.calls = s.calls) (pending : next.pending = s.pending)
      (unsent : next.unsent = Function.update s.unsent worker none)
      (handed : next.handed = s.handed ++ [entry])

/-- Changing what a worker does changes what it holds unsent. -/
theorem unsent_setWorker (s : Config S) (worker : WorkerId) (state : Worker S) :
    (s.setWorker worker state).unsent = Function.update s.unsent worker state.unsent := by
  funext other
  by_cases same : other = worker
  · subst same
    simp only [unsent, setWorker, Function.update_self]
  · simp only [unsent, setWorker, Function.update_of_ne same]

theorem unsent_setWorker_same (s : Config S) (worker : WorkerId) (state : Worker S)
    (same : state.unsent = (s.worker worker).unsent) :
    (s.setWorker worker state).unsent = s.unsent := by
  rw [unsent_setWorker, same]
  exact Function.update_eq_self worker s.unsent

/-- Every step is one of these. -/
theorem ledgerStep_of_step {s next : Config S} {action : Action S}
    (taken : s.step action = some next) : s.LedgerStep next := by
  cases moves_of_step taken with
  | start | edit | exit | connected | read | ask | closeConnection | barrier | drain | block | finish | answer
  | serve | serveSynchro | arrive | release => exact .same rfl rfl rfl rfl
  | enqueue => exact .insert _ _ rfl rfl rfl rfl
  | @take worker number entry idle member numbered free =>
      subst numbered
      refine .take worker entry member ?_ rfl rfl ?_ rfl
      · rw [unsent, idle]
        rfl
      · exact unsent_setWorker _ worker (.sending entry)
  | @send worker entry here =>
      refine .send worker entry ?_ rfl rfl ?_ rfl
      · rw [unsent, here]
        rfl
      · refine (unsent_setWorker _ worker _).trans ?_
        split <;> rfl
  | @receive worker entry reply rest here =>
      exact .same rfl rfl (unsent_setWorker_same _ worker _ (by
        change _ = (s.worker worker).unsent
        rw [here]
        rfl)) rfl
  | @rest worker entry here =>
      exact .same rfl rfl (unsent_setWorker_same _ worker _ (by rw [here]; rfl)) rfl
  | @workInsert worker entry request rest here =>
      refine .insert none request rfl rfl (unsent_setWorker_same _ worker _ ?_) rfl
      change _ = (s.worker worker).unsent
      rw [here]
      rfl
  | @workTouch worker entry change_ rest here =>
      refine .same rfl rfl (unsent_setWorker_same _ worker _ ?_) rfl
      change _ = (s.worker worker).unsent
      rw [here]
      rfl

/-- The bookkeeping of calls and elements. -/
structure Ledger (s : Config S) : Prop where
  /-- Calls carry their position. -/
  numbered : s.calls.map Call.index = List.range s.calls.length
  entry_le : ∀ call ∈ s.calls, call.entry ≤ call.index
  below : ∀ entry, s.Accepted entry → entry.tag < s.calls.length
  made : ∀ entry, s.Accepted entry → entry.value.WellMade
  /-- No two accepted elements have the same number. -/
  pendingOnce : (s.pending.map Tagged.tag).Nodup
  handedOnce : (s.handed.map Tagged.tag).Nodup
  unsentOnce : ∀ first second entry other, s.unsent first = some entry →
    s.unsent second = some other → entry.tag = other.tag → first = second
  apart : ∀ entry ∈ s.handed, ∀ other ∈ s.pending, entry.tag ≠ other.tag
  unsentPending : ∀ worker entry, s.unsent worker = some entry →
    ∀ other ∈ s.pending, entry.tag ≠ other.tag
  unsentHanded : ∀ worker entry, s.unsent worker = some entry →
    ∀ other ∈ s.handed, entry.tag ≠ other.tag

theorem ledger_initial (counter : UInt64) (space : S.Space) (locals : S.Local) :
    (Config.initial counter space locals).Ledger where
  numbered := rfl
  entry_le := by simp [initial]
  below := by simp [Accepted, unsent, initial, Worker.unsent]
  made := by simp [Accepted, unsent, initial, Worker.unsent]
  pendingOnce := List.nodup_nil
  handedOnce := List.nodup_nil
  unsentOnce := by simp [unsent, initial, Worker.unsent]
  apart := by simp [initial]
  unsentPending := by simp [unsent, initial, Worker.unsent]
  unsentHanded := by simp [unsent, initial, Worker.unsent]

theorem insert_calls (s : Config S) (source : Option S.Op) (request : Request S.toSignature) :
    (s.insert source request).calls = s.calls ++
      [⟨s.calls.length, (request.toMsg s.counter).1,
        standsFor Msg.Equivalent s.pending s.calls.length (request.toMsg s.counter).1, source⟩] := rfl

theorem insert_pending (s : Config S) (source : Option S.Op) (request : Request S.toSignature) :
    (s.insert source request).pending =
      offer Msg.Equivalent s.pending s.calls.length (request.toMsg s.counter).1 := rfl

namespace Ledger

variable {s next : Config S}

theorem insert (ledger : s.Ledger) {source : Option S.Op} {request : Request S.toSignature}
    (calls : next.calls = (s.insert source request).calls)
    (pending : next.pending = (s.insert source request).pending)
    (unsent : next.unsent = s.unsent) (handed : next.handed = s.handed) : next.Ledger := by
  have length : next.calls.length = s.calls.length + 1 := by rw [calls, insert_calls]; simp
  have pendingBelow : ∀ entry ∈ s.pending, entry.tag < s.calls.length :=
    fun entry member => ledger.below entry (Or.inl member)
  have accepted : ∀ entry, next.Accepted entry →
      s.Accepted entry ∨ entry = ⟨s.calls.length, (request.toMsg s.counter).1⟩ := by
    intro entry holds
    unfold Accepted at holds ⊢
    rw [pending, unsent, handed, insert_pending] at holds
    rcases holds with member | held | sent
    · exact (mem_offer member).imp_left Or.inl
    · exact Or.inl (Or.inr (Or.inl held))
    · exact Or.inl (Or.inr (Or.inr sent))
  have inserted : ∀ other ∈ next.pending, other ∈ s.pending ∨ other.tag = s.calls.length := by
    intro other member
    rw [pending, insert_pending] at member
    exact (mem_offer member).imp_right fun same => by rw [same]
  refine ⟨?_, ?_, ?_, ?_, ?_, ?_, ?_, ?_, ?_, ?_⟩
  · rw [length, calls, insert_calls, List.map_append, ledger.numbered, List.range_succ]
    rfl
  · intro call member
    rw [calls, insert_calls] at member
    rcases List.mem_append.mp member with prior | new
    · exact ledger.entry_le call prior
    · rw [List.mem_singleton.mp new]
      rcases offer_cases Msg.Equivalent s.pending s.calls.length (request.toMsg s.counter).1 with
        ⟨twin, inside, _, _, stands⟩ | ⟨_, _, stands⟩
      · simp only [stands]
        exact (pendingBelow twin inside).le
      · simp only [stands, le_refl]
  · intro entry holds
    rw [length]
    rcases accepted entry holds with prior | rfl
    · exact (ledger.below entry prior).trans (Nat.lt_succ_self _)
    · exact Nat.lt_succ_self _
  · intro entry holds
    rcases accepted entry holds with prior | rfl
    · exact ledger.made entry prior
    · exact request.toMsg_wellMade _
  · rw [pending, insert_pending]
    exact nodup_offer ledger.pendingOnce pendingBelow
  · rw [handed]
    exact ledger.handedOnce
  · rw [unsent]
    exact ledger.unsentOnce
  · intro entry sent other member
    rw [handed] at sent
    rcases inserted other member with prior | new
    · exact ledger.apart entry sent other prior
    · rw [new]
      exact (ledger.below entry (Or.inr (Or.inr sent))).ne
  · intro worker entry held other member
    rw [unsent] at held
    rcases inserted other member with prior | new
    · exact ledger.unsentPending worker entry held other prior
    · rw [new]
      exact (ledger.below entry (Or.inr (Or.inl ⟨worker, held⟩))).ne
  · rw [unsent, handed]
    exact ledger.unsentHanded

theorem take (ledger : s.Ledger) {worker : WorkerId} {entry : Entry S.toSignature}
    (member : entry ∈ s.pending) (calls : next.calls = s.calls)
    (pending : next.pending = s.pending.filter fun other => other.tag ≠ entry.tag)
    (unsent : next.unsent = Function.update s.unsent worker (some entry))
    (handed : next.handed = s.handed) : next.Ledger := by
  have kept : ∀ other ∈ next.pending, other ∈ s.pending ∧ other.tag ≠ entry.tag := by
    intro other inside
    rw [pending] at inside
    simpa using inside
  have held : ∀ other element, next.unsent other = some element →
      (other = worker ∧ element = entry) ∨ (other ≠ worker ∧ s.unsent other = some element) := by
    intro other element holds
    rw [unsent] at holds
    by_cases same : other = worker
    · subst same
      rw [Function.update_self] at holds
      exact Or.inl ⟨rfl, (Option.some.inj holds).symm⟩
    · rw [Function.update_of_ne same] at holds
      exact Or.inr ⟨same, holds⟩
  have accepted : ∀ element, next.Accepted element → s.Accepted element := by
    rintro element (inside | ⟨other, holds⟩ | sent)
    · exact Or.inl (kept element inside).1
    · rcases held other element holds with ⟨-, rfl⟩ | ⟨-, prior⟩
      · exact Or.inl member
      · exact Or.inr (Or.inl ⟨other, prior⟩)
    · exact Or.inr (Or.inr (handed ▸ sent))
  refine ⟨?_, ?_, ?_, ?_, ?_, ?_, ?_, ?_, ?_, ?_⟩
  · rw [calls]
    exact ledger.numbered
  · rw [calls]
    exact ledger.entry_le
  · intro element holds
    rw [calls]
    exact ledger.below element (accepted element holds)
  · exact fun element holds => ledger.made element (accepted element holds)
  · rw [pending]
    exact ledger.pendingOnce.sublist (List.filter_sublist.map _)
  · rw [handed]
    exact ledger.handedOnce
  · intro first second element other firstHeld secondHeld same
    rcases held first element firstHeld with ⟨rfl, rfl⟩ | ⟨different, prior⟩ <;>
      rcases held second other secondHeld with ⟨rfl, rfl⟩ | ⟨different', prior'⟩
    · rfl
    · exact absurd same.symm (ledger.unsentPending second other prior' element member)
    · exact absurd same (ledger.unsentPending first element prior other member)
    · exact ledger.unsentOnce first second element other prior prior' same
  · intro element sent other inside
    rw [handed] at sent
    exact ledger.apart element sent other (kept other inside).1
  · intro other element holds
    rcases held other element holds with ⟨rfl, rfl⟩ | ⟨-, prior⟩
    · exact fun rest inside => (kept rest inside).2.symm
    · exact fun rest inside => ledger.unsentPending other element prior rest (kept rest inside).1
  · intro other element holds sent inside
    rw [handed] at inside
    rcases held other element holds with ⟨rfl, rfl⟩ | ⟨-, prior⟩
    · exact (ledger.apart sent inside element member).symm
    · exact ledger.unsentHanded other element prior sent inside

theorem send (ledger : s.Ledger) {worker : WorkerId} {entry : Entry S.toSignature}
    (holds : s.unsent worker = some entry) (calls : next.calls = s.calls)
    (pending : next.pending = s.pending)
    (unsent : next.unsent = Function.update s.unsent worker none)
    (handed : next.handed = s.handed ++ [entry]) : next.Ledger := by
  have held : ∀ other element, next.unsent other = some element →
      other ≠ worker ∧ s.unsent other = some element := by
    intro other element still
    rw [unsent] at still
    by_cases same : other = worker
    · subst same
      rw [Function.update_self] at still
      cases still
    · rw [Function.update_of_ne same] at still
      exact ⟨same, still⟩
  have sent : ∀ element ∈ next.handed, element ∈ s.handed ∨ element = entry := by
    intro element inside
    rw [handed] at inside
    simpa using inside
  have accepted : ∀ element, next.Accepted element → s.Accepted element := by
    rintro element (inside | ⟨other, still⟩ | inside)
    · exact Or.inl (pending ▸ inside)
    · exact Or.inr (Or.inl ⟨other, (held other element still).2⟩)
    · rcases sent element inside with prior | rfl
      · exact Or.inr (Or.inr prior)
      · exact Or.inr (Or.inl ⟨worker, holds⟩)
  refine ⟨?_, ?_, ?_, ?_, ?_, ?_, ?_, ?_, ?_, ?_⟩
  · rw [calls]
    exact ledger.numbered
  · rw [calls]
    exact ledger.entry_le
  · intro element accepted'
    rw [calls]
    exact ledger.below element (accepted element accepted')
  · exact fun element accepted' => ledger.made element (accepted element accepted')
  · rw [pending]
    exact ledger.pendingOnce
  · rw [handed, List.map_append]
    refine ledger.handedOnce.append (List.nodup_singleton _) ?_
    intro number inside new
    obtain ⟨other, member, rfl⟩ := List.mem_map.mp inside
    exact ledger.unsentHanded worker entry holds other member (List.mem_singleton.mp new).symm
  · intro first second element other firstHeld secondHeld
    exact ledger.unsentOnce first second element other (held first element firstHeld).2
      (held second other secondHeld).2
  · intro element inside other member
    rw [pending] at member
    rcases sent element inside with prior | rfl
    · exact ledger.apart element prior other member
    · exact ledger.unsentPending worker element holds other member
  · intro other element still
    rw [pending]
    exact ledger.unsentPending other element (held other element still).2
  · intro other element still element' inside same
    obtain ⟨different, prior⟩ := held other element still
    rcases sent element' inside with earlier | rfl
    · exact ledger.unsentHanded other element prior element' earlier same
    · exact different (ledger.unsentOnce other worker element element' prior holds same)

/-- Every step keeps the bookkeeping. -/
theorem step (ledger : s.Ledger) (taken : s.LedgerStep next) : next.Ledger := by
  cases taken with
  | same calls pending unsent handed =>
      have accepted : next.Accepted = s.Accepted := by
        funext entry
        unfold Accepted
        rw [pending, unsent, handed]
      exact
        { numbered := by rw [calls]; exact ledger.numbered
          entry_le := by rw [calls]; exact ledger.entry_le
          below := by rw [calls, accepted]; exact ledger.below
          made := by rw [accepted]; exact ledger.made
          pendingOnce := by rw [pending]; exact ledger.pendingOnce
          handedOnce := by rw [handed]; exact ledger.handedOnce
          unsentOnce := by rw [unsent]; exact ledger.unsentOnce
          apart := by rw [handed, pending]; exact ledger.apart
          unsentPending := by rw [unsent, pending]; exact ledger.unsentPending
          unsentHanded := by rw [unsent, handed]; exact ledger.unsentHanded }
  | insert source request calls pending unsent handed =>
      exact ledger.insert calls pending unsent handed
  | take worker entry member _ calls pending unsent handed =>
      exact ledger.take member calls pending unsent handed
  | send worker entry held calls pending unsent handed =>
      exact ledger.send held calls pending unsent handed

theorem exec (ledger : s.Ledger) {actions : List (Action S)}
    (run : Transition.exec Config.step s actions = some next) : next.Ledger :=
  exec_invariant Ledger (fun ledger taken => ledger.step (ledgerStep_of_step taken)) ledger run

/-- The number of a call is its position. -/
theorem index_lt (ledger : s.Ledger) {call : Call S} (member : call ∈ s.calls) :
    call.index < s.calls.length := by
  have inside := List.mem_map_of_mem (f := Call.index) member
  rw [ledger.numbered] at inside
  exact List.mem_range.mp inside

/-- An accepted element has the number of no other one that was handed out. -/
theorem eq_of_handed (ledger : s.Ledger) {entry other : Entry S.toSignature}
    (accepted : s.Accepted entry) (sent : other ∈ s.handed) (same : entry.tag = other.tag) :
    entry = other := by
  rcases accepted with pending | ⟨worker, held⟩ | handed
  · exact absurd same.symm (ledger.apart other sent entry pending)
  · exact absurd same (ledger.unsentHanded worker entry held other sent)
  · exact List.inj_on_of_nodup_map ledger.handedOnce handed sent same

/-- An accepted element stays accepted. -/
theorem accepted_step (ledger : s.Ledger) (taken : s.LedgerStep next)
    {entry : Entry S.toSignature} (accepted : s.Accepted entry) : next.Accepted entry := by
  cases taken with
  | same calls pending unsent handed =>
      unfold Accepted
      rw [pending, unsent, handed]
      exact accepted
  | insert source request calls pending unsent handed =>
      unfold Accepted
      rw [pending, unsent, handed, insert_pending]
      exact accepted.imp_left fun member => subset_offer member
  | take worker taken member idle calls pending unsent handed =>
      rcases accepted with inside | ⟨other, held⟩ | sent
      · by_cases same : entry.tag = taken.tag
        · have equal : entry = taken :=
            List.inj_on_of_nodup_map ledger.pendingOnce inside member same
          exact Or.inr (Or.inl ⟨worker, by rw [unsent, Function.update_self, equal]⟩)
        · exact Or.inl (by rw [pending]; simpa using ⟨inside, same⟩)
      · have different : other ≠ worker := by
          rintro rfl
          rw [idle] at held
          cases held
        exact Or.inr (Or.inl ⟨other, by rw [unsent, Function.update_of_ne different, held]⟩)
      · exact Or.inr (Or.inr (handed ▸ sent))
  | send worker taken holds calls pending unsent handed =>
      rcases accepted with inside | ⟨other, held⟩ | sent
      · exact Or.inl (pending ▸ inside)
      · by_cases same : other = worker
        · subst same
          obtain rfl : taken = entry := Option.some.inj (holds.symm.trans held)
          exact Or.inr (Or.inr (by rw [handed]; simp))
        · exact Or.inr (Or.inl ⟨other, by rw [unsent, Function.update_of_ne same, held]⟩)
      · exact Or.inr (Or.inr (by rw [handed]; exact List.mem_append_left _ sent))

end Ledger

/-- Every call is stood for by an accepted element that is the same as its message
in the given sense. -/
def Stands (Same : Msg S.toSignature → Msg S.toSignature → Prop) (s : Config S) : Prop :=
  ∀ call ∈ s.calls, ∃ entry, s.Accepted entry ∧ entry.tag = call.entry ∧ Same call.msg entry.value

/-- A step that inserts a message which an equivalent pending element keeps out is
given only elements that are the same in this sense. -/
def TwinsSame (Same : Msg S.toSignature → Msg S.toSignature → Prop) (s : Config S)
    (request : Request S.toSignature) : Prop :=
  ∀ twin ∈ s.pending, (request.toMsg s.counter).1.Equivalent twin.value →
    Same (request.toMsg s.counter).1 twin.value

theorem Stands.step {Same : Msg S.toSignature → Msg S.toSignature → Prop}
    (refl : ∀ msg, Same msg msg) {s next : Config S} (ledger : s.Ledger) (stands : s.Stands Same)
    (taken : s.LedgerStep next)
    (twins : ∀ source request, next.calls = (s.insert source request).calls → s.TwinsSame Same request) :
    next.Stands Same := by
  have earlier : ∀ call ∈ s.calls, ∃ entry, next.Accepted entry ∧ entry.tag = call.entry ∧
      Same call.msg entry.value := by
    intro call member
    obtain ⟨entry, accepted, rest⟩ := stands call member
    exact ⟨entry, ledger.accepted_step taken accepted, rest⟩
  cases taken with
  | same calls | take _ _ _ _ calls | send _ _ _ calls =>
      intro call member
      rw [calls] at member
      exact earlier call member
  | insert source request calls pending =>
      intro call member
      rw [calls, insert_calls] at member
      rcases List.mem_append.mp member with prior | new
      · exact earlier call prior
      rw [List.mem_singleton.mp new]
      obtain ⟨entry, inside, tagged, same⟩ := exists_standsFor Msg.Equivalent s.pending
        s.calls.length (request.toMsg s.counter).1
      refine ⟨entry, Or.inl (by rw [pending]; exact inside), tagged, ?_⟩
      rcases same with rfl | ⟨twin, equivalent⟩
      · exact refl _
      · exact twins source request calls entry twin equivalent

/-- An element stands only for calls with its own text. -/
theorem Stands.text_step {s next : Config S} (ledger : s.Ledger) (stands : s.Stands Msg.SameText)
    (taken : s.LedgerStep next) : next.Stands Msg.SameText :=
  stands.step Msg.SameText.refl ledger taken fun _ request _ twin member equivalent =>
    equivalent.strToSend_eq (request.toMsg_wellMade _) (ledger.made twin (Or.inl member))

end Config

end AtomSpaceCog
