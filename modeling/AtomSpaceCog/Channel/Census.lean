import AtomSpaceCog.Channel.Ledger
import Mathlib.Data.List.Count
import Mathlib.Data.List.Perm.Basic

/-! # How often a message is sent

Every accepted element is the message of exactly one call, and a call is kept when
its own element stands for it. Once nothing is pending or unsent, the elements that
were handed to `do_send` are those of the kept calls, so a text was sent as often as
calls with it were kept (`Config.handed_count`). Whether all the calls of some kind
were kept is a condition on the inserts of the run (`Config.kept_iff`).
-/

namespace AtomSpaceCog

open Dedup Transition

variable {S : Setting}

/-- The call's own element stands for it. -/
def Call.Kept (call : Call S) : Prop := call.entry = call.index

instance (call : Call S) : Decidable call.Kept := by
  unfold Call.Kept
  infer_instance

namespace Config

/-- The insert that an action makes, with the operation that asks for it. -/
def inserting (s : Config S) : Action S → Option (Option S.Op × Request S.toSignature)
  | .advance thread =>
      match s.caller thread with
      | .running op _ (.enqueue request _) => some (some op, request)
      | _ => none
  | .work worker =>
      match s.worker worker with
      | .running _ (.insert request _) => some (none, request)
      | _ => none
  | _ => none

/-- A pending element keeps the request out. -/
def HasTwin (s : Config S) (request : Request S.toSignature) : Prop :=
  ∃ twin ∈ s.pending, (request.toMsg s.counter).1.Equivalent twin.value

/-- The calls grow by the insert of the step, if it makes one; the pending elements do
so then. -/
theorem calls_of_step {s next : Config S} {action : Action S} (taken : s.step action = some next) :
    (s.inserting action = none ∧ next.calls = s.calls) ∨
      ∃ source request, s.inserting action = some (source, request) ∧
        next.calls = (s.insert source request).calls ∧
        next.pending = (s.insert source request).pending := by
  cases moves_of_step taken with
  | start | edit | barrier | drain | block | finish | answer | take | send | receive | serve
  | serveSynchro | arrive | release => exact Or.inl ⟨rfl, rfl⟩
  | exit here | connected here | read here | ask here | closeConnection here =>
      exact Or.inl ⟨by simp only [inserting, here], rfl⟩
  | rest here | workTouch here => exact Or.inl ⟨by simp only [inserting, here], rfl⟩
  | enqueue here | workInsert here =>
      exact Or.inr ⟨_, _, by simp only [inserting, here], rfl, rfl⟩

/-- Every accepted element is the message of a kept call. -/
def Registered (s : Config S) : Prop :=
  ∀ entry, s.Accepted entry → ∃ call ∈ s.calls,
    call.Kept ∧ call.index = entry.tag ∧ call.msg = entry.value

theorem Registered.step {s next : Config S} (registered : s.Registered)
    (taken : s.LedgerStep next) : next.Registered := by
  intro entry accepted
  cases taken with
  | same calls pending unsent handed =>
      unfold Accepted at accepted
      rw [pending, unsent, handed] at accepted
      rw [calls]
      exact registered entry accepted
  | insert source request calls pending unsent handed =>
      have earlier : s.Accepted entry → ∃ call ∈ next.calls,
          call.Kept ∧ call.index = entry.tag ∧ call.msg = entry.value := by
        intro prior
        obtain ⟨call, member, rest⟩ := registered entry prior
        exact ⟨call, by rw [calls]; exact List.mem_append_left _ member, rest⟩
      rcases accepted with inside | held | sent
      · rw [pending, insert_pending] at inside
        rcases offer_cases Msg.Equivalent s.pending s.calls.length (request.toMsg s.counter).1 with
          ⟨_, _, _, same, _⟩ | ⟨_, added, own⟩
        · exact earlier (Or.inl (same ▸ inside))
        · rw [added] at inside
          rcases List.mem_append.mp inside with prior | new
          · exact earlier (Or.inl prior)
          · rw [List.mem_singleton.mp new]
            refine ⟨⟨s.calls.length, (request.toMsg s.counter).1, s.calls.length, source⟩, ?_, rfl,
              rfl, rfl⟩
            rw [calls, insert_calls, own]
            simp
      · exact earlier (Or.inr (Or.inl (unsent ▸ held)))
      · exact earlier (Or.inr (Or.inr (handed ▸ sent)))
  | take worker taken member idle calls pending unsent handed =>
      rw [calls]
      refine registered entry ?_
      rcases accepted with inside | ⟨other, held⟩ | sent
      · rw [pending] at inside
        exact Or.inl (List.mem_of_mem_filter inside)
      · rw [unsent] at held
        by_cases same : other = worker
        · subst same
          rw [Function.update_self] at held
          exact Or.inl (Option.some.inj held ▸ member)
        · rw [Function.update_of_ne same] at held
          exact Or.inr (Or.inl ⟨other, held⟩)
      · exact Or.inr (Or.inr (handed ▸ sent))
  | send worker taken holds calls pending unsent handed =>
      rw [calls]
      refine registered entry ?_
      rcases accepted with inside | ⟨other, held⟩ | sent
      · exact Or.inl (pending ▸ inside)
      · rw [unsent] at held
        by_cases same : other = worker
        · subst same
          rw [Function.update_self] at held
          cases held
        · rw [Function.update_of_ne same] at held
          exact Or.inr (Or.inl ⟨other, held⟩)
      · rw [handed] at sent
        rcases List.mem_append.mp sent with prior | new
        · exact Or.inr (Or.inr prior)
        · rw [List.mem_singleton.mp new]
          exact Or.inr (Or.inl ⟨worker, holds⟩)

/-- The bookkeeping that the counts rest on. -/
structure Census (s : Config S) : Prop where
  ledger : s.Ledger
  registered : s.Registered
  stands : s.Stands Msg.SameText

theorem census_initial (counter : UInt64) (space : S.Space) (locals : S.Local) :
    (Config.initial counter space locals).Census where
  ledger := ledger_initial counter space locals
  registered := by simp [Registered, Accepted, unsent, initial, Worker.unsent]
  stands := by simp [Stands, initial]

namespace Census

variable {s next : Config S}

theorem step (census : s.Census) {action : Action S} (taken : s.step action = some next) :
    next.Census where
  ledger := census.ledger.step (ledgerStep_of_step taken)
  registered := census.registered.step (ledgerStep_of_step taken)
  stands := census.stands.text_step census.ledger (ledgerStep_of_step taken)

theorem exec (census : s.Census) {actions : List (Action S)}
    (run : Transition.exec Config.step s actions = some next) : next.Census :=
  exec_invariant Census (fun census taken => census.step taken) census run

/-- A call is determined by its position. -/
theorem call_eq (census : s.Census) {call other : Call S} (member : call ∈ s.calls)
    (inside : other ∈ s.calls) (same : call.index = other.index) : call = other := by
  have distinct : (s.calls.map Call.index).Nodup := by
    rw [census.ledger.numbered]
    exact List.nodup_range
  exact List.inj_on_of_nodup_map distinct member inside same

/-- The element of a kept call was accepted. -/
theorem accepted_of_kept (census : s.Census) {call : Call S} (member : call ∈ s.calls)
    (kept : call.Kept) : s.Accepted ⟨call.index, call.msg⟩ := by
  obtain ⟨entry, accepted, tagged, -⟩ := census.stands call member
  obtain ⟨other, inside, -, index, msg⟩ := census.registered entry accepted
  have same : other = call := census.call_eq inside member (by rw [index, tagged, kept])
  subst same
  rwa [show entry = ⟨other.index, other.msg⟩ by rw [index, msg]] at accepted

/-- A call whose element is neither pending nor with a worker was handed to `do_send`. -/
theorem handed_of_dead (census : s.Census) {call : Call S} (member : call ∈ s.calls)
    (dead : ¬ s.Live call.entry) :
    ∃ entry ∈ s.handed, entry.tag = call.entry ∧ call.msg.SameText entry.value := by
  obtain ⟨entry, accepted, tagged, same⟩ := census.stands call member
  rcases accepted with pending | ⟨worker, unsent⟩ | sent
  · exact absurd (Or.inl ⟨entry, pending, tagged⟩) dead
  · refine absurd (Or.inr ⟨worker, ?_⟩) dead
    rw [Config.unsent] at unsent
    cases state : s.worker worker with
    | sending held =>
        rw [state] at unsent
        rw [← tagged, ← Option.some.inj unsent]
        rfl
    | _ =>
        rw [state] at unsent
        cases unsent
  · exact ⟨entry, sent, tagged, same⟩

/-- With an empty buffer and no worker about to send, the elements handed to
`do_send` are the messages of the kept calls. -/
theorem handed_perm (census : s.Census) (empty : s.pending = [])
    (quiet : ∀ worker, s.unsent worker = none) :
    s.handed.Perm ((s.calls.filter fun call => call.Kept).map fun call => ⟨call.index, call.msg⟩) := by
  have accepted : ∀ entry, s.Accepted entry ↔ entry ∈ s.handed := by
    intro entry
    simp [Accepted, empty, quiet]
  have distinct : ((s.calls.filter fun call => call.Kept).map
      fun call => (⟨call.index, call.msg⟩ : Entry S.toSignature)).Nodup := by
    refine List.Nodup.of_map Tagged.tag ?_
    rw [List.map_map]
    have indices : (s.calls.map Call.index).Nodup := by
      rw [census.ledger.numbered]
      exact List.nodup_range
    exact indices.sublist (List.filter_sublist.map _)
  refine (List.perm_ext_iff_of_nodup (List.Nodup.of_map _ census.ledger.handedOnce) distinct).mpr ?_
  intro entry
  simp only [List.mem_map, List.mem_filter, decide_eq_true_eq]
  constructor
  · intro sent
    obtain ⟨call, member, kept, index, msg⟩ :=
      census.registered entry ((accepted entry).mpr sent)
    exact ⟨call, ⟨member, kept⟩, by rw [index, msg]⟩
  · rintro ⟨call, ⟨member, kept⟩, rfl⟩
    exact (accepted _).mp (census.accepted_of_kept member kept)

/-- Then a text was handed to `do_send` as often as calls with it were kept. -/
theorem handed_count (census : s.Census) (empty : s.pending = [])
    (quiet : ∀ worker, s.unsent worker = none) (text : Str) :
    s.handed.countP (fun entry => entry.value.strToSend = text) =
      s.calls.countP (fun call => decide call.Kept && decide (call.msg.strToSend = text)) := by
  rw [(census.handed_perm empty quiet).countP_eq, List.countP_map, List.countP_filter]
  refine List.countP_congr fun call _ => ?_
  simp [and_comm]

end Census

/-- The new call of an insert is kept exactly when no pending element keeps the
request out. -/
theorem kept_insert {s : Config S} (ledger : s.Ledger) (request : Request S.toSignature) :
    standsFor Msg.Equivalent s.pending s.calls.length (request.toMsg s.counter).1 = s.calls.length ↔
      ¬ s.HasTwin request := by
  unfold HasTwin
  rcases offer_cases Msg.Equivalent s.pending s.calls.length (request.toMsg s.counter).1 with
    ⟨twin, member, same, -, stands⟩ | ⟨alone, -, stands⟩
  · have below := ledger.below twin (Or.inl member)
    rw [stands]
    exact ⟨fun equal => absurd equal below.ne, fun none => absurd ⟨twin, member, same⟩ none⟩
  · rw [stands]
    refine ⟨fun _ => ?_, fun _ => rfl⟩
    rintro ⟨twin, member, same⟩
    exact alone twin member same

/-- A text other than the bare literal is kept out by a pending message with the same
text. -/
theorem hasTwin_iff {s : Config S} (ledger : s.Ledger) {request : Request S.toSignature}
    (other : request.text ≠ updatePrefix) :
    s.HasTwin request ↔ ∃ entry ∈ s.pending, entry.value.strToSend = request.text := by
  have made := request.toMsg_wellMade s.counter
  have text := request.toMsg_strToSend s.counter
  refine exists_congr fun entry => and_congr_right fun member => ?_
  have entryMade := ledger.made entry (Or.inl member)
  constructor
  · intro equivalent
    exact (equivalent.strToSend_eq made entryMade).symm.trans text
  · intro same
    exact Msg.equivalent_of_strToSend_eq made entryMade (by rwa [text]) (by rw [text, same])

/-- All the calls that are counted are kept exactly when counting the kept ones gives
the same number. -/
theorem countP_kept_iff {calls : List (Call S)} (counted : Call S → Bool) :
    calls.countP (fun call => decide call.Kept && counted call) = calls.countP counted ↔
      ∀ call ∈ calls, counted call → call.Kept := by
  rw [← List.countP_filter, List.countP_eq_length_filter (p := counted), List.countP_eq_length]
  simp only [List.mem_filter, decide_eq_true_eq, and_imp]

/-- The action makes no insert from a source of the wanted kind that a pending element
keeps out. -/
def NoTwin (Wanted : Option S.Op → Prop) (s : Config S) (action : Action S) : Prop :=
  ∀ source request, s.inserting action = some (source, request) → Wanted source →
    ¬ s.HasTwin request

/-- All the calls from a source of the wanted kind are kept exactly when no insert of
such a call meets a pending element that keeps it out. -/
theorem kept_iff (Wanted : Option S.Op → Prop) {s final : Config S} (ledger : s.Ledger)
    {actions : List (Action S)} (run : exec Config.step s actions = some final) :
    (∀ call ∈ final.calls, Wanted call.source → call.Kept) ↔
      (∀ call ∈ s.calls, Wanted call.source → call.Kept) ∧
        Meets Config.step (NoTwin Wanted) s actions := by
  induction actions generalizing s with
  | nil =>
      obtain rfl : s = final := Option.some.inj run
      simp [Meets]
  | cons action actions ih =>
      obtain ⟨next, taken, rest⟩ := exec_cons_eq_some.mp run
      have only : ∀ other, s.step action = some other ↔ other = next := by
        intro other
        rw [taken, Option.some.injEq, eq_comm]
      simp only [ih (ledger.step (ledgerStep_of_step taken)) rest, Meets, only, forall_eq]
      rw [← and_assoc]
      refine and_congr_left' ?_
      rcases calls_of_step taken with ⟨none, calls⟩ | ⟨source, request, inserts, calls, -⟩
      · rw [calls]
        simp [NoTwin, none]
      · rw [calls, insert_calls]
        simp only [List.forall_mem_append, List.forall_mem_singleton, Call.Kept, kept_insert ledger]
        refine and_congr_right' ?_
        constructor
        · rintro kept other request' same wanted
          rw [inserts] at same
          cases same
          exact kept wanted
        · exact fun free wanted => free source request inserts wanted

end Config

end AtomSpaceCog
