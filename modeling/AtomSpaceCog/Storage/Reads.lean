import AtomSpaceCog.Storage.Operations
import AtomSpaceCog.Channel.Delivery
import AtomSpaceCog.Sexpr.Plain

/-! # Reads that nobody answers

The buffer tells messages apart by their texts, and a text does not say for whom it
asks. A request that meets a pending one with its text is dropped, and the handler is
run for the other requester alone.
-/

namespace AtomSpaceCog

open Transition

variable {S : Setting}

/-- Once the queue is empty and no worker has an element, every call that waits for a
reply has had its handler run after it was made, on its own client, with its own
packet and with a reply to its own text, provided that no request for a reply met a
pending message with its text that was queued for another requester. -/
theorem reads_answered {counter : UInt64} {space : S.Space} {locals : S.Local}
    {actions : List (Action S)} {final : Config S}
    (own : Meets Config.step Config.OwnTwin (Config.initial counter space locals) actions)
    (run : exec Config.step (Config.initial counter space locals) actions = some final)
    (empty : final.pending = []) (idle : ∀ worker, (final.worker worker).holds = none) :
    ∀ call ∈ final.calls, call.msg.noreply = false →
      ∃ run ∈ final.runs, run.Answers call.msg ∧ call.index < run.time := by
  intro call member replies
  rcases Config.served_exec own run call member replies with ⟨entry, way, -⟩ | ran
  · exact absurd way (Config.not_onTheWay empty idle entry)
  · exact ran

section Runs

/-- `loadValue` for one of two objects of the Concept `a`. -/
def loadCount (object : Nat) : CogOp plain :=
  .loadValue ⟨.node .concept (bytes "a"), .loose object⟩
    ⟨.node .predicate (bytes "count"), .loose 2⟩

/-- A thread calls `loadValue`. -/
def callLoad (thread : ThreadId) (object : Nat) : List (Action (cogSetting plain .valueless)) :=
  [.start thread (loadCount object), .advance thread, .advance thread, .advance thread]

/-- A worker takes an element, and its handler sets the value. -/
def answerLoad (worker : WorkerId) (number : Nat) : List (Action (cogSetting plain .valueless)) :=
  [.take worker number, .send worker, .serve (.worker worker), .receive worker, .work worker,
    .work worker]

/-- The two objects, and a queue that is empty. -/
def unread : Config (cogSetting plain .valueless) := Config.initial 0 () (Memory.empty ())

/-- One read is made after the other was answered. -/
theorem reads_answered_one_by_one :
    ∃ final, exec Config.step unread (callLoad 0 0 ++ answerLoad 0 0 ++ callLoad 1 1 ++ answerLoad 1 1) =
        some final ∧
      ∀ call ∈ final.calls, call.msg.noreply = false →
        ∃ run ∈ final.runs, run.Answers call.msg ∧ call.index < run.time := by
  have alone : Meets Config.step Config.InsertsAlone unread
      (callLoad 0 0 ++ answerLoad 0 0 ++ callLoad 1 1 ++ answerLoad 1 1) := by decide
  exact ⟨_, rfl, reads_answered (alone.imp Config.ownTwin_of_insertsAlone) rfl rfl (by decide)⟩

/-- The handler is run for the first of two objects only. -/
theorem reads_unanswered :
    ¬ ∀ (actions : List (Action (cogSetting plain .valueless)))
        (final : Config (cogSetting plain .valueless)),
      exec Config.step unread actions = some final → final.pending = [] →
      (∀ worker, (final.worker worker).holds = none) →
        ∀ call ∈ final.calls, call.msg.noreply = false →
          ∃ run ∈ final.runs, run.Answers call.msg ∧ call.index < run.time := by
  intro all
  have answered := all (callLoad 0 0 ++ callLoad 1 1 ++ answerLoad 0 0) _ rfl rfl (by decide) _
    (List.mem_cons_of_mem _ List.mem_cons_self) rfl
  obtain ⟨run, member, answers, -⟩ := answered
  rw [List.mem_singleton.mp member] at answers
  exact absurd answers.data (by decide)

end Runs

end AtomSpaceCog
