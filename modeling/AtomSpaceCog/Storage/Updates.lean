import AtomSpaceCog.Storage.Requests
import AtomSpaceCog.Sexpr.Plain

/-! # Updates that are lost

`updateValue` is not idempotent, and its messages are meant never to be dropped as
duplicates. They are dropped: every update message is sent exactly when no call of
`updateValue` meets a pending message with its text.
-/

namespace AtomSpaceCog

open Transition

variable {sexpr : Sexpr} {server : Server}

/-- The message of an `updateValue`. -/
def CogOp.updateText : CogOp sexpr → Option Str
  | .updateValue h key delta => some (updateValueText h.atom key.atom delta)
  | _ => none

/-- The text of a `cog-update-value!` message. -/
def isUpdate (text : Str) : Bool := updatePrefix.isPrefixOf text

/-- The operation is an `updateValue`. -/
def FromUpdate (source : Option (CogOp sexpr)) : Prop := (source.bind CogOp.updateText).isSome

/-- A request has the text of an update exactly when it comes from an `updateValue`,
and then it has the text of that one. -/
def UpdateSource (source : Option (CogOp sexpr)) (request : Request (cogSignature sexpr)) : Prop :=
  source.bind CogOp.updateText = if isUpdate request.text then some request.text else none

theorem isUpdate_updateValueText (atom key : sexpr.Content) (delta : Option sexpr.Value) :
    isUpdate (updateValueText atom key delta) = true := by
  unfold updateValueText
  simp only [List.append_assoc]
  rfl

theorem updateSource_of_asked {source : Option (CogOp sexpr)}
    {request : Request (cogSignature sexpr)} (asked : Asked source request) :
    UpdateSource source request := by
  have others : (∀ command ∈ commands source,
      ¬ command <+: updatePrefix ∧ ¬ updatePrefix <+: command) → isUpdate request.text = false :=
    not_prefix_of_asked asked
  unfold UpdateSource
  cases source with
  | none =>
      rw [others (by simp only [commands]; decide)]
      rfl
  | some op =>
      cases op with
      | updateValue h key delta =>
          obtain rfl := asked
          rw [Request.text, isUpdate_updateValueText]
          rfl
      | _ =>
          rw [others (by simp only [commands]; decide)]
          rfl

/-- An update is longer than the literal that the constructor of `Msg` looks for. -/
theorem ne_updatePrefix {source : Option (CogOp sexpr)} {request : Request (cogSignature sexpr)}
    (asked : Asked source request) (update : FromUpdate source) : request.text ≠ updatePrefix := by
  cases source with
  | none => cases update
  | some op =>
      cases op with
      | updateValue h key delta =>
          obtain rfl := asked
          intro same
          have length := congrArg List.length same
          simp only [Request.text, updateValueText, List.length_append] at length
          rw [show (bytes "(cog-update-value! ").length = 19 from rfl,
            show updatePrefix.length = 18 from rfl] at length
          omega
      | _ => cases update

/-- The action is no `updateValue` that puts its message on the queue while one with
the same text is pending. -/
def UpdateAlone (s : Config (cogSetting sexpr server)) (action : Action (cogSetting sexpr server)) :
    Prop :=
  ∀ source request, s.inserting action = some (source, request) → FromUpdate source →
    ∀ entry ∈ s.pending, entry.value.strToSend ≠ request.text

/-- The completed calls of `updateValue` whose arguments encode to a text. -/
def Config.updateCount (s : Config (cogSetting sexpr server)) (text : Str) : Nat :=
  s.calls.countP fun call => call.source.bind CogOp.updateText = some text

/-- How often a text was handed to `do_send`. -/
def Config.sentCount {S : Setting} (s : Config S) (text : Str) : Nat :=
  s.handed.countP fun entry => entry.value.strToSend = text

/-- The bookkeeping that the counts rest on, and what the calls come from. -/
def Known (s : Config (cogSetting sexpr server)) : Prop := s.Census ∧ s.Sourced Asked

theorem known_initial (counter : UInt64) (space : server.Space) (locals : Memory sexpr) :
    Known (Config.initial counter space locals : Config (cogSetting sexpr server)) :=
  ⟨Config.census_initial (S := cogSetting sexpr server) counter space locals,
    Config.sourced_initial (S := cogSetting sexpr server) counter space locals⟩

theorem known_step {s next : Config (cogSetting sexpr server)} {action : Action (cogSetting sexpr server)}
    (known : Known s) (taken : s.step action = some next) : Known next :=
  ⟨known.1.step taken, known.2.step cogSetting_asked taken⟩

/-- An update is told apart from the pending messages by its text. -/
theorem noTwin_iff_updateAlone {s : Config (cogSetting sexpr server)} (known : Known s)
    (action : Action (cogSetting sexpr server)) :
    s.NoTwin FromUpdate action ↔ UpdateAlone s action := by
  refine forall₄_congr fun source request inserts update => ?_
  have asked := known.2.inserting inserts
  rw [Config.hasTwin_iff known.1.ledger (ne_updatePrefix asked update)]
  push Not
  rfl

/-- A text was sent as often as calls of `updateValue` encoded to it exactly when all
these calls were kept. -/
theorem sentCount_eq_iff {s : Config (cogSetting sexpr server)} (known : Known s)
    (empty : s.pending = []) (quiet : ∀ worker, s.unsent worker = none) {text : Str}
    (update : isUpdate text) : s.sentCount text = s.updateCount text ↔
      ∀ call ∈ s.calls, call.source.bind CogOp.updateText = some text → call.Kept := by
  have counted : s.sentCount text = s.calls.countP fun call =>
      decide call.Kept && decide (call.source.bind CogOp.updateText = some text) := by
    refine (known.1.handed_count empty quiet text).trans (List.countP_congr fun call member => ?_)
    obtain ⟨before, request, asked, msg⟩ := known.2.calls call member
    rw [updateSource_of_asked asked, msg, Request.toMsg_strToSend]
    by_cases same : request.text = text
    · simp [same, update]
    · by_cases other : isUpdate request.text <;> simp [same, other]
  rw [counted, Config.updateCount, Config.countP_kept_iff]
  simp only [decide_eq_true_eq]

/-- Once the queue is empty, every update message has been handed to `do_send` as
often as `updateValue` was called for it, exactly when no call of `updateValue` met a
pending message with its text. -/
theorem updates_sent_iff {counter : UInt64} {space : server.Space} {locals : Memory sexpr}
    {actions : List (Action (cogSetting sexpr server))} {final : Config (cogSetting sexpr server)}
    (run : exec Config.step (Config.initial counter space locals) actions = some final)
    (empty : final.pending = []) (quiet : ∀ worker, final.unsent worker = none) :
    (∀ text, isUpdate text → final.sentCount text = final.updateCount text) ↔
      Meets Config.step UpdateAlone (Config.initial counter space locals) actions := by
  have start : Known (Config.initial counter space locals : Config (cogSetting sexpr server)) :=
    known_initial counter space locals
  have known : Known final := exec_invariant Known known_step start run
  have alone : (∀ call ∈ final.calls, FromUpdate call.source → call.Kept) ↔
      Meets Config.step UpdateAlone (Config.initial counter space locals) actions := by
    rw [Config.kept_iff FromUpdate start.1.ledger run,
      meets_congr Known known_step noTwin_iff_updateAlone start]
    exact and_iff_right fun call member => absurd member List.not_mem_nil
  rw [← alone]
  constructor
  · intro all call member update
    obtain ⟨text, same⟩ := Option.isSome_iff_exists.mp update
    obtain ⟨before, request, asked, msg⟩ := known.2.calls call member
    have isText : isUpdate text := by
      rw [updateSource_of_asked asked] at same
      split at same
      · next isText => exact Option.some.inj same ▸ isText
      · cases same
    exact (sentCount_eq_iff known empty quiet isText).mp (all text isText) call member same
  · intro kept text isText
    refine (sentCount_eq_iff known empty quiet isText).mpr fun call member same => ?_
    exact kept call member (by rw [FromUpdate, same]; rfl)

section Runs

/-- `updateValue` of a count of the Concept `a`. -/
def countUpdate : CogOp plain :=
  .updateValue ⟨.node .concept (bytes "a"), .loose 0⟩ ⟨.node .predicate (bytes "count"), .loose 1⟩
    (some (.string (bytes "1")))

/-- A thread calls `updateValue`. -/
def callUpdate (thread : ThreadId) : List (Action (cogSetting plain .silent)) :=
  [.start thread countUpdate, .advance thread, .advance thread, .advance thread]

/-- A worker takes an element and hands it to `do_send`. -/
def handle (worker : WorkerId) (number : Nat) : List (Action (cogSetting plain .silent)) :=
  [.take worker number, .send worker]

/-- No Atoms, no values and an empty queue. -/
def blank : Config (cogSetting plain .silent) := Config.initial 0 () (Memory.empty ())

/-- A second equal update, made while the first is pending, is never sent. -/
theorem updates_lost :
    ¬ ∀ (actions : List (Action (cogSetting plain .silent))) (final : Config (cogSetting plain .silent)),
      exec Config.step blank actions = some final → final.pending = [] →
      (∀ worker, final.unsent worker = none) →
        ∀ text, isUpdate text → final.sentCount text = final.updateCount text := by
  intro all
  have lost := all (callUpdate 0 ++ callUpdate 1 ++ handle 0 0) _ rfl rfl (by decide)
    (@updateValueText plain (.node .concept (bytes "a")) (.node .predicate (bytes "count"))
      (some (.string (bytes "1")))) rfl
  exact absurd lost (by decide)

/-- The second update is made after the first was sent. -/
theorem updates_sent_iff_twice :
    ∃ final, exec Config.step blank (callUpdate 0 ++ handle 0 0 ++ callUpdate 1 ++ handle 3 1) =
        some final ∧
      ((∀ text, isUpdate text → final.sentCount text = final.updateCount text) ↔
        Meets Config.step UpdateAlone blank
          (callUpdate 0 ++ handle 0 0 ++ callUpdate 1 ++ handle 3 1)) :=
  ⟨_, rfl, updates_sent_iff rfl rfl (by decide)⟩

end Runs

end AtomSpaceCog
