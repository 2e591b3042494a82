import AtomSpaceCog.Channel.Secures

/-! # Since a state

What is pending later was pending before or has been called for since, and so it is with the
elements that stand for the later calls (`Config.Since`). A duty that speaks of nothing but a
view of the program is kept by every handler, and can be taken up in any state
(`Config.Serving.watch`).
-/

namespace AtomSpaceCog

open Dedup Transition

variable {S : Setting}

namespace Config

/-- What is live or stands for a call was there before, or was called for since. -/
structure Since (start s : Config S) : Prop where
  live : ∀ number < start.calls.length, s.Live number → start.Live number
  pending : ∀ entry ∈ s.pending, entry.tag < start.calls.length → entry ∈ start.pending
  entries : ∀ call ∈ s.calls, start.calls.length ≤ call.index →
    start.calls.length ≤ call.entry ∨ ∃ entry ∈ start.pending, entry.tag = call.entry

variable {start s next final : Config S} {action : Action S}

theorem Since.refl (ledger : s.Ledger) : s.Since s where
  live _ _ live := live
  pending _ member _ := member
  entries _ member late := absurd (ledger.index_lt member) (Nat.not_lt.mpr late)

/-- An element becomes pending only by the insert that numbers it. -/
theorem pending_step (taken : s.step action = some next) :
    ∀ entry ∈ next.pending, entry ∈ s.pending ∨ entry.tag = s.calls.length := by
  have offered : ∀ (source : Option S.Op) (request : Request S.toSignature),
      ∀ entry ∈ (s.insert source request).pending,
        entry ∈ s.pending ∨ entry.tag = s.calls.length := by
    intro source request entry member
    rw [insert_pending] at member
    rcases mem_offer member with prior | rfl
    · exact Or.inl prior
    · exact Or.inr rfl
  cases moves_of_step taken with
  | start | edit | exit | connected | read | ask | closeConnection | barrier | drain | block
  | finish | answer | serve | serveSynchro | arrive | release | send | receive | rest | workTouch =>
      exact fun entry member => Or.inl member
  | enqueue | workInsert => exact offered none _
  | take => exact fun entry member => Or.inl (List.mem_of_mem_filter member)

theorem Since.step (since : start.Since s) (calls : start.calls <+: s.calls)
    (taken : s.step action = some next) : start.Since next where
  live number early live :=
    since.live number early (live_step taken (early.trans_le calls.length_le) live)
  pending entry member early := by
    rcases pending_step taken entry member with prior | new
    · exact since.pending entry prior early
    · exact absurd (new ▸ early) (Nat.not_lt.mpr calls.length_le)
  entries call member late := by
    rcases calls_of_step taken with ⟨-, same⟩ | ⟨source, request, -, inserted, -⟩
    · exact since.entries call (same ▸ member) late
    · rw [inserted, insert_calls] at member
      rcases List.mem_append.mp member with prior | new
      · exact since.entries call prior late
      · rw [List.mem_singleton.mp new]
        -- The element that stands for the call is its own, or is pending.
        rcases offer_cases Msg.Equivalent s.pending s.calls.length (request.toMsg s.counter).1 with
          ⟨twin, inside, -, -, own⟩ | ⟨-, -, own⟩
        · dsimp only
          rw [own]
          rcases Nat.lt_or_ge twin.tag start.calls.length with early | late
          · exact Or.inr ⟨twin, since.pending twin inside early, rfl⟩
          · exact Or.inl late
        · dsimp only
          rw [own]
          exact Or.inl calls.length_le

/-- What a run records goes on from what was recorded before. -/
theorem since_exec (regular : start.Regular) {actions : List (Action S)}
    (run : exec Config.step start actions = some final) :
    final.Regular ∧ start.Grows final ∧ start.Since final := by
  refine exec_invariant (fun s => s.Regular ∧ start.Grows s ∧ start.Since s) ?_
    ⟨regular, .refl start, .refl regular.synced.census.ledger⟩ run
  intro state action next holds taken
  obtain ⟨regular, grows, since⟩ := holds
  exact ⟨regular.step taken, grows.trans (grows_step regular.owned taken),
    since.step grows.calls taken⟩

/-- What stands for a later call had not been executed before. -/
theorem Since.unexecuted (since : start.Since s) (regular : start.Regular) {call : Call S}
    (member : call ∈ s.calls) (late : start.calls.length ≤ call.index) :
    ∀ entry ∈ start.executed, entry.tag ≠ call.entry := by
  intro entry executed same
  have handed := regular.synced.wired.executed entry executed
  rcases since.entries call member late with after | ⟨other, pending, tagged⟩
  · have early := regular.synced.census.ledger.below entry (Or.inr (Or.inr handed))
    exact absurd (same ▸ early) (Nat.not_lt.mpr after)
  · exact regular.synced.census.ledger.apart entry handed other pending (same.trans tagged.symm)

/-- The server has executed the text since. -/
def ExecutedSince (start s : Config S) (text : Str) : Prop :=
  ∃ entry ∈ s.executed.drop start.executed.length, entry.value.strToSend = text

/-- When the server executes a message that was called for after a barrier returned, it has executed
since the start what the barrier has waited for. -/
theorem Since.executed (since : start.Since s) (regular : start.Regular) (goes : start.Grows s)
    {texts : List Str} {number : Nat} (waited : s.WaitedBy start.calls.length texts number)
    (grows : s.Grows final) (synced : final.Synced) {sock : SockId} {entry : Entry S.toSignature}
    {rest : List (Wire S.toSignature)} (first : final.inbox sock = .request entry :: rest)
    (taken : final.step (.serve sock) = some next) (new : s.calls.length ≤ entry.tag) :
    ∀ text ∈ texts, start.ExecutedSince final text := by
  intro text member
  obtain ⟨call, inside, late, ran, executed, tagged, same⟩ :=
    waited.executed grows synced first taken new text member
  refine ⟨ran, ?_, same⟩
  obtain ⟨others, split⟩ := (goes.trans grows).executed
  rw [← split, List.drop_left]
  rw [← split] at executed
  apply (List.mem_append.mp executed).resolve_left
  exact fun before => since.unexecuted regular inside late ran before tagged

/-- The program changes its state, or a handler does. -/
theorem locals_of_step (taken : s.step action = some next) : next.locals = s.locals ∨
    (∃ change, action = .edit change) ∨ ∃ worker entry change rest, action = .work worker ∧
      s.worker worker = .running entry (.touch change rest) := by
  cases moves_of_step taken with
  | edit => exact Or.inr (Or.inl ⟨_, rfl⟩)
  | workTouch here => exact Or.inr (Or.inr ⟨_, _, _, _, rfl, here⟩)
  | _ => exact Or.inl rfl

/-- The request that a step inserts has another text. -/
def Spares (text : Str) (s : Config S) (action : Action S) : Prop :=
  ∀ source request, s.inserting action = some (source, request) → request.text ≠ text

/-- Where no request with a text is inserted, the calls with the text are the early ones. -/
theorem early_exec {text : Str} {time : Nat} {actions : List (Action S)}
    (spares : Meets Config.step (Spares text) s actions)
    (early : ∀ call ∈ s.calls, call.msg.strToSend = text → call.index < time)
    (run : exec Config.step s actions = some final) :
    ∀ call ∈ final.calls, call.msg.strToSend = text → call.index < time := by
  refine spares.invariant
    (fun s => ∀ call ∈ s.calls, call.msg.strToSend = text → call.index < time) ?_ early run
  intro state action next spares early taken call member same
  rcases calls_of_step taken with ⟨-, calls⟩ | ⟨source, request, inserts, inserted, -⟩
  · exact early call (calls ▸ member) same
  · rw [inserted, insert_calls] at member
    rcases List.mem_append.mp member with prior | new
    · exact early call prior same
    · rw [List.mem_singleton.mp new, Request.toMsg_strToSend] at same
      exact absurd same (spares source request inserts)

/-- No element with this text is pending or being handled. -/
def Quiet (text : Str) (s : Config S) : Prop :=
  ∀ call ∈ s.calls, call.msg.strToSend = text → ¬ s.Live call.entry

/-- A barrier leaves no elements of earlier calls. -/
theorem WaitedBy.quiet {time number : Nat} {texts : List Str}
    (waited : s.WaitedBy time texts number) (synced : s.Synced) {text : Str}
    (early : ∀ call ∈ s.calls, call.msg.strToSend = text → call.index < time) : s.Quiet text := by
  intro call member same
  apply synced.fenced.handled number waited.drained call member
  exact Or.inl ((early call member same).trans_le waited.begun)

section Late

variable {text : Str}

/-- A live element with the text was called for since. -/
theorem Since.late_of_live (since : start.Since s) (ledger : start.Ledger) (grows : start.Grows s)
    (census : s.Census) (quiet : start.Quiet text) {entry : Entry S.toSignature}
    (accepted : s.Accepted entry) (live : s.Live entry.tag) (same : entry.value.strToSend = text) :
    start.calls.length ≤ entry.tag := by
  by_contra early
  rw [Nat.not_le] at early
  obtain ⟨call, inside, kept, index, msg⟩ := census.registered entry accepted
  have before := grows.mem_calls ledger census inside (index ▸ early)
  apply quiet call before (by rw [msg, same])
  rw [show call.entry = entry.tag from kept.trans index]
  exact since.live entry.tag early live

/-- A later call with the text is stood for by a later element. -/
theorem Since.late_entry (since : start.Since s) (regular : start.Census) (grows : start.Grows s)
    (census : s.Census) (quiet : start.Quiet text) {call : Call S} (member : call ∈ s.calls)
    (late : start.calls.length ≤ call.index) (same : call.msg.strToSend = text) :
    start.calls.length ≤ call.entry := by
  rcases since.entries call member late with after | ⟨entry, pending, tagged⟩
  · exact after
  · exfalso
    obtain ⟨other, accepted, number, equal⟩ := census.stands call member
    obtain ⟨own, inside, -, index, msg⟩ := census.registered other accepted
    obtain ⟨first, before, kept, number', made⟩ := regular.registered entry (Or.inl pending)
    have one : first = own := census.call_eq (grows.calls.subset before) inside
      (by rw [number', tagged, index, number])
    apply quiet first before
    · rw [one, msg]
      exact equal.symm.trans same
    · rw [show first.entry = entry.tag from kept.trans number']
      exact Or.inl ⟨entry, pending, rfl⟩

end Late

end Config

section Any

variable {duty : Duty S}

/-- A duty that allows all requests is kept by every operation. -/
theorem Script.keeps_of_any (asks : ∀ request, duty.Asks request) (speaks : ∀ msg, duty.Speaks msg)
    (script : Script S.toSignature S.Local) : script.Keeps duty := by
  induction script with
  | exit => trivial
  | connected next ih => exact ih
  | read next ih => exact fun state _ => ih state
  | enqueue request next ih => exact ⟨asks request, ih⟩
  | barrier next ih | closeConnection next ih => exact ih
  | synchro msg next ih => exact ⟨speaks msg, ih⟩

theorem Caller.keeps_of_any (asks : ∀ request, duty.Asks request) (speaks : ∀ msg, duty.Speaks msg)
    (caller : Caller S) : caller.Keeps duty := by
  cases caller with
  | idle => trivial
  | running op since script => exact script.keeps_of_any asks speaks
  | fencing op since fence next => exact next.keeps_of_any asks speaks
  | asking op since msg next =>
      exact ⟨speaks msg, fun reply => (next reply).keeps_of_any asks speaks⟩

end Any

section Watching

variable {View : Type} (start : S.Local) (view : S.Local → View)

/-- Nothing is asked of anyone but to leave a view of the program as it is. -/
def Duty.watching : Duty S where
  start := start
  Known _ _ now later := view later = view now
  Rely state later := view later = view state
  Asks _ := True
  May _ _ := True
  Speaks _ := True
  Answers _ _ _ := True
  Replies _ _ _ := True
  Post _ _ _ _ := True
  refl _ := rfl
  trans first second := second.trans first
  stable _ _ post := post

variable {start view}

theorem Work.ensures_watching {number : Nat} {text : Str} (work : Work S.toSignature S.Local)
    (state : S.Local) (asked : Request S.toSignature → Prop) :
    work.Ensures (Duty.watching start view) number text state asked := by
  induction work generalizing state asked with
  | done | stuck => trivial
  | insert request next ih => exact ⟨trivial, ih _ _⟩
  | touch change next ih => exact fun now _ known => ⟨known, ih now _ _⟩

theorem Duty.watching_met : (Duty.watching start view).Met where
  silent _ _ _ _ _ _ _ := trivial
  handler _ _ _ _ _ _ _ _ _ _ _ _ := Work.ensures_watching _ _ _

namespace Config

variable {s next : Config S} {action : Action S}

theorem dutiful_watching (taken : s.step action = some next)
    (same : view next.locals = view s.locals) :
    s.Dutiful (Duty.watching start view) action next where
  known _ _ _ _ _ := same
  may _ _ _ := trivial
  edits change own := by
    subst own
    cases taken
    exact same
  starts _ op _ := (S.script op).keeps_of_any (fun _ => trivial) fun _ => trivial
  answers _ wire _ _ _ := by cases wire <;> trivial

/-- A view can be watched from any state on. -/
theorem Serving.watch {duty : Duty S} (serving : s.Serving duty) (view : S.Local → View) :
    s.Serving (Duty.watching s.locals view) where
  regular := serving.regular
  charged := by
    refine ⟨rfl, fun thread => ?_, fun call member => ?_⟩
    · exact (s.caller thread).keeps_of_any (fun _ => trivial) fun _ => trivial
    · obtain ⟨counter, request, -, -, made⟩ := serving.charged.calls call member
      exact ⟨counter, request, trivial, trivial, made⟩
  kept := by
    refine ⟨fun sock reply member => ?_, serving.kept.sent, ?_, ?_, ?_⟩
    · cases reply.answers <;> trivial
    · exact fun _ _ rest _ => rest.ensures_watching _ _
    · exact fun _ _ => Or.inr trivial
    · exact fun _ _ _ _ _ _ => trivial

/-- After a run that leaves the view as it is, it is still watched. -/
theorem watch_exec {duty : Duty S} (serving : s.Serving duty) (view : S.Local → View)
    {actions : List (Action S)} {final : Config S}
    (leaves : Meets Config.step (fun s action => ∀ next, s.step action = some next →
      view next.locals = view s.locals) s actions)
    (run : exec Config.step s actions = some final) :
    Meets Config.step (DoesDuty (Duty.watching s.locals view)) s actions ∧
      final.Serving (Duty.watching s.locals view) := by
  have does : Meets Config.step (DoesDuty (Duty.watching s.locals view)) s actions :=
    leaves.imp fun same next taken => dutiful_watching taken (same next taken)
  exact ⟨does, serving_exec Duty.watching_met (serving.watch view) does run⟩

/-- Whatever a run does, there is nothing to watch. -/
theorem unwatched_exec {duty : Duty S} (serving : s.Serving duty) {actions : List (Action S)}
    {final : Config S} (run : exec Config.step s actions = some final) :
    final.Serving (Duty.watching s.locals fun _ => ()) := by
  have any : Meets Config.step (fun _ _ => True) s actions := meets_of_forall fun _ _ => trivial
  have leaves : Meets Config.step (fun s action => ∀ next, s.step action = some next → () = ()) s
      actions := any.imp fun _ _ _ => rfl
  exact (watch_exec serving (fun _ => ()) leaves run).2

theorem serving_reached {counter : UInt64} {space : S.Space} {locals : S.Local}
    {actions : List (Action S)} {final : Config S}
    (run : exec Config.step (Config.initial counter space locals) actions = some final) :
    final.Serving (Duty.watching locals fun _ => ()) := by
  have initial := serving_initial (Duty.watching locals fun _ => ()) counter space
  exact unwatched_exec initial run

/-- What the server has answered to a thread since is as it may be. -/
theorem told_exec {duty : Duty S} (met : duty.Met) {thread : ThreadId} (serving : s.Serving duty)
    {actions : List (Action S)} {final : Config S}
    (does : Meets Config.step (DoesDuty duty) s actions)
    (run : exec Config.step s actions = some final) {msg reply : Str}
    (answered : s.AnsweredSince final thread msg reply) : duty.Replies thread msg reply := by
  have all : final.Serving duty ∧ s.Grows final ∧
      ∀ told ∈ final.answered.drop s.answered.length, duty.Replies told.1 told.2.1 told.2.2 := by
    apply does.invariant (fun state => state.Serving duty ∧ s.Grows state ∧
      ∀ told ∈ state.answered.drop s.answered.length, duty.Replies told.1 told.2.1 told.2.2) _ _ run
    · intro state action next does holds taken
      obtain ⟨serving, grows, known⟩ := holds
      refine ⟨serving.step met does taken, grows.trans (grows_step serving.regular.owned taken), ?_⟩
      cases moves_of_step taken with
      | @answer thread op since msg rest reply replies here arrived =>
          intro told member
          change told ∈ (state.answered ++ [(thread, msg, reply.text)]).drop
            s.answered.length at member
          rw [List.drop_append_of_le_length grows.answered.length_le] at member
          rcases List.mem_append.mp member with prior | new
          · exact known told prior
          · rw [List.mem_singleton.mp new]
            exact serving.answers here arrived
      | _ => exact known
    · refine ⟨serving, .refl s, fun told member => ?_⟩
      rw [List.drop_length] at member
      exact absurd member List.not_mem_nil
  exact all.2.2 _ answered

/-- The channel was open at every step, if it is in the end. -/
theorem keepsOpen_of_final {actions : List (Action S)} {final : Config S}
    (run : exec Config.step s actions = some final) (opened : final.isOpen = true) :
    Meets Config.step KeepsOpen s actions := by
  have back : ∀ {s next : Config S} {action : Action S}, s.step action = some next →
      next.isOpen = true → s.isOpen = true := by
    intro s next action taken opened
    cases moves_of_step taken with
    | closeConnection => cases opened
    | _ => exact opened
  have opens : ∀ {s : Config S} {actions : List (Action S)},
      exec Config.step s actions = some final → s.isOpen = true := by
    intro s actions run
    induction actions generalizing s with
    | nil =>
        obtain rfl := Option.some.inj run
        exact opened
    | cons action actions ih =>
        obtain ⟨next, taken, rest⟩ := exec_cons_eq_some.mp run
        exact back taken (ih rest)
  induction actions generalizing s with
  | nil => trivial
  | cons action actions ih =>
      obtain ⟨next, taken, rest⟩ := exec_cons_eq_some.mp run
      refine meets_cons (fun other also => ?_) taken (ih rest)
      obtain rfl := Option.some.inj (taken.symm.trans also)
      exact opens rest

end Config

end Watching

end AtomSpaceCog
