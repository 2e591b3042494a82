import AtomSpaceCog.Simple.Discipline
import AtomSpaceCog.Foundation.Transition
import AtomSpaceCog.Sexpr.Plain

/-! # Whose reply a thread reads

Of the threads that wait for a reply under the lock there is one at most. `proxy_open`,
`proxy_close` and `close` send their requests without it. As long as none of these
overlaps with another request, the server owes a reply to nobody but the one thread that
waits (`State.Owing`), and each thread reads its own.
-/

namespace AtomSpaceCog.Simple

open Transition

/-- What a step does. -/
inductive Moves {client : Client} {server : Server} (s : State client server) (action : Action client) :
    State client server → Prop where
  | start {thread op} (begins : action = .start thread op) (here : s.thread thread = .idle) :
      Moves s action (s.setThread thread (.running op none (client.prog op)))
  | edit {locals} : Moves s action { s with locals := locals }
  | go {thread op latest prog rest sock locals} (here : s.thread thread = .running op latest prog)
      (quiet : prog.awaits = false)
      (live : sock = .live → s.sock = .live)
      (orderly : ∀ free held asked, prog.Orderly free held asked → rest.Orderly free held false) :
      Moves s action ({ s with sock := sock, locals := locals }.setThread thread (.running op latest rest))
  | lock {thread op latest next} (here : s.thread thread = .running op latest (.lock next))
      (unlocked : s.holder = none) :
      Moves s action ({ s with holder := some thread }.setThread thread (.running op latest next))
  | unlock {thread op latest next} (here : s.thread thread = .running op latest (.unlock next)) :
      Moves s action ({ s with holder := s.released thread }.setThread thread (.running op latest next))
  | send {thread op latest msg next} (advances : action = .advance thread)
      (here : s.thread thread = .running op latest (.send msg next))
      (live : s.sock = .live) :
      Moves s action ({ s with
        sent := s.sent + 1
        inbox := s.inbox ++ [s.message thread msg next.awaits] }.setThread thread
          (.running op (some (s.message thread msg next.awaits)) next))
  | recv {thread op latest next answer rest}
      (here : s.thread thread = .running op latest (.recv next)) (first : s.outbox = answer :: rest) :
      Moves s action ({ s with
        outbox := rest
        received := s.received ++ [Receipt.mk thread latest answer] }.setThread thread
          (.running op latest (next answer.text)))
  | leave {thread op latest prog sock} (here : s.thread thread = .running op latest prog)
      (live : sock = .live → s.sock = .live ∧ prog.awaits = false) :
      Moves s action ({ s with sock := sock }.leave thread)
  | serve {sent rest} (first : s.inbox = sent :: rest) :
      Moves s action { s with
        inbox := rest
        space := (server.run sent.text s.space).1
        outbox := if sent.replies then s.outbox ++ [⟨(server.run sent.text s.space).2, sent⟩]
          else s.outbox }

/-- What a thread does is orderly; a thread in no operation does not hold the lock. -/
def Status.Orderly {client : Client} (free : client.Op → Bool) (held : Bool) : Status client → Prop
  | .idle => held = false
  | .running op _ prog => ∃ asked, prog.Orderly (free op) held asked

section Machine

variable {client : Client} {server : Server} {s next : State client server} {action : Action client}

theorem moves_of_step (taken : s.step action = some next) : Moves s action next := by
  cases action with
  | start thread op =>
      simp only [State.step, State.start] at taken
      split at taken
      · next here => exact Option.some.inj taken ▸ Moves.start rfl here
      · cases taken
  | edit change => exact Option.some.inj taken ▸ Moves.edit
  | serve =>
      simp only [State.step, State.serve] at taken
      split at taken
      · cases taken
      · next first => exact Option.some.inj taken ▸ Moves.serve first
  | hangUp thread =>
      simp only [State.step, State.hangUp] at taken
      split at taken
      · next here =>
          refine Option.some.inj taken ▸ Moves.leave here fun live => ?_
          unfold State.shutSock at live
          split at live
          · cases live
          · next dead => exact absurd live dead
      · cases taken
  | throw thread =>
      simp only [State.step, State.throw] at taken
      split at taken
      · next here => exact Option.some.inj taken ▸ Moves.leave here fun live => ⟨live, rfl⟩
      · cases taken
  | advance thread =>
      simp only [State.step, State.advance] at taken
      split at taken
      · cases taken
      · next op latest prog here =>
          cases prog with
          | exit how => exact Option.some.inj taken ▸ Moves.leave here fun live => ⟨live, rfl⟩
          | touch change rest =>
              exact Option.some.inj taken ▸ Moves.go here rfl id fun _ _ _ orderly => orderly _
          | connected rest =>
              exact Option.some.inj taken ▸ Moves.go here rfl id fun _ _ _ orderly => orderly _
          | lock rest =>
              dsimp only at taken
              split at taken
              · next unlocked => exact Option.some.inj taken ▸ Moves.lock here unlocked
              · cases taken
          | unlock rest => exact Option.some.inj taken ▸ Moves.unlock here
          | send msg rest =>
              dsimp only at taken
              split at taken
              · next live => exact Option.some.inj taken ▸ Moves.send rfl here live
              · exact Option.some.inj taken ▸ Moves.leave here fun live => ⟨live, rfl⟩
          | recv rest =>
              dsimp only at taken
              split at taken
              · cases taken
              · next first => exact Option.some.inj taken ▸ Moves.recv here first
          | closeSocket rest =>
              refine Option.some.inj taken ▸ Moves.go here rfl (fun live => ?_) fun _ _ _ orderly => orderly
              unfold State.shutSock at live
              split at live
              · cases live
              · exact live
          | clearSocket rest =>
              exact Option.some.inj taken ▸ Moves.go here rfl (fun live => by cases live)
                fun _ _ _ orderly => orderly
          | stuck => cases taken

namespace State

/-- The messages that the server has yet to answer, or whose reply was not read. -/
def owed (s : State client server) : List Sent :=
  s.outbox.map Answer.answers ++ s.inbox.filter Sent.replies

/-- Every thread is orderly, with the lock that it holds. -/
def Mannered (free : client.Op → Bool) (s : State client server) : Prop :=
  ∀ thread, (s.thread thread).Orderly free (decide (s.holder = some thread))

/-- The thread is in `do_recv`. -/
def Waits (s : State client server) (thread : ThreadId) (op : client.Op) (latest : Option Sent) : Prop :=
  ∃ next, s.thread thread = .running op latest (.recv next)

/-- A thread that waits is owed the reply to its last message, and nothing else is; on an
open connection, nothing is owed when no thread waits. -/
structure Owing (s : State client server) : Prop where
  waiting : ∀ thread op latest, s.Waits thread op latest →
    ∃ sent : Sent, latest = some sent ∧ sent.thread = thread ∧ s.owed = [sent]
  quiet : s.sock = .live → (∀ thread op latest, ¬ s.Waits thread op latest) → s.owed = []

/-- Everybody has read the reply to the message that its operation had sent last. -/
def Own (s : State client server) : Prop :=
  ∀ receipt ∈ s.received, receipt.latest = some receipt.answer.answers

/-- No message with a reply is sent while another operation waits for a reply, if one of
the two does so without the lock. -/
def Alone (free : client.Op → Bool) (s : State client server) (action : Action client) : Prop :=
  ∀ thread op latest msg rest, action = .advance thread →
    s.thread thread = .running op latest (.send msg rest) → rest.awaits = true →
      ∀ other op' latest', s.Waits other op' latest' → free op = false ∧ free op' = false

end State

variable {free : client.Op → Bool}

namespace State

/-- A thread moves on, and what the others hold stays the same. -/
theorem Mannered.move (mannered : s.Mannered free) {thread : ThreadId} {status : Status client}
    (threads : next.thread = Function.update s.thread thread status)
    (others : ∀ other ≠ thread, (next.holder = some other ↔ s.holder = some other))
    (own : status.Orderly free (decide (next.holder = some thread))) : next.Mannered free := by
  intro other
  rw [threads]
  by_cases same : other = thread
  · subst same
    rwa [Function.update_self]
  · rw [Function.update_of_ne same, decide_eq_decide.mpr (others other same)]
    exact mannered other

theorem Mannered.running (mannered : s.Mannered free) {thread : ThreadId} {op : client.Op}
    {latest : Option Sent} {prog : Prog client.Local} (here : s.thread thread = .running op latest prog) :
    ∃ asked, prog.Orderly (free op) (decide (s.holder = some thread)) asked := by
  have own := mannered thread
  rwa [here] at own

theorem released_iff (s : State client server) {thread other : ThreadId} (different : other ≠ thread) :
    s.released thread = some other ↔ s.holder = some other := by
  unfold released
  split
  · next own => simp [own, different.symm]
  · rfl

theorem released_ne (s : State client server) (thread : ThreadId) : s.released thread ≠ some thread := by
  unfold released
  split
  · exact (Option.some_ne_none _).symm
  · next other => exact other

theorem Mannered.step (orderly : ∀ op, (client.prog op).Orderly (free op) false false)
    (mannered : s.Mannered free) (taken : s.step action = some next) : next.Mannered free := by
  cases moves_of_step taken with
  | edit | serve => exact mannered
  | @start thread op begins here =>
      refine mannered.move rfl (fun _ _ => Iff.rfl) ⟨false, ?_⟩
      have own := mannered thread
      rw [here] at own
      exact own.symm ▸ orderly op
  | go here quiet live keeps =>
      obtain ⟨asked, own⟩ := mannered.running here
      exact mannered.move rfl (fun _ _ => Iff.rfl) ⟨false, keeps _ _ _ own⟩
  | @lock thread op latest rest here unlocked =>
      obtain ⟨asked, own⟩ := mannered.running here
      refine mannered.move rfl (fun other different => ?_) ⟨false, ?_⟩
      · simp [setThread, unlocked, different.symm]
      · simpa [setThread] using (show rest.Orderly (free op) true false from own)
  | @unlock thread op latest rest here =>
      obtain ⟨asked, own⟩ := mannered.running here
      refine mannered.move rfl (fun _ different => s.released_iff different) ⟨false, ?_⟩
      simpa [setThread, s.released_ne thread] using (show rest.Orderly (free op) false false from own)
  | send advances here live =>
      obtain ⟨asked, own⟩ := mannered.running here
      exact mannered.move rfl (fun _ _ => Iff.rfl) ⟨true, own⟩
  | recv here first =>
      obtain ⟨asked, own⟩ := mannered.running here
      exact mannered.move rfl (fun _ _ => Iff.rfl) ⟨false, own.2.2 _⟩
  | @leave thread op latest prog sock here live =>
      exact mannered.move rfl (fun _ different => s.released_iff different)
        (decide_eq_false (s.released_ne thread))

/-- Of the threads that wait under the lock there is one at most. -/
theorem Mannered.holds (mannered : s.Mannered free) {thread : ThreadId} {op : client.Op}
    {latest : Option Sent} {prog : Prog client.Local} (here : s.thread thread = .running op latest prog)
    (awaits : prog.awaits = true) (locked : free op = false) : s.holder = some thread := by
  obtain ⟨asked, own⟩ := mannered.running here
  rcases own.holds awaits with unlocked | held
  · rw [locked] at unlocked
    cases unlocked
  · exact of_decide_eq_true held

/-- A thread that is about to send a message with a reply is the only one then to wait. -/
theorem nobody_waits (mannered : s.Mannered free) (alone : s.Alone free action) {thread : ThreadId}
    (advances : action = .advance thread) {op : client.Op} {latest : Option Sent} {msg : Str}
    {rest : Prog client.Local} (here : s.thread thread = .running op latest (.send msg rest))
    (awaits : rest.awaits = true) (other : ThreadId) (op' : client.Op) (latest' : Option Sent) :
    ¬ s.Waits other op' latest' := by
  rintro waits
  obtain ⟨locked, also⟩ := alone thread op latest msg rest advances here awaits other op' latest' waits
  obtain ⟨later, there⟩ := waits
  have held := mannered.holds there rfl also
  obtain ⟨asked, own⟩ := mannered.running here
  have holds : s.holder = some thread := by
    have orderly : rest.Orderly (free op) (decide (s.holder = some thread)) true := own
    rcases orderly.holds awaits with unlocked | held
    · rw [locked] at unlocked
      cases unlocked
    · exact of_decide_eq_true held
  obtain rfl := Option.some.inj (holds.symm.trans held)
  rw [here] at there
  cases there

/-- A thread stops waiting, or goes on not to, and nothing is owed for it. -/
theorem Owing.move (owing : s.Owing) {thread : ThreadId} {status : Status client}
    (threads : next.thread = Function.update s.thread thread status)
    (still : ∀ op latest rest, status ≠ .running op latest (.recv rest)) (owed : next.owed = s.owed)
    (live : next.sock = .live → s.sock = .live ∧ ∀ op latest, ¬ s.Waits thread op latest) :
    next.Owing where
  waiting other op latest := by
    rintro ⟨rest, there⟩
    rw [threads] at there
    by_cases same : other = thread
    · subst same
      rw [Function.update_self] at there
      exact absurd there (still op latest rest)
    · rw [Function.update_of_ne same] at there
      rw [owed]
      exact owing.waiting other op latest ⟨rest, there⟩
  quiet isLive nobody := by
    obtain ⟨wasLive, own⟩ := live isLive
    rw [owed]
    refine owing.quiet wasLive fun other op latest => ?_
    rintro ⟨rest, there⟩
    by_cases same : other = thread
    · exact own op latest (same ▸ ⟨rest, there⟩)
    · exact nobody other op latest ⟨rest, by rw [threads, Function.update_of_ne same, there]⟩

theorem not_waits {thread : ThreadId} {status : Status client} (here : s.thread thread = status)
    (still : ∀ op latest rest, status ≠ .running op latest (.recv rest)) (op : client.Op)
    (latest : Option Sent) : ¬ s.Waits thread op latest := by
  rintro ⟨rest, there⟩
  exact still op latest rest (here.symm.trans there)

/-- The status is not that of a thread that waits. -/
theorem still_of_not_awaits {op : client.Op} {latest : Option Sent} {prog : Prog client.Local}
    (quiet : prog.awaits = false) (op' : client.Op) (latest' : Option Sent)
    (rest : Str → Prog client.Local) :
    Status.running op latest prog ≠ .running op' latest' (.recv rest) := by
  rintro same
  obtain ⟨-, -, rfl⟩ := Status.running.inj same
  cases quiet

theorem owed_send (s : State client server) (thread : ThreadId) (status : Status client) (message : Sent) :
    ({ s with sent := s.sent + 1, inbox := s.inbox ++ [message] }.setThread thread status).owed =
      s.owed ++ if message.replies then [message] else [] := by
  unfold owed setThread
  rw [List.filter_append, List.append_assoc]
  cases replies : message.replies <;> simp [replies]

/-- What a thread reads is the reply to the last message of its operation, and nothing
else was owed. -/
theorem Owing.reads (owing : s.Owing) {thread : ThreadId} {op : client.Op} {latest : Option Sent}
    (waits : s.Waits thread op latest) {answer : Answer} {replies : List Answer}
    (first : s.outbox = answer :: replies) :
    latest = some answer.answers ∧ answer.answers.thread = thread ∧
      replies.map Answer.answers ++ s.inbox.filter Sent.replies = [] := by
  obtain ⟨sent, rfl, own, only⟩ := owing.waiting thread op latest waits
  unfold owed at only
  rw [first, List.map_cons, List.cons_append] at only
  obtain ⟨rfl, rest⟩ := List.cons.inj only
  exact ⟨rfl, own, rest⟩

theorem Owing.step (owing : s.Owing) (mannered : s.Mannered free)
    (orderly : ∀ op, (client.prog op).Orderly (free op) false false) (alone : s.Alone free action)
    (taken : s.step action = some next) : next.Owing := by
  cases moves_of_step taken with
  | edit => exact ⟨owing.waiting, owing.quiet⟩
  | @start thread op begins here =>
      refine owing.move rfl (still_of_not_awaits (orderly op).not_awaits) rfl fun live => ⟨live, ?_⟩
      exact not_waits here fun _ _ _ same => by cases same
  | go here quiet live keeps =>
      obtain ⟨asked, own⟩ := mannered.running here
      refine owing.move rfl (still_of_not_awaits (keeps _ _ _ own).not_awaits) rfl fun isLive => ⟨live isLive, ?_⟩
      exact not_waits here (still_of_not_awaits quiet)
  | @lock thread op latest rest here unlocked =>
      obtain ⟨asked, own⟩ := mannered.running here
      have orderly : rest.Orderly (free op) true false := own
      refine owing.move rfl (still_of_not_awaits orderly.not_awaits) rfl fun live => ⟨live, ?_⟩
      exact not_waits here (still_of_not_awaits rfl)
  | @unlock thread op latest rest here =>
      obtain ⟨asked, own⟩ := mannered.running here
      have orderly : rest.Orderly (free op) false false := own
      refine owing.move rfl (still_of_not_awaits orderly.not_awaits) rfl fun live => ⟨live, ?_⟩
      exact not_waits here (still_of_not_awaits rfl)
  | leave here live =>
      refine owing.move rfl (fun _ _ _ same => by cases same) rfl fun isLive => ⟨(live isLive).1, ?_⟩
      exact not_waits here (still_of_not_awaits (live isLive).2)
  | @serve sent rest first =>
      have owed : ∀ outbox : List Answer,
          outbox = (if sent.replies then s.outbox ++ [⟨(server.run sent.text s.space).2, sent⟩] else s.outbox) →
            outbox.map Answer.answers ++ rest.filter Sent.replies = s.owed := by
        rintro _ rfl
        unfold State.owed
        rw [first]
        cases replies : sent.replies <;> simp [replies]
      exact ⟨fun thread op latest waits => (owing.waiting thread op latest waits).imp
          fun _ ⟨same, own, only⟩ => ⟨same, own, (owed _ rfl).trans only⟩,
        fun live nobody => (owed _ rfl).trans (owing.quiet live nobody)⟩
  | @send thread op latest msg rest advances here live =>
      cases awaits : rest.awaits with
      | false =>
          refine owing.move rfl (still_of_not_awaits awaits) ?_ fun live => ⟨live, ?_⟩
          · exact (owed_send s _ _ _).trans (by simp [message])
          · exact not_waits here (still_of_not_awaits rfl)
      | true =>
          have nobody := nobody_waits mannered alone advances here awaits
          have owed : (s.owed ++ if (s.message thread msg true).replies then [s.message thread msg true] else []) =
              [s.message thread msg true] := by
            rw [owing.quiet live nobody]
            rfl
          refine ⟨fun other op' latest' waits => ?_, fun _ idle => ?_⟩
          · obtain ⟨later, there⟩ := waits
            by_cases same : other = thread
            · subst same
              simp only [setThread, Function.update_self] at there
              obtain ⟨-, rfl, -⟩ := Status.running.inj there
              exact ⟨_, rfl, rfl, (owed_send s _ _ _).trans owed⟩
            · refine absurd ⟨later, ?_⟩ (nobody other op' latest')
              simpa only [setThread, Function.update_of_ne same] using there
          · cases rest with
            | recv later => exact absurd ⟨later, Function.update_self ..⟩ (idle thread op _)
            | _ => cases awaits
  | @recv thread op latest rest answer replies here first =>
      obtain ⟨asked, own⟩ := mannered.running here
      obtain ⟨-, mine, nothing⟩ := owing.reads ⟨rest, here⟩ first
      refine ⟨fun other op' latest' waits => ?_, fun _ _ => nothing⟩
      obtain ⟨later, there⟩ := waits
      by_cases same : other = thread
      · subst same
        simp only [setThread, Function.update_self] at there
        exact absurd there (still_of_not_awaits (own.2.2 _).not_awaits op' latest' later)
      · simp only [setThread, Function.update_of_ne same] at there
        exact absurd ((owing.reads ⟨later, there⟩ first).2.1.symm.trans mine) same

theorem Own.step (own : s.Own) (owing : s.Owing) (taken : s.step action = some next) : next.Own := by
  cases moves_of_step taken with
  | recv here first =>
      intro receipt member
      rcases List.mem_append.mp member with prior | new
      · exact own receipt prior
      · rw [List.mem_singleton.mp new]
        exact (owing.reads ⟨_, here⟩ first).1
  | _ => exact own

/-- What holds along a run in which nobody overlaps with a request without the lock. -/
structure Settled (free : client.Op → Bool) (s : State client server) : Prop where
  mannered : s.Mannered free
  owing : s.Owing
  own : s.Own

theorem settled_initial (free : client.Op → Bool) (space : server.Space) (locals : client.Local) :
    (State.initial space locals : State client server).Settled free where
  mannered _ := rfl
  owing := ⟨fun _ _ _ ⟨_, there⟩ => (by cases there), fun _ _ => rfl⟩
  own _ member := absurd member List.not_mem_nil

theorem Settled.step (settled : s.Settled free)
    (orderly : ∀ op, (client.prog op).Orderly (free op) false false) (alone : s.Alone free action)
    (taken : s.step action = some next) : next.Settled free where
  mannered := settled.mannered.step orderly taken
  owing := settled.owing.step settled.mannered orderly alone taken
  own := settled.own.step settled.owing taken

/-- No operation that does without the lock is running. -/
def Locked (free : client.Op → Bool) (s : State client server) : Prop :=
  ∀ thread op latest prog, s.thread thread = .running op latest prog → free op = false

theorem Locked.step (locked : s.Locked free)
    (starts : ∀ thread op, action = .start thread op → free op = false)
    (taken : s.step action = some next) : next.Locked free := by
  have move : ∀ {thread : ThreadId} {status : Status client},
      next.thread = Function.update s.thread thread status →
      (∀ op latest prog, status = .running op latest prog → free op = false) → next.Locked free := by
    intro thread status threads own other op latest prog there
    rw [threads] at there
    by_cases same : other = thread
    · subst same
      rw [Function.update_self] at there
      exact own op latest prog there
    · rw [Function.update_of_ne same] at there
      exact locked other op latest prog there
  cases moves_of_step taken with
  | edit | serve => exact locked
  | start begins here =>
      refine move rfl fun op latest prog same => ?_
      obtain ⟨rfl, -, -⟩ := Status.running.inj same
      exact starts _ _ begins
  | leave => exact move rfl fun _ _ _ same => by cases same
  | go here | lock here | unlock here | send _ here | recv here =>
      refine move rfl fun op latest prog same => ?_
      obtain ⟨rfl, -, -⟩ := Status.running.inj same
      exact locked _ _ _ _ here

/-- Operations under the lock need not be kept apart. -/
theorem alone_of_locked {space : server.Space} {locals : client.Local} {actions : List (Action client)}
    (starts : ∀ action ∈ actions, ∀ thread op, action = .start thread op → free op = false) :
    Meets State.step (State.Alone free) (State.initial space locals : State client server) actions := by
  refine Meets.strengthen (Locked free) (fun starts locked taken => locked.step starts taken)
    (fun _ locked => ?_) (meets_of_forall starts) fun _ _ _ _ there => by cases there
  intro thread op latest msg rest _ here _ other op' latest' waits
  obtain ⟨later, there⟩ := waits
  exact ⟨locked _ _ _ _ here, locked _ _ _ _ there⟩

end State

end Machine

/-- In every run in which no message with a reply is sent while another operation waits
for one, if one of the two is `proxy_open`, `proxy_close` or `close`, each `do_recv`
returns the reply to the message that its operation had sent last. -/
theorem replies_own {sexpr : FrameSexpr} {own : Option SpaceId} {server : Server} {space : server.Space}
    {node : Node sexpr} {actions : List (Action (simpleClient sexpr own))}
    {final : State (simpleClient sexpr own) server}
    (run : exec State.step (State.initial space node) actions = some final)
    (alone : Meets State.step (State.Alone SimpleOp.unlocked)
      (State.initial space node : State (simpleClient sexpr own) server) actions) :
    ∀ receipt ∈ final.received, receipt.latest = some receipt.answer.answers :=
  (alone.invariant (State.Settled SimpleOp.unlocked)
    (fun alone settled taken => settled.step (orderly_prog own) alone taken)
    (State.settled_initial _ space node) run).own

section Runs

/-- One AtomSpace, whose name is empty. -/
def plainFrames : FrameSexpr where
  toSexpr := plain
  encodeAtomMulti _ := plain.encodeAtom
  encodeFrame _ := bytes "(AtomSpace \"\")"
  getName _ := []
  insertFid _ _ _ := ()
  clearFid := ()
  framesIn _ := []
  homeIn _ _ _ _ := none
  decodeFrame _ _ := some ()

/-- No Atoms and no values. -/
def bare : State (simpleClient plainFrames none) .valueless := .initial () ⟨Memory.empty (), false, []⟩

/-- `loadValue` of a count of the Concept `a`. -/
def readCount : SimpleOp plainFrames :=
  .loadValue ⟨.node .concept (bytes "a"), .loose 0⟩ ⟨.node .predicate (bytes "count"), .loose 1⟩

/-- A `loadValue` is called while another one waits for its reply. -/
theorem replies_own_two_loads :
    ∃ final, exec State.step bare [.start 0 readCount, .start 1 readCount, .advance 0, .advance 0, .serve,
        .advance 0, .advance 0, .advance 0, .advance 1, .advance 1, .serve, .advance 1] = some final ∧
      final.received.length = 2 ∧
      ∀ receipt ∈ final.received, receipt.latest = some receipt.answer.answers := by
  have locked : Meets State.step (State.Alone SimpleOp.unlocked) bare
      [.start 0 readCount, .start 1 readCount, .advance 0, .advance 0, .serve,
        .advance 0, .advance 0, .advance 0, .advance 1, .advance 1, .serve, .advance 1] := by
    refine State.alone_of_locked ?_
    simp [readCount, SimpleOp.unlocked]
  exact ⟨_, rfl, rfl, replies_own rfl locked⟩

/-- A `loadValue` reads the reply to the message of a `proxy_open`. -/
theorem replies_crossed :
    ¬ ∀ (actions : List (Action (simpleClient plainFrames none)))
        (final : State (simpleClient plainFrames none) .valueless),
      exec State.step bare actions = some final →
        ∀ receipt ∈ final.received, receipt.latest = some receipt.answer.answers := by
  intro all
  have crossed := all [.start 0 .proxyOpen, .advance 0, .start 1 readCount, .advance 1, .advance 1, .serve,
    .serve, .advance 1] _ rfl _ List.mem_cons_self
  exact absurd crossed (by decide)

end Runs

end AtomSpaceCog.Simple
