import AtomSpaceCog.Simple.Guarded
import AtomSpaceCog.Foundation.Settling

/-! # Every operation comes to its end

No operation takes `_mtx` twice (`guarded_prog`), a thread waits for a reply only when one is
owed, and each step leaves less to do. So the threads that share a `CogSimpleStorage` do not
block each other: when neither a thread nor the server can take a step, all operations have ended
and the mutex is free, unless what an operation decodes makes it throw or never return.
-/

namespace AtomSpaceCog.Simple

open Transition

section Programs

variable {Local : Type}

/-- A message that was not executed is less than any operation. -/
inductive Smaller : Option (Prog Local) → Option (Prog Local) → Prop where
  | message {prog} : Smaller none (some prog)
  | rest {next prog} (rest : Prog.Rest next prog) : Smaller (some next) (some prog)

theorem smaller_wf : WellFounded (@Smaller Local) := by
  have message : Acc Smaller (none : Option (Prog Local)) := ⟨_, fun _ less => by cases less⟩
  refine ⟨fun task => ?_⟩
  cases task with
  | none => exact message
  | some prog =>
      induction prog <;> refine ⟨_, fun task less => ?_⟩ <;> cases less with
      | message => exact message
      | rest rest => cases rest <;> apply_assumption

end Programs

section Machine

variable {client : Client} {server : Server}

/-- Neither the start of an operation nor a change by the program. -/
def Action.carriesOn : Action client → Bool
  | .start _ _ | .edit _ => false
  | _ => true

/-- A step that needs neither an end of the connection nor an exception. -/
def Action.goesOn : Action client → Bool
  | .advance _ | .serve => true
  | _ => false

theorem Action.carriesOn_of_goesOn {action : Action client} (goes : action.goesOn = true) :
    action.carriesOn = true := by
  cases action with
  | start | edit => cases goes
  | _ => rfl

/-- What a thread has left to do. -/
def Status.left : Status client → Multiset (Option (Prog client.Local))
  | .idle => 0
  | .running _ _ prog => {some prog}

variable {s next : State client server} {action : Action client}

namespace State

/-- No more threads wait than replies are owed. -/
def Owes (s : State client server) : Prop :=
  ∀ waiting : Finset ThreadId, (∀ thread ∈ waiting, ∃ op latest, s.Waits thread op latest) →
    waiting.card ≤ s.owed.length

variable {free : client.Op → Bool}

theorem Owes.step (owes : s.Owes) (mannered : s.Mannered free)
    (orderly : ∀ op, (client.prog op).Orderly (free op) false false)
    (taken : s.step action = some next) : next.Owes := by
  -- Nobody begins to wait, and no reply is lost.
  have moved : ∀ {thread : ThreadId} {status : Status client},
      next.thread = Function.update s.thread thread status →
      (∀ op latest rest, status ≠ .running op latest (.recv rest)) → next.owed = s.owed →
      next.Owes := by
    intro thread status threads still owed waiting waits
    rw [owed]
    refine owes waiting fun other member => ?_
    obtain ⟨op, latest, rest, there⟩ := waits other member
    rw [threads] at there
    by_cases same : other = thread
    · subst same
      rw [Function.update_self] at there
      exact absurd there (still op latest rest)
    · rw [Function.update_of_ne same] at there
      exact ⟨op, latest, rest, there⟩
  cases moves_of_step taken with
  | edit => exact owes
  | start begins here => exact moved rfl (still_of_not_awaits (orderly _).not_awaits) rfl
  | go here quiet live keeps =>
      obtain ⟨asked, own⟩ := mannered.running here
      exact moved rfl (still_of_not_awaits (keeps _ _ _ own).not_awaits) rfl
  | @lock thread op latest rest here unlocked =>
      obtain ⟨asked, own⟩ := mannered.running here
      have orderly : rest.Orderly (free op) true false := own
      exact moved rfl (still_of_not_awaits orderly.not_awaits) rfl
  | @unlock thread op latest rest here =>
      obtain ⟨asked, own⟩ := mannered.running here
      have orderly : rest.Orderly (free op) false false := own
      exact moved rfl (still_of_not_awaits orderly.not_awaits) rfl
  | leave => exact moved rfl (fun _ _ _ same => by cases same) rfl
  | @serve sent rest first =>
      intro waiting waits
      refine (owes waiting waits).trans_eq ?_
      unfold owed
      rw [first]
      cases replies : sent.replies <;> simp [replies]
  | @send thread op latest msg rest advances here live =>
      by_cases awaits : rest.awaits = true
      · intro waiting waits
        have others : (waiting.erase thread).card ≤ s.owed.length := by
          refine owes _ fun other member => ?_
          obtain ⟨different, member⟩ := Finset.mem_erase.mp member
          obtain ⟨op, latest, rest, there⟩ := waits other member
          simp only [setThread, Function.update_of_ne different] at there
          exact ⟨op, latest, rest, there⟩
        have card := Nat.sub_le_iff_le_add.mp (Finset.pred_card_le_card_erase (s := waiting) (a := thread))
        rw [owed_send, List.length_append,
          show (s.message thread msg rest.awaits).replies = true from awaits, if_pos rfl]
        exact card.trans (Nat.add_le_add_right others 1)
      · rw [Bool.not_eq_true] at awaits
        exact moved rfl (still_of_not_awaits awaits)
          ((owed_send s _ _ _).trans (by simp [message, awaits]))
  | @recv thread op latest rest answer replies here first =>
      obtain ⟨asked, own⟩ := mannered.running here
      intro waiting waits
      have stopped : thread ∉ waiting := by
        intro member
        obtain ⟨op', latest', later, there⟩ := waits thread member
        simp only [setThread, Function.update_self] at there
        exact still_of_not_awaits (own.2.2 _).not_awaits _ _ _ there
      have before := owes (insert thread waiting) fun other member => by
        rcases Finset.mem_insert.mp member with rfl | member
        · exact ⟨op, latest, rest, here⟩
        · obtain ⟨op', latest', later, there⟩ := waits other member
          have different : other ≠ thread := fun same => stopped (same ▸ member)
          simp only [setThread, Function.update_of_ne different] at there
          exact ⟨op', latest', later, there⟩
      rw [Finset.card_insert_of_notMem stopped] at before
      have owed : s.owed =
          answer.answers :: (replies.map Answer.answers ++ s.inbox.filter Sent.replies) := by
        rw [State.owed, first]
        rfl
      rw [owed, List.length_cons] at before
      exact Nat.le_of_succ_le_succ before

/-! ## Somebody can go on -/

/-- What follows in the operation of this thread throws, or never returns. -/
def Stuck (s : State client server) (thread : ThreadId) : Prop :=
  ∃ op latest, s.thread thread = .running op latest .stuck

/-- The server has executed everything, nobody waits for a reply, and a thread that throws or never
returns is the only one that may hold the mutex or have others wait for it. -/
structure AtRest (s : State client server) : Prop where
  executed : s.inbox = []
  held : ∀ thread, s.holder = some thread → s.Stuck thread
  ended : ∀ thread, s.thread thread = .idle ∨ s.Stuck thread ∨ s.holder ≠ none

/-- Unless something throws or never returns, all operations have ended. -/
theorem AtRest.idle (atRest : s.AtRest) (fine : ∀ thread, ¬ s.Stuck thread) :
    s.holder = none ∧ ∀ thread, s.thread thread = .idle := by
  have unlocked : s.holder = none := by
    by_contra held
    obtain ⟨thread, holds⟩ := Option.ne_none_iff_exists'.mp held
    exact fine thread (atRest.held thread holds)
  refine ⟨unlocked, fun thread => ?_⟩
  rcases atRest.ended thread with idle | stuck | held
  · exact idle
  · exact absurd stuck (fine thread)
  · exact absurd unlocked held

theorem atRest_of_still (mannered : s.Mannered free) (guarded : s.Guarded free) (owes : s.Owes)
    (still : ∀ action : Action client, action.goesOn = true → s.step action = none) :
    s.AtRest := by
  have executed : s.inbox = [] := by
    have serves : s.serve = none := still .serve rfl
    unfold serve at serves
    split at serves
    · assumption
    · cases serves
  -- A thread that cannot go on is stuck, or waits for a reply or for the mutex.
  have blocked : ∀ thread op latest prog, s.thread thread = .running op latest prog →
      prog = .stuck ∨ (∃ next, prog = .lock next ∧ s.holder ≠ none) ∨
        ∃ next, prog = .recv next ∧ s.outbox = [] := by
    intro thread op latest prog here
    have stays : s.advance thread = none := still (.advance thread) rfl
    unfold advance at stays
    rw [here] at stays
    cases prog with
    | stuck => exact Or.inl rfl
    | lock next =>
        refine Or.inr (Or.inl ⟨next, rfl, fun unlocked => ?_⟩)
        rw [unlocked] at stays
        cases stays
    | recv next =>
        refine Or.inr (Or.inr ⟨next, rfl, ?_⟩)
        dsimp only at stays
        split at stays
        · assumption
        · cases stays
    | send msg next =>
        dsimp only at stays
        split at stays <;> cases stays
    | _ => cases stays
  -- Nobody waits for a reply, since none is owed.
  have locking : ∀ thread op latest prog, s.thread thread = .running op latest prog →
      prog = .stuck ∨ ∃ next, prog = .lock next ∧ s.holder ≠ none := by
    intro thread op latest prog here
    rcases blocked thread op latest prog here with stuck | locking | ⟨next, rfl, read⟩
    · exact Or.inl stuck
    · exact Or.inr locking
    · have owed := owes {thread} fun other member =>
        ⟨op, latest, next, Finset.mem_singleton.mp member ▸ here⟩
      rw [State.owed, read, executed] at owed
      exact absurd owed (Nat.not_succ_le_zero 0)
  refine ⟨executed, fun thread holds => ?_, fun thread => ?_⟩
  · -- Who holds the mutex does not wait for it.
    cases here : s.thread thread with
    | idle =>
        have own := mannered thread
        rw [here] at own
        exact absurd holds (of_decide_eq_false own)
    | running op latest prog =>
        rcases locking thread op latest prog here with rfl | ⟨next, rfl, -⟩
        · exact ⟨op, latest, here⟩
        · exact absurd (guarded thread op latest _ here).1 (by simp [holds])
  · cases here : s.thread thread with
    | idle => exact Or.inl rfl
    | running op latest prog =>
        rcases locking thread op latest prog here with rfl | ⟨next, rfl, held⟩
        · exact Or.inr (Or.inl ⟨op, latest, here⟩)
        · exact Or.inr (Or.inr held)

/-! ## What is left to do -/

/-- The threads from some number on are idle. -/
def Within (bound : Nat) (s : State client server) : Prop :=
  ∀ thread, bound ≤ thread → s.thread thread = .idle

/-- What the first threads and the server have left to do. -/
def left (bound : Nat) (s : State client server) : Multiset (Option (Prog client.Local)) :=
  ∑ thread ∈ Finset.range bound, (s.thread thread).left + Multiset.replicate s.inbox.length none

theorem Within.lt {bound : Nat} (within : s.Within bound) {thread : ThreadId} {op : client.Op}
    {latest : Option Sent} {prog : Prog client.Local}
    (here : s.thread thread = .running op latest prog) : thread < bound := by
  by_contra outside
  rw [within thread (Nat.le_of_not_lt outside)] at here
  cases here

/-- A thread takes a step. -/
theorem spent_left {bound : Nat} (within : s.Within bound) {thread : ThreadId} {op : client.Op}
    {latest : Option Sent} {prog : Prog client.Local} {status : Status client} {others : List Sent}
    (here : s.thread thread = .running op latest prog)
    (threads : next.thread = Function.update s.thread thread status)
    (inbox : next.inbox = s.inbox ++ others)
    (smaller : ∀ task ∈ status.left, Smaller task (some prog)) :
    Spent Smaller (next.left bound) (s.left bound) := by
  refine ⟨some prog, status.left + Multiset.replicate others.length none, fun task member => ?_, ?_⟩
  · rcases Multiset.mem_add.mp member with inside | sent
    · exact smaller task inside
    · rw [Multiset.eq_of_mem_replicate sent]
      exact .message
  · have sum : ∑ each ∈ Finset.range bound, (next.thread each).left + {some prog} ≤
        ∑ each ∈ Finset.range bound, (s.thread each).left + status.left := by
      refine sum_add_le_sum_add (Finset.mem_range.mpr (within.lt here)) (fun other _ different => ?_) ?_
      · rw [threads, Function.update_of_ne different]
      · rw [threads, Function.update_self, here]
        exact (add_comm _ _).le
    rw [left, left, inbox, List.length_append, Multiset.replicate_add, add_right_comm,
      add_add_add_comm _ _ status.left]
    exact add_le_add_left sum _

/-- A thread that goes on was running before. -/
theorem Within.move {bound : Nat} (within : s.Within bound) {thread : ThreadId} {op : client.Op}
    {latest : Option Sent} {prog : Prog client.Local} {status : Status client}
    (here : s.thread thread = .running op latest prog)
    (threads : next.thread = Function.update s.thread thread status) : next.Within bound := by
  intro other outside
  have different : other ≠ thread := ((within.lt here).trans_le outside).ne'
  rw [threads, Function.update_of_ne different]
  exact within other outside

theorem Within.step {bound : Nat} (within : s.Within bound) (carries : action.carriesOn = true)
    (taken : s.step action = some next) : next.Within bound := by
  cases strides_of_step taken with
  | start begins => exact absurd carries (by simp [begins, Action.carriesOn])
  | edit edits => exact absurd carries (by simp [edits, Action.carriesOn])
  | serve first threads => exact fun other outside => threads ▸ within other outside
  | leave here threads => exact within.move here threads
  | turn here threads => exact within.move here threads

theorem spends (bound : Nat) : Spends (State.step : State client server → _ → _)
    (fun _ action => action.carriesOn = true) (Within bound) Smaller (left bound) where
  wf := smaller_wf
  keeps own within taken := within.step own taken
  spends {s action next} own within taken := by
    cases strides_of_step taken with
    | start begins => exact absurd own (by simp [begins, Action.carriesOn])
    | edit edits => exact absurd own (by simp [edits, Action.carriesOn])
    | serve first threads =>
        refine ⟨none, 0, fun _ member => absurd member (Multiset.notMem_zero _), ?_⟩
        rw [left, left, first, threads, List.length_cons, Multiset.replicate_succ, add_zero, add_assoc,
          ← Multiset.singleton_add, add_comm (Multiset.replicate _ _)]
    | leave here threads holder inbox =>
        refine spent_left within here threads (inbox.trans (List.append_nil _).symm) fun task member => ?_
        exact absurd member (Multiset.notMem_zero task)
    | turn here threads turn holder inbox =>
        refine spent_left within here threads inbox fun task member => ?_
        rw [Multiset.mem_singleton.mp member]
        exact .rest turn.rest

/-- What is known of every state that a run reaches. -/
structure Reached (free : client.Op → Bool) (s : State client server) : Prop where
  mannered : s.Mannered free
  guarded : s.Guarded free
  owes : s.Owes
  within : ∃ bound, s.Within bound

theorem reached_initial (free : client.Op → Bool) (space : server.Space) (locals : client.Local) :
    (State.initial space locals : State client server).Reached free where
  mannered _ := rfl
  guarded _ _ _ _ there := by cases there
  owes waiting waits := by
    rcases waiting.eq_empty_or_nonempty with rfl | ⟨thread, member⟩
    · exact Nat.zero_le _
    · obtain ⟨op, latest, next, there⟩ := waits thread member
      cases there
  within := ⟨0, fun _ _ => rfl⟩

theorem Reached.step (reached : s.Reached free)
    (orderly : ∀ op, (client.prog op).Orderly (free op) false false)
    (guarded : ∀ op, (client.prog op).Guarded (free op) false) (taken : s.step action = some next) :
    next.Reached free where
  mannered := reached.mannered.step orderly taken
  guarded := reached.guarded.step reached.mannered guarded taken
  owes := reached.owes.step reached.mannered orderly taken
  within := by
    obtain ⟨bound, within⟩ := reached.within
    cases strides_of_step taken with
    | @start thread op begins here threads =>
        refine ⟨max bound (thread + 1), fun other outside => ?_⟩
        rw [threads, Function.update_of_ne (Nat.lt_of_lt_of_le (Nat.lt_succ_self thread)
          ((le_max_right _ _).trans outside)).ne']
        exact within other ((le_max_left _ _).trans outside)
    | edit edits threads => exact ⟨bound, fun other outside => threads ▸ within other outside⟩
    | serve first threads => exact ⟨bound, fun other outside => threads ▸ within other outside⟩
    | leave here threads => exact ⟨bound, within.move here threads⟩
    | turn here threads => exact ⟨bound, within.move here threads⟩

theorem Reached.exec (reached : s.Reached free)
    (orderly : ∀ op, (client.prog op).Orderly (free op) false false)
    (guarded : ∀ op, (client.prog op).Guarded (free op) false) {actions : List (Action client)}
    (run : Transition.exec State.step s actions = some next) : next.Reached free :=
  exec_invariant (Reached free) (fun reached taken => reached.step orderly guarded taken) reached run

/-- The threads cannot go on for ever, and when they cannot go on they have come to rest. -/
theorem Reached.rests (reached : s.Reached free)
    (orderly : ∀ op, (client.prog op).Orderly (free op) false false)
    (guarded : ∀ op, (client.prog op).Guarded (free op) false) :
    (¬ ∃ path : Nat → State client server, path 0 = s ∧ ∀ time, ∃ action : Action client,
      action.carriesOn = true ∧ (path time).step action = some (path (time + 1))) ∧
    ((∀ action : Action client, action.goesOn = true → s.step action = none) → s.AtRest) ∧
    ∃ more final, (∀ action ∈ more, action.goesOn = true) ∧
      Transition.exec State.step s more = some final ∧ final.AtRest := by
  have stops : ∀ {s : State client server}, s.Reached free →
      (∀ action : Action client, action.goesOn = true → s.step action = none) → s.AtRest :=
    fun reached still => atRest_of_still reached.mannered reached.guarded reached.owes still
  obtain ⟨bound, within⟩ := reached.within
  refine ⟨(spends bound).not_endless within, stops reached, ?_⟩
  obtain ⟨more, final, goes, run, still⟩ :=
    ((spends bound).imp Action.carriesOn_of_goesOn).exists_rest within
  exact ⟨more, final, goes.forall_of_exec run, run, stops (reached.exec orderly guarded run) still⟩

end State

end Machine

/-- Whatever the threads that share a `CogSimpleStorage` have been doing: they cannot go on for
ever without a new call; when neither a thread nor the server can go on, every operation has ended
and the mutex is free, unless one throws or never returns; and they always can go on to that. -/
theorem comes_to_rest {sexpr : FrameSexpr} {own : Option SpaceId} {server : Server}
    {space : server.Space} {node : Node sexpr} {actions : List (Action (simpleClient sexpr own))}
    {s : State (simpleClient sexpr own) server}
    (run : exec State.step (State.initial space node) actions = some s) :
    (¬ ∃ path : Nat → State (simpleClient sexpr own) server, path 0 = s ∧ ∀ time,
      ∃ action : Action (simpleClient sexpr own), action.carriesOn = true ∧
        (path time).step action = some (path (time + 1))) ∧
    ((∀ action : Action (simpleClient sexpr own), action.goesOn = true → s.step action = none) →
      s.AtRest) ∧
    ∃ more final, (∀ action ∈ more, action.goesOn = true) ∧ exec State.step s more = some final ∧
      final.AtRest := by
  have initial : (State.initial space node : State (simpleClient sexpr own) server).Reached
      SimpleOp.unlocked := by apply State.reached_initial
  have reached := initial.exec (orderly_prog own) (guarded_prog own) run
  exact reached.rests (orderly_prog own) (guarded_prog own)

/-- One thread waits for a reply under the mutex, and another one for the mutex. -/
theorem comes_to_rest_two_loads :
    ∃ s, exec State.step bare [.start 0 readCount, .start 1 readCount, .advance 0, .advance 0] = some s ∧
      s.holder = some 0 ∧ ∃ more final, (∀ action ∈ more, action.goesOn = true) ∧
        exec State.step s more = some final ∧ final.AtRest := by
  have run : ∃ s, exec State.step bare
      [.start 0 readCount, .start 1 readCount, .advance 0, .advance 0] = some s ∧ s.holder = some 0 :=
    ⟨_, rfl, rfl⟩
  obtain ⟨s, run, holds⟩ := run
  exact ⟨s, run, holds, (comes_to_rest run).2.2⟩

end AtomSpaceCog.Simple
