import AtomSpaceCog.Simple.Direct
import AtomSpaceCog.Simple.Guarded

/-! # A fetch reads one state of the server

The operations that fetch hold `_mtx` over all that they ask, and all others send only under it. So
all the replies to one fetch, also to one of a whole AtomSpace, are those of one and the same state
of the server, which it was in at a moment during the call.
-/

namespace AtomSpaceCog.Simple

open Transition

section Programs

variable {Local : Type}

/-- The rest of an operation that holds the mutex, sends only messages of a kind, and has nothing
left to do when it gives the mutex back. -/
def Prog.Asks (Good : Str → Prop) : Prog Local → Prop
  | .exit _ | .stuck => True
  | .touch _ next => ∀ locals, (next locals).Asks Good
  | .connected next => ∀ isOpen, (next isOpen).Asks Good
  | .unlock next => ∃ how, next = .exit how
  | .send msg next => Good msg ∧ next.Asks Good
  | .recv next => ∀ reply, (next reply).Asks Good
  | .lock _ | .closeSocket _ | .clearSocket _ => False

end Programs

section Operations

open CogSimpleStorage

variable {sexpr : FrameSexpr} {Good : Str → Prop} {next : SimpleProg sexpr}

theorem asks_decode (asks : next.Asks Good) (work : CogWork sexpr.toSexpr) :
    (decode next work).Asks Good := by
  induction work with
  | done => exact asks
  | insert request rest ih => exact ih
  | touch change rest ih => exact fun node => ih node.memory
  | stuck => trivial

theorem asks_atomListLoop (keys : ∀ expr, Good (keysAlistText expr)) {table : SpaceId} {expr : Str}
    {finish fuel l r : Nat} (asks : next.Asks Good) :
    (CogSimpleStorage.atomListLoop table expr finish next fuel l r).Asks Good := by
  induction fuel generalizing l r with
  | zero => trivial
  | succ fuel ih =>
      unfold CogSimpleStorage.atomListLoop
      split
      · trivial
      · split
        · exact asks
        · split
          · exact asks
          · intro node
            dsimp only
            split
            · trivial
            · exact ⟨keys _, fun reply => asks_decode ih _⟩

theorem asks_sendAtomList (keys : ∀ expr, Good (keysAlistText expr)) {msg : Str} (good : Good msg)
    {table : SpaceId} (asks : next.Asks Good) : (sendAtomList msg table next).Asks Good := by
  refine ⟨good, fun expr => ?_⟩
  dsimp only
  split
  · exact asks
  · exact asks_atomListLoop keys asks

/-- How the messages start that ask for Atoms and values. -/
def questions : List Str :=
  [bytes "(cog-value ", bytes "(cog-node '", bytes "(cog-link '", bytes "(cog-keys->alist ",
    bytes "(cog-incoming-set ", bytes "(cog-incoming-by-type ", bytes "(cog-get-atoms '"]

/-- The message asks for Atoms or values. -/
def IsQuestion (msg : Str) : Prop := ∃ start ∈ questions, start <+: msg

theorem isQuestion_keysAlistText (expr : Str) : IsQuestion (keysAlistText expr) := by
  refine ⟨bytes "(cog-keys->alist ", by simp [questions], ?_⟩
  rw [keysAlistText, List.append_assoc]
  exact List.prefix_append _ _

/-- The operations that only ask for Atoms and values. -/
def SimpleOp.fetches : SimpleOp sexpr → Bool
  | .loadValue _ _ | .getAtom _ | .fetchIncomingSet _ _ | .fetchIncomingByType _ _ _
  | .loadAtomSpace _ | .loadType _ _ => true
  | _ => false

/-- They take the mutex, and ask. -/
theorem asks_prog (own : Option SpaceId) {op : SimpleOp sexpr} (fetches : op.fetches = true) :
    ∃ next, prog own op = .lock next ∧ next.Asks IsQuestion := by
  have unlocked : (Prog.unlock (.exit .returned) : SimpleProg sexpr).Asks IsQuestion := ⟨_, rfl⟩
  have question : ∀ start ∈ questions, ∀ rest, IsQuestion (start ++ rest) :=
    fun start member rest => ⟨start, member, List.prefix_append _ _⟩
  cases op with
  | loadValue h key =>
      refine ⟨_, rfl, ?_, fun reply => asks_decode unlocked _⟩
      rw [loadValueText, List.append_assoc, List.append_assoc]
      exact question _ (by simp [questions]) _
  | getAtom h =>
      refine ⟨_, rfl, ?_, fun msg => ?_⟩
      · rw [iknowText, List.append_assoc]
        split
        · exact question _ (by simp [questions]) _
        · exact question _ (by simp [questions]) _
      · dsimp only
        split
        · trivial
        · exact ⟨isQuestion_keysAlistText _, fun reply => asks_decode unlocked _⟩
  | fetchIncomingSet table h =>
      refine ⟨_, rfl, asks_sendAtomList isQuestion_keysAlistText ?_ unlocked⟩
      rw [List.append_assoc]
      exact question _ (by simp [questions]) _
  | fetchIncomingByType table h t =>
      refine ⟨_, rfl, asks_sendAtomList isQuestion_keysAlistText ?_ unlocked⟩
      simp only [List.append_assoc]
      exact question _ (by simp [questions]) _
  | loadAtomSpace table =>
      have all : ∀ kind, IsQuestion (getAtomsText kind) := by
        intro kind
        rw [getAtomsText, List.append_assoc]
        exact question _ (by simp [questions]) _
      exact ⟨_, rfl, asks_sendAtomList isQuestion_keysAlistText (all _)
        (asks_sendAtomList isQuestion_keysAlistText (all _) unlocked)⟩
  | loadType table t =>
      refine ⟨_, rfl, asks_sendAtomList isQuestion_keysAlistText ?_ unlocked⟩
      rw [List.append_assoc]
      exact question _ (by simp [questions]) _
  | _ => cases fetches

end Operations

section Machine

variable {client : Client} {server : Server}

/-- A step that neither touches the mutex nor sends or receives. -/
inductive Prog.Quietly : Prog client.Local → Prog client.Local → Prop where
  | touch {change next} (locals) : Quietly (.touch change next) (next locals)
  | connected {next} (isOpen) : Quietly (.connected next) (next isOpen)
  | closeSocket {next} : Quietly (.closeSocket next) next
  | clearSocket {next} : Quietly (.clearSocket next) next

/-- The thread that takes the step. -/
def Action.thread : Action client → Option ThreadId
  | .start thread _ | .advance thread | .hangUp thread | .throw thread => some thread
  | .edit _ | .serve => none

namespace Direct

/-- What a step does. -/
inductive Moves (d : Direct client server) (action : Action client) : Direct client server → Prop where
  | edit {change : client.Local → client.Local} (edits : action.thread = none) :
      Moves d action { d with locals := change d.locals }
  | start {thread op} (begins : action = .start thread op) (here : d.thread thread = .idle) :
      Moves d action (d.setThread thread (.running op none (client.prog op)))
  | leave {thread op latest prog sock} (own : action.thread = some thread)
      (here : d.thread thread = .running op latest prog) (live : sock = .live → d.sock = .live) :
      Moves d action ({ d with sock := sock }.leave thread)
  | go {thread op latest prog rest sock locals} (own : action.thread = some thread)
      (here : d.thread thread = .running op latest prog) (quietly : prog.Quietly rest)
      (live : sock = .live → d.sock = .live) :
      Moves d action ({ d with sock := sock, locals := locals }.setThread thread (.running op latest rest))
  | lock {thread op latest next} (own : action.thread = some thread)
      (here : d.thread thread = .running op latest (.lock next)) (unlocked : d.holder = none) :
      Moves d action ({ d with holder := some thread }.setThread thread (.running op latest next))
  | unlock {thread op latest next} (own : action.thread = some thread)
      (here : d.thread thread = .running op latest (.unlock next)) :
      Moves d action ({ d with holder := d.released thread }.setThread thread (.running op latest next))
  | send {thread op latest msg next} (own : action.thread = some thread)
      (here : d.thread thread = .running op latest (.send msg next)) :
      Moves d action ({ d with space := (server.run msg d.space).1 }.setThread thread
        (.running op (some (msg, (server.run msg d.space).2)) next))
  | recv {thread op question reply next} (own : action.thread = some thread)
      (here : d.thread thread = .running op (some (question, reply)) (.recv next)) :
      Moves d action ({ d with heard := d.heard ++ [Heard.mk thread question reply] }.setThread thread
        (.running op (some (question, reply)) (next reply)))

variable {d e : Direct client server} {action : Action client}

/-- A socket that was closed stays closed. -/
theorem live_of_shutSock {closed : Sock} (other : closed ≠ .live) (live : d.shutSock closed = .live) :
    d.sock = .live := by
  unfold shutSock at live
  split at live
  · exact absurd live other
  · exact live

theorem moves_of_step (taken : d.step action = some e) : Moves d action e := by
  cases action with
  | serve => cases taken
  | edit change => exact Option.some.inj taken ▸ .edit rfl
  | start thread op =>
      simp only [step, start] at taken
      split at taken
      · next here => exact Option.some.inj taken ▸ .start rfl here
      · cases taken
  | hangUp thread =>
      simp only [step, hangUp] at taken
      split at taken
      · next here => exact Option.some.inj taken ▸ .leave rfl here (live_of_shutSock (by decide))
      · cases taken
  | throw thread =>
      simp only [step, throw] at taken
      split at taken
      · next here => exact Option.some.inj taken ▸ .leave rfl here id
      · cases taken
  | advance thread =>
      simp only [step, advance] at taken
      split at taken
      · cases taken
      · next op latest prog here =>
          cases prog with
          | exit how => exact Option.some.inj taken ▸ .leave rfl here id
          | touch change rest => exact Option.some.inj taken ▸ .go rfl here (.touch _) id
          | connected rest => exact Option.some.inj taken ▸ .go rfl here (.connected _) id
          | lock rest =>
              dsimp only at taken
              split at taken
              · next unlocked => exact Option.some.inj taken ▸ .lock rfl here unlocked
              · cases taken
          | unlock rest => exact Option.some.inj taken ▸ .unlock rfl here
          | send msg rest =>
              dsimp only at taken
              split at taken
              · exact Option.some.inj taken ▸ .send rfl here
              · exact Option.some.inj taken ▸ .leave rfl here id
          | recv rest =>
              dsimp only at taken
              split at taken
              · cases taken
              · exact Option.some.inj taken ▸ .recv rfl here
          | closeSocket rest =>
              exact Option.some.inj taken ▸ .go rfl here .closeSocket (live_of_shutSock (by decide))
          | clearSocket rest =>
              exact Option.some.inj taken ▸ .go rfl here .clearSocket fun live => by cases live
          | stuck => cases taken

/-- Only a thread that holds the mutex sends, and none takes it twice. -/
def Status.Guarded (held : Bool) : Status client → Prop
  | .idle => held = false
  | .running _ _ prog => prog.Guarded false held

/-- All threads keep to the mutex. -/
def Guarded (d : Direct client server) : Prop :=
  ∀ thread, (d.thread thread).Guarded (decide (d.holder = some thread))

/-- Only operations that keep to the mutex are called. -/
def Starts (action : Action client) : Prop :=
  ∀ thread op, action = .start thread op → (client.prog op).Guarded false false

theorem setThread_self (d : Direct client server) (thread : ThreadId) (status : Status client) :
    (d.setThread thread status).thread thread = status := Function.update_self ..

theorem leave_self (d : Direct client server) (thread : ThreadId) :
    (d.leave thread).thread thread = .idle := Function.update_self ..

theorem released_iff (d : Direct client server) {thread other : ThreadId} (different : other ≠ thread) :
    d.released thread = some other ↔ d.holder = some other := by
  unfold released
  split
  · next own => simp [own, different.symm]
  · rfl

theorem released_ne (d : Direct client server) (thread : ThreadId) : d.released thread ≠ some thread := by
  unfold released
  split
  · exact (Option.some_ne_none _).symm
  · next other => exact other

namespace Guarded

theorem running (guarded : d.Guarded) {thread : ThreadId} {op : client.Op} {latest : Option (Str × Str)}
    {prog : Prog client.Local} (here : d.thread thread = .running op latest prog) :
    prog.Guarded false (decide (d.holder = some thread)) := by
  have own := guarded thread
  rwa [here] at own

/-- A thread moves, and what the others hold stays the same. -/
theorem move (guarded : d.Guarded) {thread : ThreadId} {status : Status client}
    (threads : e.thread = Function.update d.thread thread status)
    (others : ∀ other ≠ thread, (e.holder = some other ↔ d.holder = some other))
    (own : status.Guarded (decide (e.holder = some thread))) : e.Guarded := by
  intro other
  rw [threads]
  by_cases same : other = thread
  · subst same
    rwa [Function.update_self]
  · rw [Function.update_of_ne same, decide_eq_decide.mpr (others other same)]
    exact guarded other

theorem step (guarded : d.Guarded) (starts : Starts action) (taken : d.step action = some e) :
    e.Guarded := by
  cases moves_of_step taken with
  | edit => exact guarded
  | @start thread op begins here =>
      refine guarded.move rfl (fun _ _ => Iff.rfl) ?_
      have own := guarded thread
      rw [here] at own
      exact own.symm ▸ starts thread op begins
  | @leave thread _ _ _ _ _ here =>
      exact guarded.move rfl (fun _ different => d.released_iff different)
        (decide_eq_false (d.released_ne thread))
  | go _ here quietly =>
      refine guarded.move rfl (fun _ _ => Iff.rfl) ?_
      have own := guarded.running here
      cases quietly with
      | touch locals => exact own locals
      | connected isOpen => exact own isOpen
      | closeSocket | clearSocket => exact own.2
  | @lock thread op latest next _ here unlocked =>
      have own := guarded.running here
      refine guarded.move rfl (fun other different => ?_) ?_
      · simp [setThread, unlocked, different.symm]
      · change next.Guarded false (decide (some thread = some thread))
        rw [decide_eq_true rfl]
        exact own.2
  | @unlock thread op latest next _ here =>
      have own := guarded.running here
      refine guarded.move rfl (fun _ different => d.released_iff different) ?_
      change next.Guarded false (decide (d.released thread = some thread))
      rw [decide_eq_false (d.released_ne thread)]
      exact own
  | send _ here => exact guarded.move rfl (fun _ _ => Iff.rfl) (guarded.running here).2
  | recv _ here => exact guarded.move rfl (fun _ _ => Iff.rfl) (guarded.running here _)

end Guarded

/-- What holds of a thread while it asks, and after it: the server is in this state, and gave the
reply that is at hand. -/
inductive Stage (Good : Str → Prop) (d : Direct client server) (thread : ThreadId)
    (space : server.Space) : Prop where
  | asking {op latest prog} (here : d.thread thread = .running op latest prog)
      (holds : d.holder = some thread) (same : d.space = space) (asks : prog.Asks Good)
      (answered : ∀ question reply, latest = some (question, reply) →
        reply = (server.run question space).2)
  | past (done : ∀ op latest prog, d.thread thread = .running op latest prog → ∃ how, prog = .exit how)

/-- The thread is about to take the mutex. -/
def Waiting (Good : Str → Prop) (d : Direct client server) (thread : ThreadId) : Prop :=
  ∃ op next, d.thread thread = .running op none (.lock next) ∧ next.Asks Good

/-- What others do: the thread stays where it is and reads nothing, and while it holds the mutex it
keeps it, and the server stays as it is. -/
theorem frame (guarded : d.Guarded) {thread : ThreadId} (other : action.thread ≠ some thread)
    (taken : d.step action = some e) : e.thread thread = d.thread thread ∧
      (d.holder = some thread → e.holder = some thread ∧ e.space = d.space) ∧
      ∃ more, e.heard = d.heard ++ more ∧ ∀ heard ∈ more, heard.thread ≠ thread := by
  have nothing : ∃ more, d.heard = d.heard ++ more ∧ ∀ heard ∈ more, heard.thread ≠ thread :=
    ⟨[], (List.append_nil _).symm, fun heard member => absurd member List.not_mem_nil⟩
  -- Of a thread that moves it is known that it is another one.
  have apart : ∀ {mover : ThreadId}, action.thread = some mover → thread ≠ mover :=
    fun own same => other (same ▸ own)
  cases moves_of_step taken with
  | edit => exact ⟨rfl, fun holds => ⟨holds, rfl⟩, nothing⟩
  | start begins =>
      have own := apart (by rw [begins]; rfl)
      exact ⟨Function.update_of_ne own _ _, fun holds => ⟨holds, rfl⟩, nothing⟩
  | leave own =>
      exact ⟨Function.update_of_ne (apart own) _ _,
        fun holds => ⟨(d.released_iff (apart own)).mpr holds, rfl⟩, nothing⟩
  | go own => exact ⟨Function.update_of_ne (apart own) _ _, fun holds => ⟨holds, rfl⟩, nothing⟩
  | lock own _ unlocked =>
      refine ⟨Function.update_of_ne (apart own) _ _, fun holds => ?_, nothing⟩
      rw [unlocked] at holds
      cases holds
  | unlock own =>
      exact ⟨Function.update_of_ne (apart own) _ _,
        fun holds => ⟨(d.released_iff (apart own)).mpr holds, rfl⟩, nothing⟩
  | send own here =>
      refine ⟨Function.update_of_ne (apart own) _ _, fun holds => ?_, nothing⟩
      -- Only the holder of the mutex sends.
      obtain ⟨free | held, -⟩ := guarded.running here
      · cases free
      · exact absurd (Option.some.inj (holds.symm.trans (of_decide_eq_true held))) (apart own)
  | @recv mover op question reply next own here =>
      refine ⟨Function.update_of_ne (apart own) _ _, fun holds => ⟨holds, rfl⟩, _, rfl, ?_⟩
      intro heard member
      rw [List.mem_singleton.mp member]
      exact (apart own).symm

theorem stage_leave {Good : Str → Prop} (d : Direct client server) (thread : ThreadId)
    (space : server.Space) : (d.leave thread).Stage Good thread space := by
  refine .past fun op latest prog there => ?_
  rw [leave_self] at there
  cases there

/-- The replies that a thread reads are those of the state that it holds the server in. -/
theorem Stage.step {Good : Str → Prop} {thread : ThreadId} {space : server.Space}
    (stage : Stage Good d thread space) (guarded : d.Guarded) (once : ∀ op, action ≠ .start thread op)
    (still : ∀ msg, Good msg → (server.run msg space).1 = space) (taken : d.step action = some e) :
    Stage Good e thread space ∧ ∃ more, e.heard = d.heard ++ more ∧
      ∀ heard ∈ more, heard.thread = thread → heard.reply = (server.run heard.question space).2 := by
  by_cases mine : action.thread = some thread
  swap
  · obtain ⟨same, keeps, more, heard, others⟩ := frame guarded mine taken
    refine ⟨?_, more, heard, fun each member own => absurd own (others each member)⟩
    cases stage with
    | asking here holds equal asks answered =>
        obtain ⟨holds, unchanged⟩ := keeps holds
        exact .asking (same.trans here) holds (unchanged.trans equal) asks answered
    | past done => exact .past fun op latest prog there => done op latest prog (same ▸ there)
  have nothing : ∃ more, d.heard = d.heard ++ more ∧ ∀ heard ∈ more, heard.thread = thread →
      heard.reply = (server.run heard.question space).2 :=
    ⟨[], (List.append_nil _).symm, fun heard member => absurd member List.not_mem_nil⟩
  have moves := moves_of_step taken
  cases stage with
  | past done =>
      cases moves with
      | edit edits => rw [edits] at mine; cases mine
      | start begins =>
          rw [begins] at mine
          cases mine
          exact absurd begins (once _)
      | leave own =>
          cases mine.symm.trans own
          exact ⟨stage_leave _ _ _, nothing⟩
      | go own here quietly =>
          cases mine.symm.trans own
          obtain ⟨how, rfl⟩ := done _ _ _ here
          cases quietly
      | lock own here | unlock own here | send own here | recv own here =>
          cases mine.symm.trans own
          obtain ⟨how, no⟩ := done _ _ _ here
          cases no
  | @asking op latest prog here holds equal asks answered =>
      cases moves with
      | edit edits => rw [edits] at mine; cases mine
      | start begins =>
          rw [begins] at mine
          cases mine
          exact absurd begins (once _)
      | leave own =>
          cases mine.symm.trans own
          exact ⟨stage_leave _ _ _, nothing⟩
      | go own there quietly =>
          cases mine.symm.trans own
          rw [here] at there
          cases there
          refine ⟨.asking (Function.update_self ..) holds equal ?_ answered, nothing⟩
          cases quietly with
          | touch locals => exact asks locals
          | connected isOpen => exact asks isOpen
          | closeSocket | clearSocket => exact asks.elim
      | lock own there =>
          cases mine.symm.trans own
          rw [here] at there
          cases there
          exact asks.elim
      | unlock own there =>
          cases mine.symm.trans own
          rw [here] at there
          cases there
          refine ⟨.past fun op' latest' prog' there => ?_, nothing⟩
          rw [setThread_self] at there
          cases there
          exact asks
      | send own there =>
          cases mine.symm.trans own
          rw [here] at there
          cases there
          refine ⟨.asking (Function.update_self ..) holds ?_ asks.2 fun question reply same => ?_, nothing⟩
          · exact (congrArg (fun state => (server.run _ state).1) equal).trans (still _ asks.1)
          · cases same
            rw [equal]
      | recv own there =>
          cases mine.symm.trans own
          rw [here] at there
          cases there
          refine ⟨.asking (Function.update_self ..) holds equal (asks _) answered, _, rfl, ?_⟩
          intro heard member _
          rw [List.mem_singleton.mp member]
          exact answered _ _ rfl

/-- A thread that waits for the mutex reads nothing; when it has the mutex, the server is in the
state that will answer. -/
theorem Waiting.step {Good : Str → Prop} {thread : ThreadId} (waiting : d.Waiting Good thread)
    (guarded : d.Guarded) (once : ∀ op, action ≠ .start thread op) (taken : d.step action = some e) :
    (e.Waiting Good thread ∨ e.Stage Good thread e.space) ∧ ∃ more, e.heard = d.heard ++ more ∧
      ∀ heard ∈ more, heard.thread ≠ thread := by
  obtain ⟨op, next, here, asks⟩ := waiting
  by_cases mine : action.thread = some thread
  swap
  · obtain ⟨same, -, more, heard, others⟩ := frame guarded mine taken
    exact ⟨Or.inl ⟨op, next, same.trans here, asks⟩, more, heard, others⟩
  have nothing : ∃ more, d.heard = d.heard ++ more ∧ ∀ heard ∈ more, heard.thread ≠ thread :=
    ⟨[], (List.append_nil _).symm, fun heard member => absurd member List.not_mem_nil⟩
  cases moves_of_step taken with
  | edit edits => rw [edits] at mine; cases mine
  | start begins =>
      rw [begins] at mine
      cases mine
      exact absurd begins (once _)
  | leave own =>
      cases mine.symm.trans own
      exact ⟨Or.inr (stage_leave _ _ _), nothing⟩
  | go own there quietly =>
      cases mine.symm.trans own
      rw [here] at there
      cases there
      cases quietly
  | lock own there =>
      cases mine.symm.trans own
      rw [here] at there
      cases there
      exact ⟨Or.inr (.asking (Function.update_self ..) rfl rfl asks nofun), nothing⟩
  | unlock own there | send own there | recv own there =>
      cases mine.symm.trans own
      rw [here] at there
      cases there

theorem Stage.exec {Good : Str → Prop} {thread : ThreadId} {space : server.Space}
    (stage : Stage Good d thread space) (guarded : d.Guarded)
    (still : ∀ msg, Good msg → (server.run msg space).1 = space) {actions : List (Action client)}
    (starts : ∀ action ∈ actions, Starts action)
    (once : ∀ action ∈ actions, ∀ op, action ≠ .start thread op)
    (run : Transition.exec Direct.step d actions = some e) : ∃ more, e.heard = d.heard ++ more ∧
      ∀ heard ∈ more, heard.thread = thread → heard.reply = (server.run heard.question space).2 := by
  induction actions generalizing d with
  | nil =>
      obtain rfl := Option.some.inj run
      exact ⟨[], (List.append_nil _).symm, fun heard member => absurd member List.not_mem_nil⟩
  | cons action actions ih =>
      obtain ⟨next, taken, rest⟩ := exec_cons_eq_some.mp run
      obtain ⟨stage, first, read, good⟩ := stage.step guarded (once action List.mem_cons_self) still taken
      obtain ⟨second, heard, also⟩ := ih stage (guarded.step (starts action List.mem_cons_self) taken)
        (fun action member => starts action (List.mem_cons_of_mem _ member))
        (fun action member => once action (List.mem_cons_of_mem _ member)) rest
      refine ⟨first ++ second, by rw [heard, read, List.append_assoc], fun heard member => ?_⟩
      exact (List.mem_append.mp member).elim (good heard) (also heard)

/-- The replies that a thread reads while it holds the mutex are those of the state in which the
server was when it took the mutex. -/
theorem Waiting.exec {Good : Str → Prop} {thread : ThreadId} (waiting : d.Waiting Good thread)
    (guarded : d.Guarded) (still : ∀ msg space, Good msg → (server.run msg space).1 = space)
    {actions : List (Action client)} (starts : ∀ action ∈ actions, Starts action)
    (once : ∀ action ∈ actions, ∀ op, action ≠ .start thread op)
    (run : Transition.exec Direct.step d actions = some e) : ∃ front back moment, actions = front ++ back ∧
      Transition.exec Direct.step d front = some moment ∧ ∃ more, e.heard = d.heard ++ more ∧
        ∀ heard ∈ more, heard.thread = thread →
          heard.reply = (server.run heard.question moment.space).2 := by
  induction actions generalizing d with
  | nil =>
      obtain rfl := Option.some.inj run
      exact ⟨[], [], d, rfl, rfl, [], (List.append_nil _).symm,
        fun heard member => absurd member List.not_mem_nil⟩
  | cons action actions ih =>
      obtain ⟨next, taken, rest⟩ := exec_cons_eq_some.mp run
      obtain ⟨goes, first, read, others⟩ := waiting.step guarded (once action List.mem_cons_self) taken
      have guarded := guarded.step (starts action List.mem_cons_self) taken
      have starts : ∀ action ∈ actions, Starts action :=
        fun action member => starts action (List.mem_cons_of_mem _ member)
      have once : ∀ action ∈ actions, ∀ op, action ≠ .start thread op :=
        fun action member => once action (List.mem_cons_of_mem _ member)
      -- What was read so far was read by others.
      have joined : ∀ {space : server.Space} {second : List Heard}, (∀ heard ∈ second,
          heard.thread = thread → heard.reply = (server.run heard.question space).2) →
          ∀ heard ∈ first ++ second, heard.thread = thread →
            heard.reply = (server.run heard.question space).2 := by
        intro space second good heard member own
        exact (List.mem_append.mp member).elim (fun early => absurd own (others heard early))
          fun late => good heard late own
      rcases goes with waiting | stage
      · obtain ⟨front, back, moment, split, reached, second, heard, good⟩ :=
          ih waiting guarded starts once rest
        refine ⟨action :: front, back, moment, by rw [split, List.cons_append],
          exec_cons_eq_some.mpr ⟨next, taken, reached⟩, first ++ second, ?_, joined good⟩
        rw [heard, read, List.append_assoc]
      · obtain ⟨second, heard, good⟩ :=
          stage.exec guarded (fun msg => still msg _) starts once rest
        refine ⟨[action], actions, next, rfl, exec_cons_eq_some.mpr ⟨next, taken, rfl⟩, first ++ second, ?_,
          joined good⟩
        rw [heard, read, List.append_assoc]

theorem guarded_initial (space : server.Space) (locals : client.Local) :
    (Direct.initial space locals : Direct client server).Guarded := fun _ => rfl

theorem Guarded.exec (guarded : d.Guarded) {actions : List (Action client)}
    (starts : ∀ action ∈ actions, Starts action)
    (run : Transition.exec Direct.step d actions = some e) : e.Guarded :=
  (meets_of_forall starts).invariant Guarded (fun starts guarded taken => guarded.step starts taken)
    guarded run

end Direct

end Machine

/-- Where the threads that share a `CogSimpleStorage` call only operations that keep to `_mtx`, and
the server does not change its state when it is asked for Atoms and values: all replies to one call
of an operation that fetches are those of one state of the server, the one that the messages sent
up to some moment during the call bring about, whatever the other threads write meanwhile. -/
theorem fetch_is_snapshot {sexpr : FrameSexpr} {own : Option SpaceId} {server : Server}
    {space : server.Space} {node : Node sexpr} {before during : List (Action (simpleClient sexpr own))}
    {start s : State (simpleClient sexpr own) server} {thread : ThreadId} {op : SimpleOp sexpr}
    (called : exec State.step (State.initial space node) before = some start)
    (run : exec State.step start (.start thread op :: during) = some s) (fetches : op.fetches = true)
    (locked : ∀ action ∈ before ++ .start thread op :: during, ∀ other (op' : SimpleOp sexpr),
      action = .start other op' → op'.unlocked = false)
    (once : ∀ action ∈ during, ∀ op' : SimpleOp sexpr, action ≠ .start thread op')
    (still : ∀ msg state, IsQuestion msg → (server.run msg state).1 = state) :
    ∃ front back moment, during = front ++ back ∧
      exec State.step start (.start thread op :: front) = some moment ∧
        ∀ receipt ∈ s.received.drop start.received.length, receipt.thread = thread →
          receipt.answer.text = (server.run receipt.answer.answers.text moment.caughtUp.1).2 := by
  -- The same run with a server that is called directly.
  have alone := meets_append.mp (@State.alone_of_locked _ server _ space node _ locked)
  have settled : (State.initial space node : State (simpleClient sexpr own) server).Settled
      SimpleOp.unlocked := by apply State.settled_initial
  have settled' : start.Settled SimpleOp.unlocked := alone.1.invariant (State.Settled SimpleOp.unlocked)
    (fun alone settled taken => settled.step (orderly_prog own) alone taken) settled called
  obtain ⟨d, direct, agrees⟩ := State.Agrees.exists_of_run (orderly_prog own) alone.1 called
  obtain ⟨e, directly, agrees'⟩ := agrees.exec settled' (orderly_prog own) (alone.2 start called) run
  have starts : ∀ action ∈ before ++ .start thread op :: during, Direct.Starts action := by
    rintro action member other op' rfl
    have guarded := guarded_prog own op'
    rwa [locked _ member other op' rfl] at guarded
  have guarded : d.Guarded := by
    refine Direct.Guarded.exec (Direct.guarded_initial space node) (fun action member => ?_) direct
    exact starts action (List.mem_append_left _ (List.mem_of_mem_filter member))
  obtain ⟨next, locks, asks⟩ := asks_prog own fetches
  have kept : (Action.start thread op :: during).filter Action.ofThreads =
      .start thread op :: during.filter Action.ofThreads := rfl
  rw [kept] at directly
  obtain ⟨first, taken, rest⟩ := exec_cons_eq_some.mp directly
  have waiting : first.Waiting IsQuestion thread ∧ first.heard = d.heard := by
    simp only [Direct.step, Direct.start] at taken
    split at taken
    · cases taken
      exact ⟨⟨op, next, by rw [Direct.setThread_self, locks], asks⟩, rfl⟩
    · cases taken
  obtain ⟨front, back, last, split, reached, more, heard, good⟩ := waiting.1.exec
    (guarded.step (starts _ (List.mem_append_right _ List.mem_cons_self)) taken) still
    (fun action member => starts action
      (List.mem_append_right _ (List.mem_cons_of_mem _ (List.mem_of_mem_filter member))))
    (fun action member => once action (List.mem_of_mem_filter member)) rest
  -- The moment in the run with the real server.
  obtain ⟨front, back, rfl, rfl, rfl⟩ := List.filter_eq_append_iff.mp split
  rw [← List.cons_append] at run alone
  obtain ⟨moment, passed, -⟩ := exec_append_eq_some.mp run
  obtain ⟨e', also, agrees''⟩ := agrees.exec settled' (orderly_prog own)
    (meets_append.mp (alone.2 start called)).1 passed
  have same : last = e' := by
    have there : exec Direct.step d (.start thread op :: front.filter Action.ofThreads) = some last :=
      exec_cons_eq_some.mpr ⟨first, taken, reached⟩
    exact Option.some.inj (there.symm.trans also)
  refine ⟨front, back, moment, rfl, passed, fun receipt member mine => ?_⟩
  have read : receipt.heard ∈ more := by
    have inside : receipt.heard ∈ (s.received.drop start.received.length).map Receipt.heard :=
      List.mem_map_of_mem member
    rwa [List.map_drop, ← agrees'.heard, heard, waiting.2, agrees.heard, ← List.length_map Receipt.heard,
      List.drop_left] at inside
  rw [← agrees''.space, ← same]
  exact good receipt.heard read mine

section Runs

/-- A server that has no Atoms, and counts the messages that are no questions. -/
def Server.writes : Server :=
  ⟨Nat, fun text count =>
    if questions.any (fun start => start.isPrefixOf text) then (count, bytes "()\n") else (count + 1, [])⟩

theorem Server.writes_question {msg : Str} (question : IsQuestion msg) (count : Nat) :
    (Server.writes.run msg count).1 = count := by
  obtain ⟨start, member, starts⟩ := question
  have asked : questions.any (fun start => start.isPrefixOf msg) = true :=
    List.any_eq_true.mpr ⟨start, member, List.isPrefixOf_iff_prefix.mpr starts⟩
  simp only [Server.writes, asked, if_true]

/-- It has counted five. -/
def five : State (simpleClient plainFrames none) Server.writes :=
  .initial (5 : Nat) ⟨Memory.empty (), false, []⟩

/-- `loadAtomSpace` -/
def loadAll : SimpleOp plainFrames := .loadAtomSpace 0

/-- A store is called during `loadAtomSpace`; its message is sent after the last reply. -/
def storeDuringLoad : List (Action (simpleClient plainFrames none)) :=
  [.start 1 (.storeAtom ⟨.node .concept (bytes "a"), .loose 0⟩), .advance 0, .advance 0, .advance 1,
    .advance 1, .serve, .advance 0, .advance 0, .serve, .advance 0, .advance 0, .advance 1, .advance 1,
    .serve]

theorem fetch_is_snapshot_store : ∃ s : State (simpleClient plainFrames none) Server.writes,
    exec State.step five (.start 0 loadAll :: storeDuringLoad) = some s ∧
      s.received.length = 2 ∧ s.space = (6 : Nat) ∧ ∃ state : Nat, ∀ receipt ∈ s.received,
        receipt.answer.text = (Server.writes.run receipt.answer.answers.text state).2 := by
  obtain ⟨s, run, two, six, mine⟩ : ∃ s : State (simpleClient plainFrames none) Server.writes,
      exec State.step five (.start 0 loadAll :: storeDuringLoad) = some s ∧ s.received.length = 2 ∧
        s.space = (6 : Nat) ∧ (s.received.all fun receipt => receipt.thread = 0) = true :=
    ⟨_, rfl, rfl, rfl, rfl⟩
  have locked : ∀ action ∈ [] ++ .start 0 loadAll :: storeDuringLoad,
      ∀ other (op : SimpleOp plainFrames), action = .start other op → op.unlocked = false := by
    simp [storeDuringLoad, loadAll, SimpleOp.unlocked]
  have once : ∀ action ∈ storeDuringLoad, ∀ op : SimpleOp plainFrames, action ≠ .start 0 op := by
    simp [storeDuringLoad]
  obtain ⟨-, -, moment, -, -, good⟩ := fetch_is_snapshot rfl run rfl locked once
    fun msg count question => Server.writes_question question count
  refine ⟨s, run, two, six, moment.caughtUp.1, fun receipt member => good receipt member ?_⟩
  exact of_decide_eq_true (List.all_eq_true.mp mine receipt member)

end Runs

end AtomSpaceCog.Simple
