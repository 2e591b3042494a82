import AtomSpaceCog.Simple.Pairing

/-! # What the mutex guards

No operation takes `_mtx` twice, and all but `proxy_open`, `proxy_close` and `close` send only
while they hold it (`guarded_prog`).
-/

namespace AtomSpaceCog.Simple

section Programs

variable {Local : Type}

/-- What the next step of an operation may leave of it. -/
inductive Prog.Rest : Prog Local → Prog Local → Prop where
  | touch {change next} (locals) : Rest (next locals) (.touch change next)
  | connected {next} (isOpen) : Rest (next isOpen) (.connected next)
  | lock {next} : Rest next (.lock next)
  | unlock {next} : Rest next (.unlock next)
  | send {msg next} : Rest next (.send msg next)
  | recv {next} (reply) : Rest (next reply) (.recv next)
  | closeSocket {next} : Rest next (.closeSocket next)
  | clearSocket {next} : Rest next (.clearSocket next)

/-- The mutex is not taken by an operation that holds it and, unless the operation is free to do
without, every message is sent under it and the socket is left open. -/
def Prog.Guarded (free : Bool) : Prog Local → (held : Bool) → Prop
  | .exit _, _ | .stuck, _ => True
  | .touch _ next, held => ∀ locals, (next locals).Guarded free held
  | .connected next, held => ∀ isOpen, (next isOpen).Guarded free held
  | .lock next, held => held = false ∧ next.Guarded free true
  | .unlock next, _ => next.Guarded free false
  | .send _ next, held => (free = true ∨ held = true) ∧ next.Guarded free held
  | .recv next, held => ∀ reply, (next reply).Guarded free held
  | .closeSocket next, held | .clearSocket next, held => free = true ∧ next.Guarded free held

/-- A step of an operation that holds the mutex or does not, and what it leaves of both. -/
inductive Prog.Turn : Prog Local → Bool → Prog Local → Bool → Prop where
  | lock {next held} : Turn (.lock next) held next true
  | unlock {next held} : Turn (.unlock next) held next false
  | other {prog next held} (rest : Rest next prog)
      (guarded : ∀ free, prog.Guarded free held → next.Guarded free held) : Turn prog held next held

theorem Prog.Turn.rest {prog next : Prog Local} {held after : Bool}
    (turn : prog.Turn held next after) : Rest next prog := by
  cases turn with
  | lock => exact .lock
  | unlock => exact .unlock
  | other rest => exact rest

theorem Prog.Turn.guarded {prog next : Prog Local} {free held after : Bool}
    (turn : prog.Turn held next after) (guarded : prog.Guarded free held) : next.Guarded free after := by
  cases turn with
  | lock => exact guarded.2
  | unlock => exact guarded
  | other rest keeps => exact keeps _ guarded

end Programs

section Operations

open CogSimpleStorage

variable {sexpr : FrameSexpr} {free held : Bool} {next : SimpleProg sexpr}

theorem guarded_decode (guarded : next.Guarded free held) (work : CogWork sexpr.toSexpr) :
    (decode next work).Guarded free held := by
  induction work with
  | done => exact guarded
  | insert request rest ih => exact ih
  | touch change rest ih => exact fun node => ih node.memory
  | stuck => trivial

theorem guarded_tell {msg : Str} (guarded : next.Guarded free false) : (tell msg next).Guarded free false :=
  ⟨rfl, Or.inr rfl, guarded⟩

theorem guarded_ask {msg : Str} {next : Str → SimpleProg sexpr}
    (guarded : ∀ reply, (next reply).Guarded free false) : (ask msg next).Guarded free false :=
  ⟨rfl, Or.inr rfl, guarded⟩

theorem guarded_cacheFrame {hasp : SpaceId} (guarded : next.Guarded free held) :
    (cacheFrame hasp next).Guarded free held := by
  intro node
  dsimp only
  induction (node.memory.bases hasp).reverse ++ [hasp] with
  | nil => exact guarded
  | cons frame frames ih => exact fun _ => ih

theorem guarded_writeFrame {hasp : Option SpaceId} (guarded : next.Guarded free false) :
    (writeFrame hasp next).Guarded free false := by
  cases hasp with
  | none => trivial
  | some hasp =>
      intro node
      dsimp only
      split
      · exact guarded
      · exact fun _ => guarded_tell (guarded_cacheFrame guarded)

theorem guarded_tellFrame {several : Bool} {h : Handle sexpr.toSexpr}
    (guarded : next.Guarded free false) : (tellFrame several h next).Guarded free false := by
  intro node
  dsimp only
  split
  · exact guarded_writeFrame guarded
  · exact guarded

theorem guarded_storeAtom {own : Option SpaceId} {h : Handle sexpr.toSexpr}
    (guarded : next.Guarded free false) : (storeAtom own h next).Guarded free false := by
  refine guarded_tellFrame fun node => ?_
  dsimp only
  split <;> exact guarded_tell guarded

theorem guarded_atomListLoop {table : SpaceId} {expr : Str} {finish fuel l r : Nat}
    (guarded : next.Guarded free true) :
    (CogSimpleStorage.atomListLoop table expr finish next fuel l r).Guarded free true := by
  induction fuel generalizing l r with
  | zero => trivial
  | succ fuel ih =>
      unfold CogSimpleStorage.atomListLoop
      split
      · trivial
      · split
        · exact guarded
        · split
          · exact guarded
          · intro node
            dsimp only
            split
            · trivial
            · exact ⟨Or.inr rfl, fun reply => guarded_decode ih _⟩

theorem guarded_sendAtomList {msg : Str} {table : SpaceId} (guarded : next.Guarded free true) :
    (sendAtomList msg table next).Guarded free true := by
  refine ⟨Or.inr rfl, fun expr => ?_⟩
  dsimp only
  split
  · exact guarded
  · exact guarded_atomListLoop guarded

/-- No operation takes the mutex while it holds it, and those under the lock send under it. -/
theorem guarded_prog (own : Option SpaceId) (op : SimpleOp sexpr) :
    (prog own op).Guarded op.unlocked false := by
  have ended : ∀ free held : Bool, (Prog.exit .returned : SimpleProg sexpr).Guarded free held :=
    fun _ _ => trivial
  have unlocked : ∀ free : Bool, (Prog.unlock (.exit .returned) : SimpleProg sexpr).Guarded free true :=
    fun _ => trivial
  cases op with
  | setProxy h => exact guarded_storeAtom (guarded_ask fun _ => trivial)
  | storeAtom h => exact guarded_storeAtom trivial
  | storeValue | updateValue => exact guarded_tellFrame fun _ => guarded_tell trivial
  | loadValue h key => exact ⟨rfl, Or.inr rfl, fun _ => guarded_decode (unlocked _) _⟩
  | removeAtom => exact guarded_ask fun _ => trivial
  | getAtom h =>
      refine ⟨rfl, Or.inr rfl, fun msg => ?_⟩
      dsimp only
      split
      · trivial
      · exact ⟨Or.inr rfl, fun _ => guarded_decode (unlocked _) _⟩
  | fetchIncomingSet | fetchIncomingByType | loadType =>
      exact ⟨rfl, guarded_sendAtomList (unlocked _)⟩
  | loadAtomSpace => exact ⟨rfl, guarded_sendAtomList (guarded_sendAtomList (unlocked _))⟩
  | storeAtomSpace table =>
      intro node
      dsimp only
      induction node.memory.handles table with
      | nil => trivial
      | cons h handles ih => exact guarded_storeAtom ih
  | killData => exact ⟨rfl, Or.inr rfl, fun _ _ _ => trivial⟩
  | runQuery => exact guarded_ask fun _ => guarded_decode (ended _ _) _
  | storeFrameDAG => exact guarded_writeFrame fun _ => trivial
  | loadFrameDAG =>
      refine fun _ => ⟨rfl, Or.inr rfl, fun rply => ?_⟩
      dsimp only
      split
      · trivial
      · intro node
        dsimp only
        split <;> trivial
  | barrier => exact guarded_tell trivial
  | proxyOpen => exact ⟨Or.inl rfl, fun _ => trivial⟩
  | proxyClose => exact guarded_tell ⟨Or.inl rfl, fun _ => trivial⟩
  | close =>
      intro isOpen
      cases isOpen
      · exact ⟨rfl, trivial⟩
      · exact guarded_tell ⟨Or.inl rfl, fun _ => ⟨rfl, rfl, trivial⟩⟩

end Operations

section Machine

variable {client : Client} {server : Server}

/-- What a step does to the threads, to the mutex and to what the server has to execute. -/
inductive Strides (s : State client server) (action : Action client) (next : State client server) :
    Prop where
  | start {thread op} (begins : action = .start thread op) (here : s.thread thread = .idle)
      (threads : next.thread = Function.update s.thread thread (.running op none (client.prog op)))
      (holder : next.holder = s.holder) (inbox : next.inbox = s.inbox)
  | edit {change} (edits : action = .edit change) (threads : next.thread = s.thread)
      (holder : next.holder = s.holder) (inbox : next.inbox = s.inbox)
  | serve {sent} (first : s.inbox = sent :: next.inbox) (threads : next.thread = s.thread)
      (holder : next.holder = s.holder)
  | leave {thread op latest prog} (here : s.thread thread = .running op latest prog)
      (threads : next.thread = Function.update s.thread thread .idle)
      (holder : next.holder = s.released thread) (inbox : next.inbox = s.inbox)
  | turn {thread op latest prog later rest others} (here : s.thread thread = .running op latest prog)
      (threads : next.thread = Function.update s.thread thread (.running op later rest))
      (own : prog.Turn (decide (s.holder = some thread)) rest (decide (next.holder = some thread)))
      (holder : ∀ other ≠ thread, (next.holder = some other ↔ s.holder = some other))
      (inbox : next.inbox = s.inbox ++ others)

variable {s next : State client server} {action : Action client}

theorem strides_of_step (taken : s.step action = some next) : Strides s action next := by
  cases action with
  | start thread op =>
      simp only [State.step, State.start] at taken
      split at taken
      · next here => exact Option.some.inj taken ▸ .start rfl here rfl rfl rfl
      · cases taken
  | edit change => exact Option.some.inj taken ▸ .edit rfl rfl rfl rfl
  | serve =>
      simp only [State.step, State.serve] at taken
      split at taken
      · cases taken
      · next first => exact Option.some.inj taken ▸ .serve first rfl rfl
  | hangUp thread =>
      simp only [State.step, State.hangUp] at taken
      split at taken
      · next here => exact Option.some.inj taken ▸ .leave here rfl rfl rfl
      · cases taken
  | throw thread =>
      simp only [State.step, State.throw] at taken
      split at taken
      · next here => exact Option.some.inj taken ▸ .leave here rfl rfl rfl
      · cases taken
  | advance thread =>
      -- A step that leaves the mutex as it is.
      have other : ∀ {after : State client server} {op latest prog later rest others},
          s.thread thread = .running op latest prog →
          after.thread = Function.update s.thread thread (.running op later rest) →
          after.holder = s.holder → Prog.Rest rest prog →
          (∀ free held, prog.Guarded free held → rest.Guarded free held) →
          after.inbox = s.inbox ++ others → Strides s (.advance thread) after := by
        intro after op latest prog later rest others here threads holder left guarded inbox
        exact .turn here threads (holder ▸ .other left fun free => guarded free _) (fun _ _ => by rw [holder]) inbox
      have none : s.inbox = s.inbox ++ [] := (List.append_nil _).symm
      simp only [State.step, State.advance] at taken
      split at taken
      · cases taken
      · next op latest prog here =>
          cases prog with
          | exit how => exact Option.some.inj taken ▸ .leave here rfl rfl rfl
          | touch change rest =>
              exact Option.some.inj taken ▸
                other here rfl rfl (.touch _) (fun _ _ guarded => guarded _) none
          | connected rest =>
              exact Option.some.inj taken ▸
                other here rfl rfl (.connected _) (fun _ _ guarded => guarded _) none
          | lock rest =>
              dsimp only at taken
              split at taken
              · next unlocked =>
                  refine Option.some.inj taken ▸ .turn here rfl ?_ (fun other different => ?_) none
                  · simpa [State.setThread] using Prog.Turn.lock
                  · simp [State.setThread, unlocked, different.symm]
              · cases taken
          | unlock rest =>
              refine Option.some.inj taken ▸ .turn here rfl ?_ (fun other different => ?_) none
              · simpa [State.setThread, s.released_ne thread] using Prog.Turn.unlock
              · exact s.released_iff different
          | send msg rest =>
              dsimp only at taken
              split at taken
              · exact Option.some.inj taken ▸
                  other here rfl rfl .send (fun _ _ guarded => guarded.2) rfl
              · exact Option.some.inj taken ▸ .leave here rfl rfl rfl
          | recv rest =>
              dsimp only at taken
              split at taken
              · cases taken
              · exact Option.some.inj taken ▸
                  other here rfl rfl (.recv _) (fun _ _ guarded => guarded _) none
          | closeSocket rest =>
              exact Option.some.inj taken ▸
                other here rfl rfl .closeSocket (fun _ _ guarded => guarded.2) none
          | clearSocket rest =>
              exact Option.some.inj taken ▸
                other here rfl rfl .clearSocket (fun _ _ guarded => guarded.2) none
          | stuck => cases taken

variable {free : client.Op → Bool}

namespace State

/-- No thread is about to take the mutex while it holds it. -/
def Guarded (free : client.Op → Bool) (s : State client server) : Prop :=
  ∀ thread op latest prog, s.thread thread = .running op latest prog →
    prog.Guarded (free op) (decide (s.holder = some thread))

theorem Guarded.step (guarded : s.Guarded free) (mannered : s.Mannered free)
    (progs : ∀ op, (client.prog op).Guarded (free op) false) (taken : s.step action = some next) :
    next.Guarded free := by
  have moved : ∀ {thread : ThreadId} {status : Status client},
      next.thread = Function.update s.thread thread status →
      (∀ other ≠ thread, (next.holder = some other ↔ s.holder = some other)) →
      (∀ op latest prog, status = .running op latest prog →
        prog.Guarded (free op) (decide (next.holder = some thread))) → next.Guarded free := by
    intro thread status threads holder own other op latest prog there
    rw [threads] at there
    by_cases same : other = thread
    · subst same
      exact own op latest prog (by rwa [Function.update_self] at there)
    · rw [Function.update_of_ne same] at there
      rw [decide_eq_decide.mpr (holder other same)]
      exact guarded other op latest prog there
  cases strides_of_step taken with
  | @start thread op begins here threads holder inbox =>
      refine moved threads (fun _ _ => by rw [holder]) fun begun latest prog same => ?_
      obtain ⟨rfl, rfl, rfl⟩ := Status.running.inj same
      have own := mannered thread
      rw [here] at own
      rw [holder, show decide (s.holder = some thread) = false from own]
      exact progs _
  | edit edits threads holder | serve first threads holder =>
      intro other op latest prog there
      rw [holder]
      exact guarded other op latest prog (threads ▸ there)
  | @leave thread op latest prog here threads holder inbox =>
      refine moved threads (fun other different => ?_) fun _ _ _ same => by cases same
      rw [holder]
      exact s.released_iff different
  | turn here threads own holder inbox =>
      refine moved threads holder fun begun latest prog same => ?_
      obtain ⟨rfl, rfl, rfl⟩ := Status.running.inj same
      exact own.guarded (guarded _ _ _ _ here)

end State

end Machine

end AtomSpaceCog.Simple
