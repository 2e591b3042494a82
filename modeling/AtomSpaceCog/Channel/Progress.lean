import AtomSpaceCog.Channel.Line

/-! # Nothing waits for ever

A worker waits only for a reply that it is owed, a socket is held only at a block, and a
barrier that has not returned has its thread in it (`Config.Tended`). So when nothing can go on
any more, nothing is left to do: no element is pending, on its way or being handled, and every
operation has ended (`Config.atRest_of_still`), provided that barriers hand out their blocks one
at a time.
-/

namespace AtomSpaceCog

open Transition

variable {S : Setting}

/-- Neither the start of an operation nor a change by the program. -/
def Action.carriesOn : Action S → Bool
  | .start _ _ | .edit _ => false
  | _ => true

namespace Config

/-- The sockets that are held and the barriers that are under way. -/
structure Tended (s : Config S) : Prop where
  held : ∀ sock, s.held sock = true → ∃ id number rest, s.inbox sock = .block id number :: rest
  manned : ∀ number < s.fences, (s.fence number).returned = none →
    ∃ thread, (s.caller thread).fence = some number

theorem tended_initial (counter : UInt64) (space : S.Space) (locals : S.Local) :
    (Config.initial counter space locals).Tended where
  held _ held := by cases held
  manned _ used := absurd used (Nat.not_lt_zero _)

variable {s next : Config S} {action : Action S}

namespace Tended

/-- What is put behind the block of a held socket. -/
theorem held_push (tended : s.Tended) {sock : SockId} {wire : Wire S.toSignature} {other : SockId}
    (held : s.held other = true) : ∃ id number rest,
      Function.update s.inbox sock (s.inbox sock ++ [wire]) other = .block id number :: rest := by
  obtain ⟨id, number, rest, first⟩ := tended.held other held
  by_cases same : other = sock
  · subst same
    exact ⟨id, number, rest ++ [wire], by rw [Function.update_self, first, List.cons_append]⟩
  · exact ⟨id, number, rest, by rw [Function.update_of_ne same, first]⟩

/-- A socket that is not held is served. -/
theorem held_serve (tended : s.Tended) {sock : SockId} (free : s.held sock = false)
    {rest : List (Wire S.toSignature)} {other : SockId} (held : s.held other = true) :
    ∃ id number behind, Function.update s.inbox sock rest other = .block id number :: behind := by
  have different : other ≠ sock := by
    rintro rfl
    rw [free] at held
    cases held
  rw [Function.update_of_ne different]
  exact tended.held other held

/-- A thread that is in no barrier moves. -/
theorem manned_move (tended : s.Tended) {thread : ThreadId} {before caller : Caller S}
    (here : s.caller thread = before) (outside : before.fence = none) :
    ∀ number < s.fences, (s.fence number).returned = none →
      ∃ other, (Function.update s.caller thread caller other).fence = some number := by
  intro number used pending
  obtain ⟨other, within⟩ := tended.manned number used pending
  have different : other ≠ thread := by
    rintro rfl
    rw [here, outside] at within
    cases within
  exact ⟨other, by rwa [Function.update_of_ne different]⟩

theorem step (tended : s.Tended) (taken : s.step action = some next) : next.Tended := by
  cases moves_of_step taken with
  | edit | take | receive | rest | workInsert | workTouch => exact ⟨tended.held, tended.manned⟩
  | start here | exit here | connected here | read here | enqueue here | closeConnection here
  | answer here => exact ⟨tended.held, tended.manned_move here rfl⟩
  | ask here => exact ⟨fun _ held => tended.held_push held, tended.manned_move here rfl⟩
  | send => exact ⟨fun _ held => tended.held_push held, tended.manned⟩
  | serve free | serveSynchro free => exact ⟨fun _ held => tended.held_serve free held, tended.manned⟩
  | @arrive sock id number rest first free =>
      refine ⟨fun other held => ?_, tended.manned⟩
      by_cases same : other = sock
      · exact ⟨id, number, rest, same ▸ first⟩
      · dsimp only at held
        rw [Function.update_of_ne same] at held
        exact tended.held other held
  | @release id socks distinct enough reached =>
      refine ⟨fun other held => ?_, tended.manned⟩
      dsimp only at held ⊢
      split at held
      · cases held
      · next kept =>
          rw [if_neg kept]
          exact tended.held other held
  | @block worker number =>
      refine ⟨fun _ held => tended.held_push held, fun other used pending => tended.manned other used ?_⟩
      by_cases own : other = number
      · subst own
        simpa [setFence] using pending
      · simpa [setFence, push, own] using pending
  | @drain thread op since number =>
      refine ⟨tended.held, fun other used pending => tended.manned other used ?_⟩
      by_cases own : other = number
      · subst own
        simpa [setFence] using pending
      · simpa [setFence, own] using pending
  | @barrier thread id op since rest here =>
      refine ⟨tended.held, fun other used pending => ?_⟩
      by_cases new : other = s.fences
      · refine ⟨thread, ?_⟩
        simp [setCaller, Caller.fence, new]
      · have old : other < s.fences := Nat.lt_of_le_of_ne (Nat.le_of_lt_succ used) new
        refine tended.manned_move here rfl other old ?_
        simpa [setFence, setCaller, new] using pending
  | @finish thread op since number rest here =>
      refine ⟨tended.held, fun other used pending => ?_⟩
      have different : other ≠ number := by
        rintro rfl
        simp [setFence, setCaller] at pending
      obtain ⟨owner, within⟩ := tended.manned other used
        (by simpa [setFence, setCaller, different] using pending)
      refine ⟨owner, ?_⟩
      have away : owner ≠ thread := by
        rintro rfl
        rw [here] at within
        exact different (Option.some.inj within).symm
      simpa [setFence, setCaller, away] using within

end Tended

/-- What is known of a state that is reached with one barrier handing out its block at a time. -/
structure Orderly (s : Config S) : Prop where
  regular : s.Regular
  tended : s.Tended
  lined : ∃ line, s.Lined line

theorem orderly_initial (counter : UInt64) (space : S.Space) (locals : S.Local) :
    (Config.initial counter space locals).Orderly where
  regular := regular_initial counter space locals
  tended := tended_initial counter space locals
  lined := ⟨[], lined_initial counter space locals⟩

theorem Orderly.step (orderly : s.Orderly) (exclusive : s.Exclusive action)
    (taken : s.step action = some next) : next.Orderly where
  regular := orderly.regular.step taken
  tended := orderly.tended.step taken
  lined := by
    obtain ⟨line, lined⟩ := orderly.lined
    exact lined.step orderly.regular exclusive taken

theorem Orderly.exec (orderly : s.Orderly) {actions : List (Action S)}
    (exclusive : Meets Config.step Exclusive s actions)
    (run : Transition.exec Config.step s actions = some next) : next.Orderly :=
  exclusive.invariant Orderly (fun exclusive orderly taken => orderly.step exclusive taken) orderly run

/-- All operations have ended, and nothing is left to do for a worker or the server. -/
structure AtRest (s : Config S) : Prop where
  callers : ∀ thread, s.caller thread = .idle
  pending : s.pending = []
  workers : ∀ worker, s.worker worker = .idle
  inbox : ∀ sock, s.inbox sock = []

/-- The message of every call was executed. -/
theorem AtRest.executed (rest : s.AtRest) (synced : s.Synced) :
    ∀ call ∈ s.calls, ∃ entry ∈ s.executed, entry.tag = call.entry ∧
      entry.value.strToSend = call.msg.strToSend := by
  intro call member
  have dead : ¬ s.Live call.entry := by
    rintro (⟨entry, pending, -⟩ | ⟨worker, holds⟩)
    · rw [rest.pending] at pending
      exact List.not_mem_nil pending
    · rw [rest.workers worker] at holds
      cases holds
  obtain ⟨entry, sent, tagged, -⟩ := synced.census.handed_of_dead member dead
  have ran : entry ∈ s.executed := by
    refine (synced.wired.handed entry sent).resolve_right ?_
    rintro ⟨sock, travels⟩
    rw [rest.inbox sock] at travels
    exact List.not_mem_nil travels
  exact ⟨entry, ran, tagged, synced.text_eq member ran tagged⟩

/-- Nothing goes on: only an operation may be called, or the program change its state. -/
def Still (s : Config S) : Prop :=
  ∀ action : Action S, action.carriesOn = true → s.Exclusive action → s.step action = none

/-- Where nothing is on a socket, nothing is owed. -/
theorem owed_nil {sock : SockId} (empty : s.inbox sock = []) (read : s.outbox sock = []) :
    s.owed sock = [] := by
  rw [owed, empty, read]
  rfl

namespace Still

/-- No worker is in the middle of its work. -/
theorem worker (still : s.Still) (plain : ∀ worker entry request rest,
      s.worker worker = .running entry (.insert request rest) → isBarrier request.text = false)
    (fine : ∀ worker entry, s.worker worker ≠ .running entry .stuck) (worker : WorkerId) :
    s.worker worker = .idle ∨
      ∃ entry, s.worker worker = .waiting entry ∧ s.outbox (.worker worker) = [] := by
  have sends : s.send worker = none := still (.send worker) rfl fun _ no => by cases no
  have works : s.work worker = none := still (.work worker) rfl fun _ no => by cases no
  have receives : s.receive worker = none := still (.receive worker) rfl fun _ no => by cases no
  unfold send at sends
  unfold work at works
  unfold receive at receives
  cases here : s.worker worker with
  | idle => exact Or.inl rfl
  | sending entry =>
      rw [here] at sends
      cases sends
  | waiting entry =>
      refine Or.inr ⟨entry, rfl, ?_⟩
      rw [here] at receives
      cases arrived : s.outbox (.worker worker) with
      | nil => rfl
      | cons reply replies =>
          rw [arrived] at receives
          cases receives
  | running entry rest =>
      rw [here] at works
      cases rest with
      | done => cases works
      | insert request rest =>
          dsimp only at works
          rw [if_pos (plain worker entry request rest here)] at works
          cases works
      | touch change rest => cases works
      | stuck => exact absurd here (fine worker entry)

/-- A socket with something on it is held at a block. -/
theorem inbox (still : s.Still) (tended : s.Tended) (sock : SockId) : s.inbox sock = [] ∨
    s.held sock = true ∧ ∃ id number rest, s.inbox sock = .block id number :: rest := by
  have serves : s.serve sock = none := still (.serve sock) rfl fun _ no => by cases no
  have arrives : s.arrive sock = none := still (.arrive sock) rfl fun _ no => by cases no
  unfold serve at serves
  unfold arrive at arrives
  cases held : s.held sock with
  | true => exact Or.inr ⟨rfl, tended.held sock held⟩
  | false =>
      rw [held] at serves arrives
      left
      cases first : s.inbox sock with
      | nil => rfl
      | cons wire rest =>
          rw [first] at serves arrives
          cases wire with
          | request | synchro => cases serves
          | block => cases arrives

/-- The server has passed all barriers. -/
theorem line (still : s.Still) (orderly : s.Orderly) (workers : ∀ worker, s.worker worker = .idle ∨
      ∃ entry, s.worker worker = .waiting entry ∧ s.outbox (.worker worker) = [])
    {line : List Nat} (lined : s.Lined line) : line = [] := by
  cases line with
  | nil => rfl
  | cons number rest =>
      exfalso
      obtain ⟨used, drained⟩ := lined.drained number List.mem_cons_self
      by_cases ran : ∀ worker, (s.fence number).ran worker = true
      · -- All sockets are held at its block, so the server passes it.
        have reached : ∀ worker, s.HeldAt (s.fence number).id (.worker worker) := by
          intro worker
          have first := lined.blocks worker
          rw [List.filter_cons_of_pos (by exact ran worker)] at first
          rcases still.inbox orderly.tended (.worker worker) with empty | ⟨held, id, other, behind, there⟩
          · rw [Config.blocks, empty] at first
            cases first
          · rw [Config.blocks, there] at first
            obtain rfl : other = number := (List.cons.inj first).1
            have own := (orderly.regular.synced.wired.block _ id other (by rw [there]; simp)).2.1
            refine ⟨held, ?_⟩
            rw [there]
            exact own
        have all : ∀ sock ∈ ((List.finRange nthreads).map .worker : List SockId),
            s.HeldAt (s.fence number).id sock := by
          intro sock member
          obtain ⟨worker, -, rfl⟩ := List.mem_map.mp member
          exact reached worker
        have releases : s.release (s.fence number).id ((List.finRange nthreads).map .worker) = none :=
          still (.release _ _) rfl fun _ no => by cases no
        unfold release at releases
        rw [if_pos ⟨by decide, rfl, all⟩] at releases
        cases releases
      · -- A worker that has not run its block is idle, and runs it.
        push Not at ran
        obtain ⟨worker, notRan⟩ := ran
        rw [ne_eq, Bool.not_eq_true] at notRan
        obtain rfl := lined.eq_nil notRan
        have none := lined.blocks worker
        rw [List.filter_cons_of_neg (by rw [notRan]; exact Bool.false_ne_true)] at none
        have empty : s.inbox (.worker worker) = [] := by
          refine (still.inbox orderly.tended (.worker worker)).resolve_right ?_
          rintro ⟨-, id, other, behind, there⟩
          rw [Config.blocks, there] at none
          cases none
        rcases workers worker with idle | ⟨entry, waits, read⟩
        · have blocks : s.block worker number = Option.none :=
            still (.block worker number) rfl fun _ no => by cases no
          unfold block at blocks
          rw [idle] at blocks
          dsimp only at blocks
          rw [if_pos ⟨used, drained, notRan⟩] at blocks
          cases blocks
        · have owed := orderly.regular.paired.waiting waits
          rw [owed_nil empty read] at owed
          cases owed

/-- Nothing is left for a worker or the server. -/
theorem workers_idle (still : s.Still) (orderly : s.Orderly)
    (plain : ∀ worker entry request rest,
      s.worker worker = .running entry (.insert request rest) → isBarrier request.text = false)
    (fine : ∀ worker entry, s.worker worker ≠ .running entry .stuck) :
    (∀ sock, s.inbox sock = []) ∧ ¬ s.Blocking ∧ s.pending = [] ∧
      ∀ worker, s.worker worker = .idle := by
  have paused := still.worker plain fine
  obtain ⟨line, lined⟩ := orderly.lined
  obtain rfl := still.line orderly paused lined
  have inbox : ∀ sock, s.inbox sock = [] := by
    intro sock
    refine (still.inbox orderly.tended sock).resolve_right ?_
    rintro ⟨-, id, number, rest, first⟩
    obtain ⟨-, -, worker, rfl, -⟩ :=
      orderly.regular.synced.wired.block sock id number (by rw [first]; simp)
    have none := lined.blocks worker
    rw [Config.blocks, first] at none
    cases none
  have free : ¬ s.Blocking := by
    rintro ⟨number, used, drained, worker, notRan⟩
    cases lined.last number used drained worker notRan
  have workers : ∀ worker, s.worker worker = .idle := by
    intro worker
    rcases paused worker with idle | ⟨entry, waits, read⟩
    · exact idle
    · have owed := orderly.regular.paired.waiting waits
      rw [owed_nil (inbox _) read] at owed
      cases owed
  refine ⟨inbox, free, ?_, workers⟩
  by_contra some
  obtain ⟨entry, rest, pending⟩ := List.exists_cons_of_ne_nil some
  have takes : s.take 0 entry.tag = none := still (.take 0 entry.tag) rfl fun _ no => by cases no
  unfold take at takes
  rw [workers 0, pending, List.find?_cons_of_pos (by simp)] at takes
  dsimp only at takes
  rw [if_neg free] at takes
  cases takes

/-- A thread is in no barrier. -/
theorem not_fencing (still : s.Still) (orderly : s.Orderly) (free : ¬ s.Blocking)
    (pending : s.pending = []) (workers : ∀ worker, s.worker worker = .idle) (thread : ThreadId) :
    (s.caller thread).fence = none := by
  have drains : s.drain thread = none := still (.drain thread) rfl fun _ _ => free
  have finishes : s.finish thread = none := still (.finish thread) rfl fun _ no => by cases no
  unfold drain at drains
  unfold finish at finishes
  cases here : s.caller thread with
  | fencing op since number next =>
      exfalso
      rw [here] at drains finishes
      dsimp only at drains finishes
      obtain ⟨used, -⟩ := orderly.regular.owned.running thread number (by rw [here]; rfl)
      cases drained : (s.fence number).drained with
      | none =>
          have dead : ∀ number, ¬ s.Live number := by
            rintro number (⟨entry, member, -⟩ | ⟨worker, holds⟩)
            · rw [pending] at member
              exact List.not_mem_nil member
            · rw [workers worker] at holds
              cases holds
          rw [if_pos ⟨drained, fun _ _ _ => dead _⟩] at drains
          cases drains
      | some time =>
          have ran : ∀ worker, (s.fence number).ran worker = true := by
            intro worker
            by_contra notRan
            refine free ⟨number, used, by rw [drained]; rfl, worker, ?_⟩
            exact Bool.eq_false_of_not_eq_true notRan
          rw [if_pos ⟨by rw [drained]; rfl, ran⟩] at finishes
          cases finishes
  | _ => rfl

end Still

/-- When nothing goes on, nothing is left to do. -/
theorem atRest_of_still (orderly : s.Orderly) (still : s.Still) (opened : s.isOpen = true)
    (plain : ∀ worker entry request rest,
      s.worker worker = .running entry (.insert request rest) → isBarrier request.text = false)
    (requests : ∀ thread op since request rest,
      s.caller thread = .running op since (.enqueue request rest) → isBarrier request.text = false)
    (fine : ∀ worker entry, s.worker worker ≠ .running entry .stuck) : s.AtRest := by
  obtain ⟨inbox, free, pending, workers⟩ := still.workers_idle orderly plain fine
  refine ⟨fun thread => ?_, pending, workers, inbox⟩
  have advances : s.advance thread = none := still (.advance thread) rfl fun _ no => by cases no
  have outside := still.not_fencing orderly free pending workers
  cases here : s.caller thread with
  | idle => rfl
  | fencing op since number next =>
      have none := outside thread
      rw [here] at none
      cases none
  | asking op since msg next =>
      exfalso
      have answers : s.answer thread = none := still (.answer thread) rfl fun _ no => by cases no
      have owed := orderly.regular.paired.asking here
      unfold answer at answers
      rw [here] at answers
      cases read : s.outbox (.user thread) with
      | nil =>
          rw [owed_nil (inbox _) read] at owed
          cases owed
      | cons reply replies =>
          rw [read] at answers
          cases answers
  | running op since script =>
      exfalso
      unfold advance at advances
      rw [here] at advances
      cases script with
      | exit | connected | read => cases advances
      | enqueue request next =>
          dsimp only at advances
          rw [if_pos ⟨opened, requests thread op since request next here⟩] at advances
          cases advances
      | synchro msg next =>
          dsimp only at advances
          rw [if_pos opened] at advances
          cases advances
      | closeConnection next =>
          dsimp only at advances
          rw [if_pos ⟨pending, fun worker => by rw [workers worker]; rfl⟩] at advances
          cases advances
      | barrier next =>
          -- No barrier is under way, so that any identifier will do.
          have fresh : s.FreshId 0 := by
            intro number used _
            constructor
            · by_contra returned
              obtain ⟨other, within⟩ := orderly.tended.manned number used
                (Option.not_isSome_iff_eq_none.mp returned)
              rw [outside other] at within
              cases within
            · rintro ⟨worker, travels⟩
              rw [inbox] at travels
              cases travels
          have begins : s.barrier thread 0 = none := still (.barrier thread 0) rfl fun _ no => by cases no
          unfold Config.barrier at begins
          rw [here] at begins
          dsimp only at begins
          rw [if_pos ⟨opened, fresh⟩] at begins
          cases begins

end Config

end AtomSpaceCog
