import AtomSpaceCog.Channel.Census
import AtomSpaceCog.Storage.Requests
import AtomSpaceCog.Sexpr.Plain

/-! # Workers that wait for their own queue

The buffer has a low and a high watermark: a call of `insert` is blocked while the buffer holds
more than the high one, until it holds no more than the low one. A worker in
`decode_atom_list` makes such calls, and only workers take elements out. They cannot all be
blocked as long as one of them is somewhere else whenever another one finds the buffer full.
-/

namespace AtomSpaceCog

open Transition Dedup

/-- The watermarks of a buffer. -/
structure Watermarks where
  low : Nat
  high : Nat
  ordered : low ≤ high

variable {S : Setting}

/-- A channel whose `insert` blocks. A thread goes by its socket. -/
structure Gauge (S : Setting) where
  config : Config S
  /-- The thread is blocked in `insert`. -/
  blocked : SockId → Bool

/-- The thread that makes a step; none is the server or the program. -/
def Action.thread? : Action S → Option SockId
  | .start thread _ | .advance thread | .barrier thread _ | .drain thread | .finish thread
  | .answer thread => some (.user thread)
  | .block worker _ | .take worker _ | .send worker | .receive worker | .work worker =>
      some (.worker worker)
  | .edit _ | .serve _ | .arrive _ | .release _ _ => none

namespace Gauge

variable (marks : Watermarks)

/-- Nobody is blocked. -/
def initial (config : Config S) : Gauge S := ⟨config, fun _ => false⟩

/-- The thread is blocked by the insert that it has made, or was before, until the buffer holds no
more than the low watermark. -/
def step (g : Gauge S) (action : Action S) : Option (Gauge S) :=
  if action.thread?.any g.blocked then none
  else
    (g.config.step action).map fun next =>
      { config := next
        blocked := fun sock =>
          marks.low < next.pending.length ∧
            (g.blocked sock ∨ (g.config.inserting action).isSome ∧ action.thread? = some sock ∧
              marks.high < next.pending.length) }

/-- All the workers are blocked while messages are pending. -/
def Stalled (g : Gauge S) : Prop :=
  (∀ worker, g.blocked (.worker worker) = true) ∧ g.config.pending ≠ []

end Gauge

section Handlers

variable {sig : Signature} {Local : Type}

/-- A handler that makes no requests. -/
def Work.Still : Work sig Local → Prop
  | .done => True
  | .insert _ _ => False
  | .touch _ next => ∀ state, (next state).Still
  | .stuck => True

theorem Work.All.still {work : Work sig Local} (all : work.All fun _ => False) : work.Still := by
  induction work with
  | done | stuck => trivial
  | insert => exact all.1
  | touch _ _ ih => exact fun state => ih state (all state)

variable {sexpr : Sexpr}

theorem still_runHandler {callback : Callback} (other : callback ≠ .decodeAtomList) (pkt : Pkt sexpr)
    (reply : Str) : (runHandler sexpr callback pkt reply).Still :=
  (all_runHandler other pkt reply).still

end Handlers

/-- Only its own steps move a worker. -/
theorem Config.worker_of_step {s next : Config S} {action : Action S}
    (taken : s.step action = some next) {worker : WorkerId}
    (other : action.thread? ≠ some (.worker worker)) : next.worker worker = s.worker worker := by
  cases moves_of_step taken with
  | take | send | receive | rest | workInsert | workTouch =>
      exact Function.update_of_ne (fun same => other (by rw [same]; rfl)) _ _
  | _ => rfl

/-- An insert brings at most one element. -/
theorem Config.length_insert (s : Config S) (source : Option S.Op) (request : Request S.toSignature) :
    (s.insert source request).pending.length ≤ s.pending.length + 1 := by
  change (offer Msg.Equivalent s.pending s.calls.length (request.toMsg s.counter).1).length ≤ _
  rcases offer_cases Msg.Equivalent s.pending s.calls.length (request.toMsg s.counter).1 with
    ⟨_, _, _, kept, _⟩ | ⟨_, added, _⟩
  · rw [kept]
    omega
  · rw [added, List.length_append, List.length_singleton]

section Workers

variable {sexpr : Sexpr} {server : Server}

/-- The worker is in `decode_atom_list`. -/
def InList (s : Config (cogSetting sexpr server)) (worker : WorkerId) : Prop :=
  ∃ entry rest, s.worker worker = .running entry rest ∧ entry.value.callback = some .decodeAtomList

namespace Gauge

variable {marks : Watermarks} {g next : Gauge (cogSetting sexpr server)}
  {action : Action (cogSetting sexpr server)}

/-- A worker calls `insert` only while the buffer is below the high watermark or another worker is
not in `decode_atom_list`. -/
def Allowed (marks : Watermarks) (g : Gauge (cogSetting sexpr server)) :
    Action (cogSetting sexpr server) → Prop
  | .work worker =>
      (∃ entry request rest, g.config.worker worker = .running entry (.insert request rest)) →
        g.config.pending.length < marks.high ∨ ∃ other ≠ worker, ¬ InList g.config other
  | _ => True

/-- The invariant. -/
structure Moving (g : Gauge (cogSetting sexpr server)) : Prop where
  still : ∀ worker entry rest, g.config.worker worker = .running entry rest →
    entry.value.callback = some .decodeAtomList ∨ rest.Still
  listing : ∀ worker, g.blocked (.worker worker) = true → InList g.config worker
  free : ∃ worker, g.blocked (.worker worker) = false

/-- The handler that a worker starts makes requests only if it is `decode_atom_list`. -/
theorem still_callback (msg : Msg (cogSignature sexpr)) (reply : Str) :
    msg.callback = some .decodeAtomList ∨
      (Config.callback (S := cogSetting sexpr server) msg reply).Still := by
  unfold Config.callback
  cases msg.client with
  | none => exact .inr trivial
  | some client =>
      cases msg.callback with
      | none => exact .inr trivial
      | some callback =>
          by_cases list : callback = .decodeAtomList
          · exact .inl (congrArg some list)
          · exact .inr (still_runHandler list msg.data reply)

theorem still_of_step {s next : Config (cogSetting sexpr server)}
    (still : ∀ worker entry rest, s.worker worker = .running entry rest →
      entry.value.callback = some .decodeAtomList ∨ rest.Still)
    (taken : s.step action = some next) (worker : WorkerId) (entry : Entry (cogSignature sexpr))
    (rest : CogWork sexpr) (here : next.worker worker = .running entry rest) :
    entry.value.callback = some .decodeAtomList ∨ rest.Still := by
  by_cases own : action.thread? = some (.worker worker)
  · cases Config.moves_of_step taken with
    | block => exact still worker entry rest here
    | take =>
        cases own
        cases (Function.update_self ..).symm.trans here
    | @send _ sent =>
        cases own
        have after := (Function.update_self ..).symm.trans here
        split at after <;> cases after
    | receive =>
        cases own
        cases (Function.update_self ..).symm.trans here
        exact still_callback _ _
    | rest =>
        cases own
        cases (Function.update_self ..).symm.trans here
    | workInsert before =>
        cases own
        cases (Function.update_self ..).symm.trans here
        exact (still worker entry _ before).imp_right False.elim
    | workTouch before =>
        cases own
        cases (Function.update_self ..).symm.trans here
        exact (still worker entry _ before).imp_right fun quiet => quiet _
    | _ => cases own
  · rw [Config.worker_of_step taken own] at here
    exact still worker entry rest here

/-- A worker that makes an insert is in `decode_atom_list`, and stays in it. -/
theorem inList_of_inserting {s next : Config (cogSetting sexpr server)}
    (still : ∀ worker entry rest, s.worker worker = .running entry rest →
      entry.value.callback = some .decodeAtomList ∨ rest.Still)
    (taken : s.step action = some next) {worker : WorkerId} (inserts : (s.inserting action).isSome)
    (own : action.thread? = some (.worker worker)) :
    InList next worker ∧ action = .work worker ∧
      (∃ entry request rest, s.worker worker = .running entry (.insert request rest)) ∧
      next.pending.length ≤ s.pending.length + 1 := by
  cases Config.moves_of_step taken with
  | workInsert before =>
      cases own
      refine ⟨⟨_, _, Function.update_self .., ?_⟩, rfl, ⟨_, _, _, before⟩, s.length_insert none _⟩
      exact (still worker _ _ before).resolve_right id
  | rest before | workTouch before =>
      simp only [Config.inserting, before] at inserts
      cases inserts
  | block | take | send | receive => cases inserts
  | _ => cases own

theorem Moving.step (moving : g.Moving) (allowed : g.Allowed marks action)
    (taken : g.step marks action = some next) : next.Moving := by
  unfold Gauge.step at taken
  split at taken
  · cases taken
  · next awake =>
      obtain ⟨config, moved, rfl⟩ := Option.map_eq_some_iff.mp taken
      have other : ∀ worker, g.blocked (.worker worker) = true →
          action.thread? ≠ some (.worker worker) := by
        intro worker asleep own
        rw [own] at awake
        exact awake asleep
      have kept : ∀ worker, g.blocked (.worker worker) = true → InList config worker := by
        intro worker asleep
        unfold InList
        rw [Config.worker_of_step moved (other worker asleep)]
        exact moving.listing worker asleep
      refine ⟨still_of_step moving.still moved, fun worker blocks => ?_, ?_⟩
      · simp only [decide_eq_true_eq] at blocks
        rcases blocks.2 with asleep | ⟨inserts, own, _⟩
        · exact kept worker asleep
        · exact (inList_of_inserting moving.still moved inserts own).1
      · by_contra none
        simp only [not_exists, Bool.not_eq_false, decide_eq_true_eq] at none
        obtain ⟨worker, awake⟩ := moving.free
        -- The worker that was free has just been blocked by its own insert.
        rcases (none worker).2 with asleep | ⟨inserts, own, full⟩
        · exact Bool.false_ne_true (awake.symm.trans asleep)
        · obtain ⟨_, rfl, inserting, grown⟩ :=
            inList_of_inserting moving.still moved inserts own
          rcases allowed inserting with below | ⟨elsewhere, different, outside⟩
          · omega
          · rcases (none elsewhere).2 with asleep | ⟨_, mine, _⟩
            · exact outside (moving.listing elsewhere asleep)
            · exact different (SockId.worker.inj (Option.some.inj mine)).symm

/-- In every run in which no worker calls `insert` on a full buffer while all the others are in
`decode_atom_list`, the workers are never all blocked. -/
theorem workers_not_stalled {counter : UInt64} {space : server.Space} {memory : Memory sexpr}
    {actions : List (Action (cogSetting sexpr server))} {final : Gauge (cogSetting sexpr server)}
    (run : exec (step marks) (initial (.initial counter space memory)) actions = some final)
    (allowed : Meets (step marks) (Allowed marks) (initial (.initial counter space memory)) actions) :
    ¬ final.Stalled := by
  have start : (initial (.initial counter space memory) : Gauge (cogSetting sexpr server)).Moving :=
    ⟨fun _ _ _ idle => (nomatch idle), fun _ none => (nomatch none), ⟨0, rfl⟩⟩
  have moving := allowed.invariant Moving (fun allowed moving taken => moving.step allowed taken)
    start run
  obtain ⟨worker, free⟩ := moving.free
  intro stalled
  exact Bool.false_ne_true (free.symm.trans (stalled.1 worker))

/-- Where one worker has nothing to do. -/
theorem meets_allowed_of_spare (spare : WorkerId) {config : Config (cogSetting sexpr server)}
    {actions : List (Action (cogSetting sexpr server))}
    (idle : ∀ entry rest, config.worker spare ≠ .running entry rest)
    (never : ∀ action ∈ actions, action.thread? ≠ some (.worker spare)) :
    Meets (step marks) (Allowed marks) (initial config) actions := by
  refine (meets_of_forall never).strengthen
    (fun g => ∀ entry rest, g.config.worker spare ≠ .running entry rest)
    (fun {g action next} other outside taken => ?_) (fun {g action} _ outside => ?_) idle
  · unfold Gauge.step at taken
    split at taken
    · cases taken
    · obtain ⟨config, moved, rfl⟩ := Option.map_eq_some_iff.mp taken
      intro entry rest here
      exact outside entry rest (Config.worker_of_step moved other ▸ here)
  · cases action with
    | work worker =>
        rintro ⟨entry, request, rest, here⟩
        refine .inr ⟨spare, ?_, fun ⟨entry, rest, running, _⟩ => outside entry rest running⟩
        rintro rfl
        exact outside _ _ here
    | _ => trivial

end Gauge

section Runs

/-- Three Atoms that all contain the same four Concepts. -/
def sharedLinks : List (Atom Plain.Kind) :=
  let concept (name : UInt8) : Atom Plain.Kind := .node .concept [name]
  [.link .list [concept 97, concept 98, concept 99, concept 100],
    .link .list [concept 100, concept 99, concept 98, concept 97],
    .link .edge [concept 97, concept 98, concept 99, concept 100]]

/-- A server that answers the incoming set of each of the Concepts. -/
def sharedServer : Server :=
  ⟨Unit, fun _ _ => ((), bytes "(" ++ Plain.encodeList sharedLinks ++ bytes ")\n")⟩

/-- A thread fetches the incoming set of a Concept, and a worker receives the reply. -/
def fetchShared (worker : WorkerId) : List (Action (cogSetting plain sharedServer)) :=
  let h : Handle plain := ⟨.node .concept [97 + worker.val.toUInt8], .space 0⟩
  [.start worker (.fetchIncomingSet 0 h), .advance worker, .advance worker, .take worker worker,
    .send worker, .serve (.worker worker), .receive worker]

/-- A worker has the Atoms inserted that are listed first. -/
def insertFirst (worker : WorkerId) (count : Nat) : List (Action (cogSetting plain sharedServer)) :=
  (List.replicate count [.work worker, .work worker]).flatten

def fewMarks : Watermarks := ⟨1, 2, by decide⟩

/-- The channel before the first call. -/
def unfetched : Gauge (cogSetting plain sharedServer) :=
  .initial (.initial 0 () (Memory.empty ()))

/-- One worker is blocked by the third request that it makes, and goes on when two others have taken
two of them. -/
theorem workers_not_stalled_one_list :
    ∃ final, exec (Gauge.step fewMarks) unfetched
        (fetchShared 0 ++ insertFirst 0 3 ++ [.take 1 1, .take 2 2, .work 0]) = some final ∧
      ¬ final.Stalled := by
  have allowed : Meets (Gauge.step fewMarks) (Gauge.Allowed fewMarks) unfetched
      (fetchShared 0 ++ insertFirst 0 3 ++ [.take 1 1, .take 2 2, .work 0]) :=
    Gauge.meets_allowed_of_spare 3 (fun _ _ idle => nomatch idle) (by decide)
  have runs : (exec (Gauge.step fewMarks) unfetched
      (fetchShared 0 ++ insertFirst 0 3 ++ [.take 1 1, .take 2 2, .work 0])).isSome = true := by
    decide +kernel
  obtain ⟨final, run⟩ := Option.isSome_iff_exists.mp runs
  exact ⟨final, run, Gauge.workers_not_stalled run allowed⟩

/-- Four lists of Atoms are handled at once, and each worker is blocked by a request for the values on
an Atom. -/
theorem workers_stalled :
    ∃ final, exec (Gauge.step fewMarks) unfetched
        ((List.ofFn fetchShared).flatten ++ insertFirst 0 3 ++ insertFirst 1 1 ++ insertFirst 2 1 ++
          insertFirst 3 1) = some final ∧
      final.Stalled := by
  have stalled : ((exec (Gauge.step fewMarks) unfetched
      ((List.ofFn fetchShared).flatten ++ insertFirst 0 3 ++ insertFirst 1 1 ++ insertFirst 2 1 ++
        insertFirst 3 1)).any fun final =>
      decide (∀ worker, final.blocked (.worker worker) = true) && !final.config.pending.isEmpty) =
        true := by decide +kernel
  obtain ⟨final, run, both⟩ := (Option.any_eq_true _ _).mp stalled
  simp only [Bool.and_eq_true, decide_eq_true_eq, Bool.not_eq_true', List.isEmpty_eq_false_iff] at both
  exact ⟨final, run, both⟩

end Runs

end Workers

end AtomSpaceCog
