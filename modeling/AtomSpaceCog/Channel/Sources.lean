import AtomSpaceCog.Channel.Census

/-! # What the calls come from

A property that every request of the scripts and of the handlers has is one that
every call has, with the operation that made it (`Config.sourced_exec`).
-/

namespace AtomSpaceCog

open Transition

variable {sig : Signature} {Local : Type}

/-- Every request that the script may make has the property. -/
def Script.All (Holds : Request sig → Prop) : Script sig Local → Prop
  | .exit _ => True
  | .connected next => ∀ isOpen, (next isOpen).All Holds
  | .read next => ∀ state, (next state).All Holds
  | .enqueue request next => Holds request ∧ next.All Holds
  | .barrier next => next.All Holds
  | .synchro _ next => ∀ reply, (next reply).All Holds
  | .closeConnection next => next.All Holds

/-- Every request that the handler may make has the property. -/
def Work.All (Holds : Request sig → Prop) : Work sig Local → Prop
  | .done => True
  | .insert request next => Holds request ∧ next.All Holds
  | .touch _ next => ∀ state, (next state).All Holds
  | .stuck => True

theorem Script.All.imp {Holds Weaker : Request sig → Prop} (weaken : ∀ request, Holds request → Weaker request)
    {script : Script sig Local} (all : script.All Holds) : script.All Weaker := by
  induction script with
  | exit => trivial
  | connected next ih | read next ih | synchro _ next ih => exact fun value => ih value (all value)
  | enqueue request next ih => exact ⟨weaken request all.1, ih all.2⟩
  | barrier next ih | closeConnection next ih => exact ih all

theorem Work.All.imp {Holds Weaker : Request sig → Prop} (weaken : ∀ request, Holds request → Weaker request)
    {work : Work sig Local} (all : work.All Holds) : work.All Weaker := by
  induction work with
  | done | stuck => trivial
  | insert request next ih => exact ⟨weaken request all.1, ih all.2⟩
  | touch _ next ih => exact fun state => ih state (all state)

variable {S : Setting}

/-- Every request of the scripts and of the handlers has the property; the operation
is none for a handler. -/
structure Setting.Makes (S : Setting) (Holds : Option S.Op → Request S.toSignature → Prop) : Prop where
  scripts : ∀ op, (S.script op).All (Holds (some op))
  handlers : ∀ client callback data reply, (S.react client callback data reply).All (Holds none)

/-- What is left of the script has the property. -/
def Caller.All (Holds : Option S.Op → Request S.toSignature → Prop) : Caller S → Prop
  | .idle => True
  | .running op _ script => script.All (Holds (some op))
  | .fencing op _ _ next => next.All (Holds (some op))
  | .asking op _ _ next => ∀ reply, (next reply).All (Holds (some op))

/-- What is left of the handler has the property. -/
def Worker.All (Holds : Option S.Op → Request S.toSignature → Prop) : Worker S → Prop
  | .running _ rest => rest.All (Holds none)
  | _ => True

namespace Config

/-- The calls made and those still to come from what is running have the property. -/
structure Sourced (Holds : Option S.Op → Request S.toSignature → Prop) (s : Config S) : Prop where
  callers : ∀ thread, (s.caller thread).All Holds
  workers : ∀ worker, (s.worker worker).All Holds
  calls : ∀ call ∈ s.calls, ∃ counter request,
    Holds call.source request ∧ call.msg = (request.toMsg counter).1

variable {Holds : Option S.Op → Request S.toSignature → Prop}

theorem sourced_initial (counter : UInt64) (space : S.Space) (locals : S.Local) :
    (Config.initial counter space locals).Sourced Holds where
  callers _ := trivial
  workers _ := trivial
  calls _ member := absurd member List.not_mem_nil

namespace Sourced

variable {s : Config S}

theorem setCaller (sourced : s.Sourced Holds) (thread : ThreadId) {caller : Caller S}
    (all : caller.All Holds) : (s.setCaller thread caller).Sourced Holds where
  callers other := by
    by_cases same : other = thread
    · subst same
      simpa [Config.setCaller] using all
    · simpa [Config.setCaller, same] using sourced.callers other
  workers := sourced.workers
  calls := sourced.calls

theorem setWorker (sourced : s.Sourced Holds) (worker : WorkerId) {state : Worker S}
    (all : state.All Holds) : (s.setWorker worker state).Sourced Holds where
  callers := sourced.callers
  workers other := by
    by_cases same : other = worker
    · subst same
      simpa [Config.setWorker] using all
    · simpa [Config.setWorker, same] using sourced.workers other
  calls := sourced.calls

theorem insert (sourced : s.Sourced Holds) {source : Option S.Op} {request : Request S.toSignature}
    (holds : Holds source request) : (s.insert source request).Sourced Holds where
  callers := sourced.callers
  workers := sourced.workers
  calls := by
    rw [insert_calls]
    intro call member
    rcases List.mem_append.mp member with prior | new
    · exact sourced.calls call prior
    · rw [List.mem_singleton.mp new]
      exact ⟨s.counter, request, holds, rfl⟩

/-- A state with the same threads and calls. -/
theorem congr (sourced : s.Sourced Holds) {next : Config S} (caller : next.caller = s.caller)
    (worker : next.worker = s.worker) (calls : next.calls = s.calls) : next.Sourced Holds where
  callers := by rw [caller]; exact sourced.callers
  workers := by rw [worker]; exact sourced.workers
  calls := by rw [calls]; exact sourced.calls

theorem caller_all (sourced : s.Sourced Holds) {thread : ThreadId} {caller : Caller S}
    (here : s.caller thread = caller) : caller.All Holds :=
  here ▸ sourced.callers thread

theorem worker_all (sourced : s.Sourced Holds) {worker : WorkerId} {state : Worker S}
    (here : s.worker worker = state) : state.All Holds :=
  here ▸ sourced.workers worker

/-- A request that is about to be inserted has the property. -/
theorem inserting (sourced : s.Sourced Holds) {action : Action S} {source : Option S.Op}
    {request : Request S.toSignature} (inserts : s.inserting action = some (source, request)) :
    Holds source request := by
  unfold Config.inserting at inserts
  split at inserts
  · split at inserts
    · next here =>
        cases inserts
        exact (sourced.caller_all here).1
    · cases inserts
  · split at inserts
    · next here =>
        cases inserts
        exact (sourced.worker_all here).1
    · cases inserts
  · cases inserts

theorem step (makes : S.Makes Holds) (sourced : s.Sourced Holds) {next : Config S}
    {action : Action S} (taken : s.step action = some next) : next.Sourced Holds := by
  cases moves_of_step taken with
  | start => exact sourced.setCaller _ (makes.scripts _)
  | edit | block | serve | serveSynchro | arrive | release | drain =>
      exact sourced.congr rfl rfl rfl
  | exit here => exact sourced.setCaller _ trivial
  | connected here => exact sourced.setCaller _ (sourced.caller_all here _)
  | read here => exact sourced.setCaller _ (sourced.caller_all here _)
  | enqueue here =>
      have all := sourced.caller_all here
      exact (sourced.insert all.1).setCaller _ all.2
  | ask here | closeConnection here | barrier here | finish here =>
      have all := sourced.caller_all here
      refine Sourced.setCaller ?_ _ ?_
      · exact sourced.congr rfl rfl rfl
      · exact all
  | answer here =>
      refine Sourced.setCaller ?_ _ ?_
      · exact sourced.congr rfl rfl rfl
      · exact sourced.caller_all here _
  | take =>
      refine Sourced.setWorker ?_ _ ?_
      · exact sourced.congr rfl rfl rfl
      · trivial
  | send =>
      refine Sourced.setWorker ?_ _ ?_
      · exact sourced.congr rfl rfl rfl
      · split <;> trivial
  | receive =>
      refine Sourced.setWorker ?_ _ ?_
      · exact sourced.congr rfl rfl rfl
      · simp only [Worker.All, callback]
        split
        · exact makes.handlers _ _ _ _
        · trivial
  | rest => exact sourced.setWorker _ trivial
  | workInsert here =>
      have all := sourced.worker_all here
      exact (sourced.insert all.1).setWorker _ all.2
  | workTouch here =>
      refine Sourced.setWorker ?_ _ ?_
      · exact sourced.congr rfl rfl rfl
      · exact sourced.worker_all here _

end Sourced

/-- Every call of a run has the property of the requests. -/
theorem sourced_exec (makes : S.Makes Holds) {s final : Config S} (sourced : s.Sourced Holds)
    {actions : List (Action S)} (run : exec Config.step s actions = some final) :
    final.Sourced Holds :=
  exec_invariant (Sourced Holds) (fun sourced taken => sourced.step makes taken) sourced run

end Config

end AtomSpaceCog
