import AtomSpaceCog.Channel.Machine

/-! # What one step of the channel can do

`Config.Moves` lists the steps with everything that holds before them and the state
after them. Every result about runs takes a step apart through `Config.moves_of_step`
alone; no proof unfolds the step functions again.
-/

namespace AtomSpaceCog

open Dedup

variable {S : Setting}

namespace Config

/-- The state in which an operation has just been called. -/
abbrev started (s : Config S) (thread : ThreadId) (op : S.Op) : Config S :=
  s.setCaller thread (.running op s.calls.length (S.script op))

/-- The steps, one case for each way a step function succeeds. -/
inductive Moves (s : Config S) : Action S → Config S → Prop where
  | start {thread op} (idle : s.caller thread = .idle) :
      Moves s (.start thread op) (s.started thread op)
  | edit {change} : Moves s (.edit change) { s with locals := change s.locals }
  | exit {thread op since how} (here : s.caller thread = .running op since (.exit how)) :
      Moves s (.advance thread) (s.setCaller thread .idle)
  | connected {thread op since next} (here : s.caller thread = .running op since (.connected next)) :
      Moves s (.advance thread) (s.setCaller thread (.running op since (next s.isOpen)))
  | read {thread op since next} (here : s.caller thread = .running op since (.read next)) :
      Moves s (.advance thread) (s.setCaller thread (.running op since (next s.locals)))
  | enqueue {thread op since request next}
      (here : s.caller thread = .running op since (.enqueue request next))
      (opened : s.isOpen) (plain : isBarrier request.text = false) :
      Moves s (.advance thread) ((s.insert (some op) request).setCaller thread (.running op since next))
  | ask {thread op since msg next}
      (here : s.caller thread = .running op since (.synchro msg next)) (opened : s.isOpen) :
      Moves s (.advance thread) ((s.push (.user thread) (.synchro thread msg)).setCaller thread
        (.asking op since msg next))
  | closeConnection {thread op since next}
      (here : s.caller thread = .running op since (.closeConnection next))
      (empty : s.pending = []) (idle : ∀ worker, (s.worker worker).holds = none) :
      Moves s (.advance thread) ({ s with isOpen := false }.setCaller thread (.running op since next))
  | barrier {thread id op since next} (here : s.caller thread = .running op since (.barrier next))
      (opened : s.isOpen) (fresh : s.FreshId id) :
      Moves s (.barrier thread id)
        (({ s with fences := s.fences + 1 }.setFence s.fences
          ⟨id, s.calls.length, none, fun _ => false, none⟩).setCaller thread
            (.fencing op since s.fences next))
  | drain {thread op since number next} (here : s.caller thread = .fencing op since number next)
      (draining : (s.fence number).drained = none)
      (handled : ∀ call ∈ s.calls, call.index < (s.fence number).begun ∨ call.source.isNone →
        ¬ s.Live call.entry) :
      Moves s (.drain thread)
        (s.setFence number { s.fence number with drained := some s.calls.length })
  | block {worker number} (idle : s.worker worker = .idle) (known : number < s.fences)
      (drained : (s.fence number).drained.isSome) (notRan : (s.fence number).ran worker = false) :
      Moves s (.block worker number)
        ((s.push (.worker worker) (.block (s.fence number).id number)).setFence number
          { s.fence number with ran := Function.update (s.fence number).ran worker true })
  | finish {thread op since number next} (here : s.caller thread = .fencing op since number next)
      (drained : (s.fence number).drained.isSome)
      (ran : ∀ worker, (s.fence number).ran worker = true) :
      Moves s (.finish thread)
        ((s.setFence number { s.fence number with returned := some s.calls.length }).setCaller thread
          (.running op since next))
  | answer {thread op since msg next reply rest}
      (here : s.caller thread = .asking op since msg next)
      (arrived : s.outbox (.user thread) = reply :: rest) :
      Moves s (.answer thread)
        ({ s with
          outbox := Function.update s.outbox (.user thread) rest
          answered := s.answered ++ [(thread, msg, reply.text)] }.setCaller thread
            (.running op since (next reply.text)))
  | take {worker number entry} (idle : s.worker worker = .idle) (member : entry ∈ s.pending)
      (numbered : entry.tag = number) (free : ¬ s.Blocking) :
      Moves s (.take worker number)
        ({ s with pending := s.pending.filter (fun entry => entry.tag ≠ number) }.setWorker worker
          (.sending entry))
  | send {worker entry} (here : s.worker worker = .sending entry) :
      Moves s (.send worker)
        (({ s with handed := s.handed ++ [entry] }.push (.worker worker)
          (.request entry)).setWorker worker
            (if entry.value.noreply then .idle else .waiting entry))
  | receive {worker entry reply rest} (here : s.worker worker = .waiting entry)
      (arrived : s.outbox (.worker worker) = reply :: rest) :
      Moves s (.receive worker)
        ({ s with
          outbox := Function.update s.outbox (.worker worker) rest
          runs := s.runs ++ [(⟨entry.value.client, entry.value.callback, entry.value.data,
            reply.text, reply.answers.text, s.calls.length⟩ : HandlerRun S.toSignature)] }.setWorker worker
          (.running entry (callback entry.value reply.text)))
  | rest {worker entry} (here : s.worker worker = .running entry .done) :
      Moves s (.work worker) (s.setWorker worker .idle)
  | workInsert {worker entry request next}
      (here : s.worker worker = .running entry (.insert request next))
      (plain : isBarrier request.text = false) :
      Moves s (.work worker) ((s.insert none request).setWorker worker (.running entry next))
  | workTouch {worker entry change next}
      (here : s.worker worker = .running entry (.touch change next)) :
      Moves s (.work worker)
        ({ s with locals := change s.locals }.setWorker worker (.running entry (next s.locals)))
  | serve {sock entry rest} (free : s.held sock = false)
      (first : s.inbox sock = .request entry :: rest) :
      Moves s (.serve sock)
        { s with
          inbox := Function.update s.inbox sock rest
          space := (S.run entry.value.strToSend s.space).1
          executed := s.executed ++ [entry]
          outbox := if entry.value.noreply then s.outbox else
            Function.update s.outbox sock (s.outbox sock ++
              [⟨(S.run entry.value.strToSend s.space).2, .request entry⟩]) }
  | serveSynchro {sock thread msg rest} (free : s.held sock = false)
      (first : s.inbox sock = .synchro thread msg :: rest) :
      Moves s (.serve sock)
        { s with
          inbox := Function.update s.inbox sock rest
          space := (S.run msg s.space).1
          outbox := Function.update s.outbox sock (s.outbox sock ++
            [⟨(S.run msg s.space).2, .synchro thread msg⟩]) }
  | arrive {sock id number rest} (first : s.inbox sock = .block id number :: rest)
      (free : s.held sock = false) :
      Moves s (.arrive sock) { s with held := Function.update s.held sock true }
  | release {id socks} (distinct : socks.Nodup) (enough : socks.length = nthreads)
      (reached : ∀ sock ∈ socks, s.HeldAt id sock) :
      Moves s (.release id socks)
        { s with
          inbox := fun sock => if sock ∈ socks then (s.inbox sock).tail else s.inbox sock
          held := fun sock => if sock ∈ socks then false else s.held sock }

/-- Every step that is taken is one of the listed ones. -/
theorem moves_of_step {s next : Config S} {action : Action S} (taken : s.step action = some next) :
    s.Moves action next := by
  cases action with
  | start thread op =>
      simp only [step, Config.start] at taken
      split at taken
      · next idle => exact Option.some.inj taken ▸ .start idle
      · cases taken
  | edit change => exact Option.some.inj taken ▸ .edit
  | advance thread =>
      simp only [step, advance] at taken
      split at taken
      · next op since script here =>
          split at taken
          · exact Option.some.inj taken ▸ .exit here
          · exact Option.some.inj taken ▸ .connected here
          · exact Option.some.inj taken ▸ .read here
          · split at taken
            · next guard => exact Option.some.inj taken ▸ .enqueue here guard.1 guard.2
            · cases taken
          · cases taken
          · split at taken
            · next guard => exact Option.some.inj taken ▸ .ask here guard
            · cases taken
          · split at taken
            · next guard => exact Option.some.inj taken ▸ .closeConnection here guard.1 guard.2
            · cases taken
      · cases taken
  | barrier thread id =>
      simp only [step, Config.barrier] at taken
      split at taken
      · next here =>
          split at taken
          · next guard => exact Option.some.inj taken ▸ .barrier here guard.1 guard.2
          · cases taken
      · cases taken
  | drain thread =>
      simp only [step, Config.drain] at taken
      split at taken
      · next here =>
          split at taken
          · next guard => exact Option.some.inj taken ▸ .drain here guard.1 guard.2
          · cases taken
      · cases taken
  | block worker number =>
      simp only [step, Config.block] at taken
      split at taken
      · next idle =>
          split at taken
          · next guard =>
              exact Option.some.inj taken ▸ .block idle guard.1 guard.2.1 guard.2.2
          · cases taken
      · cases taken
  | finish thread =>
      simp only [step, Config.finish] at taken
      split at taken
      · next here =>
          split at taken
          · next guard => exact Option.some.inj taken ▸ .finish here guard.1 guard.2
          · cases taken
      · cases taken
  | answer thread =>
      simp only [step, Config.answer] at taken
      split at taken
      · next here arrived => exact Option.some.inj taken ▸ .answer here arrived
      · cases taken
  | take worker number =>
      simp only [step, Config.take] at taken
      split at taken
      · next idle found =>
          split at taken
          · cases taken
          · next free =>
              exact Option.some.inj taken ▸ .take idle (List.mem_of_find?_eq_some found)
                (by simpa using List.find?_some found) free
      · cases taken
  | send worker =>
      simp only [step, Config.send] at taken
      split at taken
      · next here => exact Option.some.inj taken ▸ .send here
      · cases taken
  | receive worker =>
      simp only [step, Config.receive] at taken
      split at taken
      · next here arrived => exact Option.some.inj taken ▸ .receive here arrived
      · cases taken
  | work worker =>
      simp only [step, Config.work] at taken
      split at taken
      · next here =>
          split at taken
          · exact Option.some.inj taken ▸ .rest here
          · split at taken
            · next plain => exact Option.some.inj taken ▸ .workInsert here plain
            · cases taken
          · exact Option.some.inj taken ▸ .workTouch here
          · cases taken
      · cases taken
  | serve sock =>
      simp only [step, Config.serve] at taken
      split at taken
      · cases taken
      · next free =>
          split at taken
          · next first => exact Option.some.inj taken ▸ .serve (by simpa using free) first
          · next first => exact Option.some.inj taken ▸ .serveSynchro (by simpa using free) first
          · cases taken
  | arrive sock =>
      simp only [step, Config.arrive] at taken
      split at taken
      · next first =>
          split at taken
          · cases taken
          · next free => exact Option.some.inj taken ▸ .arrive first (by simpa using free)
      · cases taken
  | release id socks =>
      simp only [step, Config.release] at taken
      split at taken
      · next guard => exact Option.some.inj taken ▸ .release guard.1 guard.2.1 guard.2.2
      · cases taken

end Config

end AtomSpaceCog
