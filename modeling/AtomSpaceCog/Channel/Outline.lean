import AtomSpaceCog.Channel.Steps

/-! # Proof outlines for operations

An outline says what a client thread may rely on at each point of its operation. It
is sound when no step of any thread takes away what a thread relies on, and each step
of a thread brings about what the thread relies on next; then it holds along every run
(`Outline.Sound.exec`).
-/

namespace AtomSpaceCog

open Transition

variable {S : Setting}

/-- What a thread relies on when it is about to run the rest of its operation, in
`barrier()`, and in `synchro`. -/
structure Outline (S : Setting) where
  running : Config S → ThreadId → S.Op → Nat → Script S.toSignature S.Local → Prop
  fencing : Config S → ThreadId → S.Op → Nat → Nat → Script S.toSignature S.Local → Prop
  asking : Config S → ThreadId → S.Op → Nat → Str → (Str → Script S.toSignature S.Local) → Prop

namespace Outline

/-- The thread is at a point of its operation where the outline holds. -/
def Follows (outline : Outline S) (s : Config S) (thread : ThreadId) : Caller S → Prop
  | .idle => True
  | .running op since script => outline.running s thread op since script
  | .fencing op since number next => outline.fencing s thread op since number next
  | .asking op since msg next => outline.asking s thread op since msg next

open Config

/-- The outline is kept by the steps out of the states in which an invariant holds. -/
structure Sound (outline : Outline S) (Invariant : Config S → Prop) : Prop where
  /-- A thread that does not move keeps what it relies on. -/
  stable : ∀ {s next action thread caller}, Invariant s → s.step action = some next →
    s.caller thread = caller → next.caller thread = caller →
    outline.Follows s thread caller → outline.Follows next thread caller
  start : ∀ {s next thread op}, Invariant s → s.step (.start thread op) = some next →
    next = s.started thread op → outline.running next thread op s.calls.length (S.script op)
  connected : ∀ {s next thread op since rest}, Invariant s → s.step (.advance thread) = some next →
    next = s.setCaller thread (.running op since (rest s.isOpen)) →
    outline.running s thread op since (.connected rest) →
      outline.running next thread op since (rest s.isOpen)
  read : ∀ {s next thread op since rest}, Invariant s → s.step (.advance thread) = some next →
    next = s.setCaller thread (.running op since (rest s.locals)) →
    outline.running s thread op since (.read rest) →
      outline.running next thread op since (rest s.locals)
  enqueue : ∀ {s next thread op since request rest}, Invariant s →
    s.step (.advance thread) = some next →
    next = (s.insert (some op) request).setCaller thread (.running op since rest) →
    outline.running s thread op since (.enqueue request rest) →
      outline.running next thread op since rest
  barrier : ∀ {s next thread op since id rest}, Invariant s →
    s.step (.barrier thread id) = some next →
    next = ({ s with fences := s.fences + 1 }.setFence s.fences
      ⟨id, s.calls.length, none, fun _ => false, none⟩).setCaller thread
        (.fencing op since s.fences rest) →
    outline.running s thread op since (.barrier rest) →
      outline.fencing next thread op since s.fences rest
  finish : ∀ {s next thread op since number rest}, Invariant s → s.step (.finish thread) = some next →
    (s.fence number).drained.isSome → (∀ worker, (s.fence number).ran worker = true) →
    next = (s.setFence number { s.fence number with returned := some s.calls.length }).setCaller thread
      (.running op since rest) →
    outline.fencing s thread op since number rest → outline.running next thread op since rest
  ask : ∀ {s next thread op since msg rest}, Invariant s → s.step (.advance thread) = some next →
    next = (s.push (.user thread) (.synchro thread msg)).setCaller thread (.asking op since msg rest) →
    outline.running s thread op since (.synchro msg rest) → outline.asking next thread op since msg rest
  answer : ∀ {s next thread op since msg rest reply replies}, Invariant s →
    s.step (.answer thread) = some next → s.outbox (.user thread) = reply :: replies →
    next = { s with
      outbox := Function.update s.outbox (.user thread) replies
      answered := s.answered ++ [(thread, msg, reply.text)] }.setCaller thread
        (.running op since (rest reply.text)) →
    outline.asking s thread op since msg rest → outline.running next thread op since (rest reply.text)
  closeConnection : ∀ {s next thread op since rest}, Invariant s →
    s.step (.advance thread) = some next →
    next = { s with isOpen := false }.setCaller thread (.running op since rest) →
    outline.running s thread op since (.closeConnection rest) → outline.running next thread op since rest

variable {outline : Outline S} {Invariant : Config S → Prop}

/-- A step of one thread moves it along the outline, and the others stay on it. -/
theorem Sound.advance (sound : outline.Sound Invariant) {s next : Config S} {action : Action S}
    (holds : Invariant s) (taken : s.step action = some next)
    (follows : ∀ thread, outline.Follows s thread (s.caller thread)) {thread : ThreadId}
    {caller : Caller S} (callers : next.caller = Function.update s.caller thread caller)
    (moved : outline.Follows next thread caller) (other : ThreadId) :
    outline.Follows next other (next.caller other) := by
  by_cases same : other = thread
  · subst same
    rwa [callers, Function.update_self]
  · have still : next.caller other = s.caller other := by rw [callers, Function.update_of_ne same]
    rw [still]
    exact sound.stable holds taken rfl still (follows other)

theorem Sound.step (sound : outline.Sound Invariant) {s next : Config S} {action : Action S}
    (holds : Invariant s) (taken : s.step action = some next)
    (follows : ∀ thread, outline.Follows s thread (s.caller thread)) :
    ∀ thread, outline.Follows next thread (next.caller thread) := by
  have on : ∀ {thread caller}, s.caller thread = caller → outline.Follows s thread caller :=
    fun {thread} _ same => same ▸ follows thread
  have move : ∀ {thread caller}, next.caller = Function.update s.caller thread caller →
      outline.Follows next thread caller → ∀ other, outline.Follows next other (next.caller other) :=
    fun callers moved => sound.advance holds taken follows callers moved
  cases moves_of_step taken with
  | edit | drain | block | take | send | receive | rest | workInsert | workTouch | serve
  | serveSynchro | arrive | release => exact fun other => sound.stable holds taken rfl rfl (follows other)
  | start => exact move rfl (sound.start holds taken rfl)
  | exit => exact move rfl trivial
  | connected here => exact move rfl (sound.connected holds taken rfl (on here))
  | read here => exact move rfl (sound.read holds taken rfl (on here))
  | enqueue here => exact move rfl (sound.enqueue holds taken rfl (on here))
  | ask here => exact move rfl (sound.ask holds taken rfl (on here))
  | closeConnection here => exact move rfl (sound.closeConnection holds taken rfl (on here))
  | barrier here => exact move rfl (sound.barrier holds taken rfl (on here))
  | finish here drained ran => exact move rfl (sound.finish holds taken drained ran rfl (on here))
  | answer here arrived => exact move rfl (sound.answer holds taken arrived rfl (on here))

/-- A sound outline holds along every run from a state in which no thread is in an
operation. -/
theorem Sound.exec (sound : outline.Sound Invariant)
    (preserved : ∀ {s next action}, Invariant s → s.step action = some next → Invariant next)
    {s final : Config S} {actions : List (Action S)} (holds : Invariant s)
    (idle : ∀ thread, s.caller thread = .idle)
    (run : Transition.exec Config.step s actions = some final) (thread : ThreadId) :
    outline.Follows final thread (final.caller thread) := by
  refine (exec_invariant (fun s => Invariant s ∧ ∀ thread, outline.Follows s thread (s.caller thread))
    (fun both taken => ⟨preserved both.1 taken, sound.step both.1 taken both.2⟩) ⟨holds, ?_⟩ run).2 thread
  intro thread
  rw [idle]
  trivial

end Outline

end AtomSpaceCog
