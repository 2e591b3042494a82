import AtomSpaceCog.Slots.Ownership
import AtomSpaceCog.Foundation.Transition

/-! # Descriptors that outlive their sockets

Every open socket is held by the slot of the thread that `open_sock` made it for, as long as no
`do_recv` finds its connection closed, no new socket fails at its first `send`, and no channel
is closed between the check of an operation and its `do_send` (`Ledger.Allowed`). Each of the
three breaks it: the first closes a descriptor that stays in the slot, the second leaves a
socket open that is in no slot, and the third puts -1 into the slot.
-/

namespace AtomSpaceCog.Slots

open Transition

variable {net : Net}

/-- The threads and the descriptors, and the thread that each open descriptor was made for. -/
structure Ledger (net : Net) where
  state : State net
  opener : Int → Option Thread

namespace Ledger

def initial : Ledger net := ⟨State.initial, fun _ => none⟩

def step (l : Ledger net) (action : Action net) : Option (Ledger net) :=
  (l.state.step action).map fun next =>
    { state := next
      opener := fun sockfd =>
        if (next.descriptor sockfd).isSome then (action.given sockfd).or (l.opener sockfd) else none }

variable (l : Ledger net)

/-- The descriptor in the slot of a thread. -/
def held (thread : Thread) : Int := (l.state.slot thread).sockfd

theorem held_mk (state : State net) (opener : Int → Option Thread) (thread : Thread) :
    (Ledger.mk state opener).held thread = (state.slot thread).sockfd := rfl

/-- The slots and the open sockets match. -/
structure Matches : Prop where
  /-- A slot is empty, or holds an open descriptor that its thread got from `open_sock`. -/
  slot : ∀ thread, l.held thread = 0 ∨
    l.opener (l.held thread) = some thread ∧ (l.state.descriptor (l.held thread)).isSome
  /-- An open descriptor is in exactly one slot. -/
  single : ∀ sockfd, (l.state.descriptor sockfd).isSome → ∃! thread, l.held thread = sockfd
  /-- What a thread is about to send or receive on, or to close, is open. -/
  used : ∀ thread, (l.state.phase thread).working = true →
    (l.state.descriptor (l.held thread)).isSome

/-- `do_recv` does not find the connection closed, the first `send` on a new socket does not fail,
and no `do_send` with an empty slot finds that the channel was closed. -/
def Allowed : Action net → Prop
  | .hangUp _ => False
  | .drop _ _ _ => False
  | .look thread => ∀ channel msg after, l.state.phase thread = .sending channel msg after →
      l.held thread = 0 → (l.state.servinfo channel).isSome
  | _ => True

/-- The invariant. -/
structure Sound : Prop where
  slot : ∀ thread, l.held thread = 0 ∨ l.opener (l.held thread) = some thread
  holds : ∀ sockfd thread, l.opener sockfd = some thread → l.held thread = sockfd
  opened : ∀ sockfd, (l.state.descriptor sockfd).isSome = (l.opener sockfd).isSome
  positive : ∀ sockfd, (l.opener sockfd).isSome → 0 < sockfd
  working : ∀ thread, (l.state.phase thread).working = true → l.held thread ≠ 0

variable {l} {next : Ledger net} {action : Action net}

theorem sound_initial : (initial : Ledger net).Sound where
  slot _ := .inl rfl
  holds _ _ none := nomatch none
  opened _ := rfl
  positive _ none := nomatch none
  working _ working := nomatch working

theorem Sound.open_held (sound : l.Sound) {thread : Thread} (filled : l.held thread ≠ 0) :
    l.opener (l.held thread) = some thread ∧ (l.state.descriptor (l.held thread)).isSome := by
  have mine := (sound.slot thread).resolve_left filled
  exact ⟨mine, by rw [sound.opened, mine]; rfl⟩

theorem Sound.matches (sound : l.Sound) : l.Matches where
  slot thread := (eq_or_ne (l.held thread) 0).imp_right sound.open_held
  single sockfd isOpen := by
    rw [sound.opened] at isOpen
    obtain ⟨thread, mine⟩ := Option.isSome_iff_exists.mp isOpen
    refine ⟨thread, sound.holds sockfd thread mine, fun other same => ?_⟩
    have positive := sound.positive sockfd isOpen
    have theirs := (sound.slot other).resolve_left (by omega)
    rw [same, mine] at theirs
    exact (Option.some.inj theirs).symm
  used thread working := (sound.open_held (sound.working thread working)).2

/-- A descriptor that is in the slots of two threads is none. -/
theorem Sound.unique (sound : l.Sound) {thread other : Thread} (filled : l.held thread ≠ 0)
    (same : l.held other = l.held thread) : other = thread := by
  have mine := (sound.open_held filled).1
  have theirs := (sound.open_held (same ▸ filled)).1
  rw [same, mine] at theirs
  exact (Option.some.inj theirs).symm

/-- Some threads let go of their sockets, which are closed. -/
theorem Sound.release (sound : l.Sound) (leaving : Thread → Prop) {state : State net}
    (cleared : ∀ thread, leaving thread → (state.slot thread).sockfd = 0)
    (kept : ∀ thread, ¬ leaving thread → (state.slot thread).sockfd = l.held thread)
    (closed : ∀ thread, leaving thread → state.descriptor (l.held thread) = none)
    (others : ∀ sockfd, (∀ thread, leaving thread → l.held thread ≠ sockfd) →
      state.descriptor sockfd = l.state.descriptor sockfd)
    (working : ∀ thread, (state.phase thread).working = true → (state.slot thread).sockfd ≠ 0) :
    (Ledger.mk state fun sockfd =>
      if (state.descriptor sockfd).isSome then l.opener sockfd else none).Sound := by
  have still : ∀ sockfd, (state.descriptor sockfd).isSome = true →
      state.descriptor sockfd = l.state.descriptor sockfd := by
    intro sockfd isOpen
    apply others
    intro thread leaves same
    rw [← same, closed thread leaves] at isOpen
    cases isOpen
  refine ⟨fun thread => ?_, fun sockfd thread made => ?_, fun sockfd => ?_, fun sockfd made => ?_, working⟩
  · by_cases leaves : leaving thread
    · exact .inl (cleared thread leaves)
    · rw [held_mk, kept thread leaves]
      change l.held thread = 0 ∨ (if (state.descriptor (l.held thread)).isSome then _ else _) = _
      by_cases filled : l.held thread = 0
      · exact .inl filled
      · obtain ⟨mine, isOpen⟩ := sound.open_held filled
        have same := others (l.held thread) fun other leaves' same =>
          leaves (sound.unique filled same ▸ leaves')
        rw [same, if_pos isOpen]
        exact .inr mine
  · change (if _ then _ else _) = some thread at made
    split at made
    · next isOpen =>
        have here := sound.holds sockfd thread made
        refine (kept thread fun leaves => ?_).trans here
        rw [← here, closed thread leaves] at isOpen
        cases isOpen
    · cases made
  · change _ = Option.isSome (if _ then _ else _)
    split
    · next isOpen => rw [still sockfd isOpen, sound.opened]
    · next shut => simpa using shut
  · change Option.isSome (if _ then _ else _) = true at made
    split at made
    · exact sound.positive sockfd made
    · cases made

/-- A socket is made for a thread with an empty slot. -/
theorem Sound.connect (sound : l.Sound) {thread : Thread} {sockfd : Int} {conn : Conn net}
    {state : State net} {phase : Phase} {slot : Slot net} (empty : l.held thread = 0)
    (positive : 0 < sockfd) (free : l.state.descriptor sockfd = none) (filled : slot.sockfd = sockfd)
    (phases : state.phase = Function.update l.state.phase thread phase)
    (slots : state.slot = Function.update l.state.slot thread slot)
    (descriptor : state.descriptor = Function.update l.state.descriptor sockfd (some conn)) :
    (Ledger.mk state fun other =>
      if (state.descriptor other).isSome then
        (if other = sockfd then some thread else none).or (l.opener other)
      else none).Sound := by
  have mine : (state.slot thread).sockfd = sockfd := by rw [slots, Function.update_self, filled]
  have kept : ∀ other ≠ thread, (state.slot other).sockfd = l.held other := by
    intro other different
    rw [slots, Function.update_of_ne different]
    rfl
  have working : ∀ other, (state.phase other).working = true → (state.slot other).sockfd ≠ 0 := by
    intro other works
    by_cases same : other = thread
    · rw [same, mine]
      omega
    · rw [phases, Function.update_of_ne same] at works
      rw [kept other same]
      exact sound.working other works
  have unmade : l.opener sockfd = none := by
    have none := sound.opened sockfd
    rw [free] at none
    exact Option.not_isSome_iff_eq_none.mp (Bool.eq_false_iff.mp none.symm)
  have opener : ∀ other, (if (state.descriptor other).isSome then
      (if other = sockfd then some thread else none).or (l.opener other) else none) =
        if other = sockfd then some thread else l.opener other := by
    intro other
    rw [descriptor]
    by_cases same : other = sockfd
    · subst same
      simp
    · have opened := sound.opened other
      rw [Function.update_of_ne same, if_neg same, if_neg same, Option.none_or, opened]
      cases l.opener other <;> rfl
  simp only [opener]
  refine ⟨fun other => ?_, fun fd other made => ?_, fun fd => ?_, fun fd made => ?_, working⟩
  · rw [held_mk]
    by_cases same : other = thread
    · subst same
      rw [mine]
      exact .inr (if_pos rfl)
    · rw [kept other same]
      change _ ∨ (if l.held other = sockfd then _ else _) = _
      refine (sound.slot other).imp_right fun made => ?_
      rw [if_neg fun same => ?_]
      · exact made
      · rw [same, unmade] at made
        cases made
  · change (if fd = sockfd then _ else _) = some other at made
    split at made
    · next same =>
        obtain rfl := Option.some.inj made
        exact mine.trans same.symm
    · refine (kept other fun same => ?_).trans (sound.holds fd other made)
      have here := sound.holds fd other made
      have above := sound.positive fd (made ▸ rfl)
      rw [same, empty] at here
      omega
  · change (state.descriptor fd).isSome = Option.isSome (if fd = sockfd then _ else _)
    rw [descriptor]
    by_cases same : fd = sockfd
    · subst same
      simp
    · rw [Function.update_of_ne same, if_neg same, sound.opened]
  · change Option.isSome (if fd = sockfd then _ else _) = true at made
    split at made
    · next same => exact same ▸ positive
    · exact sound.positive fd made

/-- The slots and the sockets are left alone. -/
theorem Sound.keep (sound : l.Sound) {state : State net}
    (slot : ∀ thread, (state.slot thread).sockfd = l.held thread)
    (descriptor : state.descriptor = l.state.descriptor)
    (working : ∀ thread, (state.phase thread).working = true →
      (l.state.phase thread).working = true ∨ l.held thread ≠ 0) :
    (Ledger.mk state fun sockfd =>
      if (state.descriptor sockfd).isSome then l.opener sockfd else none).Sound := by
  apply sound.release (fun _ => False) (fun _ => False.elim) (fun thread _ => slot thread)
    (fun _ => False.elim) (fun sockfd _ => congrFun descriptor sockfd)
  intro thread works
  rw [slot]
  exact (working thread works).elim (sound.working thread) id

/-- A thread that goes on with its slot as it is. -/
theorem works_update {s : State net} {thread : Thread} {phase : Phase}
    (filled : phase.working = true → (s.phase thread).working = true ∨ (s.slot thread).sockfd ≠ 0)
    (other : Thread) (works : (Function.update s.phase thread phase other).working = true) :
    (s.phase other).working = true ∨ (s.slot other).sockfd ≠ 0 := by
  by_cases same : other = thread
  · subst same
    rw [Function.update_self] at works
    exact filled works
  · rw [Function.update_of_ne same] at works
    exact .inl works

/-- A thread lets go of its socket, which is closed, and rests. -/
theorem Sound.leave (sound : l.Sound) (thread : Thread) (phase : Phase) {slot : Slot net}
    {state : State net} (resting : phase.working = false) (empty : slot.sockfd = 0)
    (phases : state.phase = Function.update l.state.phase thread phase)
    (slots : state.slot = Function.update l.state.slot thread slot)
    (descriptor : state.descriptor = Function.update l.state.descriptor (l.held thread) none) :
    (Ledger.mk state fun sockfd =>
      if (state.descriptor sockfd).isSome then l.opener sockfd else none).Sound := by
  have away : ∀ other ≠ thread, (state.slot other).sockfd = l.held other := by
    intro other different
    rw [slots, Function.update_of_ne different]
    rfl
  apply sound.release (fun other => other = thread)
  · rintro other rfl
    rw [slots, Function.update_self, empty]
  · exact away
  · rintro other rfl
    rw [descriptor, Function.update_self]
  · intro sockfd differs
    rw [descriptor, Function.update_of_ne (differs thread rfl).symm]
  · intro other works
    rw [phases] at works
    by_cases same : other = thread
    · rw [same, Function.update_self, resting] at works
      cases works
    · rw [Function.update_of_ne same] at works
      rw [away other same]
      exact sound.working other works

/-- The slots of the workers of a channel are destroyed with them. -/
theorem Sound.close (sound : l.Sound) {channel : ChannelId} {state : State net}
    (workers : ∀ index, l.state.phase (.worker channel index) = .idle)
    (phases : state.phase = l.state.phase)
    (empty : ∀ index, (state.slot (.worker channel index)).sockfd = 0)
    (kept : ∀ thread, (∀ index, thread ≠ .worker channel index) →
      (state.slot thread).sockfd = l.held thread)
    (descriptor : ∀ sockfd, state.descriptor sockfd =
      if ∃ index, l.held (.worker channel index) = sockfd then none
      else l.state.descriptor sockfd) :
    (Ledger.mk state fun sockfd =>
      if (state.descriptor sockfd).isSome then l.opener sockfd else none).Sound := by
  apply sound.release (fun thread => ∃ index, thread = .worker channel index)
  · rintro thread ⟨index, rfl⟩
    exact empty index
  · exact fun thread stays => kept thread fun index same => stays ⟨index, same⟩
  · rintro thread ⟨index, rfl⟩
    rw [descriptor, if_pos ⟨index, rfl⟩]
  · intro sockfd differs
    rw [descriptor, if_neg fun ⟨index, same⟩ => differs _ ⟨index, rfl⟩ same]
  · intro thread works
    rw [phases] at works
    rw [kept thread fun index same => ?_]
    · exact sound.working thread works
    · rw [same, workers index] at works
      cases works

theorem Sound.step (sound : l.Sound) (allowed : l.Allowed action) (taken : l.step action = some next) :
    next.Sound := by
  obtain ⟨state, moved, rfl⟩ := Option.map_eq_some_iff.mp taken
  cases moves_of_step moved with
  | same => exact sound.keep (fun _ => rfl) rfl fun _ => .inl
  | begin | resolve | synchro | reply =>
      exact sound.keep (fun _ => rfl) rfl (works_update nofun)
  | @close user channel idle workers =>
      refine sound.close workers ?_ ?_ ?_ ?_
      · rfl
      · exact fun index => congrArg Slot.sockfd (if_pos rfl)
      · intro thread other
        cases thread with
        | user number => rfl
        | worker own index =>
            exact congrArg Slot.sockfd (if_neg fun same => other index (by rw [same]))
      · exact fun _ => rfl
  | @exit user idle =>
      apply sound.leave (.user user) .idle rfl (show Slot.empty.sockfd = 0 from rfl)
        ?_ rfl rfl
      rw [← idle]
      exact (Function.update_eq_self _ _).symm
  | @refused thread channel msg after here empty closed =>
      have isOpen := allowed channel msg after here empty
      rw [closed] at isOpen
      cases isOpen
  | connect here opened chosen positive empty free =>
      exact sound.connect empty positive free rfl rfl rfl rfl
  | drop => exact allowed.elim
  | go leads filled ungiven =>
      simp only [ungiven, Option.none_or]
      exact sound.keep (fun _ => rfl) rfl (works_update filled)
  | write leads working => exact sound.keep (fun _ => rfl) rfl (works_update fun _ => .inl working)
  | read leads resting =>
      refine sound.keep (fun _ => rfl) rfl (works_update fun works => ?_)
      rw [resting] at works
      cases works
  | hangUp => exact allowed.elim
  | opened | unopened => exact sound.leave _ .idle rfl rfl rfl rfl rfl

/-- In every run in which no `do_recv` finds its connection closed, no new socket fails at its first
`send`, and no channel is closed under a `do_send` with an empty slot, each slot is empty or holds
an open descriptor of its thread, and each open descriptor is in exactly one slot. -/
theorem slots_match {actions : List (Action net)} {final : Ledger net}
    (run : exec step initial actions = some final)
    (allowed : Meets step Allowed (initial : Ledger net) actions) : final.Matches :=
  (allowed.invariant Sound (fun allowed sound taken => sound.step allowed taken) sound_initial run).matches

section Runs

theorem slots_match_one_channel :
    ∃ final, exec step initial openAndAsk = some final ∧ final.held (.user 0) = 3 ∧ final.Matches := by
  have allowed : Meets step Allowed (initial : Ledger names) openAndAsk := by
    apply meets_cons trivial rfl
    repeat apply meets_cons trivial rfl
    trivial
  exact ⟨_, rfl, rfl, slots_match rfl allowed⟩

/-- A channel with one request under way. -/
def askUntil (rest : List (Action names)) : List (Action names) :=
  openUp 0 0 "cog://a" 3 ++ [getConcept 0 0] ++ rest

/-- The server closes a connection, and its descriptor is given to another thread while it is still
in the slot; the first `send` on a new socket fails; a channel is closed before the `do_send` of
an operation. -/
theorem slots_mismatch :
    (∃ final, exec step initial (askUntil ([.connect (.user 0) 3 0, .greet (.user 0), .write (.user 0),
        .hangUp (.user 0), getConcept 1 0] ++ askAnew (.user 1) 3)) = some final ∧
      ¬ final.Matches) ∧
    (∃ final, exec step initial (askUntil [.drop (.user 0) 3 0]) = some final ∧ ¬ final.Matches) ∧
    ∃ final, exec step initial (askUntil [.close 1 0, .look (.user 0)]) = some final ∧
      ¬ final.Matches := by
  refine ⟨⟨_, rfl, fun matched => ?_⟩, ⟨_, rfl, fun matched => ?_⟩, ⟨_, rfl, fun matched => ?_⟩⟩
  · rcases matched.slot (.user 0) with empty | ⟨mine, _⟩
    · exact absurd empty (by decide)
    · exact absurd mine (by decide)
  · obtain ⟨thread, holds, _⟩ := matched.single 3 rfl
    rcases eq_or_ne thread (.user 0) with rfl | different
    · exact absurd holds (by decide)
    · change (Function.update (Function.update (fun _ => Slot.empty) (.user 0) _) (.user 0) _
        thread).sockfd = 3 at holds
      rw [Function.update_of_ne different, Function.update_of_ne different] at holds
      exact absurd holds (by decide)
  · rcases matched.slot (.user 0) with empty | ⟨mine, _⟩
    · exact absurd empty (by decide)
    · exact absurd mine (by decide)

end Runs

end Ledger

end AtomSpaceCog.Slots
