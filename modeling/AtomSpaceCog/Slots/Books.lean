import AtomSpaceCog.Slots.Descriptors
import Mathlib.Data.Set.Card

/-! # The counters of the channels

Every channel counts its sockets in `_nsocks`. `open_sock` counts one more when it has read the
prompt, and the destructor of a slot counts one less for the `_owner` that the slot names. The
objects are created and destroyed, and a slot may outlive the object that it names. How a step
changes the slots is said once (`Changes`).
-/

namespace AtomSpaceCog.Slots

variable {net : Net}

/-- A `CogChannel` object. -/
inductive Object where
  | unborn
  | live
  | destroyed
deriving DecidableEq

/-- The channel whose `open_sock` is reading the prompt. -/
def Phase.greets : Phase → Option ChannelId
  | .prompt channel _ _ => some channel
  | _ => none

/-- The channel whose operation a thread is in. -/
def Phase.engages : Phase → Option ChannelId
  | .opening channel _ => some channel
  | phase => phase.uses

/-- The worker threads of a channel. -/
def workersOf (channel : ChannelId) : Finset Thread := Finset.univ.image (Thread.worker channel)

theorem mem_workersOf {channel : ChannelId} {thread : Thread} :
    thread ∈ workersOf channel ↔ ∃ index, thread = .worker channel index := by
  unfold workersOf
  simp [eq_comm]

namespace Action

/-- The channel whose member function is called. -/
def enters : Action net → Option ChannelId
  | .openChannel _ channel _ | .synchro _ channel _ | .reply channel _ _ _ | .close _ channel =>
      some channel
  | _ => none

/-- The threads that end, whose slots are destroyed. -/
def ends : Action net → Finset Thread
  | .exit user => {.user user}
  | .close _ channel => workersOf channel
  | _ => ∅

/-- The thread whose slot `open_connection` empties. -/
def cleans : Action net → Finset Thread
  | .clean user => {.user user}
  | _ => ∅

end Action

namespace State

variable (s : State net)

/-- How many of the slots hold a socket and name this owner. -/
def holders (threads : Finset Thread) (channel : ChannelId) : Nat :=
  (threads.filter fun thread =>
    (s.slot thread).sockfd ≠ 0 ∧ (s.slot thread).owner = some channel).card

/-- How often a step counts one more socket for the channel. -/
def counts (action : Action net) (channel : ChannelId) : Nat :=
  match action with
  | .greet thread => if (s.phase thread).greets = some channel then 1 else 0
  | _ => 0

/-- What `close_connection` leaves; the slots of the workers are destroyed with them. -/
def shut (channel : ChannelId) : State net :=
  { s with
    servinfo := Function.update s.servinfo channel none
    staffed := Function.update s.staffed channel false
    slot := fun thread => match thread with
      | .worker own index => if own = channel then .empty else s.slot (.worker own index)
      | .user number => s.slot (.user number)
    descriptor := fun sockfd =>
      if ∃ index, (s.slot (.worker channel index)).sockfd = sockfd then none
      else s.descriptor sockfd }

theorem close_eq (user : Nat) (channel : ChannelId) : s.close user channel =
    if s.phase (.user user) = .idle ∧ (s.servinfo channel).isSome ∧
      ∀ index, s.phase (.worker channel index) = .idle then some (s.shut channel) else none := rfl

end State

/-- The threads with their sockets, and the channels with their counters. -/
structure Books (net : Net) where
  ledger : Ledger net
  object : ChannelId → Object
  /-- `_nsocks` -/
  nsocks : ChannelId → Int
  /-- How many sockets `open_connection` has closed, by their owners. -/
  probes : ChannelId → Nat
  /-- How often the counter of a destroyed channel was decremented. -/
  strays : Nat

/-- What a program does with its channels. -/
inductive Deed (net : Net) where
  /-- `new CogChannel` -/
  | create (channel : ChannelId)
  | act (action : Action net)
  /-- `~CogChannel` -/
  | destroy (user : Nat) (channel : ChannelId)

namespace Books

def initial : Books net := ⟨Ledger.initial, fun _ => .unborn, fun _ => 0, fun _ => 0, 0⟩

variable (b : Books net)

abbrev state : State net := b.ledger.state

/-- The slots that name a destroyed channel. -/
def straying (threads : Finset Thread) : Nat :=
  (threads.filter fun thread => (b.state.slot thread).sockfd ≠ 0 ∧
    (b.state.slot thread).owner.any fun channel => b.object channel = .destroyed).card

def create (channel : ChannelId) : Option (Books net) :=
  if b.object channel = .unborn then
    some { b with object := Function.update b.object channel .live }
  else none

def act (action : Action net) : Option (Books net) :=
  if action.enters.all fun channel => b.object channel = .live then
    (b.ledger.step action).map fun ledger =>
      { b with
        ledger := ledger
        nsocks := fun channel =>
          b.nsocks channel + b.state.counts action channel - b.state.holders action.ends channel
        probes := fun channel => b.probes channel + b.state.holders action.cleans channel
        strays := b.strays + b.straying action.ends }
  else none

/-- `~CogChannel` closes the connection, open or not. -/
def destroy (user : Nat) (channel : ChannelId) : Option (Books net) :=
  if b.object channel = .live ∧ b.state.phase (.user user) = .idle ∧
      ∀ index, b.state.phase (.worker channel index) = .idle then
    some { b with
      ledger :=
        { state := b.state.shut channel
          opener := fun sockfd =>
            if ((b.state.shut channel).descriptor sockfd).isSome then b.ledger.opener sockfd
            else none }
      object := Function.update b.object channel .destroyed
      nsocks := fun other => b.nsocks other - b.state.holders (workersOf channel) other
      strays := b.strays + b.straying (workersOf channel) }
  else none

def step : Deed net → Option (Books net)
  | .create channel => b.create channel
  | .act action => b.act action
  | .destroy user channel => b.destroy user channel

/-- The sockets of a channel that are still open. While `open_sock` reads the prompt, it has not
opened the socket yet. -/
def opened (channel : ChannelId) : Set Int :=
  {sockfd | ∃ conn, b.state.descriptor sockfd = some conn ∧ conn.servinfo.channel = channel ∧
    ∀ thread, (b.state.slot thread).sockfd = sockfd → (b.state.phase thread).greets = none}

/-- The counters are true, and every slot with a descriptor names a channel that is alive. -/
structure Booked : Prop where
  count : ∀ channel, b.object channel = .live → b.nsocks channel = (b.opened channel).ncard
  owner : ∀ thread, (b.state.slot thread).sockfd ≠ 0 →
    ∃ channel, (b.state.slot thread).owner = some channel ∧ b.object channel = .live
  exits : b.strays = 0

/-- No socket is lost in `do_recv` or in `open_sock`, no `do_send` with an empty slot finds that
its channel was closed, and a channel is destroyed when no thread is in an operation of it and
only its workers have sockets of it. -/
def Steady : Deed net → Prop
  | .act (.hangUp _) | .act (.drop _ _ _) => False
  | .act (.fail thread) => (b.state.phase thread).greets = none
  | .act (.look thread) => ∀ channel msg after, b.state.phase thread = .sending channel msg after →
      (b.state.slot thread).sockfd = 0 → (b.state.servinfo channel).isSome
  | .destroy _ channel => ∀ thread, (b.state.phase thread).engages ≠ some channel ∧
      (thread ∉ workersOf channel → (b.state.slot thread).sockfd ≠ 0 →
        (b.state.slot thread).owner ≠ some channel)
  | _ => True

end Books

/-! ## What a step does to the slots -/

namespace State

/-- The slots of these threads are emptied, and all else that matters stays. -/
structure Departs (s next : State net) (threads : Finset Thread) : Prop where
  resting : ∀ thread ∈ threads, (s.phase thread).greets = none
  cleared : ∀ thread ∈ threads, (next.slot thread).sockfd = 0
  kept : ∀ thread ∉ threads, next.slot thread = s.slot thread
  greets : ∀ thread, (next.phase thread).greets = (s.phase thread).greets
  fewer : ∀ sockfd conn, next.descriptor sockfd = some conn → s.descriptor sockfd = some conn

/-- How a step changes the slots. -/
inductive Changes (s : State net) : Action net → State net → Prop where
  | depart {action next} (departs : s.Departs next (action.ends ∪ action.cleans))
      (apart : action.ends = ∅ ∨ action.cleans = ∅)
      (uncounted : ∀ channel, s.counts action channel = 0) :
      Changes s action next
  | connect {thread channel msg after sockfd choice servinfo address}
      (here : s.phase thread = .sending channel msg after)
      (opened : s.servinfo channel = some servinfo) (positive : 0 < sockfd)
      (empty : (s.slot thread).sockfd = 0)
      (free : s.descriptor sockfd = none) :
      Changes s (.connect thread sockfd choice) ({ s with
        descriptor := Function.update s.descriptor sockfd (some ⟨servinfo, address⟩)
        slot := Function.update s.slot thread ⟨sockfd, some channel, some servinfo⟩ }.setPhase
          thread (.prompt channel msg after))
  | greet {thread channel msg after} (here : s.phase thread = .prompt channel msg after) :
      Changes s (.greet thread) (s.setPhase thread (.writing channel msg after))

variable {s next : State net} {action : Action net}

/-- A step that only moves a thread on, which is not at the prompt. -/
theorem departs_setPhase {thread : Thread} {phase : Phase} (was : (s.phase thread).greets = none)
    (is : phase.greets = none) (phases : next.phase = Function.update s.phase thread phase)
    (slot : next.slot = s.slot) (descriptor : next.descriptor = s.descriptor) :
    s.Departs next ∅ where
  resting _ member := absurd member (Finset.notMem_empty _)
  cleared _ member := absurd member (Finset.notMem_empty _)
  kept _ _ := by rw [slot]
  greets other := by
    rw [phases]
    by_cases same : other = thread
    · rw [same, Function.update_self, is, was]
    · rw [Function.update_of_ne same]
  fewer _ _ found := by rwa [descriptor] at found

/-- A thread closes its socket and rests. -/
theorem departs_closeSlot {thread : Thread} {slot : Slot net} (was : (s.phase thread).greets = none)
    (empty : slot.sockfd = 0) (phases : next.phase = Function.update s.phase thread .idle)
    (slots : next.slot = Function.update s.slot thread slot)
    (descriptor : next.descriptor = Function.update s.descriptor (s.slot thread).sockfd none) :
    s.Departs next {thread} where
  resting other member := Finset.mem_singleton.mp member ▸ was
  cleared other member := by
    rw [Finset.mem_singleton.mp member, slots, Function.update_self, empty]
  kept other member := by
    rw [slots, Function.update_of_ne (Finset.notMem_singleton.mp member)]
  greets other := by
    rw [phases]
    by_cases same : other = thread
    · rw [same, Function.update_self, was]
      rfl
    · rw [Function.update_of_ne same]
  fewer sockfd conn found := by
    rw [descriptor] at found
    exact s.closeDescriptor_descriptor _ sockfd conn found

theorem departs_shut {channel : ChannelId}
    (idle : ∀ index, s.phase (.worker channel index) = .idle) :
    s.Departs (s.shut channel) (workersOf channel) where
  resting thread member := by
    obtain ⟨index, rfl⟩ := mem_workersOf.mp member
    rw [idle index]
    rfl
  cleared thread member := by
    obtain ⟨index, rfl⟩ := mem_workersOf.mp member
    exact congrArg Slot.sockfd (if_pos rfl)
  kept thread member := by
    cases thread with
    | user number => rfl
    | worker own index =>
        exact if_neg fun same => member (mem_workersOf.mpr ⟨index, by rw [same]⟩)
  greets _ := rfl
  fewer sockfd conn found := by
    change (if _ then none else s.descriptor sockfd) = some conn at found
    split at found
    · cases found
    · exact found

theorem thrown_greets (thread : Thread) (channel : ChannelId) (after : After) :
    (thrown thread channel after).greets = none := by
  cases after <;> cases thread <;> rfl

end State

variable {b : Books net} {action : Action net} {next : State net}

open State

/-- A step that only moves a thread on changes no slot. -/
theorem changes_of_setPhase {s : State net} {thread : Thread} {phase : Phase}
    (was : (s.phase thread).greets = none) (is : phase.greets = none)
    (phases : next.phase = Function.update s.phase thread phase) (slot : next.slot = s.slot)
    (descriptor : next.descriptor = s.descriptor)
    (ends : action.ends = ∅) (cleans : action.cleans = ∅)
    (uncounted : ∀ channel, s.counts action channel = 0) : s.Changes action next := by
  apply Changes.depart _ (Or.inl ends) uncounted
  rw [ends, cleans, Finset.union_idempotent]
  exact departs_setPhase was is phases slot descriptor

theorem changes_of_step (taken : b.state.step action = some next)
    (steady : b.Steady (.act action)) :
    b.state.Changes action next := by
  cases action with
  | openChannel user channel uri =>
      simp only [State.step, openChannel] at taken
      split at taken
      · next idle =>
          split at taken
          · obtain rfl := Option.some.inj taken
            have phases : b.state.phase =
                Function.update b.state.phase (.user user) (.idle : Phase) := by
              rw [← idle, Function.update_eq_self]
            exact changes_of_setPhase (by rw [idle]; rfl) rfl phases rfl rfl rfl rfl fun _ => rfl
          · obtain rfl := Option.some.inj taken
            exact changes_of_setPhase (by rw [idle]; rfl) rfl rfl rfl rfl rfl rfl fun _ => rfl
      · cases taken
  | resolve user =>
      simp only [State.step, State.resolve] at taken
      split at taken
      · next channel uri here =>
          split at taken <;> obtain rfl := Option.some.inj taken <;>
            exact changes_of_setPhase (by rw [here]; rfl) rfl rfl rfl rfl rfl rfl fun _ => rfl
      · cases taken
  | synchro user channel msg =>
      simp only [State.step, State.synchro] at taken
      split at taken
      · next both =>
          obtain rfl := Option.some.inj taken
          exact changes_of_setPhase (by rw [both.1]; rfl) rfl rfl rfl rfl rfl rfl fun _ => rfl
      · cases taken
  | reply channel index msg noreply =>
      simp only [State.step, State.reply] at taken
      split at taken
      · next both =>
          obtain rfl := Option.some.inj taken
          exact changes_of_setPhase (by rw [both.1]; rfl) rfl rfl rfl rfl rfl rfl fun _ => rfl
      · cases taken
  | close user channel =>
      simp only [State.step, close_eq] at taken
      split at taken
      · next all =>
          obtain rfl := Option.some.inj taken
          refine .depart ?_ (Or.inr rfl) fun _ => rfl
          simp only [Action.ends, Action.cleans, Finset.union_empty]
          exact departs_shut all.2.2
      · cases taken
  | exit user =>
      simp only [State.step, State.exit] at taken
      split at taken
      · next idle =>
          obtain rfl := Option.some.inj taken
          refine .depart ?_ (Or.inr rfl) fun _ => rfl
          simp only [Action.ends, Action.cleans, Finset.union_empty]
          have empty : (Slot.empty : Slot net).sockfd = 0 := rfl
          refine departs_closeSlot (by rw [idle]; rfl) empty ?_ rfl rfl
          rw [← idle, Function.update_eq_self]
          rfl
      · cases taken
  | look thread =>
      simp only [State.step, look] at taken
      split at taken
      · next channel msg after here =>
          split at taken
          · obtain rfl := Option.some.inj taken
            exact changes_of_setPhase (by rw [here]; rfl) rfl rfl rfl rfl rfl rfl fun _ => rfl
          · next empty =>
              have isOpen := steady channel msg after here (not_not.mp empty)
              split at taken
              · next closed =>
                  rw [Option.isNone_iff_eq_none.mp closed] at isOpen
                  cases isOpen
              · cases taken
      · cases taken
  | connect thread sockfd choice =>
      simp only [State.step, State.connect] at taken
      split at taken
      · next channel msg after here =>
          obtain ⟨servinfo, opened, taken⟩ := Option.bind_eq_some_iff.mp taken
          obtain ⟨address, chosen, taken⟩ := Option.bind_eq_some_iff.mp taken
          split at taken
          · next all =>
              obtain rfl := Option.some.inj taken
              exact .connect here opened all.2.1 all.1 (Option.isNone_iff_eq_none.mp all.2.2)
          · cases taken
      · cases taken
  | drop => exact steady.elim
  | greet thread =>
      simp only [State.step, State.greet] at taken
      split at taken
      · next here =>
          obtain rfl := Option.some.inj taken
          exact .greet here
      · cases taken
  | write thread =>
      simp only [State.step, State.write] at taken
      split at taken
      · next channel msg after here =>
          split at taken
          · obtain rfl := Option.some.inj taken
            refine changes_of_setPhase (by rw [here]; rfl) ?_ rfl rfl rfl rfl rfl fun _ => rfl
            split <;> rfl
          · cases taken
      · cases taken
  | read thread reply =>
      simp only [State.step, State.read] at taken
      split at taken
      · next channel after here =>
          split at taken
          · split at taken <;> obtain rfl := Option.some.inj taken <;>
              exact changes_of_setPhase (by rw [here]; rfl) rfl rfl rfl rfl rfl rfl fun _ => rfl
          · cases taken
      · cases taken
  | hangUp => exact steady.elim
  | fail thread =>
      have was : (b.state.phase thread).greets = none := steady
      simp only [State.step, State.fail] at taken
      split at taken
      case h_5 => cases taken
      all_goals
        obtain rfl := Option.some.inj taken
        exact changes_of_setPhase was (thrown_greets _ _ _) rfl rfl rfl rfl rfl fun _ => rfl
  | clean user =>
      simp only [State.step, State.clean] at taken
      have cleaned : ∀ {state : State net},
          state.phase = Function.update b.state.phase (.user user) .idle →
          state.slot = (b.state.closeSlot (.user user)).slot →
          state.descriptor = (b.state.closeSlot (.user user)).descriptor →
            (b.state.phase (.user user)).greets = none → b.state.Changes (.clean user) state := by
        intro state phases slots descriptor was
        refine .depart ?_ (Or.inl rfl) fun _ => rfl
        simp only [Action.ends, Action.cleans, Finset.empty_union]
        exact departs_closeSlot was rfl phases slots descriptor
      split at taken
      · next here =>
          obtain rfl := Option.some.inj taken
          exact cleaned rfl rfl rfl (by rw [here]; rfl)
      · next here =>
          obtain rfl := Option.some.inj taken
          exact cleaned rfl rfl rfl (by rw [here]; rfl)
      · cases taken

/-- Who comes to be in an operation of a channel has entered it, or was in it. -/
theorem engages_of_step {s : State net} (taken : s.step action = some next) {thread : Thread}
    {channel : ChannelId} (engages : (next.phase thread).engages = some channel) :
    (s.phase thread).engages = some channel ∨ action.enters = some channel := by
  have moved : ∀ {mover phase}, next.phase = Function.update s.phase mover phase →
      (phase.engages = some channel → (s.phase mover).engages = some channel ∨
        action.enters = some channel) →
          (s.phase thread).engages = some channel ∨ action.enters = some channel := by
    intro mover phase phases own
    rw [phases] at engages
    by_cases same : thread = mover
    · rw [same, Function.update_self] at engages
      exact same ▸ own engages
    · rw [Function.update_of_ne same] at engages
      exact Or.inl engages
  have uses : ∀ {phase : Phase}, phase.uses = some channel → phase.engages = some channel := by
    intro phase uses
    cases phase <;> first | exact uses | cases uses
  have led : ∀ {mover phase}, (s.phase mover).Leads phase →
      next.phase = Function.update s.phase mover phase →
        (s.phase thread).engages = some channel ∨ action.enters = some channel := by
    intro mover phase leads phases
    refine moved phases fun engages => Or.inl (uses (leads.uses channel ?_))
    cases phase with
    | opening => exact absurd rfl (leads.opening _ _)
    | _ => exact engages
  cases moves_of_step taken with
  | same | close | exit => exact Or.inl engages
  | begin | synchro | reply => exact moved rfl Or.inr
  | resolve here | refused here | connect here =>
      refine moved rfl fun engages => Or.inl ?_
      rw [here]
      exact engages
  | drop leads | go leads | write leads | read leads | hangUp leads => exact led leads rfl
  | opened | unopened =>
      refine moved rfl fun engages => ?_
      cases engages

end AtomSpaceCog.Slots
