import AtomSpaceCog.Slots.Steps
import AtomSpaceCog.Foundation.Transition

/-! # Whose server a channel talks to

A slot is used by whichever channel its thread works for, and nothing compares its
`_owner`. The slots of the worker threads can only belong to their own channel, since
they are created and destroyed with it. Those of the other threads have to be kept apart
by the program (`State.Careful`); then every channel writes to and reads from sockets
that it has opened since its current `open_connection`.
-/

namespace AtomSpaceCog.Slots

open Transition

variable {net : Net}

namespace State

variable (s : State net)

/-- The slot is empty, or a socket that the channel has opened since its current
`open_connection` was put into it. -/
def Own (thread : Thread) (channel : ChannelId) : Prop :=
  0 < (s.slot thread).sockfd → (s.slot thread).made = s.servinfo channel

/-- Nobody but this thread is in an operation of the channel. -/
def UsedAlone (channel : ChannelId) (user : Nat) : Prop :=
  ∀ thread ≠ .user user, (s.phase thread).uses ≠ some channel

/-- The threads keep their channels apart: a thread calls `getAtom` on a channel only
with a slot that is empty or the channel's own, and opens one only with an empty slot; a
channel is opened and closed only while no other thread is in an operation of it; and no
slot still holds the descriptor that a new socket is given. -/
def Careful : Action net → Prop
  | .openChannel user channel _ => s.servinfo channel = none → (s.slot (.user user)).sockfd ≤ 0
  | .synchro user channel _ => s.Own (.user user) channel
  | .resolve user => ∀ channel uri, s.phase (.user user) = .opening channel uri →
      s.servinfo channel = none ∧ s.UsedAlone channel user
  | .clean user => ∀ channel, s.phase (.user user) = .cleaning channel false → s.UsedAlone channel user
  | .close user channel => s.UsedAlone channel user
  | .connect _ sockfd _ | .drop _ sockfd _ => ∀ thread, (s.slot thread).sockfd ≠ sockfd
  | _ => True

/-- The thread uses the channel, or is one of its workers. -/
def Concerns (thread : Thread) (channel : ChannelId) : Prop :=
  (s.phase thread).uses = some channel ∨ ∃ index, thread = .worker channel index

/-- What holds of each thread and its slot. -/
structure Place (thread : Thread) : Prop where
  /-- The socket of the slot, if it is still open, is the one that was put there. -/
  link : ∀ conn, s.descriptor (s.slot thread).sockfd = some conn →
    (s.slot thread).made = some conn.servinfo
  own : ∀ channel, s.Concerns thread channel → s.Own thread channel
  probing : ∀ channel, (s.phase thread).probes = some channel →
    (s.servinfo channel).isSome ∧ s.staffed channel = false
  opening : ∀ channel uri, s.phase thread = .opening channel uri → (s.slot thread).sockfd ≤ 0
  worker : ∀ channel index, thread = .worker channel index →
    (∀ other, (s.phase thread).uses = some other → other = channel) ∧ (s.phase thread).probes = none ∧
      (∀ other uri, s.phase thread ≠ .opening other uri)
  /-- A channel that is closed has no worker with a socket. -/
  unstaffed : ∀ channel index, thread = .worker channel index → s.staffed channel = false →
    s.phase thread = .idle ∧ (s.slot thread).sockfd = 0

/-- What holds along a run in which the threads keep their channels apart. -/
structure Apart : Prop where
  place : ∀ thread, s.Place thread
  unset : ∀ sockfd ≤ 0, s.descriptor sockfd = none
  addressed : ∀ sockfd conn, s.descriptor sockfd = some conn → conn.address ∈ conn.servinfo.addresses
  closed : ∀ channel, s.servinfo channel = none → s.staffed channel = false
  /-- One thread at a time opens a channel. -/
  one : ∀ thread other channel, (s.phase thread).probes = some channel →
    (s.phase other).probes = some channel → thread = other

end State

/-- The bytes went over a socket connected to one of the addresses that the channel has
found when it was opened last. -/
def Traffic.Proper (traffic : Traffic net) : Prop :=
  traffic.servinfo = some traffic.conn.servinfo ∧
    traffic.conn.address ∈ traffic.conn.servinfo.addresses

theorem Phase.uses_of_probes {phase : Phase} {channel : ChannelId} (probes : phase.probes = some channel) :
    phase.uses = some channel := by
  cases phase with
  | sending _ _ after | prompt _ _ after | writing _ _ after | receiving _ after =>
      cases after <;> first | exact probes | cases probes
  | cleaning => exact probes
  | _ => cases probes

namespace State

variable {s next : State net} {action : Action net}

theorem apart_initial : (initial : State net).Apart where
  place thread :=
    { link := fun _ found => by cases found
      own := fun _ _ positive => absurd positive (lt_irrefl 0)
      probing := fun _ probes => by cases probes
      opening := fun _ _ _ => le_refl 0
      worker := fun _ _ _ => ⟨fun _ uses => (by cases uses), rfl, fun _ _ same => (by cases same)⟩
      unstaffed := fun _ _ _ _ => ⟨rfl, rfl⟩ }
  unset _ _ := rfl
  addressed _ _ found := by cases found
  closed _ _ := rfl
  one _ _ _ probes := by cases probes

/-- A thread that stays where it is, with its slot. -/
theorem Place.frame {thread : Thread} (place : s.Place thread) (slot : next.slot thread = s.slot thread)
    (phase : next.phase thread = s.phase thread)
    (descriptor : ∀ conn, next.descriptor (s.slot thread).sockfd = some conn →
      s.descriptor (s.slot thread).sockfd = some conn)
    (servinfo : ∀ channel, s.Concerns thread channel → 0 < (s.slot thread).sockfd →
      next.servinfo channel = s.servinfo channel)
    (probing : ∀ channel, (s.phase thread).probes = some channel →
      next.servinfo channel = s.servinfo channel ∧ next.staffed channel = s.staffed channel)
    (staffed : ∀ channel index, thread = .worker channel index → next.staffed channel = false →
      s.staffed channel = false) : next.Place thread where
  link conn found := by
    rw [slot] at found ⊢
    exact place.link conn (descriptor conn found)
  own channel concerns positive := by
    unfold Concerns at concerns
    rw [phase] at concerns
    rw [slot] at positive ⊢
    rw [servinfo channel concerns positive]
    exact place.own channel concerns positive
  probing channel probes := by
    rw [phase] at probes
    obtain ⟨sameInfo, sameStaff⟩ := probing channel probes
    rw [sameInfo, sameStaff]
    exact place.probing channel probes
  opening channel uri here := by
    rw [phase] at here
    rw [slot]
    exact place.opening channel uri here
  worker := by
    rw [phase]
    exact place.worker
  unstaffed channel index own empty := by
    rw [phase, slot]
    exact place.unstaffed channel index own (staffed channel index own empty)

/-- A thread goes on, and nothing else changes but that a socket may be closed. -/
theorem Apart.go (apart : s.Apart) {thread : Thread} {phase : Phase}
    (threads : next.phase = Function.update s.phase thread phase) (slot : next.slot = s.slot)
    (servinfo : next.servinfo = s.servinfo) (staffed : next.staffed = s.staffed)
    (descriptor : ∀ sockfd conn, next.descriptor sockfd = some conn → s.descriptor sockfd = some conn)
    (own : ∀ channel, phase.uses = some channel → s.Own thread channel)
    (probing : ∀ channel, phase.probes = some channel → (s.phase thread).probes = some channel)
    (opening : ∀ channel uri, phase = .opening channel uri → (s.slot thread).sockfd ≤ 0)
    (worker : ∀ channel index, thread = .worker channel index →
      (∀ other, phase.uses = some other → other = channel) ∧
        (∀ other uri, phase ≠ .opening other uri) ∧ s.staffed channel = true) : next.Apart := by
  have here : next.phase thread = phase := by rw [threads, Function.update_self]
  have away : ∀ {other}, other ≠ thread → next.phase other = s.phase other := by
    intro other different
    rw [threads, Function.update_of_ne different]
  have place := apart.place thread
  have inherited : ∀ other channel, (next.phase other).probes = some channel →
      (s.phase other).probes = some channel := by
    intro other channel probes
    by_cases same : other = thread
    · subst same
      rw [here] at probes
      exact probing channel probes
    · rwa [away same] at probes
  refine ⟨fun other => ?_, fun sockfd below => ?_, fun sockfd conn found => ?_, fun channel none => ?_,
    fun first second channel probes also => ?_⟩
  · by_cases same : other = thread
    · subst same
      refine ⟨fun conn found => ?_, fun channel concerns => ?_, fun channel probes => ?_,
        fun channel uri opens => ?_, fun channel index mine => ?_, fun channel index mine empty => ?_⟩
      · rw [slot] at found ⊢
        exact place.link conn (descriptor _ conn found)
      · unfold Own
        rw [slot, servinfo]
        rcases concerns with uses | mine
        · exact own channel (here ▸ uses)
        · exact place.own channel (Or.inr mine)
      · rw [servinfo, staffed]
        exact place.probing channel (inherited other channel probes)
      · rw [slot]
        exact opening channel uri (here ▸ opens)
      · rw [here]
        obtain ⟨uses, opens, -⟩ := worker channel index mine
        refine ⟨uses, Option.eq_none_iff_forall_not_mem.mpr fun found probes => ?_, opens⟩
        have none := (place.worker channel index mine).2.1
        rw [probing found probes] at none
        cases none
      · rw [staffed, (worker channel index mine).2.2] at empty
        cases empty
    · refine (apart.place other).frame (by rw [slot]) (away same) (fun conn => ?_)
        (fun channel _ _ => by rw [servinfo]) (fun channel _ => ⟨by rw [servinfo], by rw [staffed]⟩)
        (fun channel _ _ empty => by rwa [staffed] at empty)
      exact descriptor _ conn
  · refine Option.eq_none_iff_forall_not_mem.mpr fun conn found => ?_
    have none := apart.unset sockfd below
    rw [descriptor sockfd conn found] at none
    cases none
  · exact apart.addressed sockfd conn (descriptor sockfd conn found)
  · rw [servinfo] at none
    rw [staffed]
    exact apart.closed channel none
  · exact apart.one first second channel (inherited first channel probes) (inherited second channel also)

/-- A thread goes on in its operation. -/
theorem Apart.leads (apart : s.Apart) {thread : Thread} {phase : Phase}
    (leads : (s.phase thread).Leads phase) (threads : next.phase = Function.update s.phase thread phase)
    (slot : next.slot = s.slot) (servinfo : next.servinfo = s.servinfo) (staffed : next.staffed = s.staffed)
    (descriptor : ∀ sockfd conn, next.descriptor sockfd = some conn → s.descriptor sockfd = some conn) :
    next.Apart := by
  refine apart.go threads slot servinfo staffed descriptor (fun channel uses => ?_) leads.probes
    (fun channel uri opens => absurd opens (leads.opening channel uri)) fun channel index mine => ?_
  · exact (apart.place thread).own channel (Or.inl (leads.uses channel uses))
  · obtain ⟨uses, -, -⟩ := (apart.place thread).worker channel index mine
    refine ⟨fun other used => uses other (leads.uses other used), leads.opening, ?_⟩
    by_contra empty
    exact leads.busy ((apart.place thread).unstaffed channel index mine (Bool.eq_false_iff.mpr empty)).1

/-- A client thread is done with its slot, and has closed its socket. -/
theorem Apart.reset (apart : s.Apart) {user : Nat} {slot : Slot net} (closed : slot.sockfd = 0)
    (phases : next.phase = Function.update s.phase (.user user) .idle)
    (slots : next.slot = Function.update s.slot (.user user) slot)
    (descriptor : ∀ sockfd conn, next.descriptor sockfd = some conn → s.descriptor sockfd = some conn)
    (servinfo : ∀ thread ≠ .user user, ∀ channel, s.Concerns thread channel →
      0 < (s.slot thread).sockfd → next.servinfo channel = s.servinfo channel)
    (probing : ∀ thread ≠ .user user, ∀ channel, (s.phase thread).probes = some channel →
      next.servinfo channel = s.servinfo channel ∧ next.staffed channel = s.staffed channel)
    (staffed : ∀ channel, next.staffed channel = false → s.staffed channel = false)
    (unstaffed : ∀ channel, next.servinfo channel = none → next.staffed channel = false) :
    next.Apart := by
  have here : next.phase (.user user) = .idle := by rw [phases, Function.update_self]
  have mine : next.slot (.user user) = slot := by rw [slots, Function.update_self]
  have away : ∀ {thread}, thread ≠ .user user → next.phase thread = s.phase thread := by
    intro thread different
    rw [phases, Function.update_of_ne different]
  have unset : ∀ sockfd ≤ 0, next.descriptor sockfd = none := by
    refine fun sockfd below => Option.eq_none_iff_forall_not_mem.mpr fun conn found => ?_
    have none := apart.unset sockfd below
    rw [descriptor sockfd conn found] at none
    cases none
  have inherited : ∀ thread channel, (next.phase thread).probes = some channel →
      (s.phase thread).probes = some channel := by
    intro thread channel probes
    by_cases same : thread = .user user
    · rw [same, here] at probes
      cases probes
    · rwa [away same] at probes
  refine ⟨fun thread => ?_, unset, fun sockfd conn found => apart.addressed sockfd conn (descriptor sockfd conn found),
    unstaffed, fun first second channel probes also =>
      apart.one first second channel (inherited first channel probes) (inherited second channel also)⟩
  by_cases same : thread = .user user
  · subst same
    refine ⟨fun conn found => ?_, fun channel _ positive => ?_, fun channel probes => ?_,
      fun channel uri opens => ?_, fun _ _ own => ?_, fun _ _ own => ?_⟩
    · rw [mine, closed, unset 0 (le_refl 0)] at found
      cases found
    · rw [mine, closed] at positive
      exact absurd positive (lt_irrefl 0)
    · rw [here] at probes
      cases probes
    · rw [mine, closed]
    · cases own
    · cases own
  · refine (apart.place thread).frame (by rw [slots, Function.update_of_ne same]) (away same)
      (fun conn => descriptor _ conn) (servinfo thread same) (probing thread same)
      fun channel _ _ => staffed channel

theorem closeDescriptor_descriptor (s : State net) (closed sockfd : Int) (conn : Conn net)
    (found : (s.closeDescriptor closed).descriptor sockfd = some conn) : s.descriptor sockfd = some conn := by
  unfold closeDescriptor at found
  by_cases same : sockfd = closed
  · subst same
    simp only [Function.update_self] at found
    cases found
  · simpa only [Function.update_of_ne same] using found

/-- Another thread than the one that opens a channel does not. -/
theorem Apart.not_probes (apart : s.Apart) {thread other : Thread} {channel : ChannelId}
    (probes : (s.phase thread).probes = some channel) (different : other ≠ thread) :
    (s.phase other).probes ≠ some channel :=
  fun also => different (apart.one other thread channel also probes)

theorem Apart.step_resolve (apart : s.Apart) {user : Nat} {channel : ChannelId} {uri : Str}
    {addresses : List net.Address} (here : s.phase (.user user) = .opening channel uri)
    (unopened : s.servinfo channel = none) (alone : s.UsedAlone channel user) :
    ({ s with
      servinfo := Function.update s.servinfo channel (some ⟨channel, s.openings, addresses⟩)
      openings := s.openings + 1 }.setPhase (.user user) (.sending channel probeText .probe)).Apart := by
  have empty := apart.closed channel unopened
  have vacant := (apart.place (.user user)).opening channel uri here
  have unused : ∀ thread, (s.phase thread).uses ≠ some channel := by
    intro thread uses
    by_cases same : thread = .user user
    · rw [same, here] at uses
      cases uses
    · exact alone thread same uses
  have others : ∀ thread probed, thread ≠ .user user →
      (Function.update s.phase (.user user) (.sending channel probeText .probe) thread).probes = some probed →
        (s.phase thread).probes = some probed ∧ probed ≠ channel := by
    intro thread probed different probes
    rw [Function.update_of_ne different] at probes
    refine ⟨probes, ?_⟩
    rintro rfl
    exact unused thread (Phase.uses_of_probes probes)
  refine ⟨fun thread => ?_, apart.unset, apart.addressed, fun other none => ?_,
    fun first second probed one also => ?_⟩
  · by_cases same : thread = .user user
    · subst same
      have phase : ∀ {probed}, Phase.probes (Function.update s.phase (.user user)
          (.sending channel probeText .probe) (.user user)) = some probed → channel = probed := by
        intro probed one
        rw [Function.update_self] at one
        exact Option.some.inj one
      refine ⟨(apart.place _).link, fun _ _ positive => absurd vacant (not_le.mpr positive),
        fun probed one => ?_, fun _ _ _ => vacant, fun _ _ own => ?_, fun _ _ own => ?_⟩
      · obtain rfl := phase one
        exact ⟨by simp [setPhase], empty⟩
      · cases own
      · cases own
    · refine (apart.place thread).frame rfl (Function.update_of_ne same _ _) (fun _ found => found)
        (fun other concerns positive => Function.update_of_ne ?_ _ _)
        (fun other probes => ⟨Function.update_of_ne ?_ _ _, rfl⟩) fun _ _ _ empty => empty
      · rintro rfl
        rcases concerns with uses | ⟨index, rfl⟩
        · exact unused thread uses
        · rw [((apart.place _).unstaffed other index rfl empty).2] at positive
          exact lt_irrefl 0 positive
      · rintro rfl
        exact unused thread (Phase.uses_of_probes probes)
  · by_cases same : other = channel
    · exact same ▸ empty
    · exact apart.closed other ((Function.update_of_ne same _ _).symm.trans none)
  · by_cases mine : first = .user user <;> by_cases yours : second = .user user
    · exact mine.trans yours.symm
    · subst mine
      have own : channel = probed := by simpa [setPhase, Phase.probes] using one
      exact absurd own.symm (others second probed yours also).2
    · subst yours
      have own : channel = probed := by simpa [setPhase, Phase.probes] using also
      exact absurd own.symm (others first probed mine one).2
    · exact apart.one first second probed (others first probed mine one).1 (others second probed yours also).1

theorem Apart.step_close (apart : s.Apart) {user : Nat} {channel : ChannelId}
    (idle : s.phase (.user user) = .idle) (workers : ∀ index, s.phase (.worker channel index) = .idle)
    (alone : s.UsedAlone channel user) :
    ({ s with
      servinfo := Function.update s.servinfo channel none
      staffed := Function.update s.staffed channel false
      slot := fun thread => match thread with
        | .worker own index => if own = channel then .empty else s.slot (.worker own index)
        | .user number => s.slot (.user number)
      descriptor := fun sockfd =>
        if ∃ index, (s.slot (.worker channel index)).sockfd = sockfd then none
        else s.descriptor sockfd } : State net).Apart := by
  have unused : ∀ thread, (s.phase thread).uses ≠ some channel := by
    intro thread uses
    by_cases same : thread = .user user
    · rw [same, idle] at uses
      cases uses
    · exact alone thread same uses
  have descriptor : ∀ (sockfd : Int) (conn : Conn net),
      (if ∃ index, (s.slot (.worker channel index)).sockfd = sockfd then none else s.descriptor sockfd) =
        some conn → s.descriptor sockfd = some conn := by
    intro sockfd conn found
    split at found
    · cases found
    · exact found
  have unset : ∀ sockfd ≤ 0,
      (if ∃ index, (s.slot (.worker channel index)).sockfd = sockfd then none else s.descriptor sockfd) =
        none := by
    intro sockfd below
    split
    · rfl
    · exact apart.unset sockfd below
  have untouched : ∀ thread, (¬ ∃ index, thread = .worker channel index) →
      (match thread with
        | .worker own index => if own = channel then Slot.empty else s.slot (.worker own index)
        | .user number => s.slot (.user number)) = s.slot thread := by
    intro thread other
    cases thread with
    | user => rfl
    | worker own index => exact if_neg fun same => other ⟨index, by rw [same]⟩
  refine ⟨fun thread => ?_, unset, fun sockfd conn found => apart.addressed sockfd conn (descriptor _ conn found),
    fun other none => ?_, apart.one⟩
  · by_cases mine : ∃ index, thread = .worker channel index
    · obtain ⟨index, rfl⟩ := mine
      have none : (if channel = channel then Slot.empty else s.slot (.worker channel index)) = Slot.empty :=
        if_pos rfl
      refine ⟨fun conn found => ?_, fun _ _ positive => ?_, fun probed one => ?_, fun _ _ opens => ?_,
        fun other also same => ?_, fun other also same _ => ⟨workers index, ?_⟩⟩
      all_goals dsimp only at *
      · rw [none] at found
        cases (unset 0 (le_refl 0)).symm.trans found
      · rw [none] at positive
        exact absurd positive (lt_irrefl 0)
      · rw [workers] at one
        cases one
      · rw [workers] at opens
        cases opens
      · exact (apart.place _).worker other also same
      · rw [none]
        rfl
    · refine (apart.place thread).frame (untouched thread mine) rfl (fun conn => descriptor _ conn)
        (fun other concerns _ => Function.update_of_ne ?_ _ _)
        (fun other probes => ⟨Function.update_of_ne ?_ _ _, Function.update_of_ne ?_ _ _⟩)
        fun other index own empty => ?_
      · rintro rfl
        rcases concerns with uses | worker
        · exact unused thread uses
        · exact mine worker
      · rintro rfl
        exact unused thread (Phase.uses_of_probes probes)
      · rintro rfl
        exact unused thread (Phase.uses_of_probes probes)
      · have different : other ≠ channel := by
          rintro rfl
          exact mine ⟨index, own⟩
        exact (Function.update_of_ne different _ _).symm.trans empty
  · by_cases same : other = channel
    · subst same
      exact Function.update_self ..
    · exact (Function.update_of_ne same _ _).trans
        (apart.closed other ((Function.update_of_ne same _ _).symm.trans none))

/-- A thread in `do_send` fills its empty slot. -/
theorem Apart.refill (apart : s.Apart) {thread : Thread} {channel : ChannelId} {msg : Str}
    {after : After} {phase : Phase} {slot : Slot net} (here : s.phase thread = .sending channel msg after)
    (uses : phase.uses = some channel) (probes : phase.probes = (s.phase thread).probes)
    (phases : next.phase = Function.update s.phase thread phase)
    (slots : next.slot = Function.update s.slot thread slot) (servinfo : next.servinfo = s.servinfo)
    (staffed : next.staffed = s.staffed) (unset : ∀ sockfd ≤ 0, next.descriptor sockfd = none)
    (addressed : ∀ sockfd conn, next.descriptor sockfd = some conn →
      conn.address ∈ conn.servinfo.addresses)
    (others : ∀ other ≠ thread, next.descriptor (s.slot other).sockfd = s.descriptor (s.slot other).sockfd)
    (link : ∀ conn, next.descriptor slot.sockfd = some conn → slot.made = some conn.servinfo)
    (own : 0 < slot.sockfd → slot.made = s.servinfo channel) : next.Apart := by
  have mine : next.phase thread = phase := by rw [phases, Function.update_self]
  have filled : next.slot thread = slot := by rw [slots, Function.update_self]
  have away : ∀ {other}, other ≠ thread → next.phase other = s.phase other := by
    intro other different
    rw [phases, Function.update_of_ne different]
  have place := apart.place thread
  have inherited : ∀ other, (next.phase other).probes = (s.phase other).probes := by
    intro other
    by_cases same : other = thread
    · rw [same, mine, probes]
    · rw [away same]
  have same_channel : ∀ other, s.Concerns thread other → other = channel := by
    rintro other (used | ⟨index, rfl⟩)
    · rw [here] at used
      exact (Option.some.inj used).symm
    · exact ((place.worker other index rfl).1 channel (by rw [here]; rfl)).symm
  refine ⟨fun other => ?_, unset, addressed, fun empty none => ?_, fun first second probed one also => ?_⟩
  · by_cases same : other = thread
    · subst same
      refine ⟨fun conn found => ?_, fun concerned concerns => ?_, fun probed one => ?_,
        fun opened uri opens => ?_, fun worked index me => ?_, fun worked index me empty => ?_⟩
      · rw [filled] at found ⊢
        exact link conn found
      · unfold Own
        rw [filled, servinfo]
        rcases concerns with used | worker
        · rw [mine, uses] at used
          exact Option.some.inj used ▸ own
        · exact same_channel concerned (Or.inr worker) ▸ own
      · rw [servinfo, staffed]
        exact place.probing probed (inherited other ▸ one)
      · rw [mine] at opens
        rw [opens] at uses
        cases uses
      · rw [inherited, mine]
        obtain ⟨used, probing, -⟩ := place.worker worked index me
        refine ⟨fun also same => ?_, probing, fun also uri opens => ?_⟩
        · rw [uses] at same
          exact Option.some.inj same ▸ used channel (by rw [here]; rfl)
        · rw [opens] at uses
          cases uses
      · rw [staffed] at empty
        have idle := (place.unstaffed worked index me empty).1
        rw [here] at idle
        cases idle
    · refine (apart.place other).frame (by rw [slots, Function.update_of_ne same]) (away same)
        (fun conn found => others other same ▸ found) (fun _ _ _ => by rw [servinfo])
        (fun _ _ => ⟨by rw [servinfo], by rw [staffed]⟩) fun _ _ _ empty => by rwa [staffed] at empty
  · rw [servinfo] at none
    rw [staffed]
    exact apart.closed empty none
  · rw [inherited] at one also
    exact apart.one first second probed one also

theorem Apart.step_connect (apart : s.Apart) {thread : Thread} {channel : ChannelId} {msg : Str}
    {after : After} {sockfd : Int} {servinfo : Servinfo net} {address : net.Address}
    (here : s.phase thread = .sending channel msg after) (opened : s.servinfo channel = some servinfo)
    (chosen : address ∈ servinfo.addresses) (positive : 0 < sockfd)
    (fresh : ∀ thread, (s.slot thread).sockfd ≠ sockfd) :
    ({ s with
      descriptor := Function.update s.descriptor sockfd (some ⟨servinfo, address⟩)
      slot := Function.update s.slot thread ⟨sockfd, some channel, some servinfo⟩ }.setPhase
        thread (.prompt channel msg after)).Apart := by
  have placed : Function.update s.descriptor sockfd (some ⟨servinfo, address⟩) sockfd =
      some ⟨servinfo, address⟩ := Function.update_self ..
  refine apart.refill here rfl (by rw [here]; cases after <;> rfl) rfl rfl rfl rfl (fun below under => ?_)
    (fun other conn found => ?_) (fun other _ => ?_) (fun conn found => ?_) fun _ => opened.symm
  · have different : below ≠ sockfd := by omega
    exact (Function.update_of_ne different _ _).trans (apart.unset below under)
  · by_cases same : other = sockfd
    · subst same
      obtain rfl := Option.some.inj (placed.symm.trans found)
      exact chosen
    · exact apart.addressed other conn ((Function.update_of_ne same _ _).symm.trans found)
  · exact Function.update_of_ne (fresh other) _ _
  · obtain rfl := Option.some.inj (placed.symm.trans found)
    rfl

/-- A socket that is put into no slot. -/
theorem Apart.step_drop (apart : s.Apart) {thread : Thread} {phase : Phase} {sockfd : Int}
    {servinfo : Servinfo net} {address : net.Address} (leads : (s.phase thread).Leads phase)
    (chosen : address ∈ servinfo.addresses) (positive : 0 < sockfd)
    (fresh : ∀ thread, (s.slot thread).sockfd ≠ sockfd) :
    ({ s with
      descriptor := Function.update s.descriptor sockfd (some ⟨servinfo, address⟩) }.setPhase
        thread phase).Apart := by
  have gone : (s.setPhase thread phase).Apart :=
    apart.leads leads rfl rfl rfl rfl fun _ _ found => found
  refine ⟨fun other => ?_, fun below under => ?_, fun other conn found => ?_, gone.closed, gone.one⟩
  · refine (gone.place other).frame rfl rfl (fun conn found => ?_) (fun _ _ _ => rfl)
      (fun _ _ => ⟨rfl, rfl⟩) fun _ _ _ empty => empty
    exact (Function.update_of_ne (fresh other) _ _).symm.trans found
  · have different : below ≠ sockfd := by omega
    exact (Function.update_of_ne different _ _).trans (apart.unset below under)
  · by_cases same : other = sockfd
    · subst same
      have placed : Function.update s.descriptor other (some ⟨servinfo, address⟩) other =
          some ⟨servinfo, address⟩ := Function.update_self ..
      obtain rfl := Option.some.inj (placed.symm.trans found)
      exact chosen
    · exact apart.addressed other conn ((Function.update_of_ne same _ _).symm.trans found)

theorem Apart.step (apart : s.Apart) (careful : s.Careful action) (taken : s.step action = some next) :
    next.Apart := by
  cases moves_of_step taken with
  | same => exact apart
  | begin idle closed =>
      refine apart.go rfl rfl rfl rfl (fun _ _ found => found) (fun _ uses => by cases uses)
        (fun _ probes => by cases probes) (fun _ _ _ => careful closed) fun _ _ mine => by cases mine
  | resolve here found =>
      obtain ⟨unopened, alone⟩ := careful _ _ here
      exact apart.step_resolve here unopened alone
  | synchro idle =>
      refine apart.go rfl rfl rfl rfl (fun _ _ found => found) (fun channel uses => ?_)
        (fun _ probes => by cases probes) (fun _ _ opens => by cases opens) fun _ _ mine => by cases mine
      exact Option.some.inj uses ▸ careful
  | @reply channel index msg noreply after known idle staffed =>
      refine apart.go rfl rfl rfl rfl (fun _ _ found => found) (fun other uses => ?_)
        (fun other probes => ?_) (fun _ _ opens => by cases opens) fun _ _ mine => ?_
      · exact (apart.place _).own other (Option.some.inj uses ▸ Or.inr ⟨index, rfl⟩)
      · cases after <;> first | exact absurd rfl known | cases probes
      · cases mine
        exact ⟨fun other uses => (Option.some.inj uses).symm, fun _ _ opens => (by cases opens), staffed⟩
  | close idle workers => exact apart.step_close idle workers careful
  | exit idle =>
      refine apart.reset (show (Slot.empty : Slot net).sockfd = 0 from rfl) ?_ rfl (s.closeDescriptor_descriptor _) (fun _ _ _ _ _ => rfl)
        (fun _ _ _ _ => ⟨rfl, rfl⟩) (fun _ empty => empty) apart.closed
      rw [← idle, Function.update_eq_self]
      rfl
  | @refused _ _ _ after here =>
      refine apart.refill here rfl ?_ rfl rfl rfl rfl apart.unset apart.addressed (fun _ _ => rfl)
        (fun conn found => ?_) fun positive => ?_
      · rw [here]
        cases after <;> rfl
      · cases (apart.unset (-1) (by decide)).symm.trans found
      · exact absurd positive (show ¬ (0 : Int) < -1 by decide)
  | connect here opened chosen positive => exact apart.step_connect here opened chosen positive careful
  | drop leads _ chosen positive => exact apart.step_drop leads chosen positive careful
  | go leads | write leads | read leads =>
      exact apart.leads leads rfl rfl rfl rfl fun _ _ found => found
  | hangUp leads => exact apart.leads leads rfl rfl rfl rfl (s.closeDescriptor_descriptor _)
  | @opened user channel here =>
      have probes : (s.phase (.user user)).probes = some channel := by rw [here]; rfl
      obtain ⟨isOpen, -⟩ := (apart.place _).probing channel probes
      refine apart.reset rfl rfl rfl (s.closeDescriptor_descriptor _) (fun _ _ _ _ _ => rfl)
        (fun thread different other also => ⟨rfl, ?_⟩) (fun other empty => ?_) fun other shut => ?_
      · refine Function.update_of_ne (fun same => ?_) _ _
        exact apart.not_probes probes different (same ▸ also)
      · by_cases same : other = channel
        · subst same
          cases (Function.update_self ..).symm.trans empty
        · exact (Function.update_of_ne same _ _).symm.trans empty
      · have different : other ≠ channel := by
          rintro rfl
          rw [show s.servinfo other = none from shut] at isOpen
          cases isOpen
        exact (Function.update_of_ne different _ _).trans (apart.closed other shut)
  | @unopened user channel here =>
      have probes : (s.phase (.user user)).probes = some channel := by rw [here]; rfl
      obtain ⟨-, empty⟩ := (apart.place _).probing channel probes
      refine apart.reset rfl rfl rfl (s.closeDescriptor_descriptor _)
        (fun thread different other concerns positive => Function.update_of_ne (fun same => ?_) _ _)
        (fun thread different other also => ⟨Function.update_of_ne (fun same => ?_) _ _, rfl⟩)
        (fun _ empty => empty) fun other none => ?_
      · subst same
        rcases concerns with uses | ⟨index, rfl⟩
        · exact careful _ here thread different uses
        · rw [((apart.place _).unstaffed other index rfl empty).2] at positive
          exact absurd positive (lt_irrefl 0)
      · exact apart.not_probes probes different (same ▸ also)
      · by_cases same : other = channel
        · exact same ▸ empty
        · exact apart.closed other ((Function.update_of_ne same _ _).symm.trans none)

/-- A thread that uses its slot for a channel uses a socket of the channel. -/
theorem Apart.proper (apart : s.Apart) {thread : Thread} {channel : ChannelId} {text : Str}
    {conn : Conn net} (uses : (s.phase thread).uses = some channel)
    (found : s.descriptor (s.slot thread).sockfd = some conn) :
    (Traffic.mk channel (s.servinfo channel) text conn).Proper := by
  have positive : 0 < (s.slot thread).sockfd := by
    by_contra below
    rw [apart.unset _ (not_lt.mp below)] at found
    cases found
  have place := apart.place thread
  exact ⟨(place.own channel (Or.inl uses) positive).symm.trans (place.link conn found),
    apart.addressed _ conn found⟩

/-- Everything that was sent or handed to a handler went over a socket of its channel. -/
def Proper (s : State net) : Prop := ∀ traffic ∈ s.sent ++ s.handed, traffic.Proper

theorem Proper.step (proper : s.Proper) (apart : s.Apart) (taken : s.step action = some next) :
    next.Proper := by
  cases moves_of_step taken with
  | write leads _ uses found =>
      intro traffic member
      rcases List.mem_append.mp member with sent | handed
      · rcases List.mem_append.mp sent with prior | new
        · exact proper traffic (List.mem_append_left _ prior)
        · exact List.mem_singleton.mp new ▸ apart.proper uses found
      · exact proper traffic (List.mem_append_right _ handed)
  | read leads _ uses found =>
      intro traffic member
      rcases List.mem_append.mp member with sent | handed
      · exact proper traffic (List.mem_append_left _ sent)
      · rcases List.mem_append.mp handed with prior | new
        · exact proper traffic (List.mem_append_right _ prior)
        · exact List.mem_singleton.mp new ▸ apart.proper uses found
  | _ => exact proper

end State

/-- In every run in which the threads keep their channels apart, all bytes that a channel
sends, and all replies that its handlers are given, go over sockets connected to the
addresses that its current `open_connection` has found. -/
theorem traffic_proper {actions : List (Action net)} {final : State net}
    (run : exec State.step State.initial actions = some final)
    (careful : Meets State.step State.Careful (State.initial : State net) actions) :
    ∀ traffic ∈ final.sent ++ final.handed, traffic.servinfo = some traffic.conn.servinfo ∧
      traffic.conn.address ∈ traffic.conn.servinfo.addresses :=
  (careful.invariant (fun s => s.Apart ∧ s.Proper)
    (fun careful holds taken => ⟨holds.1.step careful taken, holds.2.step holds.1 taken⟩)
    ⟨State.apart_initial, fun _ member => absurd member List.not_mem_nil⟩ run).2

section Runs

/-- Every host has one address, its name. -/
def names : Net := ⟨Str, fun host _ => some [host]⟩

/-- A thread opens a channel; the socket of the probe gets a descriptor. -/
def openUp (user : Nat) (channel : ChannelId) (uri : String) (sockfd : Int) : List (Action names) :=
  [.openChannel user channel (bytes uri), .resolve user, .connect (.user user) sockfd 0,
    .greet (.user user), .write (.user user), .read (.user user) (bytes "\n"), .clean user]

/-- A thread that has found its slot empty opens a socket, sends and reads the reply. -/
def askAnew (thread : Thread) (sockfd : Int) : List (Action names) :=
  [.connect thread sockfd 0, .greet thread, .write thread, .read thread (bytes "()\n")]

/-- `getAtom` of the Concept `x`. -/
def getConcept (user : Nat) (channel : ChannelId) : Action names :=
  .synchro user channel (bytes "(cog-node 'Concept \"x\")\n")

/-- A channel is opened, and a thread makes a synchronous request on it. -/
def openAndAsk : List (Action names) :=
  openUp 0 0 "cog://a:17001/x" 3 ++ [getConcept 0 0] ++ askAnew (.user 0) 3

theorem traffic_proper_one_channel :
    ∃ final, exec State.step State.initial openAndAsk = some final ∧ final.handed.length = 1 ∧
      ∀ traffic ∈ final.sent ++ final.handed, traffic.servinfo = some traffic.conn.servinfo ∧
        traffic.conn.address ∈ traffic.conn.servinfo.addresses := by
  have careful : Meets State.step State.Careful (State.initial : State names) openAndAsk := by
    refine meets_cons (fun _ => by decide) rfl ?_
    refine meets_cons ?_ rfl ?_
    · refine fun channel uri here => ⟨rfl, fun thread different uses => ?_⟩
      simp only [State.setPhase, Function.update_of_ne different] at uses
      cases uses
    refine meets_cons (fun _ => (by decide : (0 : Int) ≠ 3)) rfl ?_
    refine meets_cons trivial rfl (meets_cons trivial rfl (meets_cons trivial rfl ?_))
    refine meets_cons (fun _ here => by cases here) rfl ?_
    refine meets_cons (fun positive => by cases positive) rfl ?_
    refine meets_cons (fun thread => ?_) rfl ?_
    · rcases eq_or_ne thread (.user 0) with rfl | different
      · decide
      · change (Function.update (Function.update (fun _ => Slot.empty) (.user 0) _) (.user 0) _ thread).sockfd ≠ 3
        rw [Function.update_of_ne different, Function.update_of_ne different]
        decide
    exact meets_cons trivial rfl (meets_cons trivial rfl (meets_cons trivial rfl trivial))
  exact ⟨_, rfl, rfl, traffic_proper rfl careful⟩

/-- `getAtom` on one channel and then on another one, in the same thread. -/
theorem traffic_misdirected :
    ¬ ∀ (actions : List (Action names)) (final : State names),
      exec State.step State.initial actions = some final →
        ∀ traffic ∈ final.sent ++ final.handed, traffic.servinfo = some traffic.conn.servinfo ∧
          traffic.conn.address ∈ traffic.conn.servinfo.addresses := by
  intro all
  have wrong := all (openUp 0 0 "cog://a" 3 ++ openUp 0 1 "cog://b" 3 ++ [getConcept 0 0] ++
    askAnew (.user 0) 3 ++ [getConcept 0 1, .look (.user 0), .write (.user 0)]) _ rfl _
    (List.mem_append_left _ (List.mem_of_getElem? (i := 3) rfl))
  exact absurd (congrArg (Option.map Servinfo.channel) wrong.1) (by decide)

end Runs

end AtomSpaceCog.Slots
