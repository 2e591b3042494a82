import AtomSpaceCog.Slots.Books

/-! # What the counters count

The counter of a channel is the number of its open sockets and of those that
`open_connection` has closed, in every run in which the other sockets are not lost
(`Books.Steady`): each step changes the two sides alike. So the counters are true as long as no
channel has tried out a connection of its own.
-/

namespace AtomSpaceCog.Slots

open Transition State

variable {net : Net}

namespace State

/-- Every slot with a descriptor names the channel that its socket was opened for, and the channel
is alive. -/
structure Owned (s : State net) (live : ChannelId → Prop) : Prop where
  linked : ∀ thread conn, (s.slot thread).sockfd ≠ 0 →
    s.descriptor (s.slot thread).sockfd = some conn →
      (s.slot thread).owner = some conn.servinfo.channel
  greeted : ∀ thread channel, (s.phase thread).greets = some channel →
    (s.slot thread).owner = some channel
  owner : ∀ thread, (s.slot thread).sockfd ≠ 0 →
    ∃ channel, (s.slot thread).owner = some channel ∧ live channel

/-- The threads whose sockets the channel has counted. -/
def booked (s : State net) (channel : ChannelId) : Set Thread :=
  {thread | (s.slot thread).sockfd ≠ 0 ∧ (s.slot thread).owner = some channel ∧
    (s.phase thread).greets = none}

variable {s next : State net} {action : Action net} {threads : Finset Thread} {channel : ChannelId}

theorem holders_empty (s : State net) (channel : ChannelId) : s.holders ∅ channel = 0 := by
  simp only [holders, Finset.filter_empty, Finset.card_empty]

theorem Departs.booked_eq (departs : s.Departs next threads) (channel : ChannelId) :
    next.booked channel = s.booked channel \ threads := by
  ext thread
  by_cases member : thread ∈ threads
  · refine iff_of_false (fun counted => counted.1 (departs.cleared thread member)) fun counted => ?_
    exact counted.2 (Finset.mem_coe.mpr member)
  · have same : thread ∈ next.booked channel ↔ thread ∈ s.booked channel := by
      simp only [booked, Set.mem_ofPred_eq, departs.kept thread member, departs.greets]
    refine same.trans ⟨fun counted => ⟨counted, fun other => ?_⟩, And.left⟩
    exact member (Finset.mem_coe.mp other)

/-- The sockets that are counted before are those that are counted after, and those that the
emptied slots held. -/
theorem Departs.ncard_booked (departs : s.Departs next threads)
    (finite : (s.booked channel).Finite) :
    (s.booked channel).ncard = (next.booked channel).ncard + s.holders threads channel := by
  have left : s.booked channel ∩ threads = threads.filter fun thread =>
      (s.slot thread).sockfd ≠ 0 ∧ (s.slot thread).owner = some channel := by
    ext thread
    rw [Finset.coe_filter]
    constructor
    · exact fun both => ⟨Finset.mem_coe.mp both.2, both.1.1, both.1.2.1⟩
    · intro both
      exact ⟨⟨both.2.1, both.2.2, departs.resting thread both.1⟩, Finset.mem_coe.mpr both.1⟩
  have split := Set.ncard_inter_add_ncard_sdiff_eq_ncard (s.booked channel) threads finite
  rw [left, Set.ncard_coe_finset] at split
  rw [departs.booked_eq, ← split, holders]
  exact Nat.add_comm _ _

theorem Departs.owned {live : ChannelId → Prop} (departs : s.Departs next threads)
    {owned : ChannelId → Prop} (before : s.Owned owned)
    (lives : ∀ thread ∉ threads, ∀ channel, (s.slot thread).sockfd ≠ 0 →
      (s.slot thread).owner = some channel → owned channel → live channel) : next.Owned live where
  linked thread conn filled found := by
    have out : thread ∉ threads := fun member => filled (departs.cleared thread member)
    rw [departs.kept thread out] at filled found ⊢
    exact before.linked thread conn filled (departs.fewer _ conn found)
  greeted thread channel greets := by
    rw [departs.greets] at greets
    rw [departs.kept thread fun member => ?_]
    · exact before.greeted thread channel greets
    · cases greets.symm.trans (departs.resting thread member)
  owner thread filled := by
    have out : thread ∉ threads := fun member => filled (departs.cleared thread member)
    rw [departs.kept thread out] at filled ⊢
    obtain ⟨channel, owner, alive⟩ := before.owner thread filled
    exact ⟨channel, owner, lives thread out channel filled owner alive⟩

theorem Changes.owned {live : ChannelId → Prop} (changes : s.Changes action next)
    (before : s.Owned live)
    (named : ∀ channel servinfo, s.servinfo channel = some servinfo → servinfo.channel = channel)
    (isOpen : ∀ thread, (s.slot thread).sockfd ≠ 0 →
      (s.descriptor (s.slot thread).sockfd).isSome)
    (engaged : ∀ thread channel, (s.phase thread).engages = some channel → live channel) :
    next.Owned live := by
  cases changes with
  | depart departs => exact departs.owned before fun _ _ _ _ _ alive => alive
  | @connect thread own msg after sockfd choice servinfo address here opened positive empty free =>
      refine ⟨fun other conn filled found => ?_, fun other channel greets => ?_,
        fun other filled => ?_⟩
      · by_cases mine : other = thread
        · subst mine
          simp only [setPhase, Function.update_self] at found ⊢
          rw [← Option.some.inj found, named own servinfo opened]
        · simp only [setPhase, Function.update_of_ne mine] at filled found ⊢
          have different : (s.slot other).sockfd ≠ sockfd := by
            intro same
            have taken := isOpen other filled
            rw [same, free] at taken
            cases taken
          rw [Function.update_of_ne different] at found
          exact before.linked other conn filled found
      · by_cases mine : other = thread
        · subst mine
          simp only [setPhase, Function.update_self] at greets ⊢
          exact greets
        · simp only [setPhase, Function.update_of_ne mine] at greets ⊢
          exact before.greeted other channel greets
      · by_cases mine : other = thread
        · subst mine
          simp only [setPhase, Function.update_self]
          exact ⟨own, rfl, engaged other own (by rw [here]; rfl)⟩
        · simp only [setPhase, Function.update_of_ne mine] at filled ⊢
          exact before.owner other filled
  | @greet thread own msg after here =>
      refine ⟨before.linked, fun other channel greets => ?_, before.owner⟩
      by_cases mine : other = thread
      · subst mine
        simp only [setPhase, Function.update_self, Phase.greets] at greets
        cases greets
      · simp only [setPhase, Function.update_of_ne mine] at greets
        exact before.greeted other channel greets

theorem named_of_step (taken : s.step action = some next)
    (named : ∀ channel servinfo, s.servinfo channel = some servinfo → servinfo.channel = channel)
    (channel : ChannelId) (servinfo : Servinfo net)
    (found : next.servinfo channel = some servinfo) :
    servinfo.channel = channel := by
  have closed : ∀ own, Function.update s.servinfo own none channel = some servinfo →
      servinfo.channel = channel := by
    intro own found
    by_cases same : channel = own
    · rw [same, Function.update_self] at found
      cases found
    · rw [Function.update_of_ne same] at found
      exact named channel servinfo found
  cases moves_of_step taken with
  | @resolve user own uri addresses here =>
      change Function.update s.servinfo own _ channel = some servinfo at found
      by_cases same : channel = own
      · rw [same, Function.update_self] at found
        rw [← Option.some.inj found, same]
      · rw [Function.update_of_ne same] at found
        exact named channel servinfo found
  | @close user own | @unopened user own => exact closed own found
  | _ => exact named channel servinfo found

theorem Changes.counted (changes : s.Changes action next)
    (greeted : ∀ thread channel, (s.phase thread).greets = some channel →
      (s.slot thread).sockfd ≠ 0 ∧ (s.slot thread).owner = some channel)
    (finite : (s.booked channel).Finite) :
    (next.booked channel).Finite ∧
      (next.booked channel).ncard + s.holders action.ends channel +
        s.holders action.cleans channel = (s.booked channel).ncard + s.counts action channel := by
  cases changes with
  | depart departs apart uncounted =>
      constructor
      · rw [departs.booked_eq]
        exact finite.sdiff
      · have counted := departs.ncard_booked finite
        rw [uncounted]
        rcases apart with none | none
        · rw [none, Finset.empty_union] at counted
          rw [none, holders_empty]
          omega
        · rw [none, Finset.union_empty] at counted
          rw [none, holders_empty]
          omega
  | @connect thread own msg after sockfd choice servinfo address here opened positive empty free =>
      have same : ({ s with
          descriptor := Function.update s.descriptor sockfd (some ⟨servinfo, address⟩)
          slot := Function.update s.slot thread ⟨sockfd, some own, some servinfo⟩ }.setPhase
            thread (.prompt own msg after)).booked channel = s.booked channel := by
        ext other
        by_cases mine : other = thread
        · subst mine
          refine iff_of_false (fun counted => ?_) fun counted => counted.1 empty
          have greets := counted.2.2
          simp only [setPhase, Function.update_self, Phase.greets] at greets
          cases greets
        · simp only [booked, setPhase, Set.mem_ofPred_eq, Function.update_of_ne mine]
      rw [same]
      refine ⟨finite, ?_⟩
      simp only [Action.ends, Action.cleans, holders_empty, counts]
  | @greet thread own msg after here =>
      have greets : (s.phase thread).greets = some own := by rw [here]; rfl
      obtain ⟨filled, owner⟩ := greeted thread own greets
      have away : ∀ other ≠ thread,
          other ∈ (s.setPhase thread (.writing own msg after)).booked channel ↔
            other ∈ s.booked channel := by
        intro other different
        simp only [booked, setPhase, Set.mem_ofPred_eq, Function.update_of_ne different]
      have uncounted : thread ∉ s.booked channel := by
        intro counted
        cases greets.symm.trans counted.2.2
      simp only [Action.ends, Action.cleans, holders_empty, counts, greets, Option.some.injEq]
      by_cases same : own = channel
      · have more : (s.setPhase thread (.writing own msg after)).booked channel =
            insert thread (s.booked channel) := by
          ext other
          by_cases mine : other = thread
          · subst mine
            refine iff_of_true ⟨filled, same ▸ owner, ?_⟩ (Set.mem_insert _ _)
            simp only [setPhase, Function.update_self, Phase.greets]
          · rw [away other mine, Set.mem_insert_iff, or_iff_right mine]
        rw [more, Set.ncard_insert_of_notMem uncounted finite, if_pos same]
        exact ⟨finite.insert _, rfl⟩
      · have still : (s.setPhase thread (.writing own msg after)).booked channel =
            s.booked channel := by
          ext other
          by_cases mine : other = thread
          · subst mine
            refine iff_of_false (fun counted => same ?_) uncounted
            exact Option.some.inj (owner.symm.trans counted.2.1)
          · exact away other mine
        rw [still, if_neg same]
        exact ⟨finite, rfl⟩

end State

namespace Books

variable {b next : Books net} {action : Action net}

theorem Steady.allowed (steady : b.Steady (.act action)) : b.ledger.Allowed action := by
  cases action with
  | look => exact steady
  | hangUp | drop => exact steady.elim
  | _ => trivial

variable (b)

/-- What holds along a run. -/
structure Kept : Prop where
  sound : b.ledger.Sound
  named : ∀ channel servinfo, b.state.servinfo channel = some servinfo → servinfo.channel = channel
  owned : b.state.Owned fun channel => b.object channel = .live
  engaged : ∀ thread channel, (b.state.phase thread).engages = some channel →
    b.object channel = .live
  finite : ∀ channel, (b.state.booked channel).Finite
  count : ∀ channel, b.nsocks channel = (b.state.booked channel).ncard + b.probes channel
  exits : b.strays = 0

variable {b}

theorem kept_initial : (initial : Books net).Kept where
  sound := Ledger.sound_initial
  named _ _ found := by cases found
  owned :=
    { linked := fun _ _ filled => absurd rfl filled
      greeted := fun _ _ greets => by cases greets
      owner := fun _ filled => absurd rfl filled }
  engaged _ _ engages := by cases engages
  finite channel := Set.Finite.subset Set.finite_empty fun _ counted => counted.1 rfl
  count channel := by
    have none : (initial : Books net).state.booked channel = ∅ :=
      Set.eq_empty_of_forall_notMem fun _ counted => counted.1 rfl
    rw [none, Set.ncard_empty]
    rfl
  exits := rfl

theorem Kept.straying (kept : b.Kept) (threads : Finset Thread) : b.straying threads = 0 := by
  refine Finset.card_eq_zero.mpr (Finset.filter_eq_empty_iff.mpr fun thread _ stray => ?_)
  obtain ⟨channel, owner, live⟩ := kept.owned.owner thread stray.1
  have destroyed := stray.2
  rw [owner, Option.any_some, decide_eq_true_eq, live] at destroyed
  cases destroyed

theorem Kept.greets (kept : b.Kept) (thread : Thread) (channel : ChannelId)
    (greets : (b.state.phase thread).greets = some channel) :
    (b.state.slot thread).sockfd ≠ 0 ∧ (b.state.slot thread).owner = some channel := by
  refine ⟨kept.sound.working thread ?_, kept.owned.greeted thread channel greets⟩
  cases phase : b.state.phase thread with
  | prompt => rfl
  | _ =>
      rw [phase] at greets
      cases greets

/-- The sockets that are open are those that are counted. -/
theorem Kept.opened_eq (kept : b.Kept) (channel : ChannelId) :
    b.opened channel = b.ledger.held '' b.state.booked channel := by
  ext sockfd
  constructor
  · rintro ⟨conn, found, own, settled⟩
    obtain ⟨thread, holds, -⟩ := kept.sound.matches.single sockfd (found ▸ rfl)
    have positive := kept.sound.positive sockfd (kept.sound.opened sockfd ▸ found ▸ rfl)
    have filled : b.ledger.held thread ≠ 0 := by omega
    have held : b.state.descriptor (b.ledger.held thread) = some conn := by rw [holds, found]
    have owner := kept.owned.linked thread conn filled held
    exact ⟨thread, ⟨filled, own ▸ owner, settled thread holds⟩, holds⟩
  · rintro ⟨thread, ⟨filled, owner, settled⟩, rfl⟩
    obtain ⟨conn, found⟩ := Option.isSome_iff_exists.mp (kept.sound.open_held filled).2
    have linked := kept.owned.linked thread conn filled found
    refine ⟨conn, found, Option.some.inj (linked.symm.trans owner), fun other same => ?_⟩
    rw [kept.sound.unique filled same]
    exact settled

theorem Kept.ncard_opened (kept : b.Kept) (channel : ChannelId) :
    (b.opened channel).ncard = (b.state.booked channel).ncard := by
  rw [kept.opened_eq]
  apply Set.InjOn.ncard_image
  intro thread counted other _ same
  exact (kept.sound.unique counted.1 same.symm).symm

theorem Kept.step_create (kept : b.Kept) {channel : ChannelId}
    (taken : b.create channel = some next) : next.Kept := by
  unfold create at taken
  split at taken
  · obtain rfl := Option.some.inj taken
    have alive : ∀ own, b.object own = .live →
        Function.update b.object channel .live own = .live := by
      intro own live
      by_cases same : own = channel
      · rw [same, Function.update_self]
      · rwa [Function.update_of_ne same]
    exact {
      sound := kept.sound
      named := kept.named
      owned := ⟨kept.owned.linked, kept.owned.greeted, fun thread filled =>
        (kept.owned.owner thread filled).imp fun own both => ⟨both.1, alive own both.2⟩⟩
      engaged := fun thread own engages => alive own (kept.engaged thread own engages)
      finite := kept.finite
      count := kept.count
      exits := kept.exits }
  · cases taken

theorem Kept.step_act (kept : b.Kept) (steady : b.Steady (.act action))
    (taken : b.act action = some next) : next.Kept := by
  unfold act at taken
  split at taken
  · next entered =>
      obtain ⟨ledger, moved, rfl⟩ := Option.map_eq_some_iff.mp taken
      have sound := kept.sound.step steady.allowed moved
      obtain ⟨state, went, rfl⟩ := Option.map_eq_some_iff.mp moved
      have changes := changes_of_step went steady
      have counted := fun channel => changes.counted kept.greets (kept.finite channel)
      exact {
        sound := sound
        named := named_of_step went kept.named
        owned := changes.owned kept.owned kept.named
          (fun thread filled => (kept.sound.open_held filled).2) kept.engaged
        engaged := by
          intro thread channel engages
          rcases engages_of_step went engages with already | enters
          · exact kept.engaged thread channel already
          · rw [enters, Option.all_some, decide_eq_true_eq] at entered
            exact entered
        finite := fun channel => (counted channel).1
        count := by
          intro channel
          have before := kept.count channel
          have after := (counted channel).2
          change b.nsocks channel + b.state.counts action channel -
              b.state.holders action.ends channel =
            (state.booked channel).ncard +
              (b.probes channel + b.state.holders action.cleans channel : Nat)
          omega
        exits := by
          change b.strays + b.straying action.ends = 0
          rw [kept.exits, kept.straying] }
  · cases taken

theorem Kept.step_destroy (kept : b.Kept) {user : Nat} {channel : ChannelId}
    (steady : b.Steady (.destroy user channel)) (taken : b.destroy user channel = some next) :
    next.Kept := by
  unfold destroy at taken
  split at taken
  · next all =>
      obtain rfl := Option.some.inj taken
      have departs := departs_shut all.2.2
      have alive : ∀ own, own ≠ channel → b.object own = .live →
          Function.update b.object channel .destroyed own = .live := by
        intro own different live
        rwa [Function.update_of_ne different]
      exact {
        sound := by
          refine kept.sound.close all.2.2 rfl (fun index => ?_) (fun thread other => ?_)
            fun _ => rfl
          · exact departs.cleared _ (mem_workersOf.mpr ⟨index, rfl⟩)
          · refine congrArg Slot.sockfd (departs.kept thread fun member => ?_)
            obtain ⟨index, same⟩ := mem_workersOf.mp member
            exact other index same
        named := by
          intro own servinfo found
          change Function.update b.state.servinfo channel none own = some servinfo at found
          by_cases same : own = channel
          · rw [same, Function.update_self] at found
            cases found
          · rw [Function.update_of_ne same] at found
            exact kept.named own servinfo found
        owned := by
          refine departs.owned kept.owned fun thread out own filled owner live => alive own ?_ live
          rintro rfl
          exact (steady thread).2 out filled owner
        engaged := by
          intro thread own engages
          refine alive own ?_ (kept.engaged thread own engages)
          rintro rfl
          exact (steady thread).1 engages
        finite := by
          intro own
          change ((b.state.shut channel).booked own).Finite
          rw [departs.booked_eq]
          exact (kept.finite own).sdiff
        count := by
          intro own
          have before := kept.count own
          have after := departs.ncard_booked (kept.finite own)
          change b.nsocks own - b.state.holders (workersOf channel) own =
            ((b.state.shut channel).booked own).ncard + (b.probes own : Nat)
          omega
        exits := by
          change b.strays + b.straying (workersOf channel) = 0
          rw [kept.exits, kept.straying] }
  · cases taken

theorem Kept.step (kept : b.Kept) {deed : Deed net} (steady : b.Steady deed)
    (taken : b.step deed = some next) : next.Kept := by
  cases deed with
  | create => exact kept.step_create taken
  | act => exact kept.step_act steady taken
  | destroy => exact kept.step_destroy steady taken

/-- In every run in which no socket is lost and no channel is destroyed under its users, the counter
of each live channel exceeds the number of its open sockets by those that `open_connection` has
closed, and no slot names a channel that is not alive. -/
theorem booked_iff {deeds : List (Deed net)} {final : Books net}
    (run : exec step initial deeds = some final)
    (steady : Meets step Steady (initial : Books net) deeds) :
    (final.Booked ↔ ∀ channel, final.object channel = .live → final.probes channel = 0) ∧
      (∀ channel, final.nsocks channel = (final.opened channel).ncard + final.probes channel) ∧
      (∀ thread, (final.state.slot thread).sockfd ≠ 0 →
        ∃ channel, (final.state.slot thread).owner = some channel ∧ final.object channel = .live) ∧
      final.strays = 0 := by
  have kept : final.Kept := steady.invariant Kept
    (fun steady kept taken => kept.step steady taken) kept_initial run
  have exceeds : ∀ channel,
      final.nsocks channel = (final.opened channel).ncard + final.probes channel := by
    intro channel
    rw [kept.ncard_opened]
    exact kept.count channel
  refine ⟨⟨fun booked channel live => ?_, fun untried => ?_⟩, exceeds, kept.owned.owner, kept.exits⟩
  · have counted := booked.count channel live
    have more := exceeds channel
    omega
  · refine ⟨fun channel live => ?_, kept.owned.owner, kept.exits⟩
    have more := exceeds channel
    rw [untried channel live] at more
    simpa using more

theorem Booked.nsocks_eq_zero (booked : b.Booked) {channel : ChannelId}
    (live : b.object channel = .live) (empty : b.opened channel = ∅) : b.nsocks channel = 0 := by
  rw [booked.count channel live, empty, Set.ncard_empty]
  rfl

section Runs

/-- A channel is created, and has counted the socket with which its opening is tried. -/
def tryOut : List (Deed names) :=
  [.create 0, .act (.openChannel 0 0 (bytes "cog://a")), .act (.resolve 0),
    .act (.connect (.user 0) 3 0), .act (.greet (.user 0))]

theorem booked_trying : ∃ final, exec step initial tryOut = some final ∧ final.nsocks 0 = 1 ∧
    final.Booked := by
  have steady : Meets step Steady (initial : Books names) tryOut :=
    meets_cons trivial rfl (meets_cons trivial rfl (meets_cons trivial rfl
      (meets_cons trivial rfl (meets_cons trivial rfl trivial))))
  exact ⟨_, rfl, rfl, (booked_iff rfl steady).1.mpr fun _ _ => rfl⟩

/-- A channel is created and opened. -/
def setUp : List (Deed names) := .create 0 :: (openUp 0 0 "cog://a" 3).map .act

/-- A channel has been opened and has no socket, but counts one; a channel is destroyed before a
thread that has used it ends. -/
theorem books_wrong :
    (∃ final, exec step initial setUp = some final ∧ final.object 0 = .live ∧ final.nsocks 0 = 1 ∧
      final.opened 0 = ∅ ∧ ¬ final.Booked) ∧
    ∃ final, exec step initial (setUp ++ (getConcept 0 0 :: askAnew (.user 0) 3).map .act ++
        [.destroy 1 0, .act (.exit 0)]) = some final ∧
      final.object 0 = .destroyed ∧ final.strays = 1 ∧ ¬ final.Booked := by
  constructor
  · refine ⟨_, rfl, rfl, rfl, (and_iff_left_of_imp fun empty booked => ?_).mpr ?_⟩
    · exact absurd (booked.nsocks_eq_zero rfl empty) (by decide)
    refine Set.eq_empty_of_forall_notMem fun sockfd isOpen => ?_
    obtain ⟨conn, found, -⟩ := isOpen
    change Function.update (Function.update (fun _ => Option.none) 3 _) 3 Option.none sockfd =
      some conn at found
    by_cases same : sockfd = 3
    · rw [same, Function.update_self] at found
      cases found
    · rw [Function.update_of_ne same, Function.update_of_ne same] at found
      cases found
  · refine ⟨_, rfl, rfl, rfl, fun booked => ?_⟩
    exact absurd booked.exits (by decide)

end Runs

end Books

end AtomSpaceCog.Slots
