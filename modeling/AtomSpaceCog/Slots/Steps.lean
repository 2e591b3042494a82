import AtomSpaceCog.Slots.Machine

/-! # The steps of the slots

What each step does, said once: most move one thread on and leave the sockets alone.
-/

namespace AtomSpaceCog.Slots

variable {net : Net}

/-- The thread for which `open_sock` is given a descriptor. -/
def Action.given : Action net → Int → Option Thread
  | .connect thread sockfd _, other | .drop thread sockfd _, other =>
      if other = sockfd then some thread else none
  | _, _ => none

/-- The thread is about to use the descriptor in its slot. -/
def Phase.working : Phase → Bool
  | .prompt _ _ _ | .writing _ _ _ | .receiving _ _ => true
  | .idle | .opening _ _ | .sending _ _ _ | .cleaning _ _ | .crashed => false

/-- The phase is one that a thread with this phase can go on to without a new use of its
slot. -/
structure Phase.Leads (before after : Phase) : Prop where
  uses : ∀ channel, after.uses = some channel → before.uses = some channel
  probes : ∀ channel, after.probes = some channel → before.probes = some channel
  opening : ∀ channel uri, after ≠ .opening channel uri
  busy : before ≠ .idle

namespace State

/-- What a step does. -/
inductive Moves (s : State net) : Action net → State net → Prop where
  | same {user channel uri} : Moves s (.openChannel user channel uri) s
  | begin {user channel uri} (idle : s.phase (.user user) = .idle)
      (closed : s.servinfo channel = none) :
      Moves s (.openChannel user channel uri) (s.setPhase (.user user) (.opening channel uri))
  | resolve {user channel uri addresses} (here : s.phase (.user user) = .opening channel uri)
      (found : addressesOf net uri = some addresses) :
      Moves s (.resolve user) ({ s with
        servinfo := Function.update s.servinfo channel (some ⟨channel, s.openings, addresses⟩)
        openings := s.openings + 1 }.setPhase (.user user) (.sending channel probeText .probe))
  | synchro {user channel msg} (idle : s.phase (.user user) = .idle) :
      Moves s (.synchro user channel msg) (s.setPhase (.user user) (.sending channel msg .handler))
  | reply {channel index msg noreply after} (known : after ≠ .probe)
      (idle : s.phase (.worker channel index) = .idle) (staffed : s.staffed channel = true) :
      Moves s (.reply channel index msg noreply)
        (s.setPhase (.worker channel index) (.sending channel msg after))
  | close {user channel} (idle : s.phase (.user user) = .idle)
      (workers : ∀ index, s.phase (.worker channel index) = .idle) :
      Moves s (.close user channel) { s with
        servinfo := Function.update s.servinfo channel none
        staffed := Function.update s.staffed channel false
        slot := fun thread => match thread with
          | .worker own index => if own = channel then .empty else s.slot (.worker own index)
          | .user number => s.slot (.user number)
        descriptor := fun sockfd =>
          if ∃ index, (s.slot (.worker channel index)).sockfd = sockfd then none
          else s.descriptor sockfd }
  | exit {user} (idle : s.phase (.user user) = .idle) :
      Moves s (.exit user)
        { s.closeSlot (.user user) with slot := Function.update s.slot (.user user) .empty }
  | refused {thread channel msg after} (here : s.phase thread = .sending channel msg after)
      (empty : (s.slot thread).sockfd = 0) (closed : s.servinfo channel = none) :
      Moves s (.look thread)
        ({ s with slot := Function.update s.slot thread { s.slot thread with sockfd := -1 } }.setPhase
          thread (.writing channel msg after))
  | connect {thread channel msg after sockfd choice servinfo address}
      (here : s.phase thread = .sending channel msg after) (opened : s.servinfo channel = some servinfo)
      (chosen : address ∈ servinfo.addresses) (positive : 0 < sockfd)
      (empty : (s.slot thread).sockfd = 0) (free : s.descriptor sockfd = none) :
      Moves s (.connect thread sockfd choice) ({ s with
        descriptor := Function.update s.descriptor sockfd (some ⟨servinfo, address⟩)
        slot := Function.update s.slot thread ⟨sockfd, some channel, some servinfo⟩ }.setPhase
          thread (.prompt channel msg after))
  | drop {thread sockfd choice servinfo address phase} (leads : (s.phase thread).Leads phase)
      (resting : phase.working = false)
      (chosen : address ∈ servinfo.addresses) (positive : 0 < sockfd) :
      Moves s (.drop thread sockfd choice) ({ s with
        descriptor := Function.update s.descriptor sockfd (some ⟨servinfo, address⟩) }.setPhase
          thread phase)
  | go {action thread phase} (leads : (s.phase thread).Leads phase)
      (filled : phase.working = true → (s.phase thread).working = true ∨ (s.slot thread).sockfd ≠ 0)
      (ungiven : ∀ sockfd, action.given sockfd = none) : Moves s action (s.setPhase thread phase)
  | write {thread channel msg conn phase} (leads : (s.phase thread).Leads phase)
      (working : (s.phase thread).working = true)
      (uses : (s.phase thread).uses = some channel)
      (found : s.descriptor (s.slot thread).sockfd = some conn) :
      Moves s (.write thread)
        ({ s with sent := s.sent ++ [Traffic.mk channel (s.servinfo channel) msg conn] }.setPhase thread phase)
  | read {thread channel reply conn phase} (leads : (s.phase thread).Leads phase)
      (resting : phase.working = false)
      (uses : (s.phase thread).uses = some channel)
      (found : s.descriptor (s.slot thread).sockfd = some conn) :
      Moves s (.read thread reply)
        ({ s with handed := s.handed ++ [Traffic.mk channel (s.servinfo channel) reply conn] }.setPhase thread phase)
  | hangUp {thread phase} (leads : (s.phase thread).Leads phase) (resting : phase.working = false) :
      Moves s (.hangUp thread) ((s.closeDescriptor (s.slot thread).sockfd).setPhase thread phase)
  | opened {user channel} (here : s.phase (.user user) = .cleaning channel true) :
      Moves s (.clean user) ({ s.closeSlot (.user user) with
        staffed := Function.update s.staffed channel true }.setPhase (.user user) .idle)
  | unopened {user channel} (here : s.phase (.user user) = .cleaning channel false) :
      Moves s (.clean user) ({ s.closeSlot (.user user) with
        servinfo := Function.update s.servinfo channel none }.setPhase (.user user) .idle)

end State

/-- After an exception a thread uses its slot for what it used it for, or not at all. -/
theorem leads_thrown {phase : Phase} {thread : Thread} {channel : ChannelId} {after : After}
    (uses : phase.uses = some channel) (probes : after = .probe → phase.probes = some channel) :
    phase.Leads (thrown thread channel after) where
  uses other same := by
    cases after <;> cases thread <;> simp_all [thrown, Phase.uses]
  probes other same := by
    cases after <;> cases thread <;> simp_all [thrown, Phase.probes]
  opening other uri same := by
    cases after <;> cases thread <;> simp_all [thrown]
  busy idle := by
    rw [idle] at uses
    cases uses

theorem thrown_working (thread : Thread) (channel : ChannelId) (after : After) :
    (thrown thread channel after).working = false := by
  cases after <;> cases thread <;> rfl

variable {s next : State net} {action : Action net}

open State

theorem moves_of_step (taken : s.step action = some next) : s.Moves action next := by
  cases action with
  | openChannel user channel uri =>
      simp only [step, openChannel] at taken
      split at taken
      · next idle =>
          split at taken
          · exact Option.some.inj taken ▸ .same
          · next closed => exact Option.some.inj taken ▸ .begin idle closed
      · cases taken
  | resolve user =>
      simp only [step, State.resolve] at taken
      split at taken
      · next channel uri here =>
          split at taken
          · refine Option.some.inj taken ▸ .go ?_ nofun fun _ => rfl
            rw [here]
            constructor <;> simp [Phase.uses, Phase.probes]
          · next found => exact Option.some.inj taken ▸ .resolve here found
      · cases taken
  | synchro user channel msg =>
      simp only [step, State.synchro] at taken
      split at taken
      · next both => exact Option.some.inj taken ▸ .synchro both.1
      · cases taken
  | reply channel index msg noreply =>
      simp only [step, State.reply] at taken
      split at taken
      · next both =>
          refine Option.some.inj taken ▸ .reply ?_ both.1 both.2
          cases noreply <;> decide
      · cases taken
  | close user channel =>
      simp only [step, State.close] at taken
      split at taken
      · next all => exact Option.some.inj taken ▸ .close all.1 all.2.2
      · cases taken
  | exit user =>
      simp only [step, State.exit] at taken
      split at taken
      · next idle => exact Option.some.inj taken ▸ .exit idle
      · cases taken
  | look thread =>
      simp only [step, look] at taken
      split at taken
      · next channel msg after here =>
          split at taken
          · next filled =>
              refine Option.some.inj taken ▸ .go ?_ (fun _ => .inr filled) fun _ => rfl
              rw [here]
              cases after <;> constructor <;> simp [Phase.uses, Phase.probes]
          · next empty =>
              split at taken
              · next closed =>
                  exact Option.some.inj taken ▸
                    .refused here (not_not.mp empty) (Option.isNone_iff_eq_none.mp closed)
              · cases taken
      · cases taken
  | connect thread sockfd choice =>
      simp only [step, State.connect] at taken
      split at taken
      · next channel msg after here =>
          obtain ⟨servinfo, opened, taken⟩ := Option.bind_eq_some_iff.mp taken
          obtain ⟨address, chosen, taken⟩ := Option.bind_eq_some_iff.mp taken
          split at taken
          · next all =>
              exact Option.some.inj taken ▸ .connect here opened (List.mem_of_getElem? chosen) all.2.1
                all.1 (Option.isNone_iff_eq_none.mp all.2.2)
          · cases taken
      · cases taken
  | drop thread sockfd choice =>
      simp only [step, State.drop] at taken
      split at taken
      · next channel msg after here =>
          obtain ⟨servinfo, opened, taken⟩ := Option.bind_eq_some_iff.mp taken
          obtain ⟨address, chosen, taken⟩ := Option.bind_eq_some_iff.mp taken
          split at taken
          · next all =>
              refine Option.some.inj taken ▸
                .drop (leads_thrown (by rw [here]; rfl) ?_) (thrown_working _ _ _) (List.mem_of_getElem? chosen) all.2.1
              rintro rfl
              rw [here]
              rfl
          · cases taken
      · cases taken
  | greet thread =>
      simp only [step, greet] at taken
      split at taken
      · next channel msg after here =>
          refine Option.some.inj taken ▸ .go ?_ (fun _ => .inl (by rw [here]; rfl)) fun _ => rfl
          rw [here]
          cases after <;> constructor <;> simp [Phase.uses, Phase.probes]
      · cases taken
  | write thread =>
      simp only [step, State.write] at taken
      split at taken
      · next channel msg after here =>
          split at taken
          · next conn found =>
              refine Option.some.inj taken ▸ .write ?_ (by rw [here]; rfl) (by rw [here]; rfl) found
              rw [here]
              cases after <;> constructor <;> simp [Phase.uses, Phase.probes]
          · cases taken
      · cases taken
  | read thread reply =>
      simp only [step, State.read] at taken
      split at taken
      · next channel after here =>
          split at taken
          · next conn found =>
              split at taken
              · next probe =>
                  refine Option.some.inj taken ▸ .go ?_ nofun fun _ => rfl
                  rw [here, probe]
                  constructor <;> simp [Phase.uses, Phase.probes]
              · refine Option.some.inj taken ▸ .read ?_ rfl (by rw [here]; rfl) found
                rw [here]
                constructor <;> simp [Phase.uses, Phase.probes]
          · cases taken
      · cases taken
  | hangUp thread =>
      simp only [step, State.hangUp] at taken
      split at taken
      · next channel msg after here =>
          refine Option.some.inj taken ▸
            .hangUp (leads_thrown (by rw [here]; rfl) ?_) (thrown_working _ _ _)
          rintro rfl
          rw [here]
          rfl
      · next channel after here =>
          refine Option.some.inj taken ▸
            .hangUp (leads_thrown (by rw [here]; rfl) ?_) (thrown_working _ _ _)
          rintro rfl
          rw [here]
          rfl
      · cases taken
  | fail thread =>
      simp only [step, fail] at taken
      split at taken
      case h_5 => cases taken
      all_goals
        rename_i here
        refine Option.some.inj taken ▸ .go (leads_thrown (by rw [here]; rfl) ?_)
          (fun working => Bool.noConfusion (working.symm.trans (thrown_working _ _ _))) fun _ => rfl
        rintro rfl
        rw [here]
        rfl
  | clean user =>
      simp only [step, clean] at taken
      split at taken
      · next here => exact Option.some.inj taken ▸ .opened here
      · next here => exact Option.some.inj taken ▸ .unopened here
      · cases taken

end AtomSpaceCog.Slots
