import AtomSpaceCog.Channel.Census

/-! # What travels to the server

The steps that put something on a socket, take something off it, or change a barrier
(`Config.WireStep`). Elements and blocks travel on the sockets of the workers only,
and an element that was handed to `do_send` is on its way there or was executed
(`Config.Wired`). An element that no worker has and that is not pending is never live
again (`Config.live_step`).
-/

namespace AtomSpaceCog

open Dedup Transition

variable {S : Setting}

namespace Config

/-- What a step does to the sockets and the barriers. Only a step that does nothing to
them may insert a message. -/
inductive WireStep (s next : Config S) : Prop where
  | same (inbox : next.inbox = s.inbox) (handed : next.handed = s.handed)
      (executed : next.executed = s.executed) (fence : next.fence = s.fence)
      (fences : next.fences = s.fences)
  | push (sock : SockId) (wire : Wire S.toSignature)
      (known : (∃ thread msg, wire = .synchro thread msg ∧ next.handed = s.handed) ∨
        ∃ worker entry, sock = .worker worker ∧ wire = .request entry ∧
          s.worker worker = .sending entry ∧ next.handed = s.handed ++ [entry])
      (calls : next.calls = s.calls)
      (inbox : next.inbox = Function.update s.inbox sock (s.inbox sock ++ [wire]))
      (executed : next.executed = s.executed) (fence : next.fence = s.fence)
      (fences : next.fences = s.fences)
  | serve (sock : SockId) (wire : Wire S.toSignature) (rest : List (Wire S.toSignature))
      (first : s.inbox sock = wire :: rest)
      (known : (∃ thread msg, wire = .synchro thread msg ∧ next.executed = s.executed) ∨
        ∃ entry, wire = .request entry ∧ next.executed = s.executed ++ [entry])
      (calls : next.calls = s.calls) (inbox : next.inbox = Function.update s.inbox sock rest)
      (handed : next.handed = s.handed) (fence : next.fence = s.fence)
      (fences : next.fences = s.fences)
  | block (worker : WorkerId) (number : Nat) (known : number < s.fences)
      (drained : (s.fence number).drained.isSome) (notRan : (s.fence number).ran worker = false)
      (calls : next.calls = s.calls)
      (inbox : next.inbox = Function.update s.inbox (.worker worker)
        (s.inbox (.worker worker) ++ [.block (s.fence number).id number]))
      (handed : next.handed = s.handed) (executed : next.executed = s.executed)
      (fence : next.fence = Function.update s.fence number
        { s.fence number with ran := Function.update (s.fence number).ran worker true })
      (fences : next.fences = s.fences)
  | release (id : UInt64) (socks : List SockId) (distinct : socks.Nodup)
      (enough : socks.length = nthreads) (reached : ∀ sock ∈ socks, s.HeldAt id sock)
      (calls : next.calls = s.calls)
      (inbox : next.inbox = fun sock => if sock ∈ socks then (s.inbox sock).tail else s.inbox sock)
      (handed : next.handed = s.handed) (executed : next.executed = s.executed)
      (fence : next.fence = s.fence) (fences : next.fences = s.fences)
  | begin (id : UInt64) (fresh : s.FreshId id) (calls : next.calls = s.calls)
      (inbox : next.inbox = s.inbox) (handed : next.handed = s.handed)
      (executed : next.executed = s.executed)
      (fence : next.fence = Function.update s.fence s.fences
        ⟨id, s.calls.length, none, fun _ => false, none⟩)
      (fences : next.fences = s.fences + 1)
  | drain (number : Nat) (draining : (s.fence number).drained = none)
      (handled : ∀ call ∈ s.calls, call.index < (s.fence number).begun ∨ call.source.isNone →
        ¬ s.Live call.entry)
      (calls : next.calls = s.calls) (inbox : next.inbox = s.inbox)
      (handed : next.handed = s.handed) (executed : next.executed = s.executed)
      (fence : next.fence = Function.update s.fence number
        { s.fence number with drained := some s.calls.length })
      (fences : next.fences = s.fences)
  | finish (number : Nat) (drained : (s.fence number).drained.isSome)
      (ran : ∀ worker, (s.fence number).ran worker = true)
      (calls : next.calls = s.calls) (inbox : next.inbox = s.inbox)
      (handed : next.handed = s.handed) (executed : next.executed = s.executed)
      (fence : next.fence = Function.update s.fence number
        { s.fence number with returned := some s.calls.length })
      (fences : next.fences = s.fences)

theorem wireStep_of_step {s next : Config S} {action : Action S}
    (taken : s.step action = some next) : s.WireStep next := by
  cases moves_of_step taken with
  | start | edit | exit | connected | read | enqueue | closeConnection | answer | take | receive
  | rest | workInsert | workTouch | arrive => exact .same rfl rfl rfl rfl rfl
  | ask => exact .push _ _ (Or.inl ⟨_, _, rfl, rfl⟩) rfl rfl rfl rfl rfl
  | send here => exact .push _ _ (Or.inr ⟨_, _, rfl, rfl, here, rfl⟩) rfl rfl rfl rfl rfl
  | serve free first => exact .serve _ _ _ first (Or.inr ⟨_, rfl, rfl⟩) rfl rfl rfl rfl rfl
  | serveSynchro free first => exact .serve _ _ _ first (Or.inl ⟨_, _, rfl, rfl⟩) rfl rfl rfl rfl rfl
  | block idle known drained notRan =>
      exact .block _ _ known drained notRan rfl rfl rfl rfl rfl rfl
  | release distinct enough reached =>
      exact .release _ _ distinct enough reached rfl rfl rfl rfl rfl rfl
  | barrier here opened fresh => exact .begin _ fresh rfl rfl rfl rfl rfl rfl
  | drain here draining handled => exact .drain _ draining handled rfl rfl rfl rfl rfl rfl
  | finish here drained ran => exact .finish _ drained ran rfl rfl rfl rfl rfl rfl

/-- An element becomes live only by the insert that numbers it. -/
theorem live_step {s next : Config S} {action : Action S} (taken : s.step action = some next)
    {number : Nat} (old : number < s.calls.length) (live : next.Live number) : s.Live number := by
  have carry : (∀ entry ∈ next.pending, entry.tag = number → entry ∈ s.pending) →
      (∀ worker, (next.worker worker).holds = some number → s.Live number) → s.Live number := by
    intro pending workers
    rcases live with ⟨entry, inside, tagged⟩ | ⟨worker, holds⟩
    · exact Or.inl ⟨entry, pending entry inside tagged, tagged⟩
    · exact workers worker holds
  have offered : ∀ (request : Request S.toSignature), ∀ entry ∈
      (s.insert none request).pending, entry.tag = number → entry ∈ s.pending := by
    intro request entry inside tagged
    rw [insert_pending] at inside
    rcases mem_offer inside with prior | rfl
    · exact prior
    · exact absurd tagged old.ne'
  have updated : ∀ {worker : WorkerId} {state : Worker S},
      (state.holds = some number → s.Live number) →
        ∀ other, (Function.update s.worker worker state other).holds = some number → s.Live number := by
    intro worker state new other holds
    by_cases same : other = worker
    · subst same
      rw [Function.update_self] at holds
      exact new holds
    · rw [Function.update_of_ne same] at holds
      exact Or.inr ⟨other, holds⟩
  cases moves_of_step taken with
  | start | edit | exit | connected | read | ask | closeConnection | barrier | drain | block | finish
  | answer | serve | serveSynchro | arrive | release =>
      exact carry (fun _ inside _ => inside) fun worker holds => Or.inr ⟨worker, holds⟩
  | @enqueue thread op since request =>
      exact carry (offered request) fun worker holds => Or.inr ⟨worker, holds⟩
  | @take worker chosen entry idle member numbered =>
      refine carry (fun other inside _ => List.mem_of_mem_filter inside) (updated fun holds => ?_)
      exact Or.inl ⟨entry, member, Option.some.inj holds⟩
  | @send worker entry here =>
      refine carry (fun other inside _ => inside) (updated fun holds => Or.inr ⟨worker, ?_⟩)
      rw [here]
      split at holds
      · cases holds
      · exact holds
  | @receive worker entry reply rest here =>
      refine carry (fun other inside _ => inside) (updated fun holds => Or.inr ⟨worker, ?_⟩)
      rw [here]
      exact holds
  | rest here => exact carry (fun other inside _ => inside) (updated fun holds => by cases holds)
  | @workTouch worker entry change_ rest here =>
      refine carry (fun other inside _ => inside) (updated fun holds => Or.inr ⟨worker, ?_⟩)
      rw [here]
      exact holds
  | @workInsert worker entry request rest here =>
      refine carry (offered request) (updated fun holds => Or.inr ⟨worker, ?_⟩)
      rw [here]
      exact holds

/-- Where elements and blocks may be on their way. -/
structure Wired (s : Config S) : Prop where
  request : ∀ sock entry, .request entry ∈ s.inbox sock →
    (∃ worker, sock = .worker worker) ∧ entry ∈ s.handed
  block : ∀ sock id number, .block id number ∈ s.inbox sock →
    number < s.fences ∧ id = (s.fence number).id ∧
      ∃ worker, sock = .worker worker ∧ (s.fence number).ran worker = true
  executed : ∀ entry ∈ s.executed, entry ∈ s.handed
  handed : ∀ entry ∈ s.handed, entry ∈ s.executed ∨ ∃ sock, .request entry ∈ s.inbox sock

theorem wired_initial (counter : UInt64) (space : S.Space) (locals : S.Local) :
    (Config.initial counter space locals).Wired where
  request _ _ member := absurd member List.not_mem_nil
  block _ _ _ member := absurd member List.not_mem_nil
  executed _ member := absurd member List.not_mem_nil
  handed _ member := absurd member List.not_mem_nil

namespace Wired

variable {s next : Config S}

/-- What a push leaves on a socket. -/
theorem mem_push {sock other : SockId} {wire element : Wire S.toSignature}
    (inside : element ∈ Function.update s.inbox sock (s.inbox sock ++ [wire]) other) :
    element ∈ s.inbox other ∨ other = sock ∧ element = wire := by
  by_cases same : other = sock
  · subst same
    rw [Function.update_self] at inside
    exact (List.mem_append.mp inside).imp id fun new => ⟨rfl, List.mem_singleton.mp new⟩
  · rw [Function.update_of_ne same] at inside
    exact Or.inl inside

theorem mem_push_of_mem {sock other : SockId} (wire : Wire S.toSignature)
    {element : Wire S.toSignature} (inside : element ∈ s.inbox other) :
    element ∈ Function.update s.inbox sock (s.inbox sock ++ [wire]) other := by
  by_cases same : other = sock
  · subst same
    rw [Function.update_self]
    exact List.mem_append_left _ inside
  · rwa [Function.update_of_ne same]

theorem mem_serve {sock other : SockId} {wire element : Wire S.toSignature}
    {rest : List (Wire S.toSignature)} (first : s.inbox sock = wire :: rest)
    (inside : element ∈ Function.update s.inbox sock rest other) : element ∈ s.inbox other := by
  by_cases same : other = sock
  · subst same
    rw [Function.update_self] at inside
    rw [first]
    exact List.mem_cons_of_mem _ inside
  · rwa [Function.update_of_ne same] at inside

theorem mem_release {socks : List SockId} {sock : SockId} {element : Wire S.toSignature}
    (inside : element ∈ if sock ∈ socks then (s.inbox sock).tail else s.inbox sock) :
    element ∈ s.inbox sock := by
  split at inside
  · exact List.mem_of_mem_tail inside
  · exact inside

/-- Only a block is passed when sockets are released. -/
theorem mem_release_of_mem {socks : List SockId} {id : UInt64}
    (reached : ∀ sock ∈ socks, s.HeldAt id sock) {sock : SockId} {entry : Entry S.toSignature}
    (inside : .request entry ∈ s.inbox sock) :
    .request entry ∈ if sock ∈ socks then (s.inbox sock).tail else s.inbox sock := by
  split
  · next released =>
      have block := (reached sock released).2
      split at block
      · next number rest first =>
          rw [first] at inside ⊢
          exact (List.mem_cons.mp inside).resolve_left (by simp)
      · exact block.elim
  · exact inside

/-- Steps that leave the barriers alone. -/
theorem congr (wired : s.Wired) (inbox : next.inbox = s.inbox) (handed : next.handed = s.handed)
    (executed : next.executed = s.executed) (fences : s.fences ≤ next.fences)
    (fence : ∀ number < s.fences, (next.fence number).id = (s.fence number).id ∧
      (next.fence number).ran = (s.fence number).ran) : next.Wired where
  request := by rw [inbox, handed]; exact wired.request
  block sock id number inside := by
    rw [inbox] at inside
    obtain ⟨known, same, worker, own, ran⟩ := wired.block sock id number inside
    rw [(fence number known).1, (fence number known).2]
    exact ⟨known.trans_le fences, same, worker, own, ran⟩
  executed := by rw [handed, executed]; exact wired.executed
  handed := by rw [handed, executed, inbox]; exact wired.handed

theorem step (wired : s.Wired) (taken : s.WireStep next) : next.Wired := by
  cases taken with
  | same inbox handed executed fence fences =>
      exact wired.congr inbox handed executed fences.ge fun number _ => by rw [fence]; exact ⟨rfl, rfl⟩
  | begin id fresh calls inbox handed executed fence fences =>
      refine wired.congr inbox handed executed (by omega) fun number known => ?_
      rw [fence, Function.update_of_ne known.ne]
      exact ⟨rfl, rfl⟩
  | drain number draining handled calls inbox handed executed fence fences
  | finish number drained ran calls inbox handed executed fence fences =>
      refine wired.congr inbox handed executed fences.ge fun other known => ?_
      rw [fence]
      by_cases same : other = number
      · subst same
        simp
      · simp [same]
  | push sock wire known calls inbox executed fence fences =>
      have grown : s.handed ⊆ next.handed := by
        rcases known with ⟨_, _, _, handed⟩ | ⟨_, _, _, _, _, handed⟩ <;> rw [handed]
        · exact List.Subset.refl _
        · exact List.subset_append_left _ _
      refine ⟨fun other entry inside => ?_, fun other id number inside => ?_, ?_, ?_⟩
      · rw [inbox] at inside
        rcases mem_push inside with prior | ⟨rfl, new⟩
        · exact (wired.request other entry prior).imp id fun sent => grown sent
        · rcases known with ⟨_, _, rfl, _⟩ | ⟨worker, element, rfl, rfl, _, handed⟩
          · cases new
          · cases new
            exact ⟨⟨worker, rfl⟩, by rw [handed]; simp⟩
      · rw [inbox] at inside
        rw [fence, fences]
        rcases mem_push inside with prior | ⟨-, rfl⟩
        · exact wired.block other id number prior
        · rcases known with ⟨_, _, new, _⟩ | ⟨_, _, _, new, _⟩ <;> cases new
      · rw [executed]
        exact fun entry ran => grown (wired.executed entry ran)
      · intro entry sent
        rw [executed, inbox]
        have earlier : entry ∈ s.handed → entry ∈ s.executed ∨ ∃ other, .request entry ∈
            Function.update s.inbox sock (s.inbox sock ++ [wire]) other := fun prior =>
          (wired.handed entry prior).imp_right fun ⟨other, inside⟩ =>
            ⟨other, mem_push_of_mem wire inside⟩
        rcases known with ⟨_, _, _, handed⟩ | ⟨worker, element, _, rfl, _, handed⟩
        · exact earlier (handed ▸ sent)
        · rw [handed] at sent
          rcases List.mem_append.mp sent with prior | new
          · exact earlier prior
          · refine Or.inr ⟨sock, ?_⟩
            rw [List.mem_singleton.mp new, Function.update_self]
            simp
  | serve sock wire rest first known calls inbox handed fence fences =>
      have grown : s.executed ⊆ next.executed := by
        rcases known with ⟨_, _, _, executed⟩ | ⟨_, _, executed⟩ <;> rw [executed]
        · exact List.Subset.refl _
        · exact List.subset_append_left _ _
      refine ⟨fun other entry inside => ?_, fun other id number inside => ?_, fun entry ran => ?_,
        fun entry sent => ?_⟩
      · rw [inbox] at inside
        rw [handed]
        exact wired.request other entry (mem_serve first inside)
      · rw [inbox] at inside
        rw [fence, fences]
        exact wired.block other id number (mem_serve first inside)
      · rw [handed]
        rcases known with ⟨_, _, _, executed⟩ | ⟨element, rfl, executed⟩ <;> rw [executed] at ran
        · exact wired.executed entry ran
        · rcases List.mem_append.mp ran with prior | new
          · exact wired.executed entry prior
          · rw [List.mem_singleton.mp new]
            exact (wired.request sock element (by rw [first]; exact List.mem_cons_self)).2
      · rw [handed] at sent
        rcases wired.handed entry sent with ran | ⟨other, inside⟩
        · exact Or.inl (grown ran)
        · by_cases same : other = sock
          · subst same
            rw [first] at inside
            rcases List.mem_cons.mp inside with rfl | later
            · rcases known with ⟨_, _, no, _⟩ | ⟨element, own, executed⟩
              · cases no
              · cases own
                exact Or.inl (by rw [executed]; simp)
            · exact Or.inr ⟨other, by rwa [inbox, Function.update_self]⟩
          · exact Or.inr ⟨other, by rwa [inbox, Function.update_of_ne same]⟩
  | block worker number known drained notRan calls inbox handed executed fence fences =>
      have ran : ∀ other, (next.fence other).id = (s.fence other).id ∧
          ∀ element, (s.fence other).ran element = true → (next.fence other).ran element = true := by
        intro other
        rw [fence]
        by_cases same : other = number
        · subst same
          refine ⟨by simp, fun element ran => ?_⟩
          by_cases own : element = worker <;> simp [own, ran]
        · simp [same]
      refine ⟨fun other entry inside => ?_, fun other id element inside => ?_, ?_, fun entry sent => ?_⟩
      · rw [inbox] at inside
        rw [handed]
        rcases mem_push inside with prior | ⟨-, new⟩
        · exact wired.request other entry prior
        · cases new
      · rw [inbox] at inside
        rw [(ran element).1, fences]
        rcases mem_push inside with prior | ⟨rfl, new⟩
        · obtain ⟨below, same, owner, own, before⟩ := wired.block other id element prior
          exact ⟨below, same, owner, own, (ran element).2 owner before⟩
        · cases new
          exact ⟨known, rfl, worker, rfl, by rw [fence]; simp⟩
      · rw [handed, executed]
        exact wired.executed
      · rw [handed] at sent
        rw [executed, inbox]
        exact (wired.handed entry sent).imp_right fun ⟨other, inside⟩ =>
          ⟨other, mem_push_of_mem _ inside⟩
  | release id socks distinct enough reached calls inbox handed executed fence fences =>
      refine ⟨fun sock entry inside => ?_, fun sock other number inside => ?_, ?_, ?_⟩
      · rw [inbox] at inside
        rw [handed]
        exact wired.request sock entry (mem_release inside)
      · rw [inbox] at inside
        rw [fence, fences]
        exact wired.block sock other number (mem_release inside)
      · rw [handed, executed]
        exact wired.executed
      · intro entry sent
        rw [handed] at sent
        rw [executed, inbox]
        refine (wired.handed entry sent).imp_right ?_
        rintro ⟨sock, inside⟩
        exact ⟨sock, mem_release_of_mem reached inside⟩

end Wired

end Config

end AtomSpaceCog
