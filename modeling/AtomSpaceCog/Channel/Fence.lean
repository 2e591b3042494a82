import AtomSpaceCog.Channel.Wires

/-! # Barriers are fences

A barrier first has the elements before it handled, so that no worker has one when its
block is put on the sockets; each socket then carries the elements before the barrier
ahead of the block and those after it behind. The server passes the blocks of a
barrier all at once, since it waits for as many sockets as there are workers and the
workers send one block each. So everything before the barrier is executed before
anything after it (`Config.Fenced.order`).
-/

namespace AtomSpaceCog

open Dedup Transition

variable {S : Setting}

/-- The call is before the barrier: it had returned when `barrier()` was called, or a
handler made it while the queue was drained. -/
def Fence.Covers (fence : Fence) (call : Call S) : Prop :=
  call.index < fence.begun ∨
    call.source = none ∧ ∃ drained, fence.drained = some drained ∧ call.index < drained

/-- The call was made after `barrier()` had returned. -/
def Fence.Follows (fence : Fence) (call : Call S) : Prop :=
  ∃ returned, fence.returned = some returned ∧ returned ≤ call.index

namespace Config

/-- The element stands for a call before the barrier. -/
def Before (s : Config S) (number : Nat) (entry : Entry S.toSignature) : Prop :=
  ∃ call ∈ s.calls, (s.fence number).Covers call ∧ call.entry = entry.tag

/-- The element stands for a call after the barrier. -/
def After (s : Config S) (number : Nat) (entry : Entry S.toSignature) : Prop :=
  ∃ call ∈ s.calls, (s.fence number).Follows call ∧ call.entry = entry.tag

/-- No element before the barrier is on its way. -/
def Passed (s : Config S) (number : Nat) : Prop :=
  ∀ sock entry, .request entry ∈ s.inbox sock → ¬ s.Before number entry

/-- The block of the barrier is on the socket, with nothing before the barrier behind
it and nothing after the barrier ahead of it. -/
def Split (s : Config S) (number : Nat) (sock : SockId) : Prop :=
  ∃ ahead id behind, s.inbox sock = ahead ++ .block id number :: behind ∧
    (∀ other, .block other number ∉ ahead) ∧
    (∀ entry, .request entry ∈ behind → ¬ s.Before number entry) ∧
    ∀ entry, .request entry ∈ ahead → ¬ s.After number entry

/-- The times and the identifiers of the barriers. -/
structure Dated (s : Config S) : Prop where
  begun : ∀ number, (s.fence number).begun ≤ s.calls.length
  drained : ∀ number drained, (s.fence number).drained = some drained → drained ≤ s.calls.length
  unused : ∀ number, s.fences ≤ number → ∀ worker, (s.fence number).ran worker = false
  ran : ∀ number worker, (s.fence number).ran worker = true → (s.fence number).drained.isSome
  returned : ∀ number, (s.fence number).returned.isSome → ∀ worker, (s.fence number).ran worker = true
  /-- Of two barriers with one identifier, the first has returned and passed. -/
  ids : ∀ first second, first < second → second < s.fences →
    (s.fence first).id = (s.fence second).id →
      (s.fence first).returned.isSome ∧ ∀ sock id, .block id first ∉ s.inbox sock

theorem dated_initial (counter : UInt64) (space : S.Space) (locals : S.Local) :
    (Config.initial counter space locals).Dated where
  begun _ := Nat.le_refl _
  drained _ _ same := by cases same
  unused _ _ _ := rfl
  ran _ _ ran := by cases ran
  returned _ returned := by cases returned
  ids _ _ _ below := absurd below (Nat.not_lt_zero _)

theorem calls_length_le {s next : Config S} {action : Action S} (taken : s.step action = some next) :
    s.calls.length ≤ next.calls.length := by
  rcases calls_of_step taken with ⟨-, calls⟩ | ⟨_, _, _, calls, -⟩ <;> rw [calls]
  rw [insert_calls, List.length_append]
  omega

namespace Dated

variable {s next : Config S} {action : Action S}

/-- The record of a barrier whose block some worker has run is only ever added to. -/
theorem fence_step (dated : s.Dated) (taken : s.WireStep next) {number : Nat} {worker : WorkerId}
    (ran : (s.fence number).ran worker = true) :
    (next.fence number).id = (s.fence number).id ∧
      (next.fence number).begun = (s.fence number).begun ∧
      (next.fence number).drained = (s.fence number).drained ∧
      ∀ other, (s.fence number).ran other = true → (next.fence number).ran other = true := by
  cases taken with
  | same inbox handed executed fence | push sock wire known calls inbox executed fence
  | serve sock wire rest first known calls inbox handed fence
  | release id socks distinct enough reached calls inbox handed executed fence =>
      rw [fence]
      exact ⟨rfl, rfl, rfl, fun _ ran => ran⟩
  | begin id fresh calls inbox handed executed fence =>
      have different : number ≠ s.fences := by
        rintro rfl
        rw [dated.unused _ (Nat.le_refl _)] at ran
        cases ran
      rw [fence, Function.update_of_ne different]
      exact ⟨rfl, rfl, rfl, fun _ ran => ran⟩
  | drain other draining handled calls inbox handed executed fence =>
      have different : number ≠ other := by
        rintro rfl
        have drained := dated.ran number worker ran
        rw [draining] at drained
        cases drained
      rw [fence, Function.update_of_ne different]
      exact ⟨rfl, rfl, rfl, fun _ ran => ran⟩
  | block own other known drained notRan calls inbox handed executed fence =>
      rw [fence]
      by_cases same : number = other
      · subst same
        refine ⟨by simp, by simp, by simp, fun element ran => ?_⟩
        by_cases equal : element = own <;> simp [equal, ran]
      · rw [Function.update_of_ne same]
        exact ⟨rfl, rfl, rfl, fun _ ran => ran⟩
  | finish other drained all calls inbox handed executed fence =>
      rw [fence]
      by_cases same : number = other
      · subst same
        simp
      · rw [Function.update_of_ne same]
        exact ⟨rfl, rfl, rfl, fun _ ran => ran⟩

/-- Steps that leave the barriers alone and put no block on a socket. -/
theorem congr (dated : s.Dated) (length : s.calls.length ≤ next.calls.length)
    (fence : next.fence = s.fence) (fences : next.fences = s.fences)
    (blocks : ∀ sock id number, .block id number ∈ next.inbox sock → .block id number ∈ s.inbox sock) :
    next.Dated where
  begun := by rw [fence]; exact fun number => (dated.begun number).trans length
  drained := by rw [fence]; exact fun number drained same => (dated.drained number drained same).trans length
  unused := by rw [fence, fences]; exact dated.unused
  ran := by rw [fence]; exact dated.ran
  returned := by rw [fence]; exact dated.returned
  ids := by
    rw [fence, fences]
    intro first second before below same
    obtain ⟨returned, absent⟩ := dated.ids first second before below same
    exact ⟨returned, fun sock id inside => absent sock id (blocks sock id first inside)⟩

/-- Steps that add to the record of one barrier. -/
theorem record (dated : s.Dated) {number : Nat} {record : Fence} (calls : next.calls = s.calls)
    (fence : next.fence = Function.update s.fence number record) (fences : next.fences = s.fences)
    (unused : s.fences ≤ number → ∀ worker, record.ran worker = false)
    (id : record.id = (s.fence number).id) (begun : record.begun = (s.fence number).begun)
    (drained : ∀ time, record.drained = some time → time ≤ s.calls.length)
    (ran : ∀ worker, record.ran worker = true → record.drained.isSome)
    (returned : record.returned.isSome → ∀ worker, record.ran worker = true)
    (kept : (s.fence number).returned.isSome → record.returned.isSome)
    (blocks : ∀ sock id other, .block id other ∈ next.inbox sock →
      .block id other ∈ s.inbox sock ∨ other = number ∧ (s.fence number).returned = none) :
    next.Dated := by
  have away : ∀ {other}, other ≠ number → next.fence other = s.fence other := by
    intro other different
    rw [fence, Function.update_of_ne different]
  have here : next.fence number = record := by rw [fence, Function.update_self]
  have ids : ∀ other, (next.fence other).id = (s.fence other).id := by
    intro other
    by_cases same : other = number
    · rw [same, here, id]
    · rw [away same]
  refine ⟨fun other => ?_, fun other time => ?_, fun other above worker => ?_, fun other worker => ?_,
    fun other => ?_, fun first second before below same => ?_⟩
  · rw [calls]
    by_cases same : other = number
    · rw [same, here, begun]
      exact dated.begun number
    · rw [away same]
      exact dated.begun other
  · rw [calls]
    by_cases same : other = number
    · rw [same, here]
      exact drained time
    · rw [away same]
      exact dated.drained other time
  · rw [fences] at above
    by_cases same : other = number
    · rw [same, here]
      exact unused (same ▸ above) worker
    · rw [away same]
      exact dated.unused other above worker
  · by_cases same : other = number
    · rw [same, here]
      exact ran worker
    · rw [away same]
      exact dated.ran other worker
  · by_cases same : other = number
    · rw [same, here]
      exact returned
    · rw [away same]
      exact dated.returned other
  · rw [ids, ids] at same
    rw [fences] at below
    obtain ⟨done, absent⟩ := dated.ids first second before below same
    refine ⟨?_, fun sock id inside => ?_⟩
    · by_cases own : first = number
      · rw [own, here]
        exact kept (own ▸ done)
      · rwa [away own]
    · rcases blocks sock id first inside with prior | ⟨rfl, unfinished⟩
      · exact absent sock id prior
      · rw [unfinished] at done
        cases done

theorem step (dated : s.Dated) (wired : s.Wired) (taken : s.step action = some next) :
    next.Dated := by
  have length := calls_length_le taken
  cases wireStep_of_step taken with
  | same inbox handed executed fence fences =>
      exact dated.congr length fence fences fun sock id number inside => inbox ▸ inside
  | push sock wire known calls inbox executed fence fences =>
      refine dated.congr length fence fences fun other id number inside => ?_
      rw [inbox] at inside
      rcases Wired.mem_push inside with prior | ⟨-, rfl⟩
      · exact prior
      · rcases known with ⟨_, _, new, _⟩ | ⟨_, _, _, new, _⟩ <;> cases new
  | serve sock wire rest first known calls inbox handed fence fences =>
      refine dated.congr length fence fences fun other id number inside => ?_
      rw [inbox] at inside
      exact Wired.mem_serve first inside
  | release id socks distinct enough reached calls inbox handed executed fence fences =>
      refine dated.congr length fence fences fun other id number inside => ?_
      rw [inbox] at inside
      exact Wired.mem_release inside
  | begin id fresh calls inbox handed executed fence fences =>
      have away : ∀ {number}, number ≠ s.fences → next.fence number = s.fence number := by
        intro number different
        rw [fence, Function.update_of_ne different]
      have here : next.fence s.fences = ⟨id, s.calls.length, none, fun _ => false, none⟩ := by
        rw [fence, Function.update_self]
      refine ⟨fun number => ?_, fun number time => ?_, fun number above worker => ?_,
        fun number worker => ?_, fun number => ?_, fun first second before below same => ?_⟩
      · by_cases new : number = s.fences
        · rw [new, here]
          exact length
        · rw [away new]
          exact (dated.begun number).trans length
      · by_cases new : number = s.fences
        · rw [new, here]
          intro none
          cases none
        · rw [away new]
          exact fun drained => (dated.drained number time drained).trans length
      · rw [away (by omega)]
        exact dated.unused number (by omega) worker
      · by_cases new : number = s.fences
        · rw [new, here]
          intro ran
          cases ran
        · rw [away new]
          exact dated.ran number worker
      · by_cases new : number = s.fences
        · rw [new, here]
          intro returned
          cases returned
        · rw [away new]
          exact dated.returned number
      · rw [inbox, away (by omega)]
        rw [away (by omega)] at same
        by_cases new : second = s.fences
        · rw [new, here] at same
          obtain ⟨returned, absent⟩ := fresh first (by omega) same
          refine ⟨returned, fun sock other inside => absent ?_⟩
          obtain ⟨-, -, worker, rfl, -⟩ := wired.block sock other first inside
          exact ⟨worker, List.any_eq_true.mpr ⟨_, inside, by simp⟩⟩
        · rw [away new] at same
          exact dated.ids first second before (by omega) same
  | drain number draining handled calls inbox handed executed fence fences =>
      refine dated.record calls fence fences (dated.unused number) rfl rfl (fun time same => ?_)
        (fun _ _ => rfl) (dated.returned number) (fun kept => kept) fun sock other block inside => ?_
      · exact (Option.some.inj same).ge
      · exact Or.inl (inbox ▸ inside)
  | block worker number known drained notRan calls inbox handed executed fence fences =>
      have unfinished : (s.fence number).returned = none := by
        by_contra done
        have ran := dated.returned number (Option.isSome_iff_ne_none.mpr done) worker
        rw [notRan] at ran
        cases ran
      refine dated.record calls fence fences (fun above => by omega) rfl rfl (dated.drained number)
        (fun _ _ => drained) (fun returned => ?_) (fun kept => kept) fun sock other block inside => ?_
      · rw [unfinished] at returned
        cases returned
      · rw [inbox] at inside
        rcases Wired.mem_push inside with prior | ⟨-, new⟩
        · exact Or.inl prior
        · cases new
          exact Or.inr ⟨rfl, unfinished⟩
  | finish number drained ran calls inbox handed executed fence fences =>
      refine dated.record calls fence fences (dated.unused number) rfl rfl (dated.drained number)
        (fun _ _ => drained) (fun _ => ran) (fun _ => rfl) fun sock other block inside => ?_
      exact Or.inl (inbox ▸ inside)

end Dated

variable {s next : Config S} {action : Action S}

/-- A call with an old number is an old call. -/
theorem mem_calls_of_lt (taken : s.step action = some next) {call : Call S}
    (member : call ∈ next.calls) (old : call.index < s.calls.length) : call ∈ s.calls := by
  rcases calls_of_step taken with ⟨-, calls⟩ | ⟨source, request, -, calls, -⟩
  · exact calls ▸ member
  · rw [calls, insert_calls] at member
    rcases List.mem_append.mp member with prior | new
    · exact prior
    · rw [List.mem_singleton.mp new] at old
      exact absurd old (Nat.lt_irrefl _)

/-- A call before a barrier is not a new one. -/
theorem Dated.index_lt (dated : s.Dated) {number : Nat} {call : Call S}
    (covers : (s.fence number).Covers call) : call.index < s.calls.length := by
  rcases covers with early | ⟨-, drained, same, early⟩
  · exact early.trans_le (dated.begun number)
  · exact early.trans_le (dated.drained number drained same)

/-- Once a worker has run its block, what is before a barrier is settled. -/
theorem before_step (dated : s.Dated) (taken : s.step action = some next)
    {number : Nat} {worker : WorkerId} (ran : (s.fence number).ran worker = true)
    {entry : Entry S.toSignature} (before : next.Before number entry) : s.Before number entry := by
  obtain ⟨call, member, covers, tagged⟩ := before
  obtain ⟨-, begun, drained, -⟩ := dated.fence_step (wireStep_of_step taken) ran
  have same : (s.fence number).Covers call := by
    unfold Fence.Covers at covers ⊢
    rwa [begun, drained] at covers
  exact ⟨call, mem_calls_of_lt taken member (dated.index_lt same), same, tagged⟩

/-- A call after a barrier is stood for by an element that was not handed out before. -/
theorem after_step (ledger : s.Ledger) (taken : s.step action = some next) {number : Nat}
    {entry : Entry S.toSignature} (sent : entry ∈ s.handed) (after : next.After number entry) :
    s.After number entry := by
  obtain ⟨call, member, ⟨returned, same, late⟩, tagged⟩ := after
  have earlier : (s.fence number).returned = some returned ∨
      returned = s.calls.length ∧ next.calls = s.calls := by
    cases wireStep_of_step taken with
    | same inbox handed executed fence | push sock wire known calls inbox executed fence
    | serve sock wire rest first known calls inbox handed fence
    | release id socks distinct enough reached calls inbox handed executed fence =>
        exact Or.inl (fence ▸ same)
    | begin id fresh calls inbox handed executed fence =>
        rw [fence] at same
        by_cases new : number = s.fences
        · subst new
          rw [Function.update_self] at same
          cases same
        · rw [Function.update_of_ne new] at same
          exact Or.inl same
    | drain other draining handled calls inbox handed executed fence
    | block worker other known drained notRan calls inbox handed executed fence =>
        rw [fence] at same
        by_cases own : number = other
        · subst own
          rw [Function.update_self] at same
          exact Or.inl same
        · rw [Function.update_of_ne own] at same
          exact Or.inl same
    | finish other drained ran calls inbox handed executed fence =>
        rw [fence] at same
        by_cases own : number = other
        · subst own
          rw [Function.update_self] at same
          exact Or.inr ⟨(Option.some.inj same).symm, calls⟩
        · rw [Function.update_of_ne own] at same
          exact Or.inl same
  rcases earlier with before | ⟨rfl, calls⟩
  · rcases calls_of_step taken with ⟨-, calls⟩ | ⟨source, request, -, calls, -⟩
    · exact ⟨call, calls ▸ member, ⟨returned, before, late⟩, tagged⟩
    · rw [calls, insert_calls] at member
      rcases List.mem_append.mp member with prior | new
      · exact ⟨call, prior, ⟨returned, before, late⟩, tagged⟩
      · rw [List.mem_singleton.mp new] at tagged
        have old := ledger.below entry (Or.inr (Or.inr sent))
        obtain ⟨element, inside, numbered, _⟩ := exists_standsFor Msg.Equivalent s.pending
          s.calls.length (request.toMsg s.counter).1
        rcases mem_offer inside with pending | rfl
        · exact absurd (tagged.symm.trans numbered.symm) (ledger.apart entry sent element pending)
        · exact absurd (tagged.symm.trans numbered.symm) old.ne
  · rw [calls] at member
    exact absurd late (ledger.index_lt member).not_ge

/-- What holds of the barriers along a run. -/
structure Fenced (s : Config S) : Prop where
  /-- After the drain, no element before the barrier is pending or in a worker's
  hands. -/
  handled : ∀ number, (s.fence number).drained.isSome → ∀ call ∈ s.calls,
    (s.fence number).Covers call → ¬ s.Live call.entry
  apart : ∀ number worker, (s.fence number).ran worker = true →
    s.Passed number ∨ s.Split number (.worker worker)
  /-- Everything before the barrier is executed before anything after it. -/
  order : ∀ number front entry back, s.executed = front ++ entry :: back → s.After number entry →
    ∀ call ∈ s.calls, (s.fence number).Covers call → ∃ earlier ∈ front, earlier.tag = call.entry

theorem fenced_initial (counter : UInt64) (space : S.Space) (locals : S.Local) :
    (Config.initial counter space locals).Fenced where
  handled _ drained := by cases drained
  apart _ _ ran := by cases ran
  order _ front entry back split := by cases front <;> cases split

/-- Sockets that are all sockets of workers, and as many as there are workers. -/
theorem all_workers {socks : List SockId} (distinct : socks.Nodup) (enough : socks.length = nthreads)
    (workers : ∀ sock ∈ socks, ∃ worker, sock = .worker worker) (worker : WorkerId) :
    .worker worker ∈ socks := by
  have subset : socks ⊆ ((List.finRange nthreads).map SockId.worker : List SockId) := by
    intro sock member
    obtain ⟨other, rfl⟩ := workers sock member
    exact List.mem_map_of_mem (List.mem_finRange other)
  have perm := (List.subperm_of_subset distinct subset).perm_of_length_le (by simp [enough])
  exact perm.symm.subset (List.mem_map_of_mem (List.mem_finRange worker))

/-- The first message on a released socket is the block of a barrier with the
identifier. -/
theorem HeldAt.first {id : UInt64} {sock : SockId} (held : s.HeldAt id sock) :
    ∃ number rest, s.inbox sock = .block id number :: rest := by
  have block := held.2
  split at block
  · next reached number rest first =>
      subst block
      exact ⟨number, rest, first⟩
  · exact block.elim

namespace Fenced

theorem handled_step (fenced : s.Fenced) (ledger : s.Ledger) (dated : s.Dated)
    (taken : s.step action = some next) (number : Nat) (drained : (next.fence number).drained.isSome)
    (call : Call S) (member : call ∈ next.calls) (covers : (next.fence number).Covers call) :
    ¬ next.Live call.entry := by
  -- whatever the step, an old call that was not live before is not live now
  have settle : ∀ old ∈ s.calls, ¬ s.Live old.entry → ¬ next.Live old.entry := by
    intro old inside dead live
    refine dead (live_step taken ?_ live)
    exact (ledger.entry_le old inside).trans_lt (ledger.index_lt inside)
  have unchanged : next.fence number = s.fence number ∨
      (next.fence number).begun = (s.fence number).begun ∧
        (next.fence number).drained = (s.fence number).drained → ¬ next.Live call.entry := by
    intro same
    have times : (next.fence number).begun = (s.fence number).begun ∧
        (next.fence number).drained = (s.fence number).drained := by
      rcases same with same | times
      · rw [same]
        exact ⟨rfl, rfl⟩
      · exact times
    have before : (s.fence number).Covers call := by
      unfold Fence.Covers at covers ⊢
      rwa [times.1, times.2] at covers
    have inside := mem_calls_of_lt taken member (dated.index_lt before)
    exact settle call inside (fenced.handled number (times.2 ▸ drained) call inside before)
  cases wireStep_of_step taken with
  | same inbox handed executed fence | push sock wire known calls inbox executed fence
  | serve sock wire rest first known calls inbox handed fence
  | release id socks distinct enough reached calls inbox handed executed fence =>
      exact unchanged (Or.inl (by rw [fence]))
  | begin id fresh calls inbox handed executed fence =>
      by_cases new : number = s.fences
      · subst new
        rw [fence, Function.update_self] at drained
        cases drained
      · exact unchanged (Or.inl (by rw [fence, Function.update_of_ne new]))
  | drain other draining handled calls inbox handed executed fence =>
      by_cases own : number = other
      · subst own
        rw [calls] at member
        refine settle call member (handled call member ?_)
        rw [fence, Function.update_self] at covers
        rcases covers with early | ⟨source, -⟩
        · exact Or.inl early
        · exact Or.inr (by rw [source]; rfl)
      · exact unchanged (Or.inl (by rw [fence, Function.update_of_ne own]))
  | block worker other known drained notRan calls inbox handed executed fence
  | finish other drained ran calls inbox handed executed fence =>
      by_cases own : number = other
      · subst own
        exact unchanged (Or.inr (by rw [fence, Function.update_self]; exact ⟨rfl, rfl⟩))
      · exact unchanged (Or.inl (by rw [fence, Function.update_of_ne own]))

/-- What has to be shown of a step for a barrier whose block the worker has run. -/
theorem apart_of_shape (fenced : s.Fenced) (wired : s.Wired) (ledger : s.Ledger) (dated : s.Dated)
    (taken : s.step action = some next) {number : Nat} {worker : WorkerId}
    (ran : (s.fence number).ran worker = true)
    (passing : ∀ sock entry, .request entry ∈ next.inbox sock →
      .request entry ∈ s.inbox sock ∨ ¬ s.Before number entry)
    (shape : ∀ ahead id behind, s.inbox (.worker worker) = ahead ++ .block id number :: behind →
      (∀ other, .block other number ∉ ahead) → next.Passed number ∨
        ∃ ahead' behind' : List (Wire S.toSignature), next.inbox (.worker worker) = ahead' ++ .block id number :: behind' ∧
          ahead' ⊆ ahead ∧
          ∀ entry, .request entry ∈ behind' → .request entry ∈ behind ∨ ¬ s.Before number entry) :
    next.Passed number ∨ next.Split number (.worker worker) := by
  rcases fenced.apart number worker ran with passed | ⟨ahead, id, behind, split, once, later, sooner⟩
  · refine Or.inl fun sock entry inside before => ?_
    have prior := before_step dated taken ran before
    rcases passing sock entry inside with earlier | never
    · exact passed sock entry earlier prior
    · exact never prior
  · refine (shape ahead id behind split once).imp_right ?_
    rintro ⟨ahead', behind', split', fewer, kept⟩
    refine ⟨ahead', id, behind', split', fun other inside => once other (fewer inside),
      fun entry inside before => ?_, fun entry inside after => ?_⟩
    · have prior := before_step dated taken ran before
      rcases kept entry inside with earlier | never
      · exact later entry earlier prior
      · exact never prior
    · have here : .request entry ∈ s.inbox (.worker worker) := by
        rw [split]
        exact List.mem_append_left _ (fewer inside)
      exact sooner entry (fewer inside) (after_step ledger taken (wired.request _ entry here).2 after)

/-- A worker that is about to send an element that is before the barrier is not done
with what the drain waits for. -/
theorem not_before_of_sending (fenced : s.Fenced) (dated : s.Dated) {number : Nat} {worker : WorkerId}
    (ran : (s.fence number).ran worker = true) {other : WorkerId} {entry : Entry S.toSignature}
    (sending : s.worker other = .sending entry) : ¬ s.Before number entry := by
  rintro ⟨call, member, covers, tagged⟩
  refine fenced.handled number (dated.ran number worker ran) call member covers (Or.inr ⟨other, ?_⟩)
  rw [sending, tagged]
  rfl

/-- When a socket is released at the block of a barrier, all the sockets are, and
nothing before the barrier is left on them. -/
theorem passed_of_release (fenced : s.Fenced) (wired : s.Wired) (dated : s.Dated)
    (taken : s.step action = some next) {number : Nat} {worker : WorkerId}
    (ran : (s.fence number).ran worker = true) {id : UInt64} {socks : List SockId}
    (distinct : socks.Nodup) (enough : socks.length = nthreads)
    (reached : ∀ sock ∈ socks, s.HeldAt id sock)
    (inbox : next.inbox = fun sock => if sock ∈ socks then (s.inbox sock).tail else s.inbox sock)
    (own : .block id number ∈ s.inbox (.worker worker)) : next.Passed number := by
  intro sock entry inside before
  have prior := before_step dated taken ran before
  simp only [inbox] at inside
  obtain ⟨⟨other, rfl⟩, -⟩ := wired.request sock entry (Wired.mem_release inside)
  have released : SockId.worker other ∈ socks := by
    refine all_workers distinct enough (fun sock member => ?_) other
    obtain ⟨reachedNumber, rest, first⟩ := (reached sock member).first
    obtain ⟨-, -, owner, rfl, -⟩ := wired.block sock id reachedNumber (by rw [first]; simp)
    exact ⟨owner, rfl⟩
  obtain ⟨reachedNumber, rest, first⟩ := (reached _ released).first
  rw [if_pos released, first, List.tail_cons] at inside
  obtain ⟨known, same, -⟩ := wired.block _ id reachedNumber (by rw [first]; simp)
  obtain ⟨below, mine, -⟩ := wired.block _ id number own
  have equal : reachedNumber = number := by
    rcases Nat.lt_trichotomy reachedNumber number with less | equal | less
    · exact absurd (by rw [first]; simp)
        ((dated.ids reachedNumber number less below (same.symm.trans mine)).2 (.worker other) id)
    · exact equal
    · exact absurd own ((dated.ids number reachedNumber less known (mine.symm.trans same)).2 _ id)
  subst equal
  obtain ⟨-, -, owner, owned, ranOther⟩ := wired.block _ id reachedNumber (by rw [first]; simp)
  cases owned
  rcases fenced.apart reachedNumber other ranOther with passed | ⟨ahead, at', behind, split, once, later, -⟩
  · exact passed (.worker other) entry (by rw [first]; exact List.mem_cons_of_mem _ inside) prior
  · cases ahead with
    | nil =>
        rw [first, List.nil_append] at split
        cases split
        exact later entry inside prior
    | cons wire ahead =>
        rw [first, List.cons_append] at split
        obtain ⟨rfl, -⟩ := List.cons.inj split
        exact once id List.mem_cons_self

theorem apart_step (fenced : s.Fenced) (wired : s.Wired) (ledger : s.Ledger) (dated : s.Dated)
    (taken : s.step action = some next) (number : Nat) (worker : WorkerId)
    (ran : (next.fence number).ran worker = true) :
    next.Passed number ∨ next.Split number (.worker worker) := by
  have keep := fun before : (s.fence number).ran worker = true =>
    fenced.apart_of_shape wired ledger dated taken before
  have still : next.inbox = s.inbox → (s.fence number).ran worker = true →
      next.Passed number ∨ next.Split number (.worker worker) := by
    intro inbox before
    refine keep before (fun sock entry inside => Or.inl (inbox ▸ inside)) fun ahead id behind split _ => ?_
    exact Or.inr ⟨ahead, behind, by rw [inbox, split], List.Subset.refl _, fun entry inside => Or.inl inside⟩
  cases wireStep_of_step taken with
  | same inbox handed executed fence => exact still inbox (fence ▸ ran)
  | begin id fresh calls inbox handed executed fence =>
      rw [fence] at ran
      by_cases new : number = s.fences
      · subst new
        rw [Function.update_self] at ran
        cases ran
      · rw [Function.update_of_ne new] at ran
        exact still inbox ran
  | drain other draining handled calls inbox handed executed fence
  | finish other drained all calls inbox handed executed fence =>
      rw [fence] at ran
      by_cases own : number = other
      · subst own
        rw [Function.update_self] at ran
        exact still inbox ran
      · rw [Function.update_of_ne own] at ran
        exact still inbox ran
  | push sock wire known calls inbox executed fence =>
      rw [fence] at ran
      have fresh : ∀ entry, wire = .request entry → ¬ s.Before number entry := by
        rintro entry rfl
        rcases known with ⟨_, _, no, _⟩ | ⟨other, element, _, same, sending, _⟩
        · cases no
        · cases same
          exact fenced.not_before_of_sending dated ran sending
      refine keep ran (fun other entry inside => ?_) fun ahead id behind split _ => Or.inr ?_
      · rw [inbox] at inside
        exact (Wired.mem_push inside).imp_right fun new => fresh entry new.2.symm
      · by_cases own : sock = .worker worker
        · subst own
          refine ⟨ahead, behind ++ [wire], ?_, List.Subset.refl _, fun entry inside => ?_⟩
          · rw [inbox, Function.update_self, split, List.append_assoc, List.cons_append]
          · exact (List.mem_append.mp inside).imp_right
              fun new => fresh entry (List.mem_singleton.mp new).symm
        · refine ⟨ahead, behind, ?_, List.Subset.refl _, fun entry inside => Or.inl inside⟩
          rw [inbox, Function.update_of_ne (Ne.symm own), split]
  | serve sock wire rest first known calls inbox handed fence =>
      rw [fence] at ran
      refine keep ran (fun other entry inside => ?_) fun ahead id behind split _ => Or.inr ?_
      · rw [inbox] at inside
        exact Or.inl (Wired.mem_serve first inside)
      · by_cases own : sock = .worker worker
        · subst own
          rw [first] at split
          cases ahead with
          | nil =>
              cases split
              rcases known with ⟨_, _, no, _⟩ | ⟨_, no, _⟩ <;> cases no
          | cons head ahead =>
              rw [List.cons_append] at split
              obtain ⟨rfl, rfl⟩ := List.cons.inj split
              refine ⟨ahead, behind, ?_, List.subset_cons_self _ _, fun entry inside => Or.inl inside⟩
              rw [inbox, Function.update_self]
        · refine ⟨ahead, behind, ?_, List.Subset.refl _, fun entry inside => Or.inl inside⟩
          rw [inbox, Function.update_of_ne (Ne.symm own), split]
  | release id socks distinct enough reached calls inbox handed executed fence =>
      rw [fence] at ran
      refine keep ran (fun sock entry inside => ?_) fun ahead other behind split once => ?_
      · rw [inbox] at inside
        exact Or.inl (Wired.mem_release inside)
      · by_cases released : SockId.worker worker ∈ socks
        · obtain ⟨reachedNumber, rest, first⟩ := (reached _ released).first
          rw [first] at split
          cases ahead with
          | nil =>
              cases split
              refine Or.inl (fenced.passed_of_release wired dated taken ran distinct enough reached
                inbox ?_)
              rw [first]
              exact List.mem_cons_self
          | cons head ahead =>
              rw [List.cons_append] at split
              obtain ⟨rfl, rfl⟩ := List.cons.inj split
              refine Or.inr ⟨ahead, behind, ?_, List.subset_cons_self _ _, fun entry inside => Or.inl inside⟩
              simp only [inbox, if_pos released, first, List.tail_cons]
        · refine Or.inr ⟨ahead, behind, ?_, List.Subset.refl _, fun entry inside => Or.inl inside⟩
          simp only [inbox, if_neg released, split]
  | block other element known drained notRan calls inbox handed executed fence =>
      by_cases mine : (s.fence number).ran worker = true
      · refine keep mine (fun sock entry inside => ?_) fun ahead id behind split _ => Or.inr ?_
        · rw [inbox] at inside
          refine (Wired.mem_push inside).imp_right ?_
          rintro ⟨-, new⟩
          cases new
        · by_cases own : other = worker
          · subst own
            refine ⟨ahead, behind ++ [.block (s.fence element).id element], ?_, List.Subset.refl _,
              fun entry inside => ?_⟩
            · rw [inbox, Function.update_self, split, List.append_assoc, List.cons_append]
            · refine (List.mem_append.mp inside).imp_right fun new => ?_
              cases List.mem_singleton.mp new
          · refine ⟨ahead, behind, ?_, List.Subset.refl _, fun entry inside => Or.inl inside⟩
            rw [inbox, Function.update_of_ne (by simpa using Ne.symm own), split]
      · -- the worker runs the block now: all that is on its socket is ahead of it
        obtain ⟨rfl, rfl⟩ : element = number ∧ other = worker := by
          rw [fence] at ran
          by_cases same : number = element
          · subst same
            refine ⟨rfl, ?_⟩
            by_contra different
            rw [Function.update_self] at ran
            exact mine (by simpa [Ne.symm different] using ran)
          · rw [Function.update_of_ne same] at ran
            exact absurd ran mine
        refine Or.inr ⟨s.inbox (.worker other), (s.fence element).id, [], ?_, fun id inside => ?_,
          fun entry inside => absurd inside List.not_mem_nil, fun entry inside after => ?_⟩
        · rw [inbox, Function.update_self]
        · obtain ⟨-, -, owner, owned, ranBefore⟩ := wired.block _ id element inside
          cases owned
          exact mine ranBefore
        · obtain ⟨call, member, ⟨returned, same, -⟩, -⟩ :=
            after_step ledger taken (wired.request _ entry inside).2 after
          exact mine (dated.returned element (by rw [same]; rfl) other)

/-- The element of a call before the barrier was handed to `do_send`. -/
theorem handed_of_drained (fenced : s.Fenced) (census : s.Census) {number : Nat}
    (drained : (s.fence number).drained.isSome) {call : Call S} (member : call ∈ s.calls)
    (covers : (s.fence number).Covers call) :
    ∃ entry ∈ s.handed, entry.tag = call.entry ∧ call.msg.SameText entry.value :=
  census.handed_of_dead member (fenced.handled number drained call member covers)

/-- An element before the barrier that is not on its way any more was executed. -/
theorem executed_of_passed (fenced : s.Fenced) (census : s.Census) (wired : s.Wired) {number : Nat}
    (passed : s.Passed number) (drained : (s.fence number).drained.isSome) {call : Call S}
    (member : call ∈ s.calls) (covers : (s.fence number).Covers call) :
    ∃ entry ∈ s.executed, entry.tag = call.entry := by
  obtain ⟨entry, sent, tagged, -⟩ := fenced.handed_of_drained census drained member covers
  rcases wired.handed entry sent with ran | ⟨sock, inside⟩
  · exact ⟨entry, ran, tagged⟩
  · exact absurd ⟨call, member, covers, tagged.symm⟩ (passed sock entry inside)

/-- An element after the barrier that is the next one on a socket has nothing before
the barrier to wait for. -/
theorem passed_of_after (fenced : s.Fenced) (wired : s.Wired) (dated : s.Dated) {number : Nat}
    {sock : SockId} {entry : Entry S.toSignature} {rest : List (Wire S.toSignature)}
    (first : s.inbox sock = .request entry :: rest) (after : s.After number entry) :
    s.Passed number := by
  obtain ⟨⟨worker, rfl⟩, -⟩ := wired.request sock entry (by rw [first]; exact List.mem_cons_self)
  obtain ⟨_, _, ⟨returned, same, _⟩, _⟩ := id after
  have ran := dated.returned number (by rw [same]; rfl) worker
  rcases fenced.apart number worker ran with passed | ⟨ahead, id, behind, split, -, -, sooner⟩
  · exact passed
  · rw [first] at split
    cases ahead with
    | nil => cases split
    | cons head ahead =>
        rw [List.cons_append] at split
        obtain ⟨rfl, -⟩ := List.cons.inj split
        exact absurd after (sooner entry List.mem_cons_self)

theorem order_step (fenced : s.Fenced) (census : s.Census) (wired : s.Wired) (dated : s.Dated)
    (taken : s.step action = some next) (number : Nat) (front : List (Entry S.toSignature))
    (entry : Entry S.toSignature) (back : List (Entry S.toSignature))
    (split : next.executed = front ++ entry :: back) (after : next.After number entry) (call : Call S)
    (member : call ∈ next.calls) (covers : (next.fence number).Covers call) :
    ∃ earlier ∈ front, earlier.tag = call.entry := by
  have settle : entry ∈ s.handed → s.After number entry ∧ call ∈ s.calls ∧
      (s.fence number).Covers call ∧ (s.fence number).drained.isSome := by
    intro sent
    have before := after_step census.ledger taken sent after
    obtain ⟨_, _, ⟨returned, same, _⟩, _⟩ := id before
    have ran := dated.returned number (by rw [same]; rfl) 0
    obtain ⟨-, begun, drained, -⟩ := dated.fence_step (wireStep_of_step taken) ran
    have prior : (s.fence number).Covers call := by
      unfold Fence.Covers at covers ⊢
      rwa [begun, drained] at covers
    exact ⟨before, mem_calls_of_lt taken member (dated.index_lt prior), prior, dated.ran number 0 ran⟩
  have earlier : ∀ back, s.executed = front ++ entry :: back →
      ∃ earlier ∈ front, earlier.tag = call.entry := by
    intro back split
    have sent : entry ∈ s.handed := wired.executed entry (by rw [split]; simp)
    obtain ⟨before, inside, prior, -⟩ := settle sent
    exact fenced.order number front entry back split before call inside prior
  cases wireStep_of_step taken with
  | same inbox handed executed | push sock wire known calls inbox executed
  | block worker other known drained notRan calls inbox handed executed
  | release id socks distinct enough reached calls inbox handed executed
  | begin id fresh calls inbox handed executed | drain other draining handled calls inbox handed executed
  | finish other drained ran calls inbox handed executed => exact earlier back (executed ▸ split)
  | serve sock wire rest first known =>
      rcases known with ⟨_, _, -, executed⟩ | ⟨element, rfl, executed⟩
      · exact earlier back (executed ▸ split)
      · rw [executed] at split
        rcases List.eq_nil_or_concat back with rfl | ⟨others, last, rfl⟩
        · obtain ⟨rfl, same⟩ := List.append_inj' split rfl
          obtain rfl := List.singleton_inj.mp same
          have sent := (wired.request sock element (by rw [first]; exact List.mem_cons_self)).2
          obtain ⟨before, inside, prior, drained⟩ := settle sent
          exact fenced.executed_of_passed census wired (fenced.passed_of_after wired dated first before)
            drained inside prior
        · rw [List.concat_eq_append, ← List.cons_append, ← List.append_assoc] at split
          exact earlier others (List.append_inj' split rfl).1

end Fenced

/-- Everything that the order of the executed elements rests on. -/
structure Synced (s : Config S) : Prop where
  census : s.Census
  wired : s.Wired
  dated : s.Dated
  fenced : s.Fenced

theorem synced_initial (counter : UInt64) (space : S.Space) (locals : S.Local) :
    (Config.initial counter space locals).Synced where
  census := census_initial counter space locals
  wired := wired_initial counter space locals
  dated := dated_initial counter space locals
  fenced := fenced_initial counter space locals

theorem Synced.step (synced : s.Synced) (taken : s.step action = some next) : next.Synced where
  census := synced.census.step taken
  wired := synced.wired.step (wireStep_of_step taken)
  dated := synced.dated.step synced.wired taken
  fenced :=
    { handled := synced.fenced.handled_step synced.census.ledger synced.dated taken
      apart := synced.fenced.apart_step synced.wired synced.census.ledger synced.dated taken
      order := synced.fenced.order_step synced.census synced.wired synced.dated taken }

theorem Synced.exec (synced : s.Synced) {actions : List (Action S)}
    (run : Transition.exec Config.step s actions = some next) : next.Synced :=
  exec_invariant Synced (fun synced taken => synced.step taken) synced run

/-- What was executed for a call has the text of the call. -/
theorem Synced.text_eq (synced : s.Synced) {call : Call S} (member : call ∈ s.calls)
    {entry : Entry S.toSignature} (ran : entry ∈ s.executed) (tagged : entry.tag = call.entry) :
    entry.value.strToSend = call.msg.strToSend := by
  obtain ⟨other, accepted, number, same⟩ := synced.census.stands call member
  have equal := synced.census.ledger.eq_of_handed accepted (synced.wired.executed entry ran)
    (number.trans tagged.symm)
  exact equal ▸ same.symm

end Config

end AtomSpaceCog
