import AtomSpaceCog.Channel.Record

/-! # The barriers that the server has not passed

As long as no barrier starts to hand out its block while another one does, the barriers stand
in line: the blocks are in the same order on all sockets, and only the last barrier may be
missing on one (`Config.Lined`).
-/

namespace AtomSpaceCog

open Transition

variable {sig : Signature} {S : Setting}

/-- The barrier whose block the message is. -/
def Wire.fence : Wire sig → Option Nat
  | block _ number => some number
  | _ => none

namespace Config

/-- The barriers whose blocks are on the socket of a worker, in order. -/
def blocks (s : Config S) (worker : WorkerId) : List Nat :=
  (s.inbox (.worker worker)).filterMap Wire.fence

/-- No barrier starts to hand out its block while another one does. -/
def Exclusive (s : Config S) (action : Action S) : Prop :=
  ∀ thread, action = .drain thread → ¬ s.Blocking

/-- The barriers with blocks on the sockets are in line. -/
structure Lined (s : Config S) (line : List Nat) : Prop where
  nodup : line.Nodup
  drained : ∀ number ∈ line, number < s.fences ∧ (s.fence number).drained.isSome
  blocks : ∀ worker, s.blocks worker = line.filter fun number => (s.fence number).ran worker
  /-- A barrier that is handing out its block is the last one. -/
  last : ∀ number < s.fences, (s.fence number).drained.isSome →
    ∀ worker, (s.fence number).ran worker = false → line.getLast? = some number

theorem lined_initial (counter : UInt64) (space : S.Space) (locals : S.Local) :
    (Config.initial counter space locals).Lined [] where
  nodup := List.nodup_nil
  drained _ member := absurd member List.not_mem_nil
  blocks _ := rfl
  last _ _ drained := by cases drained

variable {s next : Config S} {action : Action S} {line : List Nat}

/-- Only the drain of a barrier sets its time. -/
theorem drain_of_drained (taken : s.step action = some next) {number : Nat}
    (before : (s.fence number).drained = none) (after : (next.fence number).drained.isSome) :
    ∃ thread op since rest, action = .drain thread ∧
      s.caller thread = .fencing op since number rest := by
  have same : ∀ {Goal : Prop}, (next.fence number).drained = (s.fence number).drained → Goal := by
    intro Goal equal
    rw [equal, before] at after
    cases after
  cases moves_of_step taken with
  | @drain thread op since other rest here =>
      by_cases own : number = other
      · subst own
        exact ⟨thread, op, since, rest, rfl, here⟩
      · exact same (by simp [setFence, own])
  | @barrier thread id op since rest here =>
      by_cases new : number = s.fences
      · subst new
        simp [setFence, setCaller] at after
      · exact same (by simp [setFence, setCaller, new])
  | @block worker other =>
      by_cases own : number = other
      · subst own
        exact same (by simp [setFence, push])
      · exact same (by simp [setFence, push, own])
  | @finish thread op since other =>
      by_cases own : number = other
      · subst own
        exact same (by simp [setFence, setCaller])
      · exact same (by simp [setFence, setCaller, own])
  | _ => exact same rfl

/-- What is put on a socket or taken off it is no block. -/
theorem blocks_update {sock : SockId} {wires : List (Wire S.toSignature)}
    (inbox : next.inbox = Function.update s.inbox sock wires)
    (same : wires.filterMap Wire.fence = (s.inbox sock).filterMap Wire.fence) (worker : WorkerId) :
    next.blocks worker = s.blocks worker := by
  rw [blocks, inbox]
  by_cases own : SockId.worker worker = sock
  · subst own
    rw [Function.update_self, same]
    rfl
  · rw [Function.update_of_ne own]
    rfl

namespace Lined

theorem congr (lined : s.Lined line) (blocks : ∀ worker, next.blocks worker = s.blocks worker)
    (fences : next.fences = s.fences)
    (fence : ∀ number, (next.fence number).drained = (s.fence number).drained ∧
      (next.fence number).ran = (s.fence number).ran) : next.Lined line where
  nodup := lined.nodup
  drained number member := by
    rw [fences, (fence number).1]
    exact lined.drained number member
  blocks worker := by
    rw [blocks worker, lined.blocks worker]
    exact List.filter_congr fun number _ => by rw [(fence number).2]
  last number used drained worker notRan := by
    rw [fences] at used
    rw [(fence number).1] at drained
    rw [(fence number).2] at notRan
    exact lined.last number used drained worker notRan

/-- No barrier is behind one that is handing out its block. -/
theorem eq_nil {number : Nat} {rest : List Nat} (lined : s.Lined (number :: rest)) {worker : WorkerId}
    (notRan : (s.fence number).ran worker = false) : rest = [] := by
  obtain ⟨used, drained⟩ := lined.drained number List.mem_cons_self
  have last := lined.last number used drained worker notRan
  cases rest with
  | nil => rfl
  | cons second rest =>
      rw [List.getLast?_cons_cons] at last
      exact absurd (List.mem_of_getLast? last) (List.nodup_cons.mp lined.nodup).1

/-- The first block on each socket is that of the first barrier in line. -/
theorem blocks_cons (lined : s.Lined line) {number : Nat}
    (blocked : ∀ worker, ∃ rest, s.blocks worker = number :: rest) :
    ∃ rest, line = number :: rest ∧ (∀ worker, (s.fence number).ran worker = true) ∧
      ∀ worker, s.blocks worker = number :: rest.filter fun other => (s.fence other).ran worker := by
  have inside : ∀ worker, number ∈ line ∧ (s.fence number).ran worker = true := by
    intro worker
    obtain ⟨rest, first⟩ := blocked worker
    rw [lined.blocks worker] at first
    exact List.mem_filter.mp (first ▸ List.mem_cons_self)
  cases line with
  | nil => exact absurd (inside 0).1 List.not_mem_nil
  | cons head rest =>
      have same : head = number := by
        by_contra different
        -- A worker would have the block of the first one.
        have ahead : ∀ worker, (s.fence head).ran worker = false := by
          intro worker
          by_contra ran
          obtain ⟨others, first⟩ := blocked worker
          rw [lined.blocks worker, List.filter_cons_of_pos (by simpa using ran)] at first
          exact different (List.cons.inj first).1
        obtain rfl := lined.eq_nil (ahead 0)
        exact different (List.mem_singleton.mp (inside 0).1).symm
      subst same
      refine ⟨rest, rfl, fun worker => (inside worker).2, fun worker => ?_⟩
      rw [lined.blocks worker, List.filter_cons_of_pos (by exact (inside worker).2)]

/-- A barrier joins the line. -/
theorem join (lined : s.Lined line) (dated : s.Dated) (free : ¬ s.Blocking) {number time : Nat}
    (used : number < s.fences) (draining : (s.fence number).drained = none)
    (inbox : next.inbox = s.inbox) (fences : next.fences = s.fences)
    (fence : next.fence = Function.update s.fence number { s.fence number with drained := some time }) :
    next.Lined (line ++ [number]) := by
  have fresh : number ∉ line := by
    intro member
    have drained := (lined.drained number member).2
    rw [draining] at drained
    cases drained
  have away : ∀ other, other ≠ number → next.fence other = s.fence other := by
    intro other different
    rw [fence, Function.update_of_ne different]
  have here : next.fence number = { s.fence number with drained := some time } := by
    rw [fence, Function.update_self]
  have notRan : ∀ worker, (s.fence number).ran worker = false := by
    intro worker
    by_contra ran
    have drained := dated.ran number worker (Bool.eq_true_of_not_eq_false ran)
    rw [draining] at drained
    cases drained
  have ne_of_mem : ∀ other ∈ line, other ≠ number := fun other member same => fresh (same ▸ member)
  refine ⟨?_, fun other member => ?_, fun worker => ?_, fun other old drained worker still => ?_⟩
  · refine List.nodup_append.mpr ⟨lined.nodup, List.nodup_singleton _, fun other member new own => ?_⟩
    rw [List.mem_singleton.mp own]
    exact ne_of_mem other member
  · rw [fences]
    rcases List.mem_append.mp member with prior | new
    · rw [away other (ne_of_mem other prior)]
      exact lined.drained other prior
    · rw [List.mem_singleton.mp new, here]
      exact ⟨used, rfl⟩
  · rw [Config.blocks, inbox, List.filter_append, ← Config.blocks, lined.blocks worker]
    rw [List.filter_cons_of_neg (by rw [here]; simp [notRan worker]), List.filter_nil, List.append_nil]
    exact List.filter_congr fun other member => by rw [away other (ne_of_mem other member)]
  · by_cases own : other = number
    · rw [own, List.getLast?_append_of_ne_nil _ (List.cons_ne_nil _ _)]
      rfl
    · rw [fences] at old
      rw [away other own] at drained still
      exact absurd ⟨other, old, drained, worker, still⟩ free

/-- A worker runs the block of the last barrier. -/
theorem run (lined : s.Lined line) {worker : WorkerId} {number : Nat} (known : number < s.fences)
    (drained : (s.fence number).drained.isSome) (notRan : (s.fence number).ran worker = false)
    {id : UInt64} (inbox : next.inbox = Function.update s.inbox (.worker worker)
      (s.inbox (.worker worker) ++ [.block id number]))
    (fence : next.fence = Function.update s.fence number
      { s.fence number with ran := Function.update (s.fence number).ran worker true })
    (fences : next.fences = s.fences) : next.Lined line := by
  obtain ⟨front, rfl⟩ := List.getLast?_eq_some_iff.mp (lined.last number known drained worker notRan)
  have away : ∀ other, other ≠ number → next.fence other = s.fence other := by
    intro other different
    rw [fence, Function.update_of_ne different]
  have here : next.fence number =
      { s.fence number with ran := Function.update (s.fence number).ran worker true } := by
    rw [fence, Function.update_self]
  have ne_of_mem : ∀ other ∈ front, other ≠ number := by
    rintro other member rfl
    exact (List.nodup_append.mp lined.nodup).2.2 other member other List.mem_cons_self rfl
  have kept : ∀ other, (next.fence other).drained = (s.fence other).drained := by
    intro other
    by_cases own : other = number
    · rw [own, here]
    · rw [away other own]
  refine ⟨lined.nodup, fun other member => ?_, fun each => ?_, fun other old drained each still => ?_⟩
  · rw [fences, kept other]
    exact lined.drained other member
  · have before := lined.blocks each
    have front_same : (front.filter fun other => (next.fence other).ran each) =
        front.filter fun other => (s.fence other).ran each :=
      List.filter_congr fun other member => by rw [away other (ne_of_mem other member)]
    rw [List.filter_append] at before ⊢
    rw [front_same]
    by_cases own : each = worker
    · subst own
      rw [List.filter_cons_of_neg (by simp [notRan]), List.filter_nil, List.append_nil] at before
      rw [List.filter_cons_of_pos (by rw [here]; simp), List.filter_nil, ← before, Config.blocks, inbox,
        Function.update_self, List.filterMap_append]
      rfl
    · rw [Config.blocks, inbox, Function.update_of_ne (by simpa using own), ← Config.blocks, before]
      refine congrArg _ (List.filter_congr fun other member => ?_)
      rw [List.mem_singleton.mp member, here]
      simp [own]
  · rw [fences] at old
    rw [kept other] at drained
    refine lined.last other old drained each ?_
    by_cases own : other = number
    · subst own
      rw [here] at still
      by_cases same : each = worker
      · subst same
        exact notRan
      · simpa [same] using still
    · rwa [away other own] at still

/-- The server passes the first barrier in line. -/
theorem pass (lined : s.Lined line) (wired : s.Wired) (dated : s.Dated) {id : UInt64}
    {socks : List SockId} (distinct : socks.Nodup) (enough : socks.length = nthreads)
    (reached : ∀ sock ∈ socks, s.HeldAt id sock)
    (inbox : next.inbox = fun sock => if sock ∈ socks then (s.inbox sock).tail else s.inbox sock)
    (fence : next.fence = s.fence) (fences : next.fences = s.fences) : ∃ rest, next.Lined rest := by
  have released : ∀ worker : WorkerId, SockId.worker worker ∈ socks := by
    refine all_workers distinct enough fun sock member => ?_
    obtain ⟨number, rest, first⟩ := (reached sock member).first
    obtain ⟨-, -, owner, rfl, -⟩ := wired.block sock id number (by rw [first]; simp)
    exact ⟨owner, rfl⟩
  obtain ⟨number, others, first⟩ := (reached _ (released 0)).first
  obtain ⟨known, own, -⟩ := wired.block _ id number (by rw [first]; simp)
  -- The blocks with one identifier are those of one barrier.
  have blocked : ∀ worker, ∃ rest, s.inbox (.worker worker) = .block id number :: rest := by
    intro worker
    obtain ⟨other, rest, there⟩ := (reached _ (released worker)).first
    obtain ⟨used, same, -⟩ := wired.block _ id other (by rw [there]; simp)
    rcases Nat.lt_trichotomy other number with less | rfl | less
    · exact absurd (by rw [there]; simp)
        ((dated.ids other number less known (same.symm.trans own)).2 (.worker worker) id)
    · exact ⟨rest, there⟩
    · exact absurd (by rw [first]; simp)
        ((dated.ids number other less used (own.symm.trans same)).2 (.worker 0) id)
  obtain ⟨rest, rfl, ran, blocks⟩ := lined.blocks_cons fun worker => by
    obtain ⟨rest, there⟩ := blocked worker
    exact ⟨rest.filterMap Wire.fence, by rw [Config.blocks, there]; rfl⟩
  refine ⟨rest, (List.nodup_cons.mp lined.nodup).2, fun other member => ?_, fun worker => ?_,
    fun other old drained worker still => ?_⟩
  · rw [fence, fences]
    exact lined.drained other (List.mem_cons_of_mem _ member)
  · obtain ⟨behind, there⟩ := blocked worker
    have before := blocks worker
    rw [Config.blocks, there] at before
    rw [Config.blocks, inbox, fence]
    dsimp only
    rw [if_pos (released worker), there]
    exact (List.cons.inj before).2
  · rw [fences] at old
    rw [fence] at drained still
    have last := lined.last other old drained worker still
    cases rest with
    | nil =>
        have same : number = other := Option.some.inj last
        rw [← same, ran worker] at still
        cases still
    | cons second rest => rwa [List.getLast?_cons_cons] at last

theorem step (lined : s.Lined line) (regular : s.Regular) (exclusive : s.Exclusive action)
    (taken : s.step action = some next) : ∃ line, next.Lined line := by
  have wired := regular.synced.wired
  have dated := regular.synced.dated
  cases wireStep_of_step taken with
  | same inbox handed executed fence fences =>
      exact ⟨line, lined.congr (fun worker => by rw [Config.blocks, inbox]; rfl) fences
        fun number => by rw [fence]; exact ⟨rfl, rfl⟩⟩
  | push sock wire known calls inbox executed fence fences =>
      refine ⟨line, lined.congr (blocks_update inbox ?_) fences
        fun number => by rw [fence]; exact ⟨rfl, rfl⟩⟩
      rw [List.filterMap_append]
      rcases known with ⟨_, _, rfl, _⟩ | ⟨_, _, _, rfl, _⟩ <;> exact List.append_nil _
  | serve sock wire rest first known calls inbox handed fence fences =>
      refine ⟨line, lined.congr (blocks_update inbox ?_) fences
        fun number => by rw [fence]; exact ⟨rfl, rfl⟩⟩
      rw [first]
      rcases known with ⟨_, _, rfl, _⟩ | ⟨_, rfl, _⟩ <;> rfl
  | finish number drained ran calls inbox handed executed fence fences =>
      refine ⟨line, lined.congr (fun worker => by rw [Config.blocks, inbox]; rfl) fences
        fun other => ?_⟩
      rw [fence]
      by_cases own : other = number
      · subst own
        rw [Function.update_self]
        exact ⟨rfl, rfl⟩
      · rw [Function.update_of_ne own]
        exact ⟨rfl, rfl⟩
  | begin id fresh calls inbox handed executed fence fences =>
      have away : ∀ other < s.fences, next.fence other = s.fence other := by
        intro other old
        rw [fence, Function.update_of_ne old.ne]
      refine ⟨line, lined.nodup, fun other member => ?_, fun worker => ?_,
        fun other old drained worker still => ?_⟩
      · obtain ⟨old, drained⟩ := lined.drained other member
        rw [fences, away other old]
        exact ⟨old.trans (Nat.lt_succ_self _), drained⟩
      · rw [Config.blocks, inbox, ← Config.blocks, lined.blocks worker]
        exact List.filter_congr fun other member => by rw [away other (lined.drained other member).1]
      · by_cases new : other = s.fences
        · rw [new, fence, Function.update_self] at drained
          cases drained
        · rw [fences] at old
          have before : other < s.fences := Nat.lt_of_le_of_ne (Nat.le_of_lt_succ old) new
          rw [away other before] at drained still
          exact lined.last other before drained worker still
  | drain number draining handled calls inbox handed executed fence fences =>
      obtain ⟨thread, op, since, rest, rfl, here⟩ :=
        drain_of_drained taken draining (by rw [fence, Function.update_self]; rfl)
      obtain ⟨used, -⟩ := regular.owned.running thread number (by rw [here]; rfl)
      exact ⟨_, lined.join dated (exclusive thread rfl) used draining inbox fences fence⟩
  | block worker number known drained notRan calls inbox handed executed fence fences =>
      exact ⟨line, lined.run known drained notRan inbox fence fences⟩
  | release id socks distinct enough reached calls inbox handed executed fence fences =>
      exact lined.pass wired dated distinct enough reached inbox fence fences

end Lined

end Config

end AtomSpaceCog
