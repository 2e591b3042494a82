import AtomSpaceCog.Channel.Outline
import AtomSpaceCog.Channel.Executed
import AtomSpaceCog.Channel.Since

/-! # A message between two barriers

Some operations put one request with a reply between two calls of `barrier()`. When such an
operation returns, the server has executed the request, behind everything that was on the queue
before the operation was called (`Notice.delivered`), and whatever is put on the queue later
is executed behind it (`Notice.Delivered.ahead`).
-/

namespace AtomSpaceCog

open Transition

variable {sig : Signature} {Local : Type} {S : Setting}

/-- The operation puts the request between two barriers and returns, or ends in another way.
Before, unless that is `done`, it puts a message of one kind on the queue. -/
def Script.Posts (request : Request sig) (Prior : Str → Prop) : Bool → Script sig Local → Prop
  | _, .exit how => how ≠ .returned
  | done, .connected next => ∀ isOpen, (next isOpen).Posts request Prior done
  | done, .read next => ∀ state, (next state).Posts request Prior done
  | done, .enqueue other next =>
      (done = true ∨ Prior other.text) ∧ next.Posts request Prior true
  | done, .barrier next => done = true ∧ next = .enqueue request (.barrier (.exit .returned))
  | _, .synchro _ _ | _, .closeConnection _ => False

/-- A request that an operation puts between two barriers. -/
structure Notice (S : Setting) where
  op : S.Op
  request : Request S.toSignature
  /-- What the operation puts on the queue before. -/
  Prior : Str → Prop
  /-- It puts nothing on the queue before. -/
  done : Bool
  posts : (S.script op).Posts request Prior done

namespace Notice

variable (notice : Notice S)

/-- What is left of the operation behind its first barrier. -/
def posting : Script S.toSignature S.Local := .enqueue notice.request (.barrier (.exit .returned))

/-- What comes first was put on the queue, before so many calls had returned. -/
def Prepared (s : Config S) (since before : Nat) : Prop :=
  notice.done = true ∨ ∃ call ∈ s.calls, since ≤ call.index ∧ call.index < before ∧
    notice.Prior call.msg.strToSend

/-- The first barrier has returned. -/
def Fenced (s : Config S) (since returned : Nat) : Prop :=
  ∃ number < s.fences, since ≤ (s.fence number).begun ∧
    notice.Prepared s since (s.fence number).begun ∧ (s.fence number).returned = some returned

/-- Then the request was put on the queue. -/
def Told (s : Config S) (since : Nat) (call : Call S) : Prop :=
  call ∈ s.calls ∧ call.msg.strToSend = notice.request.text ∧ since ≤ call.index ∧
    ∃ returned ≤ call.index, notice.Fenced s since returned

/-- Then the second barrier has waited for it. -/
def Heard (s : Config S) (since : Nat) : Prop :=
  ∃ call, notice.Told s since call ∧
    ∃ number < s.fences, (s.fence number).drained.isSome ∧ (s.fence number).Covers call

section Grows

variable {notice} {s next : Config S} {since : Nat}

theorem Prepared.mono (grows : s.Grows next) {before later : Nat} (le : before ≤ later)
    (prepared : notice.Prepared s since before) : notice.Prepared next since later := by
  refine prepared.imp_right ?_
  rintro ⟨call, member, late, early, prior⟩
  exact ⟨call, grows.calls.subset member, late, early.trans_le le, prior⟩

theorem Fenced.mono (grows : s.Grows next) {returned : Nat}
    (fenced : notice.Fenced s since returned) : notice.Fenced next since returned := by
  obtain ⟨number, used, begun, prepared, same⟩ := fenced
  have kept := grows.begun number used
  exact ⟨number, used.trans_le grows.fences, begun.trans kept.ge, prepared.mono grows kept.ge,
    grows.returned number used returned same⟩

theorem Told.mono (grows : s.Grows next) {call : Call S} (told : notice.Told s since call) :
    notice.Told next since call := by
  obtain ⟨member, text, late, returned, before, fenced⟩ := told
  exact ⟨grows.calls.subset member, text, late, returned, before, fenced.mono grows⟩

theorem Heard.mono (grows : s.Grows next) (heard : notice.Heard s since) :
    notice.Heard next since := by
  obtain ⟨call, told, number, used, drained, covers⟩ := heard
  obtain ⟨time, same⟩ := Option.isSome_iff_exists.mp drained
  exact ⟨call, told.mono grows, number, used.trans_le grows.fences,
    by rw [grows.drained number used time same]; rfl, grows.covers used covers⟩

end Grows

/-- Where a thread is that carries out the operation. -/
inductive Point (s : Config S) (since : Nat) : Script S.toSignature S.Local → Prop where
  | leading {script} (done : Bool) (posts : script.Posts notice.request notice.Prior done)
      (prepared : done = true → notice.Prepared s since s.calls.length) : Point s since script
  | posting (returned : Nat) (early : returned ≤ s.calls.length)
      (fenced : notice.Fenced s since returned) : Point s since notice.posting
  | waiting (call : Call S) (told : notice.Told s since call) :
      Point s since (.barrier (.exit .returned))
  | returning (heard : notice.Heard s since) : Point s since (.exit .returned)

/-- Where a thread is in a barrier of the operation. -/
inductive FencePoint (s : Config S) (since number : Nat) : Script S.toSignature S.Local → Prop where
  | first (begun : since ≤ (s.fence number).begun)
      (prepared : notice.Prepared s since (s.fence number).begun) :
      FencePoint s since number notice.posting
  | second (call : Call S) (told : notice.Told s since call)
      (covers : (s.fence number).Covers call) : FencePoint s since number (.exit .returned)

/-- What a thread in the operation knows. -/
def outline : Outline S where
  running s _ op since script := op = notice.op →
    since ≤ s.calls.length ∧ notice.Point s since script
  fencing s _ op since number next := op = notice.op →
    since ≤ s.calls.length ∧ number < s.fences ∧ notice.FencePoint s since number next
  asking _ _ op _ _ _ := op ≠ notice.op

variable {notice} {s next : Config S} {since : Nat}

theorem Point.mono (grows : s.Grows next) {script : Script S.toSignature S.Local}
    (point : notice.Point s since script) : notice.Point next since script := by
  cases point with
  | leading done posts prepared =>
      exact .leading done posts fun same => (prepared same).mono grows grows.calls.length_le
  | posting returned early fenced =>
      exact .posting returned (early.trans grows.calls.length_le) (fenced.mono grows)
  | waiting call told => exact .waiting call (told.mono grows)
  | returning heard => exact .returning (heard.mono grows)

theorem FencePoint.mono (grows : s.Grows next) {number : Nat} (used : number < s.fences)
    {script : Script S.toSignature S.Local} (point : notice.FencePoint s since number script) :
    notice.FencePoint next since number script := by
  have kept := grows.begun number used
  cases point with
  | first begun prepared => exact .first (begun.trans kept.ge) (prepared.mono grows kept.ge)
  | second call told covers => exact .second call (told.mono grows) (grows.covers used covers)

theorem outline_stable (grows : s.Grows next) {thread : ThreadId} {caller : Caller S}
    (follows : notice.outline.Follows s thread caller) :
    notice.outline.Follows next thread caller := by
  have calls := grows.calls.length_le
  cases caller with
  | idle => trivial
  | asking => exact follows
  | running op since script =>
      intro own
      obtain ⟨early, point⟩ := follows own
      exact ⟨early.trans calls, point.mono grows⟩
  | fencing op since number rest =>
      intro own
      obtain ⟨early, used, point⟩ := follows own
      exact ⟨early.trans calls, used.trans_le grows.fences, point.mono grows used⟩

theorem outline_sound : notice.outline.Sound Config.Regular where
  stable regular taken _ _ follows := outline_stable (Config.grows_step regular.owned taken) follows
  start := by
    rintro s next thread op regular taken rfl rfl
    exact ⟨Nat.le_refl _, .leading notice.done notice.posts Or.inl⟩
  connected := by
    rintro s next thread op since rest regular taken rfl running rfl
    obtain ⟨early, point⟩ := running rfl
    cases point with
    | leading done posts prepared => exact ⟨early, .leading done (posts _) prepared⟩
  read := by
    rintro s next thread op since rest regular taken rfl running rfl
    obtain ⟨early, point⟩ := running rfl
    cases point with
    | leading done posts prepared => exact ⟨early, .leading done (posts _) prepared⟩
  enqueue := by
    rintro s next thread op since request rest regular taken rfl running rfl
    have grows := Config.grows_step regular.owned taken
    obtain ⟨early, point⟩ := running rfl
    have made : (⟨s.calls.length, (request.toMsg s.counter).1,
        Dedup.standsFor Msg.Equivalent s.pending s.calls.length (request.toMsg s.counter).1,
        some notice.op⟩ : Call S) ∈ (s.insert (some notice.op) request).calls :=
      List.mem_append_right _ List.mem_cons_self
    have longer : (s.insert (some notice.op) request).calls.length = s.calls.length + 1 := by
      rw [Config.insert_calls, List.length_append]
      rfl
    refine ⟨early.trans grows.calls.length_le, ?_⟩
    cases point with
    | leading done posts prepared =>
        refine .leading true posts.2 fun _ => ?_
        rcases posts.1 with same | prior
        · exact (prepared same).mono grows grows.calls.length_le
        · refine Or.inr ⟨_, made, early, (Nat.lt_succ_self _).trans_eq longer.symm, ?_⟩
          rwa [Request.toMsg_strToSend]
    | posting returned before fenced =>
        exact .waiting _ ⟨made, Request.toMsg_strToSend _ _, early, returned, before,
          fenced.mono grows⟩
  barrier := by
    rintro s next thread op since id rest regular taken rfl running rfl
    have grows := Config.grows_step regular.owned taken
    have begun : ((({ s with fences := s.fences + 1 }.setFence s.fences
        ⟨id, s.calls.length, none, fun _ => false, none⟩).setCaller thread
          (.fencing notice.op since s.fences rest)).fence s.fences).begun = s.calls.length := by
      simp [Config.setFence, Config.setCaller]
    obtain ⟨early, point⟩ := running rfl
    refine ⟨early, Nat.lt_succ_self _, ?_⟩
    cases point with
    | leading done posts prepared =>
        obtain ⟨same, rfl⟩ := posts
        exact .first (early.trans begun.ge) ((prepared same).mono grows begun.ge)
    | waiting call told =>
        refine .second call (told.mono grows) (Or.inl ?_)
        exact (regular.synced.census.ledger.index_lt told.1).trans_eq begun.symm
  finish := by
    rintro s next thread op since number rest regular taken drained ran rfl fencing rfl
    have grows := Config.grows_step regular.owned taken
    obtain ⟨early, used, point⟩ := fencing rfl
    refine ⟨early, ?_⟩
    cases point with
    | first begun prepared =>
        have kept := grows.begun number used
        refine .posting s.calls.length (Nat.le_refl _)
          ⟨number, used, begun.trans kept.ge, prepared.mono grows kept.ge, ?_⟩
        simp [Config.setFence, Config.setCaller]
    | second call told covers =>
        exact .returning (Heard.mono grows ⟨call, told, number, used, drained, covers⟩)
  ask := by
    rintro s next thread op since msg rest regular taken rfl running rfl
    obtain ⟨early, point⟩ := running rfl
    cases point with
    | leading done posts => exact posts.elim
  answer := by
    rintro s next thread op since msg rest reply replies regular taken arrived rfl asking own
    exact absurd own asking
  closeConnection := by
    rintro s next thread op since rest regular taken rfl running rfl
    obtain ⟨early, point⟩ := running rfl
    cases point with
    | leading done posts => exact posts.elim

/-! ## What has been executed when the operation returns -/

/-- The request was executed, with everything before it that was on the queue before. -/
structure Delivered (notice : Notice S) (s : Config S) (since : Nat)
    (front : List (Entry S.toSignature)) (told : Entry S.toSignature)
    (back : List (Entry S.toSignature)) : Prop where
  split : s.executed = front ++ told :: back
  text : told.value.strToSend = notice.request.text
  /-- It stands for a call that the operation made. -/
  stands : ∃ call ∈ s.calls, since ≤ call.index ∧ call.entry = told.tag
  early : ∀ call ∈ s.calls, call.index < since → ∃ entry ∈ front, entry.tag = call.entry ∧
    entry.value.strToSend = call.msg.strToSend
  prior : notice.done = true ∨ ∃ call ∈ s.calls, since ≤ call.index ∧
    notice.Prior call.msg.strToSend ∧ ∃ entry ∈ front, entry.tag = call.entry ∧
      entry.value.strToSend = call.msg.strToSend

/-- When the operation is about to return. -/
theorem delivered (regular : s.Regular) {thread : ThreadId}
    (follows : notice.outline.Follows s thread (.running notice.op since (.exit .returned)))
    (replying : ∀ call ∈ s.calls, call.msg.strToSend = notice.request.text →
      call.msg.noreply = false) :
    ∃ front told back, notice.Delivered s since front told back := by
  obtain ⟨-, point⟩ := follows rfl
  have heard : notice.Heard s since := by
    cases point with
    | leading done posts => exact absurd rfl posts
    | returning heard => exact heard
  obtain ⟨request, ⟨member, text, since_le, returned, late, first, -, begun, prepared, after⟩,
    second, -, drained, waits⟩ := heard
  have synced := regular.synced
  obtain ⟨told, sent, tagged, same⟩ :=
    synced.fenced.handed_of_drained synced.census drained member waits
  have replies : told.value.noreply = false := by
    obtain ⟨call, inside, -, -, msg⟩ := synced.census.registered told (Or.inr (Or.inr sent))
    rw [← msg] at same ⊢
    exact replying call inside (same.symm.trans text)
  -- The second barrier has waited for the reply.
  have dead : ¬ s.Live told.tag := tagged ▸ synced.fenced.handled second drained request member waits
  obtain ⟨front, back, split⟩ := List.append_of_mem (regular.replied.executed_of_dead sent replies dead)
  have before : ∀ call ∈ s.calls, call.index < (s.fence first).begun → ∃ entry ∈ front,
      entry.tag = call.entry ∧ entry.value.strToSend = call.msg.strToSend := by
    intro call inside early
    obtain ⟨entry, ahead, stands⟩ := synced.fenced.order first front told back split
      ⟨request, member, ⟨returned, after, late⟩, tagged.symm⟩ call inside (Or.inl early)
    have ran : entry ∈ s.executed := split ▸ List.mem_append_left _ ahead
    exact ⟨entry, ahead, stands, synced.text_eq inside ran stands⟩
  refine ⟨front, told, back, split, same.symm.trans text, ⟨request, member, since_le, tagged.symm⟩,
    fun call inside early => before call inside (early.trans_le begun), ?_⟩
  refine prepared.imp_right ?_
  rintro ⟨call, inside, late, early, prior⟩
  exact ⟨call, inside, late, prior, before call inside early⟩

variable {front back : List (Entry S.toSignature)} {told : Entry S.toSignature} {final : Config S}

/-- What is put on the queue from some time on is not executed before the request that was
executed before. -/
theorem Delivered.ahead (delivered : notice.Delivered s since front told back)
    (regular : s.Regular) {actions : List (Action S)}
    (run : exec Config.step s actions = some final) :
    ∃ later, final.executed = front ++ told :: later ∧
      ∀ call ∈ final.calls, s.calls.length ≤ call.index →
        ∀ entry ∈ front ++ [told], entry.tag ≠ call.entry := by
  obtain ⟨-, grows, since⟩ := Config.since_exec regular run
  obtain ⟨others, split⟩ := grows.executed
  refine ⟨back ++ others, ?_, fun call member late entry inside => ?_⟩
  · rw [← split, delivered.split, List.append_assoc, List.cons_append]
  · apply since.unexecuted regular member late entry
    rw [delivered.split, ← List.singleton_append, ← List.append_assoc]
    exact List.mem_append_left _ inside

/-- What the server executes was put on the queue before a time, or keeps what holds of the
server. -/
def Spares (Holds : S.Space → Prop) (time : Nat) (s : Config S) (action : Action S) : Prop :=
  ∀ sock wire rest, action = .serve sock → s.inbox sock = wire :: rest →
    (∃ entry, wire = .request entry ∧ entry.tag < time) ∨
      (Holds s.space → Holds (S.run wire.text s.space).1)

/-- Since the start the text was executed, and behind it nothing from before. -/
def Settled (Holds : S.Space → Prop) (text : Str) (start s : Config S) : Prop :=
  ∃ ran, s.executed = start.executed ++ ran ∧ ∀ front told back, ran = front ++ told :: back →
    told.value.strToSend = text → (∀ entry ∈ back, start.calls.length ≤ entry.tag) → Holds s.space

variable {Holds : S.Space → Prop} {text : Str} {start : Config S} {action : Action S}

theorem Settled.step (brings : ∀ space, Holds (S.run text space).1)
    (spares : Spares Holds start.calls.length s action) (settled : Settled Holds text start s)
    (taken : s.step action = some next) : Settled Holds text start next := by
  obtain ⟨ran, executed, holds⟩ := settled
  cases Config.moves_of_step taken with
  | @serveSynchro sock thread msg rest free first =>
      refine ⟨ran, executed, fun front told back split same late => ?_⟩
      rcases spares sock _ rest rfl first with ⟨entry, no, -⟩ | keeps
      · cases no
      · exact keeps (holds front told back split same late)
  | @serve sock entry rest free first =>
      refine ⟨ran ++ [entry], ?_, fun front told back split same late => ?_⟩
      · rw [← List.append_assoc, ← executed]
      rcases List.eq_nil_or_concat back with rfl | ⟨others, last, rfl⟩
      · obtain ⟨-, own⟩ := List.append_inj' split rfl
        obtain rfl := List.singleton_inj.mp own
        exact same ▸ brings s.space
      · rw [List.concat_eq_append, ← List.cons_append, ← List.append_assoc] at split
        obtain ⟨rfl, own⟩ := List.append_inj' split rfl
        obtain rfl := List.singleton_inj.mp own
        rw [List.concat_eq_append] at late
        rcases spares sock _ rest rfl first with ⟨other, equal, early⟩ | keeps
        · cases equal
          have behind := late entry (List.mem_append_right _ List.mem_cons_self)
          exact absurd early (Nat.not_lt.mpr behind)
        · apply keeps
          exact holds front told others rfl same fun other inside =>
            late other (List.mem_append_left _ inside)
  | _ => exact ⟨ran, executed, holds⟩

/-- What the request brings about on the server holds when the operation returns, if nothing takes
it away but what was put on the queue before the operation was called. -/
theorem Delivered.holds (delivered : notice.Delivered final start.calls.length front told back)
    (regular : start.Regular) (counted : start.Counted)
    (brings : ∀ space, Holds (S.run notice.request.text space).1) {actions : List (Action S)}
    (spares : Meets Config.step (Spares Holds start.calls.length) start actions)
    (run : exec Config.step start actions = some final) : Holds final.space := by
  obtain ⟨after, -, since⟩ := Config.since_exec regular run
  have settled : Settled Holds notice.request.text start final := by
    refine spares.invariant (Settled Holds notice.request.text start)
      (fun spares settled taken => settled.step brings spares taken) ?_ run
    refine ⟨[], (List.append_nil _).symm, fun front told back none => ?_⟩
    exact absurd (congrArg List.length none) (by simp)
  obtain ⟨ran, executed, holds⟩ := settled
  obtain ⟨call, member, late, stands⟩ := delivered.stands
  have fresh : told ∉ start.executed := fun inside =>
    since.unexecuted regular member late told inside stands.symm
  have once := (counted.exec regular.synced.wired run).executedOnce after.synced.census.ledger
  have behind : ∀ entry ∈ back, start.calls.length ≤ entry.tag := by
    intro entry inside
    by_contra early
    have sent := after.synced.wired.executed entry
      (delivered.split ▸ List.mem_append_right _ (List.mem_cons_of_mem _ inside))
    obtain ⟨call, registered, kept, index, -⟩ :=
      after.synced.census.registered entry (Or.inr (Or.inr sent))
    obtain ⟨other, ahead, tagged, -⟩ :=
      delivered.early call registered (index ▸ Nat.lt_of_not_le early)
    -- The element would have been executed twice.
    rw [delivered.split, List.map_append, List.map_cons] at once
    refine (List.nodup_append.mp once).2.2 _ (List.mem_map_of_mem ahead) entry.tag
      (List.mem_cons_of_mem _ (List.mem_map_of_mem inside)) ?_
    exact tagged.trans (kept.trans index)
  rcases List.append_eq_append_iff.mp (executed.symm.trans delivered.split) with
    ⟨middle, rfl, split⟩ | ⟨middle, split, others⟩
  · exact holds middle told back split delivered.text behind
  · cases middle with
    | nil => exact holds [] told back others.symm delivered.text behind
    | cons first middle =>
        obtain ⟨rfl, -⟩ := List.cons.inj others
        exact absurd (split ▸ List.mem_append_right _ List.mem_cons_self) fresh

end Notice

end AtomSpaceCog
