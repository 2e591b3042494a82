import AtomSpaceCog.Storage.Requests
import AtomSpaceCog.Channel.Outline
import AtomSpaceCog.Channel.Record
import AtomSpaceCog.Sexpr.Plain

/-! # Closing loses no write

`close()` puts its one message with a reply behind a barrier, and the second barrier
waits until that reply was handled. So when it closes the connection, the server has
executed that message, and with it all that was before the first barrier.
-/

namespace AtomSpaceCog

open Transition

variable {sexpr : Sexpr} {server : Server}

/-- The message of `proxy_close`. -/
def proxyCloseText : Str := bytes "(cog-proxy-close)\n"

/-- The last step of `close`. -/
def closing : CogScript sexpr := .closeConnection (.exit .returned)

/-- What `close` does after it has put its message on the queue. -/
def awaitingProxy : CogScript sexpr := .barrier (.barrier closing)

/-- What `close` does after its first barrier. -/
def tellingProxy : CogScript sexpr := .enqueue (noop proxyCloseText) awaitingProxy

namespace Config

variable (s : Config (cogSetting sexpr server))

/-- A barrier was called after so many calls had returned, and has returned. -/
def FencedSince (since : Nat) (returned : Nat) : Prop :=
  ∃ number < s.fences, since ≤ (s.fence number).begun ∧ (s.fence number).returned = some returned

/-- Then the message of `proxy_close` was put on the queue. -/
def ToldProxy (since : Nat) (call : Call (cogSetting sexpr server)) : Prop :=
  call ∈ s.calls ∧ call.msg.strToSend = proxyCloseText ∧
    ∃ returned ≤ call.index, s.FencedSince since returned

/-- Then a barrier has waited for it. -/
def HeardProxy (since : Nat) : Prop :=
  ∃ call, s.ToldProxy since call ∧
    ∃ number < s.fences, (s.fence number).drained.isSome ∧ (s.fence number).Covers call

variable {s} {next : Config (cogSetting sexpr server)}

theorem FencedSince.mono (grows : s.Grows next) {since returned : Nat}
    (fenced : s.FencedSince since returned) : next.FencedSince since returned := by
  obtain ⟨number, used, begun, same⟩ := fenced
  exact ⟨number, used.trans_le grows.fences, begun.trans (grows.begun number used).ge,
    grows.returned number used returned same⟩

theorem ToldProxy.mono (grows : s.Grows next) {since : Nat} {call : Call (cogSetting sexpr server)}
    (told : s.ToldProxy since call) : next.ToldProxy since call := by
  obtain ⟨member, text, returned, before, fenced⟩ := told
  exact ⟨grows.calls.subset member, text, returned, before, fenced.mono grows⟩

theorem HeardProxy.mono (grows : s.Grows next) {since : Nat} (heard : s.HeardProxy since) :
    next.HeardProxy since := by
  obtain ⟨call, told, number, used, drained, covers⟩ := heard
  obtain ⟨time, same⟩ := Option.isSome_iff_exists.mp drained
  exact ⟨call, told.mono grows, number, used.trans_le grows.fences,
    by rw [grows.drained number used time same]; rfl, grows.covers used covers⟩

end Config

/-- What a thread in `close` knows. -/
def closeOutline : Outline (cogSetting sexpr server) where
  running s _ op since script := op = .close → since ≤ s.calls.length ∧
    (script = CogStorage.close ∨ script = .exit .notConnected ∨ script = .barrier tellingProxy ∨
      (script = tellingProxy ∧ ∃ returned ≤ s.calls.length, s.FencedSince since returned) ∨
      (script = awaitingProxy ∧ ∃ call, s.ToldProxy since call) ∨
      ((script = .barrier closing ∨ script = closing ∨ script = .exit .returned) ∧
        s.HeardProxy since))
  fencing s _ op since number next := op = .close → since ≤ s.calls.length ∧ number < s.fences ∧
    ((next = tellingProxy ∧ since ≤ (s.fence number).begun) ∨
      (next = .barrier closing ∧ ∃ call, s.ToldProxy since call ∧ (s.fence number).Covers call) ∨
      (next = closing ∧ s.HeardProxy since))
  asking _ _ op _ _ _ := op ≠ .close

theorem closeOutline_stable {s next : Config (cogSetting sexpr server)} {thread : ThreadId}
    {caller : Caller (cogSetting sexpr server)} (grows : s.Grows next)
    (follows : closeOutline.Follows s thread caller) : closeOutline.Follows next thread caller := by
  have calls := grows.calls.length_le
  cases caller with
  | idle => trivial
  | asking => exact follows
  | running op since script =>
      intro own
      obtain ⟨early, point⟩ := follows own
      refine ⟨early.trans calls, ?_⟩
      rcases point with same | same | same | ⟨same, returned, before, fenced⟩ | ⟨same, call, told⟩ |
        ⟨same, heard⟩
      · exact Or.inl same
      · exact Or.inr (Or.inl same)
      · exact Or.inr (Or.inr (Or.inl same))
      · exact Or.inr (Or.inr (Or.inr (Or.inl
          ⟨same, returned, before.trans calls, fenced.mono grows⟩)))
      · exact Or.inr (Or.inr (Or.inr (Or.inr (Or.inl ⟨same, call, told.mono grows⟩))))
      · exact Or.inr (Or.inr (Or.inr (Or.inr (Or.inr ⟨same, heard.mono grows⟩))))
  | fencing op since number rest =>
      intro own
      obtain ⟨early, used, point⟩ := follows own
      refine ⟨early.trans calls, used.trans_le grows.fences, ?_⟩
      rcases point with ⟨same, begun⟩ | ⟨same, call, told, covers⟩ | ⟨same, heard⟩
      · exact Or.inl ⟨same, begun.trans (grows.begun number used).ge⟩
      · exact Or.inr (Or.inl ⟨same, call, told.mono grows, grows.covers used covers⟩)
      · exact Or.inr (Or.inr ⟨same, heard.mono grows⟩)

theorem closeOutline_sound :
    (closeOutline : Outline (cogSetting sexpr server)).Sound Config.Regular where
  stable regular taken _ _ follows :=
    closeOutline_stable (Config.grows_step regular.owned taken) follows
  start := by
    rintro s next thread op regular taken rfl rfl
    exact ⟨Nat.le_refl _, Or.inl rfl⟩
  connected := by
    rintro s next thread op since rest regular taken rfl running rfl
    obtain ⟨early, same | same | same | ⟨same, -⟩ | ⟨same, -⟩ | ⟨same | same | same, -⟩⟩ := running rfl
    · cases same
      refine ⟨early, ?_⟩
      cases s.isOpen
      · exact Or.inr (Or.inl rfl)
      · exact Or.inr (Or.inr (Or.inl rfl))
    all_goals cases same
  read := by
    rintro s next thread op since rest regular taken rfl running rfl
    obtain ⟨early, same | same | same | ⟨same, -⟩ | ⟨same, -⟩ | ⟨same | same | same, -⟩⟩ := running rfl
    all_goals cases same
  enqueue := by
    rintro s next thread op since request rest regular taken rfl running rfl
    have grows := Config.grows_step regular.owned taken
    obtain ⟨early, same | same | same | ⟨same, returned, before, fenced⟩ | ⟨same, -⟩ |
      ⟨same | same | same, -⟩⟩ := running rfl
    case inr.inr.inr.inl =>
      cases same
      refine ⟨early.trans grows.calls.length_le, Or.inr (Or.inr (Or.inr (Or.inr (Or.inl ⟨rfl, ?_⟩))))⟩
      refine ⟨_, List.mem_append_right _ List.mem_cons_self, ?_, returned, before, fenced.mono grows⟩
      rfl
    all_goals cases same
  barrier := by
    rintro s next thread op since id rest regular taken rfl running rfl
    have grows := Config.grows_step regular.owned taken
    have begun : s.calls.length ≤ ((({ s with fences := s.fences + 1 }.setFence s.fences
        ⟨id, s.calls.length, none, fun _ => false, none⟩).setCaller thread
          (.fencing .close since s.fences rest)).fence s.fences).begun := by
      simp [Config.setFence, Config.setCaller]
    obtain ⟨early, same | same | same | ⟨same, -⟩ | ⟨same, call, told⟩ |
      ⟨same | same | same, heard⟩⟩ := running rfl
    case inr.inr.inl =>
      cases same
      exact ⟨early, Nat.lt_succ_self _, Or.inl ⟨rfl, early.trans begun⟩⟩
    case inr.inr.inr.inr.inl =>
      cases same
      refine ⟨early, Nat.lt_succ_self _, Or.inr (Or.inl ⟨rfl, call, told.mono grows, Or.inl ?_⟩)⟩
      exact (regular.synced.census.ledger.index_lt told.1).trans_le begun
    case inr.inr.inr.inr.inr.inl =>
      cases same
      exact ⟨early, Nat.lt_succ_self _, Or.inr (Or.inr ⟨rfl, heard.mono grows⟩)⟩
    all_goals cases same
  finish := by
    rintro s next thread op since number rest regular taken drained ran rfl fencing rfl
    have grows := Config.grows_step regular.owned taken
    obtain ⟨early, used, ⟨rfl, begun⟩ | ⟨rfl, call, told, covers⟩ | ⟨rfl, heard⟩⟩ := fencing rfl
    · refine ⟨early, Or.inr (Or.inr (Or.inr (Or.inl ⟨rfl, s.calls.length, Nat.le_refl _, number, used, ?_, ?_⟩)))⟩
      · exact begun.trans (grows.begun number used).ge
      · simp [Config.setFence, Config.setCaller]
    · refine ⟨early, Or.inr (Or.inr (Or.inr (Or.inr (Or.inr ⟨Or.inl rfl, ?_⟩))))⟩
      refine Config.HeardProxy.mono grows ⟨call, told, number, used, drained, covers⟩
    · exact ⟨early, Or.inr (Or.inr (Or.inr (Or.inr (Or.inr ⟨Or.inr (Or.inl rfl), heard.mono grows⟩))))⟩
  ask := by
    rintro s next thread op since msg rest regular taken rfl running rfl
    obtain ⟨early, same | same | same | ⟨same, -⟩ | ⟨same, -⟩ | ⟨same | same | same, -⟩⟩ := running rfl
    all_goals cases same
  answer := by
    rintro s next thread op since msg rest reply replies regular taken arrived rfl asking own
    exact absurd own asking
  closeConnection := by
    rintro s next thread op since rest regular taken rfl running rfl
    have grows := Config.grows_step regular.owned taken
    obtain ⟨early, same | same | same | ⟨same, -⟩ | ⟨same, -⟩ | ⟨same | same | same, heard⟩⟩ := running rfl
    case inr.inr.inr.inr.inr.inr.inl =>
      cases same
      exact ⟨early, Or.inr (Or.inr (Or.inr (Or.inr (Or.inr ⟨Or.inr (Or.inr rfl), heard.mono grows⟩))))⟩
    all_goals cases same

/-- Nothing that is sent without a reply looks like the message of `proxy_close`. -/
theorem ne_proxyClose {source : Option (CogOp sexpr)} {msg : Str}
    (asked : Asked source (.enqueueNoreply msg)) : msg ≠ proxyCloseText := by
  rintro rfl
  have apart : ¬ ∀ command ∈ commands source,
      ¬ command <+: proxyCloseText ∧ ¬ proxyCloseText <+: command := fun apart =>
    Bool.false_ne_true ((not_prefix_of_asked asked apart).symm.trans rfl)
  cases source with
  | none =>
      obtain ⟨expr, h, made⟩ := asked
      cases made
  | some op =>
      cases op with
      | storeAtom | storeAtomSpace | storeValue | updateValue | setProxy =>
          refine apart ?_
          simp only [commands]
          decide
      | loadAtomSpace => rcases asked with made | made <;> cases made
      | barrier => exact asked
      | _ => cases asked

/-- The message of `proxy_close` has a reply. -/
theorem replies_of_proxyClose {s : Config (cogSetting sexpr server)} (sourced : s.Sourced Asked)
    {call : Call (cogSetting sexpr server)} (member : call ∈ s.calls)
    (text : call.msg.strToSend = proxyCloseText) : call.msg.noreply = false := by
  obtain ⟨counter, request, asked, same⟩ := sourced.calls call member
  rw [same] at text ⊢
  cases request with
  | enqueue => exact Msg.make_noreply
  | enqueueNoreply msg => exact absurd (Msg.make_strToSend.symm.trans text) (ne_proxyClose asked)

section Runs

/-- `storeAtom` of the Concept `a`, up to its call of `enqueue`. -/
def beginStore (thread : ThreadId) : List (Action (cogSetting plain .valueless)) :=
  [.start thread (.storeAtom ⟨.node .concept (bytes "a"), .loose 0⟩), .advance thread, .advance thread]

/-- A call of `barrier()`. -/
def callFence (number : Nat) (id : UInt64) : List (Action (cogSetting plain .valueless)) :=
  [.barrier 0 id, .drain 0, .block 0 number, .block 1 number, .block 2 number, .block 3 number, .finish 0]

/-- The server passes a barrier. -/
def passFence (id : UInt64) : List (Action (cogSetting plain .valueless)) :=
  [.arrive (.worker 0), .arrive (.worker 1), .arrive (.worker 2), .arrive (.worker 3),
    .release id [.worker 0, .worker 1, .worker 2, .worker 3]]

/-- A worker has an element handled, and its reply. -/
def tellServer (worker : WorkerId) (number : Nat) : List (Action (cogSetting plain .valueless)) :=
  [.take worker number, .send worker, .serve (.worker worker), .receive worker, .work worker]

/-- `close()` while the message of a store is on its way. -/
def closeAfterStore : List (Action (cogSetting plain .valueless)) :=
  beginStore 1 ++ [.advance 1, .advance 1, .take 1 0, .send 1, .start 0 .close, .advance 0] ++
    callFence 0 7 ++ [.serve (.worker 1)] ++ passFence 7 ++ [.advance 0] ++ tellServer 3 1 ++
    callFence 1 8 ++ callFence 2 9 ++ [.advance 0]

/-- A store whose message is put on the queue after the last barrier of a `close()`,
and a `close()` that is called thereafter. -/
def closeTwice : List (Action (cogSetting plain .valueless)) :=
  beginStore 1 ++ [.start 0 .close, .advance 0] ++ callFence 0 7 ++ passFence 7 ++ [.advance 0] ++
    tellServer 3 0 ++ callFence 1 8 ++ callFence 2 9 ++
    [.advance 1, .advance 1, .take 1 1, .send 1, .advance 0, .advance 0, .start 2 .close, .advance 2]

end Runs

end AtomSpaceCog
