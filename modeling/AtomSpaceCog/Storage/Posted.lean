import AtomSpaceCog.Channel.Notice
import AtomSpaceCog.Storage.Close

/-! # The messages that are put between two barriers

`proxy_open`, `proxy_close`, `set_proxy` and `kill_data` put one message with a reply between
two barriers. When one of them returns, the server has executed its message after all that was on
the queue before the call, and before all that comes later. So what the message brings about on
the server holds when the operation returns.
-/

namespace AtomSpaceCog

open Transition

variable {sexpr : Sexpr} {server : Server}

/-- The message of `kill_data`. -/
def clearAtomSpaceText : Str := bytes "(cog-atomspace-clear)\n"

/-- The message of `set_proxy`. -/
def setProxyText (atom : sexpr.Content) : Str :=
  bytes "(cog-set-proxy! " ++ sexpr.encodeAtom atom ++ bytes ")\n"

namespace CogOp

/-- The message that an operation puts between two barriers. -/
def posted : CogOp sexpr → Option Str
  | proxyOpen => some (bytes "(cog-proxy-open)\n")
  | proxyClose => some proxyCloseText
  | setProxy h => some (setProxyText h.atom)
  | killData => some clearAtomSpaceText
  | _ => none

/-- What an operation puts on the queue before: `set_proxy` stores the proxy. -/
def Prior : CogOp sexpr → Str → Prop
  | setProxy h, text => ∃ values, text = storeAtomText values h.atom
  | _, _ => False

/-- The operation puts nothing on the queue before. -/
def bare : CogOp sexpr → Bool
  | setProxy _ => false
  | _ => true

theorem script_posts {op : CogOp sexpr} {text : Str} (posted : op.posted = some text) :
    (CogStorage.script op).Posts (noop text) op.Prior op.bare := by
  cases op with
  | proxyOpen | proxyClose =>
      obtain rfl := Option.some.inj posted
      exact ⟨rfl, rfl⟩
  | killData =>
      obtain rfl := Option.some.inj posted
      intro isOpen
      cases isOpen
      · exact Exit.noConfusion
      · exact ⟨rfl, rfl⟩
  | setProxy h =>
      obtain rfl := Option.some.inj posted
      intro isOpen
      cases isOpen
      · exact Exit.noConfusion
      intro isOpen
      cases isOpen
      · exact Exit.noConfusion
      exact fun memory => ⟨Or.inr ⟨_, rfl⟩, rfl, rfl⟩
  | _ => cases posted

/-- The message as it is put between the barriers. -/
def notice {op : CogOp sexpr} {text : Str} (posted : op.posted = some text) :
    Notice (cogSetting sexpr server) where
  op := op
  request := noop text
  Prior := op.Prior
  done := op.bare
  posts := script_posts posted

/-- How the messages between two barriers may start. -/
theorem starts_of_posted {op : CogOp sexpr} {text : Str} (posted : op.posted = some text) :
    ∃ start ∈ [bytes "(cog-proxy-", bytes "(cog-set-proxy! ", clearAtomSpaceText],
      start <+: text := by
  cases op with
  | proxyOpen | proxyClose =>
      obtain rfl := Option.some.inj posted
      exact ⟨_, List.mem_cons_self, _, rfl⟩
  | setProxy h =>
      obtain rfl := Option.some.inj posted
      refine ⟨_, List.mem_cons_of_mem _ List.mem_cons_self, ?_⟩
      rw [setProxyText, List.append_assoc]
      exact List.prefix_append _ _
  | killData =>
      obtain rfl := Option.some.inj posted
      exact ⟨_, List.mem_cons_of_mem _ (List.mem_cons_of_mem _ List.mem_cons_self), List.prefix_rfl⟩
  | _ => cases posted

end CogOp

/-- How the messages without a reply may start. -/
theorem starts_of_noreply {source : Option (CogOp sexpr)} {msg : Str}
    (asked : Asked source (.enqueueNoreply msg)) :
    ∃ start ∈ [bytes "(cog-set-values! ", bytes "(cog-set-value! ", bytes "(cog-update-value! "],
      start <+: msg := by
  have stores : ∀ {atom : sexpr.Content}, IsStore atom (.enqueueNoreply msg) →
      ∃ start ∈ [bytes "(cog-set-values! ", bytes "(cog-set-value! ", bytes "(cog-update-value! "],
        start <+: msg := by
    intro atom stored
    obtain ⟨start, among, starts⟩ := starts_of_isStore stored
    exact ⟨start, List.mem_append_left [bytes "(cog-update-value! "] among, starts⟩
  cases source with
  | none =>
      obtain ⟨expr, h, made⟩ := asked
      cases made
  | some op =>
      cases op with
      | storeAtom => exact stores asked
      | storeAtomSpace =>
          obtain ⟨atom, stored⟩ := asked
          exact stores stored
      | setProxy h => exact stores (asked.resolve_right fun made => by cases made)
      | storeValue =>
          obtain ⟨start, among, starts⟩ := starts_of_asked asked
          obtain rfl := List.mem_singleton.mp among
          exact ⟨_, List.mem_cons_of_mem _ List.mem_cons_self, starts⟩
      | updateValue =>
          obtain ⟨start, among, starts⟩ := starts_of_asked asked
          obtain rfl := List.mem_singleton.mp among
          exact ⟨_, List.mem_cons_of_mem _ (List.mem_cons_of_mem _ List.mem_cons_self), starts⟩
      | loadAtomSpace => rcases asked with made | made <;> cases made
      | barrier => exact asked.elim
      | _ => cases asked

/-- A message between two barriers has a reply. -/
theorem replies_of_posted {op : CogOp sexpr} {text : Str} (posted : op.posted = some text)
    {s : Config (cogSetting sexpr server)} (sourced : s.Sourced Asked)
    {call : Call (cogSetting sexpr server)} (member : call ∈ s.calls)
    (same : call.msg.strToSend = text) : call.msg.noreply = false := by
  obtain ⟨counter, request, asked, made⟩ := sourced.calls call member
  rw [made] at same ⊢
  cases request with
  | enqueue => exact Msg.make_noreply
  | enqueueNoreply msg =>
      obtain rfl : msg = text := Msg.make_strToSend.symm.trans same
      obtain ⟨start, among, starts⟩ := starts_of_noreply asked
      obtain ⟨other, beside, also⟩ := CogOp.starts_of_posted posted
      have apart : ∀ start ∈ [bytes "(cog-set-values! ", bytes "(cog-set-value! ",
          bytes "(cog-update-value! "], ∀ other ∈ [bytes "(cog-proxy-", bytes "(cog-set-proxy! ",
          clearAtomSpaceText], ¬ start <+: other ∧ ¬ other <+: start := by
        decide
      have none := apart start among other beside
      rcases List.prefix_or_prefix_of_prefix starts also with within | within
      · exact absurd within none.1
      · exact absurd within none.2

/-- What is known of a state that a run reaches in which an operation is about to return. -/
theorem delivered_of_run {op : CogOp sexpr} {text : Str} (posted : op.posted = some text)
    {counter : UInt64} {space : server.Space} {locals : Memory sexpr}
    {actions : List (Action (cogSetting sexpr server))} {s : Config (cogSetting sexpr server)}
    (run : exec Config.step (Config.initial counter space locals) actions = some s)
    {thread : ThreadId} {since : Nat}
    (returns : s.caller thread = .running op since (.exit .returned)) :
    s.Regular ∧ ∃ front told back, (CogOp.notice posted).Delivered s since front told back := by
  have initial := Config.regular_initial (S := cogSetting sexpr server) counter space locals
  have regular := exec_invariant Config.Regular (fun regular taken => regular.step taken) initial run
  have sourced := Config.sourced_exec cogSetting_asked
    (Config.sourced_initial (S := cogSetting sexpr server) counter space locals) run
  have follows := (@Notice.outline_sound (cogSetting sexpr server) (CogOp.notice posted)).exec
    (fun regular taken => regular.step taken) initial (fun _ => rfl) run thread
  rw [returns] at follows
  exact ⟨regular, Notice.delivered regular follows fun call member same =>
    replies_of_posted posted sourced member same⟩

section Runs

/-- A server that counts the messages since it was cleared. -/
def Server.tally : Server :=
  ⟨Nat, fun text count => (if text = clearAtomSpaceText then 0 else count + 1, [])⟩

theorem Server.tally_clear (count : Nat) :
    (Server.tally.run clearAtomSpaceText count).1 = (0 : Nat) := by
  simp [Server.tally]

/-- A `barrier()` that the server passes. -/
def throughFence (number : Nat) (id : UInt64) : List (Action (cogSetting plain .tally)) :=
  [.barrier 0 id, .drain 0, .block 0 number, .block 1 number, .block 2 number, .block 3 number,
    .arrive (.worker 0), .arrive (.worker 1), .arrive (.worker 2), .arrive (.worker 3),
    .release id [.worker 0, .worker 1, .worker 2, .worker 3], .finish 0]

/-- A store whose message is on its way. -/
def storeUnderWay : List (Action (cogSetting plain .tally)) :=
  [.start 1 (.storeAtom ⟨.node .concept (bytes "a"), .loose 0⟩), .advance 1, .advance 1, .advance 1,
    .advance 1, .take 1 0, .send 1]

/-- `kill_data` meanwhile; the server executes the store first. -/
def clearBehind : List (Action (cogSetting plain .tally)) :=
  [.start 0 .killData, .advance 0, .serve (.worker 1)] ++ throughFence 0 7 ++
    [.advance 0, .take 3 1, .send 3, .serve (.worker 3), .receive 3, .work 3] ++ throughFence 1 8

/-- The next message is the store, or the one of `kill_data`. -/
def storeOrClear (s : Config (cogSetting plain .tally)) :
    Action (cogSetting plain .tally) → Bool
  | .serve sock =>
      match s.inbox sock with
      | .request entry :: _ => entry.tag < 1 || entry.value.strToSend == clearAtomSpaceText
      | _ => false
  | _ => true

theorem spares_of_storeOrClear {s : Config (cogSetting plain .tally)}
    {action : Action (cogSetting plain .tally)} (next : storeOrClear s action = true) :
    Notice.Spares (fun count : Nat => count = 0) 1 s action := by
  intro sock wire rest own first
  subst own
  rw [storeOrClear, first] at next
  cases wire with
  | request entry =>
      rcases Bool.or_eq_true_iff.mp next with early | clear
      · exact Or.inl ⟨entry, rfl, of_decide_eq_true early⟩
      · have text : Wire.text (.request entry) = clearAtomSpaceText := eq_of_beq clear
        exact Or.inr fun _ => text ▸ Server.tally_clear s.space
  | _ => cases next

end Runs

end AtomSpaceCog
