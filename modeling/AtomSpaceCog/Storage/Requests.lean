import AtomSpaceCog.Storage.Operations
import AtomSpaceCog.Channel.Sources

/-! # The requests of each operation

Which messages an operation of `CogStorage` puts on the queue, and which ones its
handlers do. No message is taken for a barrier (`cogSetting_plain`).
-/

namespace AtomSpaceCog

variable {sexpr : Sexpr} {server : Server}

/-- The request of a handler for the keys and values on an Atom that it decoded. -/
def IsKeysAlist (request : Request (cogSignature sexpr)) : Prop :=
  ∃ expr h, request =
    enqueue sexpr (keysAlistText expr) ⟨none, some h, none⟩ .decodeKvpListConst

/-- The request is a message of `storeAtom`. -/
def IsStore (atom : sexpr.Content) (request : Request (cogSignature sexpr)) : Prop :=
  ∃ values, request = .enqueueNoreply (storeAtomText values atom)

/-- The requests that an operation makes. -/
def CogOp.Asks : CogOp sexpr → Request (cogSignature sexpr) → Prop
  | .proxyOpen, request => request = noop (bytes "(cog-proxy-open)\n")
  | .proxyClose, request | .close, request => request = noop (bytes "(cog-proxy-close)\n")
  | .setProxy h, request =>
      IsStore h.atom request ∨
        request = noop (bytes "(cog-set-proxy! " ++ sexpr.encodeAtom h.atom ++ bytes ")\n")
  | .storeAtom h, request => IsStore h.atom request
  | .removeAtom h recursive, request => request = noop (removeAtomText h.atom recursive)
  | .storeValue h key, request =>
      ∃ value, request = .enqueueNoreply (storeValueText h.atom key.atom value)
  | .updateValue h key delta, request =>
      request = .enqueueNoreply (updateValueText h.atom key.atom delta)
  | .loadValue h key, request =>
      request = enqueue sexpr (loadValueText h.atom key.atom) ⟨none, some h, some key⟩ .decodeValue
  | .getAtom h _, request =>
      request = enqueue sexpr (keysAlistText (bytes "(" ++ typena h.atom ++ bytes ")"))
        ⟨none, some h, none⟩ .decodeKvpListConst
  | .fetchIncomingSet table h, request =>
      request = enqueue sexpr (bytes "(cog-incoming-set " ++ sexpr.encodeAtom h.atom ++ bytes ")\n")
        (tablePkt table) .decodeAtomList
  | .fetchIncomingByType table h t, request =>
      request = enqueue sexpr (bytes "(cog-incoming-by-type " ++ sexpr.encodeAtom h.atom ++
        bytes " '" ++ sexpr.getTypeName t ++ bytes ")\n") (tablePkt table) .decodeAtomList
  | .loadAtomSpace table, request =>
      request = enqueue sexpr (getAtomsText "Node") (tablePkt table) .decodeAtomList ∨
        request = enqueue sexpr (getAtomsText "Link") (tablePkt table) .decodeAtomList
  | .loadType table t, request =>
      request = enqueue sexpr (bytes "(cog-get-atoms '" ++ sexpr.getTypeName t ++ bytes ")\n")
        (tablePkt table) .decodeAtomList
  | .storeAtomSpace _, request => ∃ atom, IsStore atom request
  | .killData, request => request = noop (bytes "(cog-atomspace-clear)\n")
  | .runQuery query key view fresh, request =>
      request = enqueue sexpr (runQueryText query.atom key.atom (view.map Handle.atom) fresh)
        ⟨none, some query, some key⟩ .decodeValue
  | .barrier, _ => False

/-- The requests that an operation makes, or a handler. -/
def Asked : Option (CogOp sexpr) → Request (cogSignature sexpr) → Prop
  | some op => op.Asks
  | none => IsKeysAlist

section Scripts

variable {Holds : Request (cogSignature sexpr) → Prop} {next : CogScript sexpr}

theorem all_checkOpen (all : next.All Holds) : (checkOpen next).All Holds := by
  intro isOpen
  cases isOpen
  · trivial
  · exact all

theorem all_storeAtom {h : Handle sexpr} (stored : ∀ request, IsStore h.atom request → Holds request)
    (all : next.All Holds) : (CogStorage.storeAtom h next).All Holds :=
  all_checkOpen fun _ => ⟨stored _ ⟨_, rfl⟩, all⟩

theorem script_all (op : CogOp sexpr) : (CogStorage.script op).All op.Asks := by
  cases op with
  | proxyOpen | proxyClose => exact ⟨rfl, trivial⟩
  | setProxy h =>
      exact all_checkOpen (all_storeAtom (fun _ stored => Or.inl stored) ⟨Or.inr rfl, trivial⟩)
  | storeAtom h => exact all_storeAtom (fun _ stored => stored) trivial
  | storeValue h key => exact all_checkOpen fun memory => ⟨⟨_, rfl⟩, trivial⟩
  | removeAtom | updateValue | loadValue | fetchIncomingSet | fetchIncomingByType | loadType
  | runQuery => exact all_checkOpen ⟨rfl, trivial⟩
  | killData => exact all_checkOpen ⟨rfl, trivial⟩
  | getAtom h stray =>
      refine all_checkOpen fun reply => ?_
      dsimp only
      split
      · trivial
      · exact ⟨rfl, trivial⟩
  | loadAtomSpace table => exact all_checkOpen ⟨Or.inl rfl, Or.inr rfl, trivial⟩
  | storeAtomSpace table =>
      refine all_checkOpen fun memory => ?_
      dsimp only
      induction memory.handles table with
      | nil => trivial
      | cons h handles ih =>
          refine all_storeAtom (fun request stored => ?_) ih
          exact ⟨h.atom, stored⟩
  | barrier => trivial
  | close =>
      intro isOpen
      cases isOpen
      · trivial
      · exact ⟨rfl, trivial⟩

end Scripts

section Handlers

variable {Holds : Request (cogSignature sexpr) → Prop}

theorem all_alistLoop (space : Option SpaceId) (atom : Handle sexpr) (alist : Str) (fuel : Nat)
    (pos : Option Nat) : (alistLoop sexpr space atom alist fuel pos).All Holds := by
  induction fuel generalizing pos with
  | zero => cases pos <;> trivial
  | succ fuel ih =>
      cases pos with
      | none => trivial
      | some pos =>
          unfold alistLoop
          split
          · trivial
          · split
            · trivial
            · cases space with
              | none => exact fun _ => ih _
              | some space => exact fun _ _ _ _ => ih _

theorem all_atomListLoop (table : SpaceId) (expr : Str) (finish fuel l r : Nat) :
    (atomListLoop sexpr table expr finish fuel l r).All IsKeysAlist := by
  induction fuel generalizing l r with
  | zero => trivial
  | succ fuel ih =>
      unfold atomListLoop
      split
      · trivial
      · split
        · trivial
        · split
          · trivial
          · intro memory
            dsimp only
            split
            · trivial
            · exact ⟨⟨_, _, rfl⟩, ih _ _⟩

/-- Only `decode_atom_list` makes requests. -/
theorem all_runHandler {callback : Callback} (other : callback ≠ .decodeAtomList) (pkt : Pkt sexpr)
    (reply : Str) : (runHandler sexpr callback pkt reply).All Holds := by
  cases callback with
  | noopConst => trivial
  | decodeAtomList => exact absurd rfl other
  | decodeValue =>
      change (decodeValueHandler sexpr reply pkt).All Holds
      unfold decodeValueHandler
      split
      · split
        · exact fun _ _ => trivial
        · exact fun _ => trivial
      · trivial
  | decodeKvpListConst =>
      change (decodeKvpListConst sexpr reply pkt).All Holds
      unfold decodeKvpListConst
      split
      · unfold roDecodeAlist
        dsimp only
        split
        · trivial
        · split
          · trivial
          · exact all_alistLoop _ _ _ _ _
      · trivial

theorem runHandler_all (callback : Callback) (pkt : Pkt sexpr) (reply : Str) :
    (runHandler sexpr callback pkt reply).All IsKeysAlist := by
  by_cases list : callback = .decodeAtomList
  · subst list
    change (decodeAtomList sexpr reply pkt).All IsKeysAlist
    unfold decodeAtomList
    split
    · trivial
    · dsimp only
      split
      · trivial
      · exact all_atomListLoop _ _ _ _ _ _
  · exact all_runHandler list pkt reply

end Handlers

/-- The calls on the channel of a `CogStorage` are those of its operations and of its
handlers. -/
theorem cogSetting_asked : (cogSetting sexpr server).Makes Asked where
  scripts := script_all
  handlers _ callback pkt reply := runHandler_all callback pkt reply

/-- How the texts of an operation, or those of the handlers, may start. -/
def commands : Option (CogOp sexpr) → List Str
  | none => [bytes "(cog-keys->alist "]
  | some op =>
      match op with
      | .proxyOpen => [bytes "(cog-proxy-open)"]
      | .proxyClose | .close => [bytes "(cog-proxy-close)"]
      | .setProxy _ =>
          [bytes "(cog-set-values! ", bytes "(cog-set-value! ", bytes "(cog-set-proxy! "]
      | .storeAtom _ | .storeAtomSpace _ => [bytes "(cog-set-values! ", bytes "(cog-set-value! "]
      | .removeAtom _ _ => [bytes "(cog-extract-recursive! ", bytes "(cog-extract! "]
      | .storeValue _ _ => [bytes "(cog-set-value! "]
      | .updateValue _ _ _ => [bytes "(cog-update-value! "]
      | .loadValue _ _ => [bytes "(cog-value "]
      | .getAtom _ _ => [bytes "(cog-keys->alist "]
      | .fetchIncomingSet _ _ => [bytes "(cog-incoming-set "]
      | .fetchIncomingByType _ _ _ => [bytes "(cog-incoming-by-type "]
      | .loadAtomSpace _ | .loadType _ _ => [bytes "(cog-get-atoms '"]
      | .killData => [bytes "(cog-atomspace-clear)"]
      | .runQuery _ _ _ _ => [bytes "(cog-execute-cache! "]
      | .barrier => []

theorem starts_of_isStore {atom : sexpr.Content} {request : Request (cogSignature sexpr)}
    (stored : IsStore atom request) :
    ∃ command ∈ [bytes "(cog-set-values! ", bytes "(cog-set-value! "], command <+: request.text := by
  obtain ⟨values, rfl⟩ := stored
  simp only [Request.text, storeAtomText, List.append_assoc]
  split
  · exact ⟨_, List.mem_cons_self, List.prefix_append _ _⟩
  · exact ⟨_, List.mem_cons_of_mem _ List.mem_cons_self, List.prefix_append _ _⟩

/-- Every request starts as its operation's commands do. -/
theorem starts_of_asked {source : Option (CogOp sexpr)} {request : Request (cogSignature sexpr)}
    (asked : Asked source request) : ∃ command ∈ commands source, command <+: request.text := by
  cases source with
  | none =>
      obtain ⟨expr, h, rfl⟩ := asked
      refine ⟨_, List.mem_cons_self, ?_⟩
      simp only [Request.text, enqueue, keysAlistText, List.append_assoc]
      exact List.prefix_append _ _
  | some op =>
      cases op with
      | proxyOpen | proxyClose | close | killData =>
          obtain rfl := asked
          exact ⟨_, List.mem_cons_self, bytes "\n", rfl⟩
      | updateValue | loadValue | getAtom | fetchIncomingSet | fetchIncomingByType | loadType
      | runQuery =>
          obtain rfl := asked
          refine ⟨_, List.mem_cons_self, ?_⟩
          simp only [Request.text, enqueue, updateValueText, loadValueText, keysAlistText,
            runQueryText, List.append_assoc]
          exact List.prefix_append _ _
      | storeAtom h => exact starts_of_isStore asked
      | storeAtomSpace table =>
          obtain ⟨atom, stored⟩ := asked
          exact starts_of_isStore stored
      | setProxy h =>
          rcases asked with stored | rfl
          · obtain ⟨command, member, starts⟩ := starts_of_isStore stored
            exact ⟨command, List.mem_append_left [bytes "(cog-set-proxy! "] member, starts⟩
          · refine ⟨bytes "(cog-set-proxy! ", by simp [commands], ?_⟩
            simp only [Request.text, noop, enqueue, List.append_assoc]
            exact List.prefix_append _ _
      | removeAtom h recursive =>
          obtain rfl := asked
          simp only [Request.text, noop, enqueue, removeAtomText, List.append_assoc]
          cases recursive
          · exact ⟨_, List.mem_cons_of_mem _ List.mem_cons_self, List.prefix_append _ _⟩
          · exact ⟨_, List.mem_cons_self, List.prefix_append _ _⟩
      | storeValue h key =>
          obtain ⟨value, rfl⟩ := asked
          refine ⟨_, List.mem_cons_self, ?_⟩
          simp only [Request.text, storeValueText, List.append_assoc]
          exact List.prefix_append _ _
      | loadAtomSpace table =>
          obtain rfl | rfl := asked <;>
            exact ⟨_, List.mem_cons_self, _, by
              simp only [Request.text, enqueue, getAtomsText, List.append_assoc]
              rfl⟩
      | barrier => exact asked.elim

/-- A text that starts as none of the commands does, nor the other way round. -/
theorem not_prefix_of_asked {source : Option (CogOp sexpr)} {request : Request (cogSignature sexpr)}
    (asked : Asked source request) {start : Str}
    (apart : ∀ command ∈ commands source, ¬ command <+: start ∧ ¬ start <+: command) :
    start.isPrefixOf request.text = false := by
  obtain ⟨command, member, starts⟩ := starts_of_asked asked
  rw [Bool.eq_false_iff, ne_eq, List.isPrefixOf_iff_prefix]
  intro also
  rcases List.prefix_or_prefix_of_prefix starts also with within | within
  · exact (apart command member).1 within
  · exact (apart command member).2 within

/-- No message is taken for a barrier. -/
theorem asked_plain {source : Option (CogOp sexpr)} {request : Request (cogSignature sexpr)}
    (asked : Asked source request) : isBarrier request.text = false := by
  refine not_prefix_of_asked asked ?_
  cases source with
  | none =>
      simp only [commands]
      decide
  | some op => cases op <;> simp only [commands] <;> decide

end AtomSpaceCog
