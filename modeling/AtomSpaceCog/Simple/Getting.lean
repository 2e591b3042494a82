import AtomSpaceCog.Simple.Pairing
import AtomSpaceCog.Simple.Play

/-! # What getAtom asks

`getAtom` of both backends asks whether the server knows the Atom and then for its
keys and values. Both write the Atom themselves, and leave the name of a node as it
is where `Sexpr::encode_atom` escapes it (`getAtom_names_iff`). `CogStorage` makes
its decision from a field of a packet that was never initialised (`getAtom_asks_iff`).
-/

namespace AtomSpaceCog

variable {sig : Signature} {Local : Type}

/-- The text that is sent for a request. -/
def Script.messages : Script sig Local → Local → List Str → List Str
  | .exit _, _, _ => []
  | .connected next, state, replies => (next true).messages state replies
  | .read next, state, replies => (next state).messages state replies
  | .enqueue request next, state, replies => request.text :: next.messages state replies
  | .barrier next, state, replies => next.messages state replies
  | .synchro msg next, state, reply :: replies => msg :: (next reply).messages state replies
  | .synchro msg _, _, [] => [msg]
  | .closeConnection next, state, replies => next.messages state replies

/-- `CogStorage::is_ok`, on the field `table` of the packet, which holds an address. -/
def isOk (reply : Str) (table : UInt64) : UInt64 :=
  if compareEq reply 0 2 (bytes "()") then table else -1

/-- The reply says that the Atom is not known. -/
def Unknown (reply : Str) : Prop := bytes "()" <+: reply

instance (reply : Str) : Decidable (Unknown reply) :=
  inferInstanceAs (Decidable (bytes "()" <+: reply))

theorem compareEq_unknown {reply : Str} :
    compareEq reply 0 2 (bytes "()") = true ↔ Unknown reply := by
  rw [compareEq, List.drop_zero, decide_eq_true_eq, Unknown, List.prefix_iff_eq_take]
  exact eq_comm

/-- The callback leaves the field alone when the Atom is not known. -/
theorem isOk_eq_zero {reply : Str} {table : UInt64} :
    isOk reply table = 0 ↔ Unknown reply ∧ table = 0 := by
  rw [isOk]
  by_cases unknown : Unknown reply
  · rw [if_pos (compareEq_unknown.mpr unknown), and_iff_right unknown]
  · rw [if_neg fun equal => unknown (compareEq_unknown.mp equal)]
    exact iff_of_false (by decide) fun both => unknown both.1

variable {sexpr : Sexpr}

/-- `CogStorage::getAtom` goes by what `is_ok` leaves in the field. -/
theorem getAtom_isOk (h : Handle sexpr) (table : UInt64) (next : CogScript sexpr) :
    CogStorage.getAtom h (table ≠ 0) next =
      checkOpen (.synchro (iknowText h.atom) fun reply =>
        if isOk reply table = 0 then next
        else .enqueue (enqueue sexpr (keysAlistText (bytes "(" ++ typena h.atom ++ bytes ")"))
          ⟨none, some h, none⟩ .decodeKvpListConst) next) := by
  unfold CogStorage.getAtom
  congr 2
  funext reply
  have same : (compareEq reply 0 2 (bytes "()") = true ∧ decide (table ≠ 0) = false) ↔
      isOk reply table = 0 := by
    rw [isOk_eq_zero, compareEq_unknown, decide_eq_false_iff_not, not_not]
  simp only [same]

/-- The messages of `CogStorage::getAtom`, for the reply to the first. -/
def askMessages (h : Handle sexpr) (table : UInt64) (memory : Memory sexpr) (reply : Str) :
    List Str :=
  (CogStorage.getAtom h (table ≠ 0) (.exit .returned)).messages memory [reply]

theorem askMessages_eq (h : Handle sexpr) (table : UInt64) (memory : Memory sexpr) (reply : Str) :
    askMessages h table memory reply =
      if Unknown reply ∧ table = 0 then [iknowText h.atom]
      else [iknowText h.atom, keysAlistText (bytes "(" ++ typena h.atom ++ bytes ")")] := by
  rw [askMessages, getAtom_isOk]
  simp only [checkOpen, Script.messages, ↓reduceIte, isOk_eq_zero]
  split <;> rfl

/-- `Sexpr::encode_atom` as documented: the names of nodes are escaped. -/
structure Sexpr.Escapes (sexpr : Sexpr) : Prop where
  node : ∀ type name, sexpr.encodeAtom (.node type name) =
    bytes "(" ++ sexpr.getTypeName type ++ bytes " \"" ++ Plain.escape name ++ bytes "\")"
  link : ∀ type outgoing, sexpr.encodeAtom (.link type outgoing) =
    bytes "(" ++ sexpr.getTypeName type ++ bytes " " ++ outgoing.flatMap sexpr.encodeAtom ++ bytes ")"

theorem escape_length (name : Str) :
    (Plain.escape name).length = name.length + name.countP fun byte => byte = 34 ∨ byte = 92 := by
  induction name with
  | nil => rfl
  | cons byte name ih =>
      by_cases special : byte = 34 ∨ byte = 92
      · simp only [Plain.escape, special, ↓reduceIte, List.length_cons, ih, List.countP_cons,
          decide_true]
        omega
      · simp only [Plain.escape, special, ↓reduceIte, List.length_cons, ih, List.countP_cons,
          decide_false, Bool.false_eq_true]
        omega

/-- A name is left as it is when there is nothing to escape in it. -/
theorem escape_eq_self_iff {name : Str} : Plain.escape name = name ↔ 34 ∉ name ∧ 92 ∉ name := by
  constructor
  · intro same
    have length := escape_length name
    rw [same] at length
    have none : name.countP (fun byte => decide (byte = 34 ∨ byte = 92)) = 0 := by omega
    rw [List.countP_eq_zero] at none
    constructor
    · intro member
      simpa using none 34 member
    · intro member
      simpa using none 92 member
  · intro absent
    induction name with
    | nil => rfl
    | cons byte name ih =>
        simp only [List.mem_cons, not_or] at absent
        have ordinary : ¬ (byte = 34 ∨ byte = 92) :=
          not_or.mpr ⟨fun same => absent.1.1 same.symm, fun same => absent.2.1 same.symm⟩
        rw [Plain.escape, if_neg ordinary, ih ⟨absent.1.2, absent.2.2⟩]

/-- What `getAtom` writes for the Atom is its encoding, but for names that have
something to escape in them. -/
theorem typena_eq_iff (escapes : sexpr.Escapes) (atom : sexpr.Content) :
    bytes "(" ++ typena atom ++ bytes ")" = sexpr.encodeAtom atom ↔
      ∀ type name, atom = .node type name → 34 ∉ name ∧ 92 ∉ name := by
  cases atom with
  | link type outgoing =>
      refine iff_of_true ?_ (by simp)
      rw [escapes.link, typena]
      simp [Atom.getType]
  | node type name =>
      have quoted : bytes " \"" = bytes " " ++ bytes "\"" := rfl
      have closed : bytes "\")" = bytes "\"" ++ bytes ")" := rfl
      rw [escapes.node, typena, quoted, closed]
      simp only [Atom.getType, ← List.append_assoc, List.append_cancel_right_eq]
      simp only [List.append_assoc, List.append_cancel_left_eq]
      rw [eq_comm, escape_eq_self_iff]
      constructor
      · intro plain type' name' same
        cases same
        exact plain
      · intro plain
        exact plain type name rfl

namespace Simple

open CogSimpleStorage

variable {sexpr : FrameSexpr}

/-- The messages of `CogSimpleStorage::getAtom`, for the reply to the first. -/
def askMessages (own : Option SpaceId) (h : Handle sexpr.toSexpr) (node : Node sexpr)
    (reply : Str) : List Str :=
  ((getAtom own h (.exit .returned)).play [some [], some reply, some []] node []).1.filterMap
    Event.text?

theorem askMessages_eq (own : Option SpaceId) (h : Handle sexpr.toSexpr) (node : Node sexpr)
    (reply : Str) :
    askMessages own h node reply =
      if Unknown reply then [iknowText h.atom]
      else [iknowText h.atom, keysAlistText (bytes "(" ++ typena h.atom ++ bytes ")")] := by
  rw [askMessages, getAtom]
  simp only [Prog.play]
  by_cases unknown : Unknown reply
  · rw [if_pos (compareEq_unknown.mpr unknown), if_pos unknown]
    rfl
  · rw [if_neg fun equal => unknown (compareEq_unknown.mp equal), if_neg unknown]
    rfl

theorem keysAlistText_ne_iknowText (expr : Str) (atom : sexpr.Content) :
    keysAlistText expr ≠ iknowText atom := by
  intro same
  have start := congrArg (List.take 6) same
  have asks : (keysAlistText expr).take 6 = bytes "(cog-k" := rfl
  cases atom with
  | node type name =>
      have knows : (iknowText (.node type name : sexpr.Content)).take 6 = bytes "(cog-n" := rfl
      rw [asks, knows] at start
      revert start
      decide
  | link type outgoing =>
      have knows : (iknowText (.link type outgoing : sexpr.Content)).take 6 = bytes "(cog-l" := rfl
      rw [asks, knows] at start
      revert start
      decide

/-- `CogStorage` asks for the keys exactly when the server knows the Atom, as
`CogSimpleStorage` does, if and only if the field was null, or the Atom is known. -/
theorem getAtom_asks_iff (own : Option SpaceId) (h : Handle sexpr.toSexpr) (node : Node sexpr)
    (reply : Str) (table : UInt64) :
    (keysAlistText (bytes "(" ++ typena h.atom ++ bytes ")") ∈
          AtomSpaceCog.askMessages h table node.memory reply ↔ ¬ Unknown reply) ∧
        AtomSpaceCog.askMessages h table node.memory reply = askMessages own h node reply ↔
      (Unknown reply → table = 0) := by
  have other := keysAlistText_ne_iknowText (bytes "(" ++ typena h.atom ++ bytes ")") h.atom
  rw [AtomSpaceCog.askMessages_eq, askMessages_eq]
  by_cases unknown : Unknown reply
  · by_cases null : table = 0
    · simp only [unknown, null, and_self, ↓reduceIte, List.mem_singleton, other, not_true_eq_false,
        implies_true]
    · simp only [unknown, null, and_false, ↓reduceIte, List.mem_cons, true_or, or_true,
        not_true_eq_false, iff_false, false_and, imp_false]
  · simp only [unknown, false_and, ↓reduceIte, List.mem_cons, true_or, or_true, not_false_eq_true,
      and_self, false_implies]

/-- The Atom is not known and the field happens to hold an address. -/
theorem getAtom_asks_unknown :
    ¬ ∀ (h : Handle plainFrames.toSexpr) (node : Node plainFrames) (reply : Str) (table : UInt64),
      keysAlistText (bytes "(" ++ typena h.atom ++ bytes ")") ∈
        AtomSpaceCog.askMessages h table node.memory reply ↔ ¬ Unknown reply := by
  intro always
  have asks := always ⟨.node .concept (bytes "a"), .space 0⟩ ⟨Memory.empty (), false, []⟩
    (bytes "()\n") 4096
  revert asks
  decide

/-- The existence request about an Atom that is written so. -/
def existenceText (isNode : Bool) (written : Str) : Str :=
  (if isNode then bytes "(cog-node '" else bytes "(cog-link '") ++ written.drop 1 ++ bytes "\n"

/-- Both backends ask about the Atom as `Sexpr::encode_atom` writes it, and the server
reads what they put into the request for the keys as that Atom. -/
structure AsksAbout (decode : Str → Option sexpr.Content) (own : Option SpaceId)
    (h : Handle sexpr.toSexpr) : Prop where
  storage : ∀ (table : UInt64) (node : Node sexpr) (reply : Str), ¬ Unknown reply →
    AtomSpaceCog.askMessages h table node.memory reply =
      [existenceText h.atom.isNode (sexpr.encodeAtom h.atom), keysAlistText (sexpr.encodeAtom h.atom)]
  simple : ∀ (node : Node sexpr) (reply : Str), ¬ Unknown reply →
    askMessages own h node reply =
      [existenceText h.atom.isNode (sexpr.encodeAtom h.atom), keysAlistText (sexpr.encodeAtom h.atom)]
  read : decode (bytes "(" ++ typena h.atom ++ bytes ")") = some h.atom

/-- `getAtom` asks about the Atom that it was given exactly when that is a link, or a
node with no quotes and no backslashes in its name. -/
theorem getAtom_names_iff (escapes : sexpr.Escapes) (decode : Str → Option sexpr.Content)
    (inverts : ∀ atom, decode (sexpr.encodeAtom atom) = some atom) (own : Option SpaceId)
    (h : Handle sexpr.toSexpr) :
    AsksAbout decode own h ↔
      ∀ type name, h.atom = .node type name → 34 ∉ name ∧ 92 ∉ name := by
  rw [← typena_eq_iff escapes]
  constructor
  · intro asks
    have known : ¬ Unknown [] := by decide
    have messages := asks.simple ⟨Memory.empty sexpr.clearFid, false, []⟩ [] known
    rw [askMessages_eq, if_neg known] at messages
    have request := (List.cons.inj (List.cons.inj messages).2).1
    rw [keysAlistText, keysAlistText, List.append_cancel_right_eq, List.append_cancel_left_eq]
      at request
    exact request
  · intro same
    have exists' : iknowText h.atom =
        existenceText h.atom.isNode (sexpr.encodeAtom h.atom) := by
      rw [← same, existenceText, iknowText]
      simp [bytes]
    refine ⟨?_, ?_, ?_⟩
    · intro table node reply known
      rw [AtomSpaceCog.askMessages_eq, if_neg fun both => known both.1, exists', same]
    · intro node reply known
      rw [askMessages_eq, if_neg known, exists', same]
    · rw [same, inverts]

theorem encodeList_eq_flatMap (outgoing : List (Atom Plain.Kind)) :
    Plain.encodeList outgoing = outgoing.flatMap Plain.encode := by
  induction outgoing with
  | nil => simp only [Plain.encodeList, List.flatMap_nil]
  | cons atom outgoing ih => simp only [Plain.encodeList, List.flatMap_cons, ih]

theorem encode_link (type : Plain.Kind) (outgoing : List (Atom Plain.Kind)) :
    Plain.encode (.link type outgoing) =
      40 :: type.name ++ 32 :: outgoing.flatMap Plain.encode ++ [41] := by
  rw [Plain.encode, encodeList_eq_flatMap]

theorem plain_escapes : plain.Escapes where
  node type name := by
    have written : plain.encodeAtom (.node type name) =
        40 :: type.name ++ 32 :: 34 :: Plain.escape name ++ [34, 41] := by
      simp only [plain, Plain.encode]
    rw [written]
    simp [bytes, plain]
  link type outgoing := by
    have written : plain.encodeAtom (.link type outgoing) =
        40 :: type.name ++ 32 :: outgoing.flatMap Plain.encode ++ [41] := encode_link type outgoing
    rw [written]
    simp [bytes, plain]

/-- The reader of the plain notation. -/
def readPlain (text : Str) : Option (Atom Plain.Kind) := (Plain.decodeAtom text 0).map Prod.fst

theorem readPlain_encode (atom : Atom Plain.Kind) : readPlain (plain.encodeAtom atom) = some atom := by
  have read := Plain.plain_inverts.atom [] atom []
  simp only [List.nil_append, List.append_nil] at read
  rw [readPlain]
  exact congrArg (Option.map Prod.fst) read

/-- A link to a node with quotes in its name: the members are encoded with care. -/
theorem getAtom_names_link :
    @AsksAbout plainFrames readPlain none
        ⟨.link .list [.node .concept (bytes "a \"b\"")], .space 0⟩ ↔
      ∀ type name, (.link .list [.node .concept (bytes "a \"b\"")] : plainFrames.Content) =
        .node type name → 34 ∉ name ∧ 92 ∉ name :=
  @getAtom_names_iff plainFrames plain_escapes readPlain readPlain_encode none
    ⟨.link .list [.node .concept (bytes "a \"b\"")], .space 0⟩

/-- A node with quotes in its name is not what `getAtom` asks about. -/
theorem getAtom_names_quoted :
    ¬ ∀ h : Handle plainFrames.toSexpr, @AsksAbout plainFrames readPlain none h := by
  intro always
  have asks := always ⟨.node .concept (bytes "a \"b\""), .space 0⟩
  have messages := asks.simple ⟨Memory.empty (), false, []⟩ [] (by decide)
  revert messages
  decide +kernel

end Simple

end AtomSpaceCog
