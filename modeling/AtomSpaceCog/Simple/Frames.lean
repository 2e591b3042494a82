import AtomSpaceCog.Simple.Play
import AtomSpaceCog.Foundation.Transition

/-! # Which frames the server knows

`writeFrame` defines a frame on the server unless the local map says that it was done
before. What is in the map was defined, or loaded, since the server was last cleared
(`Tracked`): with the frame of the Atom of a message that holds on every way out of an
operation, but for a `kill_data` whose `do_recv` throws. With the frame of a key it holds
only where the frame of the Atom, or the map, happens to cover it.
-/

namespace AtomSpaceCog.Simple

open CogSimpleStorage Transition

variable (sexpr : FrameSexpr)

section Texts

/-- `"(define *-bogus-top-space-* " + Sexpr::encode_frame(hasp) + ")\n"` -/
def defineText (hasp : SpaceId) : Str :=
  bytes "(define *-bogus-top-space-* " ++ sexpr.encodeFrame hasp ++ bytes ")\n"

def clearText : Str := bytes "(cog-atomspace-clear)\n"

def atomspaceText : Str := bytes "(cog-atomspace)\n"

variable {sexpr}

/-- The message of `storeAtom` for an Atom with values, and for one without. -/
def storeAtomText (several : Bool) (h : Handle sexpr.toSexpr) :
    List (sexpr.Content × sexpr.Value) → Str
  | [] => bytes "(cog-set-value! " ++ encodeAtom several h ++
      bytes "(Predicate \"*-TruthValueKey-*\") #f)\n"
  | pair :: pairs => bytes "(cog-set-values! " ++ encodeAtom several h ++
      sexpr.encodeAtomValues (pair :: pairs) ++ bytes ")\n"

/-- The message of `storeValue`. -/
def storeValueText (several : Bool) (h key : Handle sexpr.toSexpr) (value : Option sexpr.Value) :
    Str :=
  bytes "(cog-set-value! " ++ sexpr.encodeAtom h.atom ++ encodeAtom several key ++
    sexpr.encodeValue value ++ bytes ")\n"

/-- The message of `updateValue`. -/
def updateValueText (several : Bool) (h key : Handle sexpr.toSexpr) (delta : Option sexpr.Value) :
    Str :=
  bytes "(cog-update-value! " ++ sexpr.encodeAtom h.atom ++ encodeAtom several key ++
    sexpr.encodeValue delta ++ bytes ")\n"

end Texts

/-- The frame and those that it is built on. -/
def reach (bases : SpaceId → List SpaceId) (frame : SpaceId) : List SpaceId := frame :: bases frame

/-- The frames that `Sexpr::encode_atom(h, several)` may name. -/
def named {sexpr : FrameSexpr} (bases : SpaceId → List SpaceId) (several : Bool)
    (h : Handle sexpr.toSexpr) : List SpaceId :=
  match several, h.getAtomSpace with
  | true, some frame => reach bases frame
  | _, _ => []

/-- What the library writes and reads about the frames of a DAG. -/
structure FrameTexts (bases : SpaceId → List SpaceId) where
  /-- The frames whose short forms a message contains. -/
  names : Str → List SpaceId
  /-- The frames that a reply to `(cog-atomspace)` is about. -/
  received : Str → List SpaceId
  bases_trans : ∀ {frame base}, base ∈ bases frame → ∀ below ∈ bases base, below ∈ bases frame
  names_storeAtom : ∀ several (h : Handle sexpr.toSexpr) pairs,
    ∀ frame ∈ names (storeAtomText several h pairs), frame ∈ named bases several h
  names_storeValue : ∀ several (h key : Handle sexpr.toSexpr) value,
    ∀ frame ∈ names (storeValueText several h key value), frame ∈ named bases several key
  names_updateValue : ∀ several (h key : Handle sexpr.toSexpr) delta,
    ∀ frame ∈ names (updateValueText several h key delta), frame ∈ named bases several key
  /-- The forms in a definition are no short forms. -/
  names_define : ∀ frame, names (defineText sexpr frame) = []
  names_clear : names clearText = []
  names_atomspace : names atomspaceText = []
  received_bases : ∀ reply, ∀ frame ∈ received reply, ∀ base ∈ bases frame, base ∈ received reply
  framesIn_decode : ∀ {fidMap reply later}, sexpr.decodeFrame fidMap reply = some later →
    ∀ frame ∈ sexpr.framesIn later, frame ∈ sexpr.framesIn fidMap ∨ frame ∈ received reply
  framesIn_insert : ∀ fidMap name frame, ∀ other ∈ sexpr.framesIn (sexpr.insertFid fidMap name frame),
    other = frame ∨ other ∈ sexpr.framesIn fidMap
  framesIn_clear : sexpr.framesIn sexpr.clearFid = []

variable {sexpr} {bases : SpaceId → List SpaceId}

/-- The frames that the server knows after another message or reply: those that were
defined, or loaded, since it was cleared. -/
def definedAfter (texts : FrameTexts sexpr bases) (known : SpaceId → Prop) :
    Event → SpaceId → Prop
  | .sent msg, frame => msg ≠ clearText ∧
      (known frame ∨ ∃ hasp, msg = defineText sexpr hasp ∧ frame ∈ reach bases hasp)
  | .answered question reply, frame =>
      known frame ∨ question = atomspaceText ∧ frame ∈ texts.received reply

/-- The frames that the server knows. -/
def Defined (texts : FrameTexts sexpr bases) (seen : List Event) : SpaceId → Prop :=
  seen.foldl (definedAfter texts) fun _ => False

/-- Each frame that a message named was known when the message was sent. -/
def NamesDefined (texts : FrameTexts sexpr bases) (seen : List Event) : Prop :=
  ∀ before msg after, seen = before ++ .sent msg :: after →
    ∀ frame ∈ texts.names msg, Defined texts before frame

/-- The frames are those of the DAG, what is in the maps was defined on the server, and all
that was named was defined. -/
structure Tracked (texts : FrameTexts sexpr bases) (node : Node sexpr) (seen : List Event) : Prop where
  dag : node.memory.bases = bases
  frameMap : ∀ frame ∈ node.frameMap, ∀ below ∈ reach bases frame, Defined texts seen below
  fidMap : ∀ frame ∈ sexpr.framesIn node.memory.fidMap, ∀ below ∈ reach bases frame,
    Defined texts seen below
  named : NamesDefined texts seen

section Tracking

variable {texts : FrameTexts sexpr bases} {node : Node sexpr} {seen : List Event}

theorem defined_append (event : Event) (frame : SpaceId) :
    Defined texts (seen ++ [event]) frame ↔ definedAfter texts (Defined texts seen) event frame := by
  simp only [Defined, List.foldl_append, List.foldl_cons, List.foldl_nil]

theorem defined_sent {msg : Str} (other : msg ≠ clearText) {frame : SpaceId}
    (defined : Defined texts seen frame) : Defined texts (seen ++ [.sent msg]) frame :=
  (defined_append _ _).mpr ⟨other, .inl defined⟩

theorem defined_answered {question reply : Str} {frame : SpaceId}
    (defined : Defined texts seen frame) :
    Defined texts (seen ++ [.answered question reply]) frame :=
  (defined_append _ _).mpr (.inl defined)

theorem NamesDefined.append (names : NamesDefined texts seen) (event : Event)
    (defined : ∀ msg, event = .sent msg → ∀ frame ∈ texts.names msg, Defined texts seen frame) :
    NamesDefined texts (seen ++ [event]) := by
  intro before other after split frame member
  rcases List.eq_nil_or_concat after with rfl | ⟨after, last, rfl⟩
  · obtain ⟨rfl, same⟩ := List.append_inj' split rfl
    exact defined other (List.cons.inj same).1 frame member
  · rw [List.concat_eq_append, ← List.cons_append, ← List.append_assoc] at split
    obtain ⟨rfl, _⟩ := List.append_inj' split rfl
    exact names before other after rfl frame member

/-- A message that is no clear, and names what is defined. -/
theorem Tracked.sent (tracked : Tracked texts node seen) {msg : Str} (other : msg ≠ clearText)
    (defined : ∀ frame ∈ texts.names msg, Defined texts seen frame) :
    Tracked texts node (seen ++ [.sent msg]) where
  dag := tracked.dag
  frameMap frame member below inside := defined_sent other (tracked.frameMap frame member below inside)
  fidMap frame member below inside := defined_sent other (tracked.fidMap frame member below inside)
  named := tracked.named.append _ fun _ same => Event.sent.inj same ▸ defined

theorem Tracked.answered (tracked : Tracked texts node seen) (question reply : Str) :
    Tracked texts node (seen ++ [.answered question reply]) where
  dag := tracked.dag
  frameMap frame member below inside := defined_answered (tracked.frameMap frame member below inside)
  fidMap frame member below inside := defined_answered (tracked.fidMap frame member below inside)
  named := tracked.named.append _ fun _ same => nomatch same

theorem defineText_ne_clearText (hasp : SpaceId) : defineText sexpr hasp ≠ clearText := by
  intro same
  have second := congrArg (fun text => text[1]?) same
  simp [defineText, clearText, bytes] at second

theorem defined_define {hasp frame : SpaceId} (inside : frame ∈ reach bases hasp) :
    Defined texts (seen ++ [.sent (defineText sexpr hasp)]) frame :=
  (defined_append _ _).mpr ⟨defineText_ne_clearText hasp, .inr ⟨hasp, rfl, inside⟩⟩

theorem reach_trans (texts : FrameTexts sexpr bases) {frame base below : SpaceId}
    (above : base ∈ reach bases frame) (under : below ∈ reach bases base) :
    below ∈ reach bases frame := by
  rcases List.mem_cons.mp above with rfl | above
  · exact under
  · rcases List.mem_cons.mp under with rfl | under
    · exact List.mem_cons_of_mem _ above
    · exact List.mem_cons_of_mem _ (texts.bases_trans above below under)

theorem mem_named {several : Bool} {h : Handle sexpr.toSexpr} {frame : SpaceId}
    (member : frame ∈ named bases several h) :
    several = true ∧ ∃ home, h.getAtomSpace = some home ∧ frame ∈ reach bases home := by
  unfold named at member
  split at member
  · next home here => exact ⟨rfl, home, here, member⟩
  · exact absurd member List.not_mem_nil

theorem Tracked.multi (tracked : Tracked texts node seen) (several : Bool) :
    Tracked texts { node with multiSpace := several } seen :=
  ⟨tracked.dag, tracked.frameMap, tracked.fidMap, tracked.named⟩

/-- A frame whose definition was sent is put into both maps. -/
theorem Tracked.cache (tracked : Tracked texts node seen) {frame : SpaceId}
    (defined : ∀ below ∈ reach bases frame, Defined texts seen below) (name : Str) :
    Tracked texts { node with
      frameMap := frame :: node.frameMap
      memory := { node.memory with fidMap := sexpr.insertFid node.memory.fidMap name frame } }
      seen where
  dag := tracked.dag
  frameMap := by
    intro other member
    rcases List.mem_cons.mp member with rfl | member
    · exact defined
    · exact tracked.frameMap other member
  fidMap := by
    intro other member
    rcases texts.framesIn_insert _ _ _ other member with rfl | member
    · exact defined
    · exact tracked.fidMap other member
  named := tracked.named

variable {next : SimpleProg sexpr} {latest : Str}

theorem safe_tell (latest : Str) {msg : Str} (tracked : Tracked texts node seen)
    (rest : next.Safe (Tracked texts) node (seen ++ [.sent msg]) msg) :
    (tell msg next).Safe (Tracked texts) node seen latest := ⟨tracked, rest⟩

theorem safe_cacheFrame {hasp : SpaceId} (tracked : Tracked texts node seen)
    (defined : ∀ below ∈ reach bases hasp, Defined texts seen below)
    (rest : ∀ later, Tracked texts later seen → next.Safe (Tracked texts) later seen latest) :
    (cacheFrame hasp next).Safe (Tracked texts) node seen latest := by
  have all : ∀ frame ∈ (node.memory.bases hasp).reverse ++ [hasp],
      ∀ below ∈ reach bases frame, Defined texts seen below := by
    intro frame member below inside
    have above : frame ∈ reach bases hasp := by
      rw [tracked.dag] at member
      rcases List.mem_append.mp member with member | member
      · exact List.mem_cons_of_mem _ (List.mem_reverse.mp member)
      · exact List.mem_singleton.mp member ▸ List.mem_cons_self
    exact defined below (reach_trans texts above inside)
  change Prog.Safe (Tracked texts) (List.foldr _ next _) node seen latest
  generalize (node.memory.bases hasp).reverse ++ [hasp] = frames at all ⊢
  induction frames generalizing node with
  | nil => exact rest node tracked
  | cons frame frames ih =>
      have cached := tracked.cache (all frame List.mem_cons_self) (sexpr.getName frame)
      exact ih cached fun other member => all other (List.mem_cons_of_mem _ member)

/-- After `writeFrame` the frame is defined. -/
theorem safe_writeFrame {hasp : Option SpaceId} (tracked : Tracked texts node seen)
    (rest : ∀ later more latest, Tracked texts later more →
      (∀ frame, Defined texts seen frame → Defined texts more frame) →
      (∀ home, hasp = some home → ∀ below ∈ reach bases home, Defined texts more below) →
        next.Safe (Tracked texts) later more latest) :
    (writeFrame hasp next).Safe (Tracked texts) node seen latest := by
  cases hasp with
  | none => exact tracked
  | some hasp =>
      change Prog.Safe (Tracked texts) (if _ then _ else _) node seen latest
      split
      · next cached =>
          refine rest node seen latest tracked (fun _ => id) fun home same below inside => ?_
          cases same
          exact tracked.frameMap hasp cached below inside
      · have told : Tracked texts { node with multiSpace := true }
            (seen ++ [.sent (defineText sexpr hasp)]) := by
          apply (tracked.multi true).sent (defineText_ne_clearText hasp)
          rw [texts.names_define]
          exact nofun
        have defined : ∀ below ∈ reach bases hasp,
            Defined texts (seen ++ [.sent (defineText sexpr hasp)]) below :=
          fun below inside => defined_define inside
        refine safe_tell latest (tracked.multi true) (safe_cacheFrame told defined fun later kept => ?_)
        refine rest later _ _ kept (fun frame => defined_sent (defineText_ne_clearText hasp)) ?_
        intro home same
        cases same
        exact defined

/-- After `tellFrame`, with more than one AtomSpace, the frame of the Atom is defined. -/
theorem safe_tellFrame {several : Bool} {h : Handle sexpr.toSexpr}
    (tracked : Tracked texts node seen)
    (rest : ∀ later more latest, Tracked texts later more →
      (∀ frame, Defined texts seen frame → Defined texts more frame) →
      (later.multiSpace = true → (node.multiSpace || several) = true ∧
        ∀ home, h.getAtomSpace = some home → ∀ below ∈ reach bases home, Defined texts more below) →
        next.Safe (Tracked texts) later more latest) :
    (tellFrame several h next).Safe (Tracked texts) node seen latest := by
  change Prog.Safe (Tracked texts) (if _ then _ else _)
    { node with multiSpace := node.multiSpace || several } seen latest
  split
  · next multi =>
      apply safe_writeFrame (tracked.multi _)
      intro later more latest kept mono defined
      exact rest later more latest kept mono fun _ => ⟨multi, defined⟩
  · next single =>
      exact rest _ seen latest (tracked.multi _) (fun _ => id) fun multi => absurd multi single

/-- A text that starts as one of the storing messages do is no clear. -/
theorem ne_clearText {front rest : Str} (other : front.isPrefixOf clearText = false) :
    front ++ rest ≠ clearText := by
  intro same
  have starts : front.isPrefixOf clearText = true :=
    List.isPrefixOf_iff_prefix.mpr (same ▸ List.prefix_append front rest)
  exact Bool.false_ne_true (other.symm.trans starts)

theorem storeAtomText_ne_clearText (several : Bool) (h : Handle sexpr.toSexpr)
    (pairs : List (sexpr.Content × sexpr.Value)) : storeAtomText several h pairs ≠ clearText := by
  cases pairs with
  | nil =>
      simp only [storeAtomText, List.append_assoc]
      exact ne_clearText (by decide)
  | cons pair pairs =>
      simp only [storeAtomText, List.append_assoc]
      exact ne_clearText (by decide)

theorem storeValueText_ne_clearText (several : Bool) (h key : Handle sexpr.toSexpr)
    (value : Option sexpr.Value) : storeValueText several h key value ≠ clearText := by
  simp only [storeValueText, List.append_assoc]
  exact ne_clearText (by decide)

theorem updateValueText_ne_clearText (several : Bool) (h key : Handle sexpr.toSexpr)
    (delta : Option sexpr.Value) : updateValueText several h key delta ≠ clearText := by
  simp only [updateValueText, List.append_assoc]
  exact ne_clearText (by decide)

theorem safe_storeAtom {own : Option SpaceId} {h : Handle sexpr.toSexpr}
    (tracked : Tracked texts node seen) :
    (storeAtom own h (.exit .returned)).Safe (Tracked texts) node seen latest := by
  apply safe_tellFrame tracked
  intro later more latest kept mono multi
  have defined : ∀ frame ∈ texts.names (storeAtomText later.multiSpace h (later.memory.values h)),
      Defined texts more frame := by
    intro frame member
    obtain ⟨several, home, here, inside⟩ := mem_named (texts.names_storeAtom _ _ _ frame member)
    exact (multi several).2 home here frame inside
  have told := kept.sent (storeAtomText_ne_clearText _ _ _) defined
  change Prog.Safe (Tracked texts) (if _ then _ else _) later more latest
  cases values : later.memory.values h with
  | nil =>
      rw [values] at told
      exact ⟨kept, told⟩
  | cons pair pairs =>
      rw [values] at told
      exact ⟨kept, told⟩

/-- The frame of the key is covered by that of the Atom, or by the map, where several
AtomSpaces are involved. -/
def Covered (bases : SpaceId → List SpaceId) (own : Option SpaceId) (node : Node sexpr)
    (h key : Handle sexpr.toSexpr) : Prop :=
  node.multiSpace = true ∨ h.getAtomSpace ≠ own → ∀ frame, key.getAtomSpace = some frame →
    (∃ home, h.getAtomSpace = some home ∧ frame ∈ reach bases home) ∨
      ∃ cached ∈ node.frameMap, frame ∈ reach bases cached

/-- A message about an Atom that names the frames of a key. -/
theorem safe_tellKey {own : Option SpaceId} {h key : Handle sexpr.toSexpr}
    (text : Node sexpr → Str) (tracked : Tracked texts node seen)
    (covered : Covered bases own node h key) (other : ∀ node, text node ≠ clearText)
    (names : ∀ node, ∀ frame ∈ texts.names (text node), frame ∈ named bases node.multiSpace key) :
    (tellFrame (h.getAtomSpace ≠ own) h
      (read fun node => tell (text node) (.exit .returned))).Safe (Tracked texts) node seen latest := by
  apply safe_tellFrame tracked
  intro later more latest kept mono multi
  have defined : ∀ frame ∈ texts.names (text later), Defined texts more frame := by
    intro frame member
    obtain ⟨several, home, here, inside⟩ := mem_named (names later frame member)
    obtain ⟨involved, written⟩ := multi several
    rcases covered (by simpa using involved) home here with ⟨above, placed, under⟩ | ⟨above, cached, under⟩
    · exact written above placed frame (reach_trans texts under inside)
    · exact mono frame (tracked.frameMap above cached frame (reach_trans texts under inside))
  exact ⟨kept, kept.sent (other later) defined⟩

theorem safe_storeValue {own : Option SpaceId} {h key : Handle sexpr.toSexpr}
    (tracked : Tracked texts node seen) (covered : Covered bases own node h key) :
    (storeValue own h key (.exit .returned)).Safe (Tracked texts) node seen latest :=
  safe_tellKey
    (fun node => storeValueText node.multiSpace h key (node.memory.getValue h key.atom)) tracked covered
    (fun node => storeValueText_ne_clearText node.multiSpace h key _)
    fun node => texts.names_storeValue node.multiSpace h key _

theorem safe_updateValue {own : Option SpaceId} {h key : Handle sexpr.toSexpr}
    {delta : Option sexpr.Value} (tracked : Tracked texts node seen)
    (covered : Covered bases own node h key) :
    (updateValue own h key delta (.exit .returned)).Safe (Tracked texts) node seen latest :=
  safe_tellKey (fun node => updateValueText node.multiSpace h key delta) tracked covered
    (fun node => updateValueText_ne_clearText node.multiSpace h key delta)
    fun node => texts.names_updateValue node.multiSpace h key delta

theorem safe_storeFrameDAG {top : Option SpaceId} (tracked : Tracked texts node seen) :
    (storeFrameDAG top (.exit .returned)).Safe (Tracked texts) node seen latest := by
  apply safe_writeFrame tracked
  intro later more latest kept _ _
  exact kept.multi true

theorem safe_loadFrameDAG (tracked : Tracked texts node seen) :
    (loadFrameDAG (.exit .returned)).Safe (Tracked texts) node seen latest := by
  have asked : Tracked texts { node with multiSpace := true } (seen ++ [.sent atomspaceText]) := by
    apply (tracked.multi true).sent (by decide)
    rw [texts.names_atomspace]
    exact nofun
  refine ⟨tracked.multi true, asked, fun rply => ?_⟩
  have answered := asked.answered atomspaceText rply
  have loaded : ∀ frame ∈ texts.received rply, ∀ below ∈ reach bases frame,
      Defined texts (seen ++ [.sent atomspaceText] ++ [.answered atomspaceText rply]) below := by
    intro frame member below inside
    apply (defined_append _ _).mpr
    refine .inr ⟨rfl, ?_⟩
    rcases List.mem_cons.mp inside with rfl | inside
    · exact member
    · exact texts.received_bases rply frame member below inside
  have kept : ∀ {frame}, Defined texts seen frame →
      Defined texts (seen ++ [.sent atomspaceText] ++ [.answered atomspaceText rply]) frame :=
    fun defined => defined_answered (defined_sent (by decide) defined)
  change Prog.Safe (Tracked texts) (if _ then _ else _) _ _ _
  split
  · exact answered
  · cases decoded : sexpr.decodeFrame node.memory.fidMap rply with
    | none =>
        simp only [Prog.Safe, decoded]
        exact answered
    | some fidMap =>
        have known : ∀ frame ∈ sexpr.framesIn fidMap, ∀ below ∈ reach bases frame,
            Defined texts (seen ++ [.sent atomspaceText] ++ [.answered atomspaceText rply]) below := by
          intro frame member below inside
          rcases texts.framesIn_decode decoded frame member with old | new
          · exact kept (tracked.fidMap frame old below inside)
          · exact loaded frame new below inside
        simp only [Prog.Safe, decoded]
        refine ⟨tracked.dag, ?_, known, answered.named⟩
        intro frame member
        rcases List.mem_append.mp member with new | old
        · exact known frame new
        · exact fun below inside => kept (tracked.frameMap frame old below inside)

/-- The `do_recv` of an operation that sends one message does not throw. -/
def ReplyHeard (outcomes : List (Option Str)) : Prop :=
  ∀ sent ∈ outcomes.head?.join, (outcomes[1]?.join).isSome = true

/-- `kill_data` empties the maps when it has its reply. -/
theorem tracked_killData (tracked : Tracked texts node seen) {outcomes : List (Option Str)}
    (heard : ReplyHeard outcomes) :
    Tracked texts ((killData (.exit .returned)).play outcomes node latest).2
      (seen ++ ((killData (.exit .returned)).play outcomes node latest).1) := by
  rcases outcomes with _ | ⟨_ | sent, _ | ⟨_ | reply, rest⟩⟩
  · simpa [killData, Prog.play] using tracked
  · simpa [killData, Prog.play] using tracked
  · simpa [killData, Prog.play] using tracked
  · simpa [killData, Prog.play] using tracked
  · exact absurd (heard sent rfl) Bool.false_ne_true
  · exact absurd (heard sent rfl) Bool.false_ne_true
  · refine ⟨tracked.dag, ?_, ?_, ?_⟩
    · intro frame member
      exact absurd member List.not_mem_nil
    · intro frame member
      exact absurd (texts.framesIn_clear ▸ member) List.not_mem_nil
    · have cleared : NamesDefined texts (seen ++ [.sent clearText]) := by
        apply tracked.named.append
        intro msg same frame member
        cases same
        rw [texts.names_clear] at member
        exact absurd member List.not_mem_nil
      have answered : NamesDefined texts (seen ++ [.sent clearText] ++ [.answered clearText reply]) := by
        apply cleared.append
        intro msg same
        cases same
      simpa [killData, Prog.play, clearText] using answered

end Tracking

/-- The operations that tell the server about frames. -/
inductive FrameOp (sexpr : FrameSexpr) where
  | storeAtom (h : Handle sexpr.toSexpr)
  | storeValue (h key : Handle sexpr.toSexpr)
  | updateValue (h key : Handle sexpr.toSexpr) (delta : Option sexpr.Value)
  | storeFrameDAG (top : Option SpaceId)
  | loadFrameDAG
  | killData

def FrameOp.op : FrameOp sexpr → SimpleOp sexpr
  | storeAtom h => .storeAtom h
  | storeValue h key => .storeValue h key
  | updateValue h key delta => .updateValue h key delta
  | storeFrameDAG top => .storeFrameDAG top
  | loadFrameDAG => .loadFrameDAG
  | killData => .killData

/-- A storage node and what was seen on its connection. -/
structure Session (sexpr : FrameSexpr) where
  node : Node sexpr
  seen : List Event

namespace Session

inductive Action (sexpr : FrameSexpr) where
  /-- An operation, and what happens at each `do_send` and `do_recv` of it. -/
  | call (op : FrameOp sexpr) (outcomes : List (Option Str))
  /-- The program changes the Atoms in its AtomSpaces and the values on them. -/
  | edit (atoms : SpaceId → List sexpr.Content)
      (values : Handle sexpr.toSexpr → List (sexpr.Content × sexpr.Value))

/-- A storage node that was just made. -/
def initial (memory : Memory sexpr.toSexpr) : Session sexpr := ⟨⟨memory, false, []⟩, []⟩

def step (own : Option SpaceId) (s : Session sexpr) : Action sexpr → Option (Session sexpr)
  | .call op outcomes =>
      let (events, node) := (prog own op.op).play outcomes s.node []
      some ⟨node, s.seen ++ events⟩
  | .edit atoms values =>
      some { s with node := { s.node with memory := { s.node.memory with
        atoms := atoms
        values := values } } }

/-- Where several AtomSpaces are involved, the frame of a key is covered; a `kill_data`
whose message was sent gets its reply. -/
def Allowed (bases : SpaceId → List SpaceId) (own : Option SpaceId) (s : Session sexpr) :
    Action sexpr → Prop
  | .call (.storeValue h key) _ => Covered bases own s.node h key
  | .call (.updateValue h key _) _ => Covered bases own s.node h key
  | .call .killData outcomes => ReplyHeard outcomes
  | _ => True

variable {texts : FrameTexts sexpr bases} {own : Option SpaceId} {s next : Session sexpr}
  {action : Action sexpr}

theorem tracked_step (allowed : s.Allowed bases own action) (tracked : Tracked texts s.node s.seen)
    (taken : step own s action = some next) : Tracked texts next.node next.seen := by
  cases action with
  | edit atoms values =>
      obtain rfl := Option.some.inj taken
      exact ⟨tracked.dag, tracked.frameMap, tracked.fidMap, tracked.named⟩
  | call op outcomes =>
      obtain rfl := Option.some.inj taken
      cases op with
      | storeAtom h => exact (safe_storeAtom tracked).play outcomes
      | storeValue h key => exact (safe_storeValue tracked allowed).play outcomes
      | updateValue h key delta => exact (safe_updateValue tracked allowed).play outcomes
      | storeFrameDAG top => exact (safe_storeFrameDAG tracked).play outcomes
      | loadFrameDAG => exact (safe_loadFrameDAG tracked).play outcomes
      | killData => exact tracked_killData tracked allowed

/-- In every run of a storage node in which keys live in frames that are covered and no
`kill_data` loses its reply, each frame that a message names is defined on the server. -/
theorem frames_defined (texts : FrameTexts sexpr bases) {own : Option SpaceId}
    {memory : Memory sexpr.toSexpr} (dag : memory.bases = bases)
    (fresh : sexpr.framesIn memory.fidMap = []) {actions : List (Action sexpr)} {final : Session sexpr}
    (run : exec (step own) (initial memory) actions = some final)
    (meets : Meets (step own) (Allowed bases own) (initial memory) actions) :
    NamesDefined texts final.seen := by
  have start : Tracked texts (initial memory : Session sexpr).node (initial memory : Session sexpr).seen := by
    refine ⟨dag, nofun, ?_, ?_⟩
    · intro frame member
      exact absurd (fresh ▸ member) List.not_mem_nil
    · intro before msg after split
      exact absurd split.symm (by simp [initial])
  exact (meets.invariant (fun s => Tracked texts s.node s.seen)
    (fun allowed tracked taken => tracked_step allowed tracked taken) start run).named

section Runs

/-- A single Atom, `(Concept "a")`, which carries no values, in the frames `base` and `top`;
neither is built on the other. -/
def twoFrames : FrameSexpr where
  AtomType := Unit
  Value := Unit
  FidMap := List SpaceId
  getTypeName _ := bytes "Concept"
  encodeAtom _ := bytes "(Concept \"a\")"
  encodeValue _ := bytes "#f"
  encodeAtomValues _ := bytes "()"
  getNextExpr _ _ _ := none
  decodeAtomIn _ _ _ _ := none
  decodeAtom _ _ := none
  decodeValue _ _ := none
  atomsIn _ := []
  encodeAtomMulti
    | some 0, _ => bytes "(Concept \"a\" (AtomSpace \"base\"))"
    | some 1, _ => bytes "(Concept \"a\" (AtomSpace \"top\"))"
    | _, _ => bytes "(Concept \"a\")"
  encodeFrame
    | 0 => bytes "(AtomSpace \"base\")"
    | _ => bytes "(AtomSpace \"top\")"
  getName
    | 0 => bytes "base"
    | _ => bytes "top"
  insertFid fidMap _ frame := frame :: fidMap
  clearFid := []
  framesIn fidMap := fidMap
  homeIn _ _ _ _ := none
  decodeFrame fidMap _ := some fidMap

/-- The short forms in a text that is no definition. -/
def shortForms (text : Str) : List SpaceId :=
  if (bytes "(define ").isPrefixOf text then []
  else
    (if (findText text (bytes "(AtomSpace \"base\")") 0).isSome then [0] else []) ++
      if (findText text (bytes "(AtomSpace \"top\")") 0).isSome then [1] else []

/-- Around the Atom of a message nothing is named. -/
structure Around (front back : Str) : Prop where
  plain : shortForms (front ++ bytes "(Concept \"a\")" ++ back) = []
  base : shortForms (front ++ bytes "(Concept \"a\" (AtomSpace \"base\"))" ++ back) = [0]
  top : shortForms (front ++ bytes "(Concept \"a\" (AtomSpace \"top\"))" ++ back) = [1]

theorem Around.named {front back : Str} (around : Around front back) (several : Bool)
    (h : Handle twoFrames.toSexpr) :
    ∀ frame ∈ shortForms (front ++ encodeAtom several h ++ back),
      frame ∈ named (fun _ => []) several h := by
  obtain ⟨atom, home⟩ := h
  intro frame member
  cases several with
  | false => exact absurd (around.plain ▸ member) List.not_mem_nil
  | true =>
      rcases home with (_ | _ | space) | object
      · have here : frame ∈ shortForms
            (front ++ bytes "(Concept \"a\" (AtomSpace \"base\"))" ++ back) := member
        rwa [around.base] at here
      · have here : frame ∈ shortForms
            (front ++ bytes "(Concept \"a\" (AtomSpace \"top\"))" ++ back) := member
        rwa [around.top] at here
      · exact absurd (around.plain ▸ member) List.not_mem_nil
      · exact absurd (around.plain ▸ member) List.not_mem_nil

/-- The frames of two AtomSpaces that are not built on each other. -/
def twoTexts : FrameTexts twoFrames fun _ => [] where
  names := shortForms
  received _ := []
  bases_trans member := absurd member List.not_mem_nil
  names_storeAtom several h pairs := by
    have set : Around (bytes "(cog-set-values! ") (bytes "()" ++ bytes ")\n") :=
      ⟨by decide +kernel, by decide +kernel, by decide +kernel⟩
    have clobber : Around (bytes "(cog-set-value! ") (bytes "(Predicate \"*-TruthValueKey-*\") #f)\n") :=
      ⟨by decide +kernel, by decide +kernel, by decide +kernel⟩
    cases pairs with
    | nil => exact clobber.named several h
    | cons pair pairs =>
        rw [storeAtomText, List.append_assoc (_ ++ _)]
        exact set.named several h
  names_storeValue several h key value := by
    have around : Around (bytes "(cog-set-value! " ++ bytes "(Concept \"a\")")
        (bytes "#f" ++ bytes ")\n") :=
      ⟨by decide +kernel, by decide +kernel, by decide +kernel⟩
    rw [storeValueText, List.append_assoc (_ ++ _ ++ _)]
    exact around.named several key
  names_updateValue several h key delta := by
    have around : Around (bytes "(cog-update-value! " ++ bytes "(Concept \"a\")")
        (bytes "#f" ++ bytes ")\n") :=
      ⟨by decide +kernel, by decide +kernel, by decide +kernel⟩
    rw [updateValueText, List.append_assoc (_ ++ _ ++ _)]
    exact around.named several key
  names_define frame := by
    apply if_pos
    rw [defineText, List.append_assoc]
    rfl
  names_clear := by decide +kernel
  names_atomspace := by decide +kernel
  received_bases _ _ member := absurd member List.not_mem_nil
  framesIn_decode decoded frame member := by
    cases decoded
    exact .inl member
  framesIn_insert _ _ _ other member := List.mem_cons.mp member
  framesIn_clear := rfl

/-- The Atom in a frame. -/
def placed (frame : SpaceId) : Handle twoFrames.toSexpr := ⟨.node () [], .space frame⟩

/-- No Atoms; no frame is built on another. -/
def noAtoms : Memory twoFrames.toSexpr := Memory.empty (show List SpaceId from [])

/-- A value under a key in the frame `top`, which was stored before. -/
theorem frames_defined_key_stored :
    ∃ final : Session twoFrames, exec (step (some 0)) (initial noAtoms)
        [.call (.storeFrameDAG (some 1)) [some []],
          .call (.storeValue (placed 0) (placed 1)) [some [], some []]] = some final ∧
      final.seen.length = 3 ∧ NamesDefined twoTexts final.seen := by
  have covered : Meets (step (some 0)) (Allowed (fun _ => []) (some 0)) (initial noAtoms)
      [.call (.storeFrameDAG (some 1)) [some []],
        .call (.storeValue (placed 0) (placed 1)) [some [], some []]] := by
    apply meets_cons trivial rfl
    refine meets_cons ?_ rfl trivial
    intro _ frame here
    cases here
    exact .inr ⟨1, by decide, List.mem_cons_self⟩
  exact ⟨_, rfl, rfl, frames_defined twoTexts rfl rfl rfl covered⟩

/-- A key whose frame was never defined, and a frame that is not defined again after the
reply to a clear was lost. -/
theorem frames_undefined :
    (∃ final : Session twoFrames, exec (step (some 0)) (initial noAtoms)
        [.call (.storeValue (placed 1) (placed 0)) [some [], some []]] = some final ∧
      ¬ NamesDefined twoTexts final.seen) ∧
    ∃ final : Session twoFrames, exec (step (some 0)) (initial noAtoms)
        [.call (.storeFrameDAG (some 1)) [some []], .call .killData [some [], none],
          .call (.storeAtom (placed 1)) [some []]] = some final ∧
      ¬ NamesDefined twoTexts final.seen := by
  constructor
  · refine ⟨_, rfl, fun names => ?_⟩
    have defined := names [.sent (defineText twoFrames 1)] _ [] rfl 0 (by decide +kernel)
    obtain ⟨_, known | ⟨hasp, same, inside⟩⟩ := defined
    · exact known
    · obtain rfl := List.mem_singleton.mp inside
      exact absurd same (by decide +kernel)
  · refine ⟨_, rfl, fun names => ?_⟩
    have defined := names [.sent (defineText twoFrames 1), .sent clearText] _ [] rfl 1
      (by decide +kernel)
    exact defined.1 rfl

end Runs

end Session

end AtomSpaceCog.Simple
