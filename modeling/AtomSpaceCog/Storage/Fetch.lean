import AtomSpaceCog.Storage.ListErrands
import AtomSpaceCog.Storage.Requests
import AtomSpaceCog.Decoding.Walk

/-! # Both storage nodes fetch

The operations that fetch, on a `CogSimpleStorage` and, followed by a barrier, on a
`CogStorage`. They leave the same AtomSpaces exactly when the Atoms are placed so that it makes
no difference which AtomSpace the keys and values are put into (`Fetch.agree_iff`).
-/

namespace AtomSpaceCog

open Transition Simple

section Queue

variable {sexpr : Sexpr} {server : Server} {contents : Contents sexpr} {errand : Errand sexpr}
  {IsExpr : Str → sexpr.Content → Prop} {start : Memory sexpr} {Known : Memory sexpr → Prop}
  {thread : ThreadId}

/-- An operation puts messages with these texts on the queue, if it ends. -/
def Tells (server : Server) (Answers : Str → Str → Prop) (op : CogOp sexpr) (texts : List Str) :
    Prop :=
  ∀ {Replies : Config (cogSetting sexpr server) → Str → Str → Prop}
    {Goal : Config (cogSetting sexpr server) → Prop},
    (∀ {later msg reply}, Replies later msg reply → Answers msg reply) →
      (∀ later : Config (cogSetting sexpr server), later.Usable →
        (∀ text ∈ texts, later.Made 0 text) → Goal later) →
          ∀ s : Config (cogSetting sexpr server), s.Usable →
            (CogStorage.script op).Secures Config.Usable Replies Goal s

/-- A thread calls an operation and then `barrier()`, and nothing else goes on. -/
structure Errand.Run (op : CogOp sexpr) (thread : ThreadId)
    (actions : List (Action (cogSetting sexpr server))) : Prop where
  alone : ∀ action ∈ actions, action.From thread
  calls : actions.filterMap (Action.calledBy thread) = [op, .barrier]

theorem Errand.Run.starts {op : CogOp sexpr} {actions : List (Action (cogSetting sexpr server))}
    (within : Errand.Run op thread actions) {other : ThreadId} {called : CogOp sexpr}
    (member : Action.start other called ∈ actions) : called = op ∨ called = .barrier := by
  have listed := Action.From.calls within.alone member
  rw [within.calls] at listed
  simpa using listed

/-- When the operation and the barrier have returned, the errand is fulfilled, and nothing else
has happened. -/
theorem Errand.exec_fulfilled (undoes : sexpr.Undoes) (brackets : sexpr.Brackets IsExpr)
    (proper : errand.Proper contents IsExpr start Known)
    (answers : ∀ msg space, contents.Answers msg (server.run msg space).2) {op : CogOp sexpr}
    (asks : (CogStorage.script op).All (Errand.duty server proper).Asks)
    (never : (CogStorage.script op).NeverCloses) {texts : List Str}
    (tells : Tells server contents.Answers op texts)
    (messages : ∀ msg ∈ errand.messages, msg ∈ texts)
    (targets : ∀ expr h, errand.Targets expr h → keysAlistText expr ∈ texts ∨
      ∃ msg ∈ errand.messages, ∃ atom, contents.Lists msg expr atom)
    {counter : UInt64} {space : server.Space} {actions : List (Action (cogSetting sexpr server))}
    {final : Config (cogSetting sexpr server)} (within : Errand.Run op thread actions)
    (known : Meets Config.step (fun s action => ∀ next, s.step action = some next →
      Known next.locals) (Config.initial counter space start) actions)
    (run : exec Config.step (Config.initial counter space start) actions = some final)
    (done : final.caller thread = .idle) :
    errand.Fulfilled contents final.locals ∧ (errand.change contents).Allows start final.locals := by
  have met : (Errand.duty server proper).Met := Errand.met proper undoes brackets
  have initial := Config.serving_initial (Errand.duty server proper) counter space
  have acts : Meets Config.step (fun _ action => Action.From thread action ∧ ∀ other called,
      action = .start other called → called = op ∨ called = CogOp.barrier)
        (Config.initial (S := cogSetting sexpr server) counter space start) actions :=
    meets_of_forall fun action member =>
      ⟨within.alone action member, fun other called same => within.starts (same ▸ member)⟩
  have does : Meets Config.step (Config.DoesDuty (Errand.duty server proper))
      (Config.initial counter space start) actions := by
    apply (known.and acts).imp
    intro s action condition next taken
    obtain ⟨knows, from', starts⟩ := condition
    refine ⟨fun _ _ _ _ _ => knows next taken, fun _ _ _ => trivial, ?_, ?_, ?_⟩
    · intro change same
      rw [same] at from'
      exact from'.elim
    · intro other called same
      rcases starts other called same with rfl | rfl
      · exact asks.keeps fun _ => trivial
      · trivial
    · intro sock wire rest same first
      cases wire with
      | request entry => exact answers entry.value.strToSend s.space
      | synchro asker msg => exact answers msg s.space
      | block => trivial
  have opens : ∀ other called, .start other called ∈ actions →
      ((cogSetting sexpr server).script called).NeverCloses := by
    intro other called member
    rcases within.starts member with rfl | rfl
    · exact never
    · trivial
  have secures : (Config.initial (S := cogSetting sexpr server) counter space start).SecuresAll
      Config.Usable ((Config.initial (S := cogSetting sexpr server) counter space start).Told
        (Errand.duty server proper) thread) (Config.Waited · 0 texts) [op, CogOp.barrier] := by
    intro later after
    exact tells And.left (fun last _ made => secures_barrier And.right (Nat.zero_le _) made) later after.2
  have valid : ∀ {s : Config (cogSetting sexpr server)}, s.isOpen = true →
      s.Serving (Errand.duty server proper) → s.Usable :=
    fun opened serving => ⟨opened, serving.regular.synced.census.ledger⟩
  have opened := (Config.staysOpen_initial (S := cogSetting sexpr server) counter space
    start).keepsOpen opens
  have waited := Config.attained_exec met valid (fun grows => Config.Waited.mono grows) initial rfl
    does opened secures within.calls run done
  have serving := Config.serving_exec met initial does run
  exact ⟨Errand.fulfilled proper serving waited messages targets,
    Config.relied_exec met initial does run⟩

/-- What other AtomSpaces have not gained at the end, they had not gained before. -/
theorem Errand.Run.small {op : CogOp sexpr} {table : SpaceId} {counter : UInt64}
    {space : server.Space} {actions : List (Action (cogSetting sexpr server))}
    {final : Config (cogSetting sexpr server)} (within : Errand.Run op thread actions)
    (run : exec Config.step (Config.initial counter space start) actions = some final)
    (small : start.Small table final.locals) :
    Meets Config.step (fun s action => ∀ next, s.step action = some next →
      start.Small table next.locals) (Config.initial counter space start) actions := by
  have initial := Config.serving_initial (growth server start) counter space
  have acts : Meets Config.step (fun _ action => Action.From thread action)
      (Config.initial (S := cogSetting sexpr server) counter space start) actions :=
    meets_of_forall within.alone
  have does : Meets Config.step (Config.DoesDuty (growth server start))
      (Config.initial counter space start) actions := by
    apply acts.imp
    intro s action from' next taken
    refine ⟨fun _ _ _ _ _ => trivial, fun _ _ _ => trivial, ?_, ?_, ?_⟩
    · intro change same
      rw [same] at from'
      exact from'.elim
    · intro other called _
      exact ((script_all called).imp fun _ _ => trivial).keeps fun _ => trivial
    · intro sock wire rest same first
      cases wire <;> trivial
  apply Config.known_exec (growth_met server start) _ initial does run small
  intro state later grows small space other atom member
  exact small space other atom (grows.atoms member)

end Queue

section Lists

variable {sexpr : FrameSexpr} {server : Server} {contents : Contents sexpr.toSexpr}
  {IsExpr : Str → sexpr.Content → Prop} {start : Memory sexpr.toSexpr} {thread : ThreadId}
  {table : SpaceId} {messages : List Str}

/-- An operation that fetches these lists. -/
structure FetchesLists (server : Server) (Answers : Str → Str → Prop) (op : CogOp sexpr.toSexpr)
    (table : SpaceId) (messages : List Str) : Prop where
  asks : (CogStorage.script op).All fun request =>
    ∃ msg ∈ messages, request = Errand.listRequest msg table
  never : (CogStorage.script op).NeverCloses
  tells : Tells server Answers op messages

theorem FetchesLists.fulfilled (undoes : sexpr.Undoes) (brackets : sexpr.Brackets IsExpr)
    {op : CogOp sexpr.toSexpr} (fetches : FetchesLists server contents.Answers op table messages)
    {Known : Memory sexpr.toSexpr → Prop}
    (proper : (listErrand contents start table messages).Proper contents IsExpr start Known)
    (answers : ∀ msg space, contents.Answers msg (server.run msg space).2) {counter : UInt64}
    {space : server.Space} {actions : List (Action (cogSetting sexpr.toSexpr server))}
    {final : Config (cogSetting sexpr.toSexpr server)} (within : Errand.Run op thread actions)
    (known : Meets Config.step (fun s action => ∀ next, s.step action = some next →
      Known next.locals) (Config.initial counter space start) actions)
    (run : exec Config.step (Config.initial counter space start) actions = some final)
    (done : final.caller thread = .idle) :
    (listErrand contents start table messages).Fulfilled contents final.locals ∧
      ((listErrand contents start table messages).change contents).Allows start final.locals := by
  apply Errand.exec_fulfilled undoes brackets proper answers _ fetches.never fetches.tells _ _
    within known run done
  · apply fetches.asks.imp
    intro request asked
    obtain ⟨msg, member, made⟩ := asked
    exact Or.inl ⟨msg, member, table, rfl, made⟩
  · exact fun msg member => member
  · intro expr h target
    obtain ⟨msg, member, atom, listed, -⟩ := target
    exact Or.inr ⟨msg, member, atom, listed⟩

/-- Fetching lists on either storage node leaves the same AtomSpaces exactly when the Atoms are
placed well. -/
theorem FetchesLists.finals_agree_iff (undoes : sexpr.Undoes) (brackets : sexpr.Brackets IsExpr)
    (layered : start.Layered) (serves : contents.Serves IsExpr messages)
    (frameless : Frameless contents messages) {op : CogOp sexpr.toSexpr}
    (asks : AsksLists messages) (fetches : FetchesLists server contents.Answers op table messages)
    (answers : ∀ msg space, contents.Answers msg (server.run msg space).2) {reply : Str → Str}
    (replies : ∀ msg, contents.Answers msg (reply msg)) {node : Node sexpr}
    (same : node.memory = start) {counter : UInt64} {space : server.Space}
    {actions : List (Action (cogSetting sexpr.toSexpr server))}
    {final : Config (cogSetting sexpr.toSexpr server)} (within : Errand.Run op thread actions)
    (run : exec Config.step (Config.initial counter space start) actions = some final)
    (done : final.caller thread = .idle) :
    ∃ last, (Prog.lock (messages.foldr (fun msg next => CogSimpleStorage.sendAtomList msg table next)
        (.unlock (.exit .returned)))).run reply node [] = some last ∧
      (final.locals.Same last.memory ↔ AlikeLists contents start table messages) := by
  have since : ((listErrand contents start table messages).change contents).Allows start
      node.memory := by
    rw [same]
    exact .refl _ start
  have ends : (messages.foldr (fun msg next => CogSimpleStorage.sendAtomList msg table next)
      (.unlock (.exit .returned))).Ends contents.Answers (fun last : Node sexpr =>
        ((listErrand contents start table messages).change contents).Allows start last.memory ∧
          ((listErrand contents start table messages).change contents).Done last.memory)
        node [] := by
    apply ends_lists brackets undoes layered serves frameless (List.Subset.refl _) node [] since
    intro last allows fetched latest
    exact ⟨since.trans allows, done_of_fetched fetched⟩
  obtain ⟨last, ran, allows, finished⟩ := ends.run replies
  refine ⟨last, ran, ?_, ?_⟩
  · intro agree
    have small : start.Small table final.locals := by
      intro other apart atom member
      apply allows.others _ ((agree.atoms other atom).mp member)
      exact fun into => apart (Option.some.inj into).symm
    obtain ⟨fulfilled, goes⟩ := fetches.fulfilled undoes brackets
      (listErrand_proper_of_small brackets layered serves asks) answers within (within.small run small)
      run done
    exact alikeLists_of_small layered goes.grows.bases small fulfilled
  · intro alike
    obtain ⟨fulfilled, goes⟩ := fetches.fulfilled undoes brackets
      (listErrand_proper_of_alike brackets (layered.apart table) serves asks alike) answers within
      ((meets_of_forall within.alone).imp fun _ _ _ => trivial) run done
    exact Change.agree goes (listErrand_done layered alike goes fulfilled) allows finished

end Lists

/-! ## One Atom -/

/-- The values on one Atom are asked for. -/
def atomErrand {sexpr : Sexpr} (h : Handle sexpr) (home : Option SpaceId) : Errand sexpr where
  table := home
  messages := []
  Targets expr target := expr = bytes "(" ++ typena h.atom ++ bytes ")" ∧ target = h

/-- The server knows the Atom, and answers with its pairs. -/
structure Contents.Knows {sexpr : Sexpr} (contents : Contents sexpr) (atom : sexpr.Content) :
    Prop where
  known : ∀ reply, contents.Answers (iknowText atom) reply → compareEq reply 0 2 (bytes "()") = false
  alist : ∀ reply, contents.Answers (keysAlistText (bytes "(" ++ typena atom ++ bytes ")")) reply →
    PrintsPairs reply (contents.pairs atom)
  distinct : ((contents.pairs atom).map Prod.fst).Nodup

section Atom

variable {sexpr : Sexpr} {server : Server} {contents : Contents sexpr} {start : Memory sexpr}
  {h : Handle sexpr} {home : Option SpaceId}

theorem atomErrand_proper {IsExpr : Str → sexpr.Content → Prop} (knows : contents.Knows h.atom) :
    (atomErrand h h.getAtomSpace).Proper contents IsExpr start fun _ => True where
  lists msg member := absurd member List.not_mem_nil
  alists expr target both := by
    obtain ⟨rfl, rfl⟩ := both
    exact knows.alist
  distinct expr target both := by
    obtain ⟨rfl, rfl⟩ := both
    exact knows.distinct
  apart msg member := absurd member List.not_mem_nil
  one expr target other both also := both.2.trans also.2.symm
  found msg member := absurd member List.not_mem_nil
  quiet expr target both home lives other := by
    obtain ⟨rfl, rfl⟩ := both
    exact absurd lives other

theorem atomErrand_done {final : Memory sexpr}
    (attached : ∀ pair ∈ contents.pairs h.atom, Attached home h pair final) :
    ((atomErrand h home).change contents).Done final where
  atoms {space part} same new := by
    rcases new with ⟨msg, member, -⟩ | ⟨expr, target, ⟨rfl, rfl⟩, pair, inside, own⟩
    · exact absurd member List.not_mem_nil
    · exact (attached pair inside).held space same part own
  values sets := by
    obtain ⟨⟨expr, rfl, rfl⟩, inside⟩ := sets
    exact (attached _ inside).value

theorem tells_getAtom (knows : contents.Knows h.atom) (stray : Bool) :
    Tells server contents.Answers (.getAtom h stray)
      [keysAlistText (bytes "(" ++ typena h.atom ++ bytes ")")] := by
  intro Replies Goal told goal s usable
  apply secures_checkOpen And.left
  intro opened _ middle reply after answers
  have known : ¬ (compareEq reply 0 2 (bytes "()") = true ∧ stray = false) := by
    rw [knows.known reply (told answers)]
    simp
  simp only [known, if_false]
  intro last goes enqueued
  apply goal last goes.2
  intro text member
  rw [List.mem_singleton.mp member]
  exact enqueued.made (Nat.zero_le _)

theorem asks_getAtom {IsExpr : Str → sexpr.Content → Prop}
    (proper : (atomErrand h h.getAtomSpace).Proper contents IsExpr start fun _ => True)
    (stray : Bool) :
    (CogStorage.script (.getAtom h stray)).All (Errand.duty server proper).Asks := by
  apply (script_all (.getAtom h stray)).imp
  intro request made
  exact Or.inr ⟨_, h, ⟨rfl, rfl⟩, made⟩

theorem neverCloses_getAtom (stray : Bool) :
    (CogStorage.script (.getAtom h stray)).NeverCloses := by
  intro isOpen
  cases isOpen with
  | false => trivial
  | true =>
      intro reply
      dsimp only
      split <;> trivial

end Atom

section Simple

variable {sexpr : FrameSexpr} {contents : Contents sexpr.toSexpr} {own : Option SpaceId}
  {h : Handle sexpr.toSexpr}

/-- `CogSimpleStorage::getAtom` attaches the pairs, with a home in its own AtomSpace. -/
theorem ends_getAtom (undoes : sexpr.Undoes) (knows : contents.Knows h.atom) (node : Node sexpr) :
    (CogSimpleStorage.getAtom own h (.exit .returned)).Ends contents.Answers (fun last =>
      ((atomErrand h (own <|> h.getAtomSpace)).change contents).Allows node.memory last.memory ∧
        ((atomErrand h (own <|> h.getAtomSpace)).change contents).Done last.memory) node [] := by
  intro reply answers
  simp only [knows.known reply answers, Bool.false_eq_true, if_false]
  intro alist lists
  obtain ⟨printed, order, prints⟩ := knows.alist alist lists
  dsimp only
  rw [prints.decodes undoes own h]
  apply ends_attachAll
  have attaching : ((atomErrand h (own <|> h.getAtomSpace)).change contents).Attaching
      (own <|> h.getAtomSpace) h printed := by
    refine ⟨fun home same => ⟨same, fun pair inside atom piece => ?_⟩, fun pair inside => ?_,
      fun pair inside value sets => ?_⟩
    · exact Or.inr ⟨_, h, ⟨rfl, rfl⟩, pair, order.mem_iff.mp inside, piece⟩
    · exact ⟨⟨_, rfl, rfl⟩, order.mem_iff.mp inside⟩
    · have equal : (pair.1, value) = pair :=
        List.inj_on_of_nodup_map knows.distinct sets.2 (order.mem_iff.mp inside) rfl
      rw [← equal]
  obtain ⟨allows, attached⟩ := foldl_attachTo_spec attaching node.memory
  refine ⟨allows, atomErrand_done fun pair inside => ?_⟩
  exact attached pair (order.mem_iff.mpr inside)

end Simple

/-! ## All the operations -/

/-- The operations that fetch. -/
inductive Fetch (sexpr : FrameSexpr) where
  | getAtom (h : Handle sexpr.toSexpr)
  | fetchIncomingSet (table : SpaceId) (h : Handle sexpr.toSexpr)
  | fetchIncomingByType (table : SpaceId) (h : Handle sexpr.toSexpr) (t : sexpr.AtomType)
  | loadType (table : SpaceId) (t : sexpr.AtomType)
  | loadAtomSpace (table : SpaceId)

namespace Fetch

variable {sexpr : FrameSexpr}

/-- The call on a `CogStorage`. -/
def cog (stray : Bool) : Fetch sexpr → CogOp sexpr.toSexpr
  | getAtom h => .getAtom h stray
  | fetchIncomingSet table h => .fetchIncomingSet table h
  | fetchIncomingByType table h t => .fetchIncomingByType table h t
  | loadType table t => .loadType table t
  | loadAtomSpace table => .loadAtomSpace table

/-- The call on a `CogSimpleStorage`. -/
def simple : Fetch sexpr → SimpleOp sexpr
  | getAtom h => .getAtom h
  | fetchIncomingSet table h => .fetchIncomingSet table h
  | fetchIncomingByType table h t => .fetchIncomingByType table h t
  | loadType table t => .loadType table t
  | loadAtomSpace table => .loadAtomSpace table

/-- The messages that ask for lists. -/
def messages : Fetch sexpr → List Str
  | getAtom _ => []
  | fetchIncomingSet _ h => [bytes "(cog-incoming-set " ++ sexpr.encodeAtom h.atom ++ bytes ")\n"]
  | fetchIncomingByType _ h t => [bytes "(cog-incoming-by-type " ++ sexpr.encodeAtom h.atom ++
      bytes " '" ++ sexpr.getTypeName t ++ bytes ")\n"]
  | loadType _ t => [bytes "(cog-get-atoms '" ++ sexpr.getTypeName t ++ bytes ")\n"]
  | loadAtomSpace _ => [getAtomsText "Node", getAtomsText "Link"]

/-- The server answers what it holds to the messages of the operation, knows the Atom that is
asked for, and names no frames. -/
structure Served (contents : Contents sexpr.toSexpr) (IsExpr : Str → sexpr.Content → Prop)
    (fetch : Fetch sexpr) : Prop where
  serves : contents.Serves IsExpr fetch.messages
  frameless : Frameless contents fetch.messages
  knows : ∀ h, fetch = getAtom h → contents.Knows h.atom

/-- It makes no difference which AtomSpace the keys and values are put into: for `getAtom` that
of the storage node or that of the Atom, for the others the AtomSpace that is asked for or the
one below it in which the Atom is found. -/
def Alike (own : Option SpaceId) (contents : Contents sexpr.toSexpr) (start : Memory sexpr.toSexpr) :
    Fetch sexpr → Prop
  | getAtom h => (own <|> h.getAtomSpace) = h.getAtomSpace ∨
      ∀ pair ∈ contents.pairs h.atom, ∀ atom ∈ pieces h.atom pair, ∀ home,
        own = some home ∨ h.getAtomSpace = some home → start.Holds home atom
  | fetch@(fetchIncomingSet table _) => AlikeLists contents start table fetch.messages
  | fetch@(fetchIncomingByType table _ _) => AlikeLists contents start table fetch.messages
  | fetch@(loadType table _) => AlikeLists contents start table fetch.messages
  | fetch@(loadAtomSpace table) => AlikeLists contents start table fetch.messages

theorem ne_keysAlistText {msg : Str} (starts : msg[5]? ≠ some 107) (expr : Str) :
    msg ≠ keysAlistText expr := by
  intro same
  apply starts
  rw [same]
  rfl

theorem asksLists_messages (fetch : Fetch sexpr) : AsksLists fetch.messages := by
  intro msg member
  apply ne_keysAlistText
  cases fetch with
  | getAtom => exact absurd member List.not_mem_nil
  | fetchIncomingSet | fetchIncomingByType | loadType =>
      rw [List.mem_singleton.mp member]
      intro same
      cases same
  | loadAtomSpace =>
      rcases List.mem_cons.mp member with rfl | member
      · intro same
        cases same
      · rw [List.mem_singleton.mp member]
        intro same
        cases same

section Scripts

variable {server : Server} {Answers : Str → Str → Prop} {table : SpaceId}

/-- An operation that puts one message for a list on the queue. -/
theorem fetchesLists_single {op : CogOp sexpr.toSexpr} {msg : Str}
    (script : CogStorage.script op =
      checkOpen (.enqueue (Errand.listRequest msg table) (.exit .returned))) :
    FetchesLists server Answers op table [msg] where
  asks := by
    rw [script]
    exact all_checkOpen ⟨⟨msg, List.mem_singleton_self msg, rfl⟩, trivial⟩
  never := by
    rw [script]
    intro isOpen
    cases isOpen <;> trivial
  tells := by
    intro Replies Goal told goal s _
    rw [script]
    apply secures_checkOpen And.left
    intro opened _ later after enqueued
    apply goal later after.2
    intro text member
    rw [List.mem_singleton.mp member]
    exact enqueued.made (Nat.zero_le _)

theorem fetchesLists_loadAtomSpace (table : SpaceId) :
    FetchesLists server Answers (.loadAtomSpace table : CogOp sexpr.toSexpr) table
      [getAtomsText "Node", getAtomsText "Link"] where
  asks := all_checkOpen ⟨⟨_, List.mem_cons_self, rfl⟩,
    ⟨_, List.mem_cons_of_mem _ List.mem_cons_self, rfl⟩, trivial⟩
  never := by
    intro isOpen
    cases isOpen <;> trivial
  tells := by
    intro Replies Goal told goal s _
    apply secures_checkOpen And.left
    intro opened _ middle _ nodes later goes links last number after _
    apply goal last after.2
    intro text member
    rcases List.mem_cons.mp member with rfl | member
    · exact ((nodes.made (Nat.zero_le _)).mono goes.1).mono after.1
    · rw [List.mem_singleton.mp member]
      exact (links.made (Nat.zero_le _)).mono after.1

end Scripts

section Agree

variable {IsExpr : Str → sexpr.Content → Prop} {contents : Contents sexpr.toSexpr}
  {start : Memory sexpr.toSexpr} {server : Server} {reply : Str → Str} {thread : ThreadId}

/-- `getAtom` on either storage node. -/
theorem getAtom_agree_iff (undoes : sexpr.Undoes) (brackets : sexpr.Brackets IsExpr)
    (own : Option SpaceId) {h : Handle sexpr.toSexpr} (knows : contents.Knows h.atom) (stray : Bool)
    (answers : ∀ msg space, contents.Answers msg (server.run msg space).2)
    (replies : ∀ msg, contents.Answers msg (reply msg)) {node : Node sexpr}
    (same : node.memory = start) {counter : UInt64} {space : server.Space}
    {actions : List (Action (cogSetting sexpr.toSexpr server))}
    {final : Config (cogSetting sexpr.toSexpr server)}
    (within : Errand.Run (.getAtom h stray) thread actions)
    (run : exec Config.step (Config.initial counter space start) actions = some final)
    (done : final.caller thread = .idle) :
    ∃ last, (CogSimpleStorage.getAtom own h (.exit .returned)).run reply node [] = some last ∧
      (final.locals.Same last.memory ↔ (getAtom h).Alike own contents start) := by
  have proper : (atomErrand h h.getAtomSpace).Proper contents IsExpr start fun _ => True :=
    atomErrand_proper knows
  obtain ⟨fulfilled, goes⟩ := Errand.exec_fulfilled undoes brackets proper answers
    (asks_getAtom proper stray) (neverCloses_getAtom stray) (tells_getAtom knows stray)
    (fun msg member => absurd member List.not_mem_nil)
    (fun expr target both => Or.inl (by rw [both.1]; exact List.mem_singleton_self _)) within
    ((meets_of_forall within.alone).imp fun _ _ _ => trivial) run done
  have finished : ((atomErrand h h.getAtomSpace).change contents).Done final.locals :=
    atomErrand_done (fulfilled.attached _ h ⟨rfl, rfl⟩)
  have ends : (CogSimpleStorage.getAtom own h (.exit .returned)).Ends contents.Answers (fun last =>
      ((atomErrand h (own <|> h.getAtomSpace)).change contents).Allows node.memory last.memory ∧
        ((atomErrand h (own <|> h.getAtomSpace)).change contents).Done last.memory) node [] :=
    ends_getAtom undoes knows node
  obtain ⟨last, ran, allows, ended⟩ := ends.run replies
  rw [same] at allows
  refine ⟨last, ran, ?_, ?_⟩
  · intro agree
    by_cases equal : (own <|> h.getAtomSpace) = h.getAtomSpace
    · exact Or.inl equal
    right
    intro pair inside atom piece home place
    have new : ∃ expr target, (expr = bytes "(" ++ typena h.atom ++ bytes ")" ∧ target = h) ∧
        ∃ pair ∈ contents.pairs target.atom, atom ∈ pieces target.atom pair :=
      ⟨_, h, ⟨rfl, rfl⟩, pair, inside, piece⟩
    have first : (own <|> h.getAtomSpace) = some home → start.Holds home atom := by
      intro into
      apply Change.holds_of_same allows ended goes ⟨fun _ _ => (agree.atoms _ _).symm,
        fun _ _ => (agree.values _ _).symm⟩ into _ (Or.inr new)
      exact fun also => equal (into.trans also.symm)
    have second : h.getAtomSpace = some home → start.Holds home atom := by
      intro into
      apply Change.holds_of_same goes finished allows agree into _ (Or.inr new)
      exact fun also => equal (also.trans into.symm)
    rcases place with mine | its
    · apply first
      rw [mine]
      rfl
    · exact second its
  · intro alike
    rcases alike with equal | held
    · rw [equal] at allows ended
      exact Change.agree goes finished allows ended
    · have all : ∀ home, own = some home ∨ h.getAtomSpace = some home → ∀ atom,
          ((atomErrand h h.getAtomSpace).change contents).New atom → start.Holds home atom := by
        intro home place atom new
        rcases new with ⟨msg, member, -⟩ | ⟨expr, target, ⟨rfl, rfl⟩, pair, inside, own'⟩
        · exact absurd member List.not_mem_nil
        · exact held pair inside atom own' home place
      have mine : ∀ home, (own <|> h.getAtomSpace) = some home →
          own = some home ∨ h.getAtomSpace = some home := by
        intro home into
        cases own with
        | none => exact Or.inr into
        | some _ => exact Or.inl into
      have first := goes.alone fun home into => all home (Or.inr into)
      have second := allows.alone fun home into => all home (mine home into)
      exact Change.agree first finished.alone second ended.alone

/-- A server that always gives the same answer to a message. -/
def answering (reply : Str → Str) : Server := ⟨Unit, fun msg _ => ((), reply msg)⟩

/-- Two AtomSpaces, with an Atom in the second one. -/
def apartAtoms : Memory spacedFrames.toSexpr :=
  (Memory.empty ()).insertAtom 1 (.node .concept (bytes "a"))

/-- The Atom in the second AtomSpace. -/
def apartAtom : Handle spacedFrames.toSexpr := ⟨.node .concept (bytes "a"), .space 1⟩

/-- The value that the server has on it. -/
def apartPair : spacedFrames.Content × spacedFrames.Value :=
  (.node .predicate (bytes "k"), .string (bytes "v"))

/-- The Atom is known, and has that value. -/
def apartReply (msg : Str) : Str :=
  if msg = keysAlistText (bytes "(" ++ typena apartAtom.atom ++ bytes ")") then
    bytes "(((Predicate \"k\") . (StringValue \"v\")))\n"
  else bytes "(Concept \"a\")\n"

def apartContents : Contents spacedFrames.toSexpr where
  Answers msg reply := reply = apartReply msg
  Lists _ _ _ := False
  pairs _ := [apartPair]

/-- `getAtom` and `barrier()`; worker 2 takes the request. -/
def apartRun : List (Action (cogSetting spacedFrames.toSexpr (answering apartReply))) :=
  [.start 0 (.getAtom apartAtom false), .advance 0, .advance 0, .serve (.user 0), .answer 0,
    .advance 0, .advance 0, .start 0 .barrier, .barrier 0 7, .take 2 0, .send 2,
    .serve (.worker 2), .receive 2, .work 2, .work 2, .work 2, .work 2, .work 2, .drain 0,
    .block 0 0, .block 1 0, .block 2 0, .block 3 0, .finish 0, .advance 0]

theorem apartRun_alone : Errand.Run (.getAtom apartAtom false) 0 apartRun := ⟨by decide, rfl⟩

theorem apart_served :
    (getAtom apartAtom).Served apartContents Spaced.WritesAtom where
  serves := ⟨nofun, nofun, nofun, fun _ => List.nodup_singleton _⟩
  frameless := nofun
  knows := by
    intro h same
    cases same
    refine ⟨?_, ?_, List.nodup_singleton _⟩
    · rintro _ rfl
      decide +kernel
    · rintro _ rfl
      refine ⟨[apartPair], List.Perm.refl _, [], [([], apartPair)], [], bytes "\n", by decide,
        by decide, by decide, by decide, rfl, ?_⟩
      decide +kernel

/-- The node reads the reply of the server into its own AtomSpace, the first one. -/
theorem apart_simple : ∃ last, (CogSimpleStorage.prog (some 0) (getAtom apartAtom).simple).run
    apartReply (⟨apartAtoms, false, []⟩ : Node spacedFrames) [] = some last ∧
      apartPair.1 ∉ last.memory.atoms 1 := by
  have runs : ((CogSimpleStorage.prog (some 0) (getAtom apartAtom).simple).run apartReply
      (⟨apartAtoms, false, []⟩ : Node spacedFrames) []).any
        (fun last => decide (apartPair.1 ∉ last.memory.atoms 1)) = true := by decide +kernel
  obtain ⟨last, ran, out⟩ := (Option.any_eq_true _ _).mp runs
  exact ⟨last, ran, of_decide_eq_true out⟩

/-- A worker reads it into the AtomSpace of the Atom, the second one. -/
theorem apart_cog : ∃ final, exec Config.step (Config.initial 0 () apartAtoms) apartRun =
    some final ∧ final.caller 0 = .idle ∧ apartPair.1 ∈ final.locals.atoms 1 := by
  have runs : (exec Config.step (Config.initial 0 () apartAtoms) apartRun).any
      (fun final => (final.caller 0).isIdle && decide (apartPair.1 ∈ final.locals.atoms 1)) =
        true := by decide +kernel
  obtain ⟨final, run, both⟩ := (Option.any_eq_true _ _).mp runs
  obtain ⟨idle, found⟩ := Bool.and_eq_true_iff.mp both
  exact ⟨final, run, Caller.eq_idle idle, of_decide_eq_true found⟩

end Agree

end Fetch

end AtomSpaceCog
