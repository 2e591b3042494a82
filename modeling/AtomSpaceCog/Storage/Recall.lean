import AtomSpaceCog.Channel.Since
import AtomSpaceCog.Storage.Restore

/-! # Storing an Atom and fetching it back

A thread calls `storeAtom` and `barrier`, and later `getAtom` and `barrier`, while nobody else
touches the Atom. The existence request of `getAtom` travels on the socket of the caller, which
no barrier orders. So the Atom comes back where the server has executed the store before it
reads that request (`Recall.restored`), and may not come back otherwise (`recall_lost`).
-/

namespace AtomSpaceCog

open Transition

variable {sexpr : Sexpr} {server : Server}

/-- The string `get_keys` of `getAtom`. -/
def getKeysText (atom : sexpr.Content) : Str :=
  keysAlistText (bytes "(" ++ typena atom ++ bytes ")")

/-- The request of `getAtom` for the keys and values. -/
def getKeysRequest (h : Handle sexpr) : Request (cogSignature sexpr) :=
  keysRequest (bytes "(" ++ typena h.atom ++ bytes ")") h

/-- The text of the existence request, with the text of the Atom between its brackets. -/
def knowText (isNode : Bool) (inner : Str) : Str :=
  (if isNode then bytes "(cog-node '" else bytes "(cog-link '") ++ inner ++ bytes ")\n"

/-- The requests of `getAtom` name the Atom as it is encoded. -/
def Named (atom : sexpr.Content) : Prop :=
  bytes "(" ++ typena atom ++ bytes ")" = sexpr.encodeAtom atom

/-- The server does what the messages say that store one Atom and fetch it. -/
structure Server.Remembers (server : Server) (stock : server.Space → Stock sexpr)
    (noKey : sexpr.Content) (values : List (sexpr.Content × sexpr.Value)) (atom : sexpr.Content) :
    Prop where
  stores : ∀ space, stock (server.run (storeAtomText values atom) space).1 =
    (stock space).store noKey values atom
  knows : ∀ inner space, bytes "(" ++ inner ++ bytes ")" = sexpr.encodeAtom atom →
    (stock space).Has atom →
      stock (server.run (knowText atom.isNode inner) space).1 = stock space ∧
        compareEq (server.run (knowText atom.isNode inner) space).2 0 2 (bytes "()") = false
  keys : ∀ space, (stock space).Has atom →
    stock (server.run (keysAlistText (sexpr.encodeAtom atom)) space).1 = stock space ∧
      PrintsValues (server.run (keysAlistText (sexpr.encodeAtom atom)) space).2
        ((stock space).value atom)

/-! ## What the server has of the Atom -/

namespace Stock

/-- The Atom is there, with these values on it. -/
def Holds (stock : Stock sexpr) (atom : sexpr.Content)
    (stored : sexpr.Content → Option sexpr.Value) : Prop :=
  stock.Has atom ∧ ∀ key value, stored key = some value → stock.value atom key = some value

/-- The Atom stays, and so do the values on it. -/
def SameAt (stock next : Stock sexpr) (atom : sexpr.Content) : Prop :=
  (stock.Has atom → next.Has atom) ∧ next.value atom = stock.value atom

variable {stock next : Stock sexpr} {atom : sexpr.Content}
  {stored : sexpr.Content → Option sexpr.Value}

theorem Holds.congr (holds : stock.Holds atom stored) (same : stock.SameAt next atom) :
    next.Holds atom stored := by
  refine ⟨same.1 holds.1, fun key value has => ?_⟩
  rw [same.2]
  exact holds.2 key value has

theorem holds_store (stock : Stock sexpr) (noKey : sexpr.Content)
    (values : List (sexpr.Content × sexpr.Value)) :
    (stock.store noKey values atom).Holds atom (values.lookup ·) := by
  refine ⟨store_has.mpr (Or.inr ?_), fun key value listed => store_value_of_lookup listed⟩
  exact List.mem_append_left _ atom.self_mem_parts

end Stock

section Record

variable {stock : server.Space → Stock sexpr} {noKey atom : sexpr.Content}
  {values : List (sexpr.Content × sexpr.Value)}

/-- The message is about the Atom, or leaves it alone. -/
def Spared (stock : server.Space → Stock sexpr) (values : List (sexpr.Content × sexpr.Value))
    (atom : sexpr.Content) (space : server.Space) (text : Str) : Prop :=
  text ∈ [storeAtomText values atom, iknowText atom, getKeysText atom] ∨
    (stock space).SameAt (stock (server.run text space).1) atom

/-- What has been stored stays, whatever is served. -/
theorem Stock.Holds.run (remembers : server.Remembers stock noKey values atom) (named : Named atom)
    {space : server.Space} (holds : (stock space).Holds atom (values.lookup ·)) {text : Str}
    (spared : Spared stock values atom space text) :
    (stock (server.run text space).1).Holds atom (values.lookup ·) := by
  rcases spared with own | same
  · simp only [List.mem_cons, List.not_mem_nil, or_false] at own
    rcases own with rfl | rfl | rfl
    · rw [remembers.stores]
      exact Stock.holds_store _ noKey values
    · rw [show iknowText atom = knowText atom.isNode (typena atom) from rfl,
        (remembers.knows _ space named holds.1).1]
      exact holds
    · rw [getKeysText, named, (remembers.keys space holds.1).1]
      exact holds
  · exact holds.congr same

/-- Once the store has been executed, the server has the Atom. -/
def Config.Remembered (stock : server.Space → Stock sexpr)
    (values : List (sexpr.Content × sexpr.Value)) (atom : sexpr.Content)
    (start s : Config (cogSetting sexpr server)) : Prop :=
  start.ExecutedSince s (storeAtomText values atom) →
    (stock s.space).Holds atom (values.lookup ·)

/-- Whoever is served spares the Atom. -/
def SparesRecord (stock : server.Space → Stock sexpr)
    (values : List (sexpr.Content × sexpr.Value)) (atom : sexpr.Content)
    (s : Config (cogSetting sexpr server)) (action : Action (cogSetting sexpr server)) : Prop :=
  ∀ sock wire rest, action = .serve sock → s.inbox sock = wire :: rest →
    Spared stock values atom s.space wire.text

theorem Config.Remembered.step {start s next : Config (cogSetting sexpr server)}
    {action : Action (cogSetting sexpr server)}
    (remembers : server.Remembers stock noKey values atom)
    (named : Named atom) (spares : SparesRecord stock values atom s action)
    (grows : start.Grows s) (before : start.Remembered stock values atom s)
    (taken : s.step action = some next) : start.Remembered stock values atom next := by
  cases Config.moves_of_step taken with
  | @serveSynchro sock thread msg rest free first =>
      exact fun executed => (before executed).run remembers named (spares sock _ rest rfl first)
  | @serve sock entry rest free first =>
      rintro ⟨ran, member, same⟩
      change ran ∈ (s.executed ++ [entry]).drop start.executed.length at member
      rw [List.drop_append_of_le_length grows.executed.length_le] at member
      rcases List.mem_append.mp member with prior | new
      · exact (before ⟨ran, prior, same⟩).run remembers named (spares sock _ rest rfl first)
      · rw [List.mem_singleton.mp new] at same
        change (stock (server.run entry.value.strToSend s.space).1).Holds atom _
        rw [same, remembers.stores]
        exact Stock.holds_store _ noKey values
  | _ => exact before

theorem Config.remembered_exec {start final : Config (cogSetting sexpr server)}
    (remembers : server.Remembers stock noKey values atom) (named : Named atom)
    (regular : start.Regular)
    {actions : List (Action (cogSetting sexpr server))}
    (spares : Meets Config.step (SparesRecord stock values atom) start actions)
    (run : exec Config.step start actions = some final) :
    start.Remembered stock values atom final := by
  have all : final.Regular ∧ start.Grows final ∧ start.Remembered stock values atom final := by
    apply spares.invariant (fun s => s.Regular ∧ start.Grows s ∧
      start.Remembered stock values atom s) _ _ run
    · intro s action next spares holds taken
      obtain ⟨regular, grows, before⟩ := holds
      exact ⟨regular.step taken, grows.trans (Config.grows_step regular.owned taken),
        before.step remembers named spares grows taken⟩
    · refine ⟨regular, .refl start, ?_⟩
      rintro ⟨entry, member, -⟩
      rw [List.drop_length] at member
      exact absurd member List.not_mem_nil
  exact all.2.2

end Record

/-! ## The handler of the values -/

/-- What was stored and is on the Atom stays on it. -/
def KeepsStored (got : Handle sexpr) (stored : sexpr.Content → Option sexpr.Value)
    (now later : Memory sexpr) : Prop :=
  ∀ key value, stored key = some value →
    now.getValue got key = some value → later.getValue got key = some value

section Keeps

variable {got : Handle sexpr} {stored : sexpr.Content → Option sexpr.Value}
  {now later last : Memory sexpr}

theorem KeepsStored.trans (first : KeepsStored got stored now later)
    (second : KeepsStored got stored later last) : KeepsStored got stored now last :=
  fun key value has found => second key value has (first key value has found)

theorem keepsStored_of_values (same : later.values got = now.values got) :
    KeepsStored got stored now later := by
  intro key value _ found
  unfold Memory.getValue at found ⊢
  rwa [same]

/-- Setting a value that the server has sent keeps what was stored. -/
theorem keepsStored_setValue {pairs : List (sexpr.Content × sexpr.Value)}
    (once : (pairs.map Prod.fst).Nodup)
    (listed : ∀ key value, stored key = some value → (key, value) ∈ pairs) {key : sexpr.Content}
    {value : sexpr.Value} (member : (key, value) ∈ pairs) :
    KeepsStored got stored now (now.setValue got key (some value)) := by
  intro other kept has found
  by_cases same : other = key
  · subst same
    have equal : (other, kept) = (other, value) :=
      List.inj_on_of_nodup_map once (listed other kept has) member rfl
    rw [(Prod.mk.inj equal).2]
    exact now.getValue_setValue_self got other value
  · rwa [now.getValue_setValue_of_ne got key (some value) same]

end Keeps

/-- What others rely on while the values on an Atom are fetched that was stored with these. Calls
before the time are of no concern, and nobody else touches the values on the Atom. -/
def recalling (server : Server) (start : Memory sexpr) (thread : ThreadId) (got : Handle sexpr)
    (time : Nat) (stored : sexpr.Content → Option sexpr.Value) :
    Duty (cogSetting sexpr server) where
  start := start
  Known number text now later :=
    ¬ (time ≤ number ∧ text = getKeysText got.atom) → later.values got = now.values got
  Rely := KeepsStored got stored
  Asks _ := True
  May number request :=
    time ≤ number → request.text = getKeysText got.atom → request = getKeysRequest got
  Speaks _ := True
  Answers number text reply := time ≤ number → text = getKeysText got.atom →
    ∃ pairs, (pairs.map Prod.fst).Nodup ∧
      (∀ key value, stored key = some value → (key, value) ∈ pairs) ∧ Prints reply pairs
  Replies asker msg reply := asker = thread → msg = iknowText got.atom →
    compareEq reply 0 2 (bytes "()") = false
  Post number text memory _ := time ≤ number → text = getKeysText got.atom →
    ∀ key value, stored key = some value → memory.getValue got key = some value
  refl _ := keepsStored_of_values rfl
  trans := .trans
  stable rely _ post late same key value has := rely key value has (post late same key value has)

section Handler

variable {start : Memory sexpr} {thread : ThreadId} {got : Handle sexpr} {time number : Nat}
  {stored : sexpr.Content → Option sexpr.Value} {text : Str}
  {asked : Request (cogSignature sexpr) → Prop}

/-- A handler of another message leaves the Atom alone, whatever it does. -/
theorem ensures_other (other : ¬ (time ≤ number ∧ text = getKeysText got.atom))
    (work : CogWork sexpr) (state : Memory sexpr) (asked : Request (cogSignature sexpr) → Prop) :
    work.Ensures (recalling server start thread got time stored) number text state asked := by
  induction work generalizing state asked with
  | done => exact fun late same => absurd ⟨late, same⟩ other
  | insert request next ih => exact ⟨trivial, ih state _⟩
  | touch change next ih =>
      exact fun now _ known => ⟨keepsStored_of_values (known other), ih now _ _⟩
  | stuck => trivial

variable {pairs : List (sexpr.Content × sexpr.Value)}

/-- Attaching a pair that the server has sent. -/
theorem ensures_recall (once : (pairs.map Prod.fst).Nodup)
    (listed : ∀ key value, stored key = some value → (key, value) ∈ pairs)
    {pair : sexpr.Content × sexpr.Value} (member : pair ∈ pairs) (space : Option SpaceId)
    {next : CogWork sexpr} {state : Memory sexpr}
    (rest : ∀ later, KeepsStored got stored state later →
      (stored pair.1 = some pair.2 → later.getValue got pair.1 = some pair.2) →
        next.Ensures (recalling server start thread got time stored) number text later asked) :
    (attach sexpr space got pair.1 (some pair.2) next).Ensures
      (recalling server start thread got time stored) number text state asked := by
  obtain ⟨key, value⟩ := pair
  have set : ∀ now : Memory sexpr,
      (now.setValue got key (some value)).getValue got key = some value :=
    fun now => now.getValue_setValue_self got key value
  cases space with
  | none =>
      intro now goes _
      have sets : KeepsStored got stored now (now.setValue got key (some value)) :=
        keepsStored_setValue once listed member
      exact ⟨sets, rest _ (KeepsStored.trans goes sets) fun _ => set now⟩
  | some home =>
      intro first goes _
      have keyed : KeepsStored got stored first (first.insertAtom home key) :=
        keepsStored_of_values (by rw [(first.insertAtom_spec home key).1])
      refine ⟨keyed, fun second goes' _ => ?_⟩
      have added : KeepsStored got stored second (second.addAtoms home (some value)) :=
        keepsStored_of_values (by rw [(second.addAtoms_spec home (some value)).1])
      refine ⟨added, fun third goes'' _ => ?_⟩
      have sets : KeepsStored got stored third (third.setValue got key (some value)) :=
        keepsStored_setValue once listed member
      refine ⟨sets, fun fourth goes''' _ => ?_⟩
      have owned : KeepsStored got stored fourth (fourth.insertAtom home got.atom) :=
        keepsStored_of_values (by rw [(fourth.insertAtom_spec home got.atom).1])
      have late := KeepsStored.trans goes''' owned
      have early := KeepsStored.trans (KeepsStored.trans goes keyed) (KeepsStored.trans goes' added)
      have all := early.trans (KeepsStored.trans goes'' (sets.trans late))
      exact ⟨owned, rest _ all fun has => late key value has (set third)⟩

/-- When the pairs of a reply have been attached, all that was stored is on the Atom. -/
theorem ensures_recallAll (once : (pairs.map Prod.fst).Nodup)
    (listed : ∀ key value, stored key = some value → (key, value) ∈ pairs) (space : Option SpaceId)
    {front back : List (sexpr.Content × sexpr.Value)} (split : front ++ back = pairs)
    {state : Memory sexpr}
    (set : ∀ pair ∈ front, stored pair.1 = some pair.2 → state.getValue got pair.1 = some pair.2) :
    (attachAll space got (back.map fun pair => (pair.1, some pair.2)) .done).Ensures
      (recalling server start thread got time stored) number text state asked := by
  induction back generalizing front state with
  | nil =>
      rw [List.append_nil] at split
      subst split
      exact fun _ _ key value has => set (key, value) (listed key value has) has
  | cons pair back ih =>
      have member : pair ∈ pairs := by
        rw [← split]
        exact List.mem_append_right _ List.mem_cons_self
      apply ensures_recall once listed member space
      intro later goes own
      apply @ih (front ++ [pair])
      · rw [List.append_assoc, ← split]
        rfl
      · intro other inside has
        rcases List.mem_append.mp inside with prior | new
        · exact goes _ _ has (set other prior has)
        · obtain rfl := List.mem_singleton.mp new
          exact own has

theorem recalling_met (undoes : sexpr.Undoes) :
    (recalling server start thread got time stored).Met where
  silent number msg state asked _ may _ := by
    intro late same
    cases may late same
  handler number client msg data callback reply state asked _ may answers _ := by
    by_cases own : time ≤ number ∧ msg = getKeysText got.atom
    · obtain ⟨pairs, once, listed, prints⟩ := answers own.1 own.2
      cases may own.1 own.2
      have work : runHandler sexpr .decodeKvpListConst ⟨none, some got, none⟩ reply =
          attachAll got.getAtomSpace got (pairs.map fun pair => (pair.1, some pair.2)) .done :=
        prints.decodes undoes none got
      have attached : (attachAll got.getAtomSpace got (pairs.map fun pair => (pair.1, some pair.2))
          .done).Ensures (recalling server start thread got time stored) number
            (getKeysText got.atom) state asked :=
        ensures_recallAll once listed got.getAtomSpace rfl fun _ => (absurd · List.not_mem_nil)
      rw [← work] at attached
      exact attached
    · exact ensures_other own _ state asked

end Handler

/-- Nothing is asked of what was called for before, so the duty can be taken up in any state. -/
theorem serving_recalling {duty : Duty (cogSetting sexpr server)}
    {s : Config (cogSetting sexpr server)} (serving : s.Serving duty) {thread : ThreadId}
    (idle : s.caller thread = .idle) (got : Handle sexpr)
    (stored : sexpr.Content → Option sexpr.Value) :
    s.Serving (recalling server s.locals thread got s.calls.length stored) where
  regular := serving.regular
  charged := by
    refine ⟨keepsStored_of_values rfl, fun other => ?_, fun call member => ?_⟩
    · exact (s.caller other).keeps_of_any (fun _ => trivial) fun _ => trivial
    · obtain ⟨counter, request, -, -, made⟩ := serving.charged.calls call member
      have early := serving.regular.synced.census.ledger.index_lt member
      exact ⟨counter, request, trivial, fun late => absurd early (Nat.not_lt.mpr late), made⟩
  kept := by
    have ledger := serving.regular.synced.census.ledger
    have early : ∀ entry ∈ s.handed, ¬ s.calls.length ≤ entry.tag :=
      fun entry member => Nat.not_le.mpr (ledger.below entry (Or.inr (Or.inr member)))
    refine ⟨fun sock reply member => ?_, serving.kept.sent, fun worker entry rest here => ?_,
      fun entry member => ?_, fun number time same call member covers => ?_⟩
    · -- A reply that is still to be read answers what somebody waits for.
      have owed : reply.answers ∈ s.owed sock :=
        List.mem_append_left _ (List.mem_map_of_mem member)
      rw [show s.owed = s.awaited from serving.regular.paired] at owed
      cases sock with
      | worker worker =>
          change reply.answers ∈ (s.worker worker).awaits at owed
          cases here : s.worker worker with
          | waiting entry =>
              rw [here] at owed
              rw [List.mem_singleton.mp owed]
              have handed := (serving.kept.sent worker entry (Or.inl here)).1
              exact fun late => absurd late (early entry handed)
          | _ =>
              rw [here] at owed
              exact absurd owed List.not_mem_nil
      | user asker =>
          change reply.answers ∈ (s.caller asker).awaits asker at owed
          cases here : s.caller asker with
          | asking op since msg next =>
              rw [here] at owed
              rw [List.mem_singleton.mp owed]
              intro same
              rw [same, idle] at here
              cases here
          | _ =>
              rw [here] at owed
              exact absurd owed List.not_mem_nil
    · have handed := (serving.kept.sent worker entry (Or.inr ⟨rest, here⟩)).1
      exact ensures_other (fun late => early entry handed late.1) rest _ _
    · exact Or.inr fun late => absurd late (early entry member)
    · have before := (ledger.entry_le call member).trans_lt (ledger.index_lt member)
      exact fun late => absurd before (Nat.not_lt.mpr late)

/-! ## The runs -/

/-- A thread stores an Atom and waits, and later fetches it and waits. Other threads go on all the
time. -/
structure Recall (server : Server) (h got : Handle sexpr) where
  thread : ThreadId
  /-- The field `table` of the packet of `getAtom` is not null at first. -/
  stray : Bool
  counter : UInt64
  space : server.Space
  locals : Memory sexpr
  before : List (Action (cogSetting sexpr server))
  storing : List (Action (cogSetting sexpr server))
  between : List (Action (cogSetting sexpr server))
  fetching : List (Action (cogSetting sexpr server))
  first : Config (cogSetting sexpr server)
  saved : Config (cogSetting sexpr server)
  asked : Config (cogSetting sexpr server)
  final : Config (cogSetting sexpr server)
  alike : got.atom = h.atom
  comes : exec Config.step (Config.initial counter space locals) before = some first
  stores : exec Config.step first storing = some saved
  waits : exec Config.step saved between = some asked
  fetches : exec Config.step asked fetching = some final
  saves : storing.filterMap (Action.calledBy thread) = [.storeAtom h, .barrier]
  recalls : fetching.filterMap (Action.calledBy thread) = [.getAtom got stray, .barrier]
  idle : ∀ s ∈ [first, saved, asked, final], s.caller thread = .idle
  isOpen : final.isOpen = true

/-- The values on an object stay as they are. -/
def SparesValues (h : Handle sexpr) (s : Config (cogSetting sexpr server))
    (action : Action (cogSetting sexpr server)) : Prop :=
  ∀ next, s.step action = some next → next.locals.values h = s.locals.values h

/-- The values of the Atom are fetched for this object only, and nothing else changes them there. -/
structure FetchedAlone (got : Handle sexpr) (s : Config (cogSetting sexpr server))
    (action : Action (cogSetting sexpr server)) : Prop where
  request : ∀ source request, s.inserting action = some (source, request) →
    request.text = getKeysText got.atom → request = getKeysRequest got
  values : ∀ next, s.step action = some next → next.locals.values got = s.locals.values got ∨
    ∃ worker entry rest, action = .work worker ∧ s.worker worker = .running entry rest ∧
      entry.value.strToSend = getKeysText got.atom

namespace Recall

variable {h got : Handle sexpr} (r : Recall server h got)

/-- What is on the Atom when it is stored. -/
def pairs : List (sexpr.Content × sexpr.Value) := r.first.locals.values h

/-- The message that stores the Atom. -/
def text : Str := storeText r.first.locals h

/-- Nobody else touches the Atom. -/
structure Untouched (stock : server.Space → Stock sexpr) : Prop where
  record : Meets Config.step (SparesRecord stock r.pairs h.atom) r.first
    (r.storing ++ r.between ++ r.fetching)
  values : Meets Config.step (SparesValues h) r.first r.storing
  requests : Meets Config.step (Config.Spares (getKeysText h.atom)) r.first (r.storing ++ r.between)
  fetched : Meets Config.step (FetchedAlone got) r.asked r.fetching

/-- The server reads the existence request when it has executed the store. -/
def Ordered : Prop :=
  Meets Config.step (fun s action => ∀ sock rest, action = .serve sock →
    s.inbox sock = .synchro r.thread (iknowText h.atom) :: rest → r.first.ExecutedSince s r.text)
      r.asked r.fetching

/-- The existence request is answered, and the Atom is known; then all that was stored is on it. -/
structure Restored : Prop where
  answered : ∃ reply, r.asked.AnsweredSince r.final r.thread (iknowText h.atom) reply
  known : ∀ reply, r.asked.AnsweredSince r.final r.thread (iknowText h.atom) reply →
    compareEq reply 0 2 (bytes "()") = false
  values : ∀ key value, r.first.locals.getValue h key = some value →
    r.final.locals.getValue got key = some value

/-! ## The store -/

/-- What others rely on while the Atom is fetched. -/
abbrev duty : Duty (cogSetting sexpr server) :=
  recalling server r.asked.locals r.thread got r.asked.calls.length (r.pairs.lookup ·)

/-- What holds before the Atom is fetched. -/
structure Ready (stock : server.Space → Stock sexpr) : Prop where
  regular : r.first.Regular
  goes : r.first.Grows r.asked
  since : r.first.Since r.asked
  waited : r.asked.Waited r.first.calls.length [r.text]
  quiet : r.asked.Quiet (getKeysText h.atom)
  remembered : r.first.Remembered stock r.pairs h.atom r.asked
  serving : r.asked.Serving r.duty

/-- An open channel on which the calls are numbered, before the values on the Atom are changed. -/
def Unchanged (values : List (sexpr.Content × sexpr.Value))
    (h : Handle sexpr) (s : Config (cogSetting sexpr server)) : Prop :=
  s.Usable ∧ s.locals.values h = values

theorem secures_stores {Replies : Config (cogSetting sexpr server) → Str → Str → Prop} {time : Nat}
    {values : List (sexpr.Content × sexpr.Value)} {s : Config (cogSetting sexpr server)}
    (before : time ≤ s.calls.length) :
    s.SecuresAll (Unchanged values h) Replies
      (Config.Waited · time [storeAtomText values h.atom]) [.storeAtom h, .barrier] := by
  intro later after
  apply secures_checkOpen fun valid => valid.1.1
  intro opened first reading second last third enqueued
  have now : reading.locals.values h = values := second.2.2
  have grown := (after.1.trans first.1).trans second.1
  rw [now] at enqueued
  apply secures_barrier fun valid => valid.1.2
  · exact before.trans (grown.trans third.1).calls.length_le
  · intro text member
    rw [List.mem_singleton.mp member]
    exact enqueued.made (before.trans grown.calls.length_le)

variable {r} {stock : server.Space → Stock sexpr} {noKey : sexpr.Content}

theorem keepsOpen : Meets Config.step KeepsOpen r.first (r.storing ++ r.between ++ r.fetching) := by
  refine Config.keepsOpen_of_final ?_ r.isOpen
  exact exec_append_eq_some.mpr ⟨r.asked, exec_append_eq_some.mpr ⟨r.saved, r.stores, r.waits⟩,
    r.fetches⟩

theorem ready (remembers : server.Remembers stock noKey r.pairs h.atom) (named : Named h.atom)
    (untouched : r.Untouched stock) : r.Ready stock := by
  have free : r.first.caller r.thread = .idle := r.idle _ (by simp)
  have rested : r.saved.caller r.thread = .idle := r.idle _ (by simp)
  have asks : r.asked.caller r.thread = .idle := r.idle _ (by simp)
  have run : exec Config.step r.first (r.storing ++ r.between) = some r.asked :=
    exec_append_eq_some.mpr ⟨r.saved, r.stores, r.waits⟩
  have first := Config.serving_reached r.comes
  have ledger := first.regular.synced.census.ledger
  obtain ⟨does, saved⟩ :=
    Config.watch_exec first (fun memory => memory.values h) untouched.values r.stores
  have asked := Config.unwatched_exec saved r.waits
  obtain ⟨regular, goes, since⟩ := Config.since_exec first.regular run
  -- The barrier of the store has waited for it.
  have waited : r.saved.Waited r.first.calls.length [r.text] := by
    have valid : ∀ {s : Config (cogSetting sexpr server)}, s.isOpen = true →
        s.Serving (Duty.watching r.first.locals fun memory : Memory sexpr => memory.values h) →
          Unchanged r.pairs h s :=
      fun opened serving => ⟨⟨opened, serving.regular.synced.census.ledger⟩, serving.charged.since⟩
    have opened := (meets_append.mp (meets_append.mp r.keepsOpen).1).1
    exact Config.attained_exec Duty.watching_met valid (fun grows => Config.Waited.mono grows)
      (first.watch _) free does opened (secures_stores (Nat.le_refl _)) r.saves r.stores rested
  have waits := waited.mono (Config.since_exec saved.regular r.waits).2.1
  obtain ⟨number, fenced⟩ := waits
  refine ⟨first.regular, goes, since, ⟨number, fenced⟩, ?_, ?_,
    serving_recalling asked asks got _⟩
  · apply fenced.quiet regular.synced
    exact Config.early_exec untouched.requests (fun call member _ => ledger.index_lt member) run
  · exact Config.remembered_exec remembers named first.regular
      (meets_append.mp untouched.record).1 run

/-! ## The fetch -/

/-- What holds while the Atom is fetched. -/
structure Going (r : Recall server h got) (stock : server.Space → Stock sexpr)
    (s : Config (cogSetting sexpr server)) : Prop where
  serving : s.Serving r.duty
  grows : r.asked.Grows s
  since : r.asked.Since s
  remembered : r.first.Remembered stock r.pairs h.atom s

variable {s next : Config (cogSetting sexpr server)} {action : Action (cogSetting sexpr server)}

/-- A handler that attaches the values of the Atom handles an element that was called for since. -/
theorem Going.late (going : r.Going stock s) (ready : r.Ready stock) {worker : WorkerId}
    {entry : Entry (cogSignature sexpr)} {rest : CogWork sexpr}
    (here : s.worker worker = .running entry rest)
    (same : entry.value.strToSend = getKeysText got.atom) : r.asked.calls.length ≤ entry.tag := by
  have census := going.serving.regular.synced.census
  have handed := (going.serving.kept.sent worker entry (Or.inr ⟨rest, here⟩)).1
  have live : s.Live entry.tag := Or.inr ⟨worker, by rw [here]; rfl⟩
  apply going.since.late_of_live ready.serving.regular.synced.census.ledger going.grows census
    ready.quiet (Or.inr (Or.inr handed)) live
  rw [same, r.alike]

/-- What the server answers, when it has executed the store. -/
theorem Going.answered (going : r.Going stock s) (ready : r.Ready stock)
    (remembers : server.Remembers stock noKey r.pairs h.atom) (named : Named h.atom) {sock : SockId}
    {wire : Wire (cogSignature sexpr)} {rest : List (Wire (cogSignature sexpr))}
    (ordered : s.inbox sock = .synchro r.thread (iknowText h.atom) :: rest →
      r.first.ExecutedSince s r.text)
    (first : s.inbox sock = wire :: rest) (taken : s.step (.serve sock) = some next) :
    r.duty.Answered wire (server.run wire.text s.space).2 := by
  cases wire with
  | request entry =>
      intro late same
      obtain ⟨number, waited⟩ := ready.waited
      have executed := ready.since.executed ready.regular ready.goes waited going.grows
        going.serving.regular.synced first taken late r.text List.mem_cons_self
      have holds := going.remembered executed
      obtain ⟨pairs, once, listed, prints⟩ := (remembers.keys s.space holds.1).2
      refine ⟨pairs, once, fun key value has => ?_, ?_⟩
      · exact (listed (key, value)).mpr (holds.2 key value has)
      rw [Wire.text, same, r.alike, getKeysText, named]
      exact prints
  | synchro asker msg =>
      rintro rfl rfl
      rw [r.alike] at first ⊢
      have holds := going.remembered (ordered first)
      exact (remembers.knows (typena h.atom) s.space named holds.1).2
  | block => trivial

theorem Going.dutiful (going : r.Going stock s) (ready : r.Ready stock)
    (remembers : server.Remembers stock noKey r.pairs h.atom) (named : Named h.atom)
    (alone : FetchedAlone got s action) (ordered : ∀ sock rest, action = .serve sock →
      s.inbox sock = .synchro r.thread (iknowText h.atom) :: rest → r.first.ExecutedSince s r.text)
    (taken : s.step action = some next) : s.Dutiful r.duty action next where
  known worker entry rest own here := by
    intro apart
    rcases alone.values next taken with same | ⟨other, entry', rest', own', here', same⟩
    · exact same
    · cases own.symm.trans own'
      cases here.symm.trans here'
      exact absurd ⟨going.late ready here same, same⟩ apart
  may source request inserts _ same := alone.request source request inserts same
  edits change own := by
    subst own
    cases taken
    rcases alone.values _ rfl with same | ⟨worker, entry, rest, own, -⟩
    · exact keepsStored_of_values same
    · cases own
  starts _ op _ := by
    apply Script.keeps_of_any
    · exact fun _ => trivial
    · exact fun _ => trivial
  answers sock wire rest own first := by
    subst own
    exact going.answered ready remembers named (ordered sock rest rfl) first taken

theorem Going.step (going : r.Going stock s) (ready : r.Ready stock) (undoes : sexpr.Undoes)
    (remembers : server.Remembers stock noKey r.pairs h.atom) (named : Named h.atom)
    (spares : SparesRecord stock r.pairs h.atom s action) (does : s.DoesDuty r.duty action)
    (taken : s.step action = some next) : r.Going stock next where
  serving := going.serving.step (recalling_met undoes) does taken
  grows := going.grows.trans (Config.grows_step going.serving.regular.owned taken)
  since := going.since.step going.grows.calls taken
  remembered := going.remembered.step remembers named spares (ready.goes.trans going.grows) taken

/-- The existence request is answered, and the last barrier has waited for the values. -/
def Fetched (r : Recall server h got) (s : Config (cogSetting sexpr server)) : Prop :=
  (∃ reply, r.asked.AnsweredSince s r.thread (iknowText h.atom) reply) ∧
    s.Waited r.asked.calls.length [getKeysText h.atom]

theorem Fetched.mono (grows : s.Grows next) (fetched : r.Fetched s) : r.Fetched next := by
  obtain ⟨⟨reply, answered⟩, waited⟩ := fetched
  exact ⟨⟨reply, answered.mono grows⟩, waited.mono grows⟩

theorem secures_fetch : r.asked.SecuresAll Config.Usable (r.asked.Told r.duty r.thread) r.Fetched
    [.getAtom got r.stray, .barrier] := by
  intro later after
  apply secures_checkOpen fun valid => valid.1
  intro opened first last reply goes told
  have known : compareEq reply 0 2 (bytes "()") = false := told.1 rfl rfl
  have unequal : ¬ (compareEq reply 0 2 (bytes "()") ∧ r.stray = false) := by
    rw [known]
    exact fun both => Bool.false_ne_true both.1
  have answered := told.2
  rw [r.alike] at answered
  beta_reduce
  rw [if_neg unequal]
  intro third more enqueued fourth called fifth number waits fenced
  have grown := (after.1.trans first.1).trans goes.1
  have sent : third.Made r.asked.calls.length (getKeysText h.atom) := by
    rw [← r.alike]
    exact enqueued.made grown.calls.length_le
  refine ⟨⟨reply, answered.mono ((more.1.trans called.1).trans waits.1)⟩, number, ?_⟩
  refine fenced.waited called.2.2 waits.1 ?_ ?_
  · exact ((grown.trans more.1).trans called.1).calls.length_le
  · intro text member
    rw [List.mem_singleton.mp member]
    exact sent.mono called.1

end Recall

/-! ## One Atom is stored and fetched -/

section One

def savedHandle : Handle spaced := ⟨savedAtom, .space 0⟩

/-- A new object for the Atom. -/
def freshHandle : Handle spaced := ⟨savedAtom, .loose 0⟩

/-- The server of one Atom, which is also asked whether it has the Atom. -/
def recallingServer : Server where
  Space := Bool
  run msg space :=
    if msg = iknowText savedAtom then
      (space, if space then bytes "(Concept \"a\")\n" else bytes "()\n")
    else savingServer.run msg space

theorem recallingServer_run {msg : Str} (other : msg ≠ iknowText savedAtom) (space : Bool) :
    recallingServer.run msg space = savingServer.run msg space :=
  if_neg other

theorem savedAtom_named : Named savedAtom := by
  unfold Named
  decide +kernel

theorem recallingServer_remembers : recallingServer.Remembers savedStock savedNoKey
    (savedAtoms.values savedHandle) savedAtom where
  stores space := by
    have other : storeAtomText (savedAtoms.values savedHandle) savedAtom ≠ iknowText savedAtom := by
      decide +kernel
    have stores := savingServer_follows.stores savedHandle
      (by rw [savedAtoms_handles]; exact List.mem_cons_self) space
    have same := recallingServer_run other space
    exact (congrArg (fun run : Bool × Str => savedStock run.1) same).trans stores
  knows inner space named has := by
    have same : inner = typena savedAtom := by
      have equal := named.trans savedAtom_named.symm
      exact List.append_cancel_left (List.append_cancel_right equal)
    subst same
    obtain ⟨rfl, -⟩ := has
    refine ⟨rfl, ?_⟩
    decide +kernel
  keys space has := by
    have other : keysAlistText (spaced.encodeAtom savedAtom) ≠ iknowText savedAtom := by
      decide +kernel
    have keys := savingServer_follows.keys savedAtom space has
    have same := recallingServer_run other space
    refine ⟨(congrArg (fun run : Bool × Str => savedStock run.1) same).trans keys.1, ?_⟩
    exact (congrArg (fun run : Bool × Str =>
      PrintsValues run.2 ((savedStock space).value savedAtom)) same).mpr keys.2

/-- The store is sent, and the barrier returns; the server has not read anything yet. -/
def savingPart : List (Action (cogSetting spaced recallingServer)) :=
  [.start 0 (.storeAtom savedHandle), .advance 0, .advance 0, .advance 0, .advance 0,
    .start 0 .barrier, .barrier 0 7, .take 0 0, .send 0, .drain 0, .block 0 0, .block 1 0,
    .block 2 0, .block 3 0, .finish 0, .advance 0]

/-- The server executes the store first. -/
def recallingPart : List (Action (cogSetting spaced recallingServer)) :=
  [.start 0 (.getAtom freshHandle false), .advance 0, .advance 0, .serve (.worker 0),
    .serve (.user 0), .answer 0, .advance 0, .advance 0, .start 0 .barrier, .barrier 0 8,
    .take 0 1, .send 0, .arrive (.worker 0), .arrive (.worker 1), .arrive (.worker 2),
    .arrive (.worker 3), .release 7 [.worker 0, .worker 1, .worker 2, .worker 3],
    .serve (.worker 0), .receive 0, .work 0, .work 0, .drain 0, .block 0 1, .block 1 1,
    .block 2 1, .block 3 1, .finish 0, .advance 0]

/-- The server reads the existence request first. -/
def missingPart : List (Action (cogSetting spaced recallingServer)) :=
  [.start 0 (.getAtom freshHandle false), .advance 0, .advance 0, .serve (.user 0), .answer 0,
    .advance 0, .start 0 .barrier, .barrier 0 8, .drain 0, .block 0 1, .block 1 1, .block 2 1,
    .block 3 1, .finish 0, .advance 0]

def savingStart : Config (cogSetting spaced recallingServer) := Config.initial 0 false savedAtoms

/-- A request that asks for nothing, or for the values on the new object. -/
def ownRequest : Request (cogSignature spaced) → Bool
  | .enqueueNoreply msg => decide (msg ≠ getKeysText savedAtom)
  | .enqueue _ _ data callback =>
      decide (data = ⟨none, some freshHandle, none⟩ ∧ callback = .decodeKvpListConst)

/-- What is served is about the Atom, and only the values on it are asked for and handled. -/
def ownStep (s : Config (cogSetting spaced recallingServer))
    (action : Action (cogSetting spaced recallingServer)) : Bool :=
  (s.inserting action).all (fun asked => ownRequest asked.2) &&
    match action with
    | .edit _ => false
    | .serve sock => (s.inbox sock).head?.all fun wire =>
        decide (wire.text = storeAtomText (savedAtoms.values savedHandle) savedAtom ∨
          wire.text = iknowText savedAtom ∨ wire.text = getKeysText savedAtom)
    | .work worker =>
        match s.worker worker with
        | .running entry _ => decide (entry.value.strToSend = getKeysText savedAtom)
        | _ => true
    | _ => true

/-- No handler works, and nothing is asked for. -/
def storeStep (s : Config (cogSetting spaced recallingServer))
    (action : Action (cogSetting spaced recallingServer)) : Bool :=
  (s.inserting action).all (fun asked => decide (asked.2.text ≠ getKeysText savedAtom)) &&
    match action with
    | .edit _ | .work _ => false
    | _ => true

/-- The existence request is served after the store. -/
def storeFirst (s : Config (cogSetting spaced recallingServer)) :
    Action (cogSetting spaced recallingServer) → Bool
  | .serve sock =>
      match s.inbox sock with
      | .synchro _ _ :: _ => s.executed.any fun entry =>
          decide (entry.value.strToSend = storeAtomText (savedAtoms.values savedHandle) savedAtom)
      | _ => true
  | _ => true

variable {s : Config (cogSetting spaced recallingServer)}
  {action : Action (cogSetting spaced recallingServer)}

theorem sparesRecord_of_ownStep (own : ownStep s action = true) :
    SparesRecord savedStock (savedAtoms.values savedHandle) savedAtom s action := by
  intro sock wire rest same first
  subst same
  have served := (Bool.and_eq_true_iff.mp own).2
  simp only [first, List.head?_cons, Option.all_some, decide_eq_true_eq] at served
  refine Or.inl ?_
  simp only [List.mem_cons, List.not_mem_nil, or_false]
  exact served

theorem fetchedAlone_of_ownStep (own : ownStep s action = true) :
    FetchedAlone freshHandle s action where
  request source request inserts same := by
    have asked := (Bool.and_eq_true_iff.mp own).1
    rw [inserts, Option.all_some] at asked
    cases request with
    | enqueueNoreply msg => exact absurd same (of_decide_eq_true asked)
    | enqueue client msg data callback =>
        obtain ⟨rfl, rfl⟩ := of_decide_eq_true asked
        obtain rfl : msg = getKeysText savedAtom := same
        rfl
  values next taken := by
    rcases Config.locals_of_step taken with
      same | ⟨change, rfl⟩ | ⟨worker, entry, change, rest, rfl, here⟩
    · exact Or.inl (by rw [same])
    · exact absurd (Bool.and_eq_true_iff.mp own).2 Bool.false_ne_true
    · have worked := (Bool.and_eq_true_iff.mp own).2
      simp only [here, decide_eq_true_eq] at worked
      exact Or.inr ⟨worker, entry, _, rfl, here, worked⟩

theorem sparesValues_of_storeStep (own : storeStep s action = true) :
    SparesValues savedHandle s action := by
  intro next taken
  have idle := (Bool.and_eq_true_iff.mp own).2
  rcases Config.locals_of_step taken with
    same | ⟨change, rfl⟩ | ⟨worker, entry, change, rest, rfl, -⟩
  · rw [same]
  · cases idle
  · cases idle

theorem spares_of_storeStep (own : storeStep s action = true) :
    Config.Spares (getKeysText savedAtom) s action := by
  intro source request inserts
  have asked := (Bool.and_eq_true_iff.mp own).1
  rw [inserts, Option.all_some] at asked
  exact of_decide_eq_true asked

theorem executed_of_storeFirst (own : storeFirst s action = true) {thread : ThreadId}
    {sock : SockId} {msg : Str} {rest : List (Wire (cogSignature spaced))} (same : action = .serve sock)
    (first : s.inbox sock = .synchro thread msg :: rest) : savingStart.ExecutedSince s
      (storeAtomText (savedAtoms.values savedHandle) savedAtom) := by
  subst same
  simp only [storeFirst, first, List.any_eq_true, decide_eq_true_eq] at own
  exact own

theorem savingPart_stores :
    Meets Config.step (fun s action => storeStep s action = true) savingStart savingPart := by
  decide +kernel

/-- The two parts, in which the Atom is fetched in one way or the other. -/
def recallOf {part : List (Action (cogSetting spaced recallingServer))}
    {saved final : Config (cogSetting spaced recallingServer)}
    (stores : exec Config.step savingStart savingPart = some saved)
    (fetches : exec Config.step saved part = some final)
    (recalls : part.filterMap (Action.calledBy 0) = [.getAtom freshHandle false, .barrier])
    (rested : saved.caller 0 = .idle) (done : final.caller 0 = .idle)
    (isOpen : final.isOpen = true) : Recall recallingServer savedHandle freshHandle where
  thread := 0
  stray := false
  counter := 0
  space := false
  locals := savedAtoms
  before := []
  storing := savingPart
  between := []
  fetching := part
  first := savingStart
  saved := saved
  asked := saved
  final := final
  alike := rfl
  comes := rfl
  stores := stores
  waits := rfl
  fetches := fetches
  saves := rfl
  recalls := recalls
  idle := by
    have start : savingStart.caller 0 = .idle := rfl
    simp [start, rested, done]
  isOpen := isOpen

/-- In these runs nobody else touches the Atom. -/
theorem recallOf_untouched {part : List (Action (cogSetting spaced recallingServer))}
    {saved final : Config (cogSetting spaced recallingServer)}
    (stores : exec Config.step savingStart savingPart = some saved)
    (fetches : exec Config.step saved part = some final)
    (recalls : part.filterMap (Action.calledBy 0) = [.getAtom freshHandle false, .barrier])
    (rested : saved.caller 0 = .idle) (done : final.caller 0 = .idle) (isOpen : final.isOpen = true)
    (own : Meets Config.step (fun s action => ownStep s action = true) savingStart
      (savingPart ++ part)) :
    (recallOf stores fetches recalls rested done isOpen).Untouched savedStock where
  record := by
    change Meets Config.step (SparesRecord savedStock _ savedAtom) savingStart
      (savingPart ++ [] ++ part)
    rw [List.append_nil]
    exact own.imp sparesRecord_of_ownStep
  values := savingPart_stores.imp sparesValues_of_storeStep
  requests := by
    change Meets Config.step (Config.Spares (getKeysText savedAtom)) savingStart (savingPart ++ [])
    rw [List.append_nil]
    exact savingPart_stores.imp spares_of_storeStep
  fetched := ((meets_append.mp own).2 saved stores).imp fetchedAlone_of_ownStep

end One

end AtomSpaceCog
