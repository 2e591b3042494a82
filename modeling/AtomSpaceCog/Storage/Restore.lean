import AtomSpaceCog.Storage.Stock
import AtomSpaceCog.Decoding.Walk

/-! # Storing and loading an AtomSpace

`storeAtomSpace` and then `loadAtomSpace` into an empty AtomSpace. While the Atoms are stored no
handler does anything; when the server answers the first message of the load, the barrier of the
store has seen to it that it has executed every store. So it answers with what was stored
(`storedContents`), and the load is an errand for two lists.
-/

namespace AtomSpaceCog

open Transition

variable {sexpr : Sexpr} {server : Server} {start : Memory sexpr} {table loaded : SpaceId}
  {noKey : sexpr.Content} {stock : server.Space → Stock sexpr}

/-- The values that were on an Atom of the AtomSpace. -/
def pairsOf (start : Memory sexpr) (table : SpaceId) (atom : sexpr.Content) :
    List (sexpr.Content × sexpr.Value) :=
  if (start.atoms table).contains atom then start.values ⟨atom, .space table⟩ else []

/-- No key stands twice on an Atom of the AtomSpace. -/
def Memory.Keyed (memory : Memory sexpr) (table : SpaceId) : Prop :=
  ∀ atom ∈ memory.atoms table, ((memory.values ⟨atom, .space table⟩).map Prod.fst).Nodup

theorem distinct_pairsOf (keyed : start.Keyed table)
    (atom : sexpr.Content) : ((pairsOf start table atom).map Prod.fst).Nodup := by
  unfold pairsOf
  split
  · next member => exact keyed atom (List.contains_iff_mem.mp member)
  · exact List.nodup_nil

/-- Where each key stands once, a pair is in the list if it is found there. -/
theorem lookup_eq_some_iff_mem {Key Value : Type} [DecidableEq Key] {pairs : List (Key × Value)}
    (distinct : (pairs.map Prod.fst).Nodup) (pair : Key × Value) :
    pairs.lookup pair.1 = some pair.2 ↔ pair ∈ pairs := by
  induction pairs with
  | nil => simp
  | cons first pairs ih =>
      obtain ⟨absent, distinct⟩ := List.nodup_cons.mp distinct
      by_cases same : pair.1 = first.1
      · have found : List.lookup pair.1 (first :: pairs) = some first.2 := by
          rw [List.lookup_cons, same, beq_self_eq_true]
        rw [found, Option.some.injEq, List.mem_cons]
        constructor
        · intro equal
          exact Or.inl (Prod.ext same equal.symm)
        · rintro (rfl | later)
          · rfl
          · exact absurd (same ▸ List.mem_map_of_mem later) absent
      · have passed : List.lookup pair.1 (first :: pairs) = pairs.lookup pair.1 := by
          rw [List.lookup_cons, beq_false_of_ne same]
        rw [passed, ih distinct, List.mem_cons]
        exact (or_iff_right fun equal => same (congrArg Prod.fst equal)).symm

/-- What a server that holds the AtomSpace answers. -/
def storedContents (start : Memory sexpr) (table : SpaceId) (noKey : sexpr.Content) :
    Contents sexpr where
  Answers msg reply :=
    (∀ isNode, msg = allText isNode → PrintsList sexpr.Writes reply fun expr atom =>
      InStock start table noKey atom ∧ atom.isNode = isNode ∧ sexpr.Writes expr atom) ∧
    ∀ atom, InStock start table noKey atom → msg = keysAlistText (sexpr.encodeAtom atom) →
      PrintsPairs reply (pairsOf start table atom)
  Lists msg expr atom :=
    InStock start table noKey atom ∧ msg = allText atom.isNode ∧ sexpr.Writes expr atom
  pairs := pairsOf start table

/-- The messages of `loadAtomSpace`. -/
def allTexts : List Str := [allText true, allText false]

theorem mem_allTexts {msg : Str} (member : msg ∈ allTexts) : ∃ isNode, msg = allText isNode := by
  rcases List.mem_cons.mp member with rfl | member
  · exact ⟨true, rfl⟩
  · exact ⟨false, List.mem_singleton.mp member⟩

theorem allText_mem (isNode : Bool) : allText isNode ∈ allTexts := by
  cases isNode
  · exact List.mem_cons_of_mem _ List.mem_cons_self
  · exact List.mem_cons_self

theorem allText_ne_keysAlistText (isNode : Bool) (expr : Str) : allText isNode ≠ keysAlistText expr := by
  intro same
  have char : (allText isNode)[5]? = some 107 := by
    rw [same]
    rfl
  revert char
  cases isNode <;> decide

theorem PrintsList.congr {IsExpr : Str → sexpr.Content → Prop} {reply : Str}
    {Listed Other : Str → sexpr.Content → Prop} (prints : PrintsList IsExpr reply Listed)
    (same : ∀ expr atom, Listed expr atom ↔ Other expr atom) : PrintsList IsExpr reply Other := by
  obtain ⟨elements, gap, trail, gapBlank, trailBlank, good, listed, printed⟩ := prints
  exact ⟨elements, gap, trail, gapBlank, trailBlank, good,
    fun expr atom => (same expr atom).symm.trans (listed expr atom), printed⟩

theorem storedContents_serves (keyed : start.Keyed table) :
    (storedContents start table noKey).Serves sexpr.Writes allTexts where
  lists msg member reply answers := by
    obtain ⟨isNode, rfl⟩ := mem_allTexts member
    apply (answers.1 isNode rfl).congr
    intro expr atom
    constructor
    · rintro ⟨inside, rfl, writes⟩
      exact ⟨inside, rfl, writes⟩
    · rintro ⟨inside, same, writes⟩
      exact ⟨inside, (allText_injective same).symm, writes⟩
  exprs _ _ _ _ listed := listed.2.2
  alists msg _ expr atom listed reply answers := by
    obtain ⟨inside, -, rfl⟩ := listed
    exact answers.2 atom inside rfl
  distinct := distinct_pairsOf keyed

/-- Nothing is found below an AtomSpace that is built on none. -/
theorem alikeLists_of_bare (bare : start.bases loaded = []) (contents : Contents sexpr)
    (messages : List Str) : AlikeLists contents start loaded messages := by
  intro msg _ expr atom _ base other located
  have below := Memory.mem_bases_of_locate located other
  rw [bare] at below
  exact absurd below List.not_mem_nil

theorem handleOf_of_bare (bare : start.bases loaded = []) (atom : sexpr.Content) :
    start.handleOf loaded atom = ⟨atom, .space loaded⟩ := by
  have lives : (start.handleOf loaded atom).getAtomSpace =
      some ((start.locate loaded atom).getD loaded) := rfl
  unfold Memory.handleOf
  by_cases same : (start.locate loaded atom).getD loaded = loaded
  · rw [same]
  · have below := Memory.mem_bases_of_locate (locate_of_home lives same) same
    rw [bare] at below
    exact absurd below List.not_mem_nil

theorem mem_handles (frameless : start.bases table = []) {h : Handle sexpr} :
    h ∈ start.handles table ↔ ∃ atom ∈ start.atoms table, h = ⟨atom, .space table⟩ := by
  have located : ∀ atom ∈ start.atoms table, start.locate table atom = some table := by
    intro atom member
    unfold Memory.locate
    rw [List.find?_cons, decide_eq_true member]
  unfold Memory.handles
  rw [frameless, List.flatMap_singleton, List.mem_map]
  constructor
  · rintro ⟨atom, inside, rfl⟩
    exact ⟨atom, List.mem_of_mem_filter inside, rfl⟩
  · rintro ⟨atom, member, rfl⟩
    exact ⟨atom, List.mem_filter.mpr ⟨member, decide_eq_true (located atom member)⟩, rfl⟩

theorem mem_pairsOf (frameless : start.bases table = [])
    (keyed : start.Keyed table) {atom : sexpr.Content}
    (pair : sexpr.Content × sexpr.Value) : pair ∈ pairsOf start table atom ↔
      ∃ h ∈ start.handles table, h.atom = atom ∧ start.getValue h pair.1 = some pair.2 := by
  unfold pairsOf Memory.getValue
  constructor
  · intro inside
    split at inside
    · next member =>
        have here := List.contains_iff_mem.mp member
        refine ⟨_, (mem_handles frameless).mpr ⟨atom, here, rfl⟩, rfl, ?_⟩
        exact (lookup_eq_some_iff_mem (keyed atom here) pair).mpr inside
    · exact absurd inside List.not_mem_nil
  · rintro ⟨h, member, rfl, found⟩
    obtain ⟨atom, inside, rfl⟩ := (mem_handles frameless).mp member
    rw [if_pos (List.contains_iff_mem.mpr inside)]
    exact (lookup_eq_some_iff_mem (keyed atom inside) pair).mp found

/-- A server that holds what was stored answers so. -/
theorem answers_of_described (frameless : start.bases table = [])
    (keyed : start.Keyed table)
    (follows : server.Follows stock noKey start table) {space : server.Space} {texts : List Str}
    (described : (stock space).Described start table noKey texts)
    (all : ∀ h ∈ start.handles table, storeText start h ∈ texts) (msg : Str) :
    (storedContents start table noKey).Answers msg (server.run msg space).2 := by
  constructor
  · rintro isNode rfl
    apply (follows.lists isNode space).2.congr
    intro expr atom
    rw [described.stored all]
  · rintro atom inside rfl
    obtain ⟨pairs, once, listed, prints⟩ :=
      (follows.keys atom space ((described.stored all atom).mpr inside)).2
    refine ⟨pairs, ?_, prints⟩
    have kept : ((pairsOf start table atom).map Prod.fst).Nodup := distinct_pairsOf keyed atom
    apply (List.perm_ext_iff_of_nodup once.of_map kept.of_map).mpr
    intro pair
    rw [listed, described.value, mem_pairsOf frameless keyed]
    constructor
    · rintro ⟨h, member, same, -, found⟩
      exact ⟨h, member, same, found⟩
    · rintro ⟨h, member, same, found⟩
      exact ⟨h, member, same, all h member, found⟩

/-! ## The store -/

/-- Only the Atoms of the AtomSpace are stored, and nothing else happens. -/
def storing (server : Server) (contents : Contents sexpr) (start : Memory sexpr) (table : SpaceId) :
    Duty (cogSetting sexpr server) where
  start := start
  Known _ _ _ _ := True
  Rely state later := state = later
  Asks request := ∃ h ∈ start.handles table, request = .enqueueNoreply (storeText start h)
  May _ _ := True
  Speaks _ := False
  Answers _ := contents.Answers
  Replies _ := contents.Answers
  Post _ _ _ _ := True
  refl _ := rfl
  trans := .trans
  stable _ _ _ := trivial

section Storing

variable {contents : Contents sexpr}

theorem storing_met : (storing server contents start table).Met where
  silent _ _ _ _ _ _ _ := trivial
  handler number client msg data callback reply state asked asks := by
    obtain ⟨h, -, made⟩ := asks
    cases made

theorem keeps_storeAtoms {handles : List (Handle sexpr)} (subset : handles ⊆ start.handles table) :
    (handles.foldr (fun h rest => CogStorage.storeAtom h rest)
      (.barrier (.exit .returned))).Keeps (storing server contents start table) := by
  induction handles with
  | nil => trivial
  | cons h handles ih =>
      have rest := ih fun other member => subset (List.mem_cons_of_mem _ member)
      intro isOpen
      cases isOpen with
      | false => trivial
      | true =>
          rintro _ rfl
          exact ⟨⟨h, subset List.mem_cons_self, rfl⟩, rest⟩

theorem keeps_storeAtomSpace :
    (CogStorage.script (.storeAtomSpace table)).Keeps (storing server contents start table) := by
  intro isOpen
  cases isOpen with
  | false => trivial
  | true =>
      rintro _ rfl
      exact keeps_storeAtoms (List.Subset.refl _)

theorem neverCloses_storeAtomSpace :
    (CogStorage.script (.storeAtomSpace table : CogOp sexpr)).NeverCloses := by
  have stores : ∀ handles : List (Handle sexpr), (handles.foldr
      (fun h rest => CogStorage.storeAtom h rest) (.barrier (.exit .returned))).NeverCloses := by
    intro handles
    induction handles with
    | nil => trivial
    | cons h handles ih =>
        intro isOpen
        cases isOpen with
        | false => trivial
        | true => exact fun _ => ih
  intro isOpen
  cases isOpen with
  | false => trivial
  | true => exact fun memory => stores (memory.handles table)

/-- An open channel, whose calls are numbered, before anything is loaded. -/
def Unloaded (start : Memory sexpr) (s : Config (cogSetting sexpr server)) : Prop :=
  s.Usable ∧ s.locals = start

theorem secures_storeAtoms {Replies : Config (cogSetting sexpr server) → Str → Str → Prop} {texts : List Str}
    {handles : List (Handle sexpr)} {s : Config (cogSetting sexpr server)} (valid : Unloaded start s)
    (made : ∀ text ∈ texts, (∃ h ∈ handles, text = storeText start h) ∨ s.Made 0 text) :
    (handles.foldr (fun h rest => CogStorage.storeAtom h rest)
      (.barrier (.exit .returned))).Secures (Unloaded start) Replies (Config.Waited · 0 texts) s := by
  induction handles generalizing s with
  | nil =>
      intro later number after fenced
      refine ⟨number, fenced.waited valid.1.2 after.1 (Nat.zero_le _) fun text member => ?_⟩
      rcases made text member with ⟨h, none, -⟩ | own
      · exact absurd none List.not_mem_nil
      · exact own
  | cons h handles ih =>
      apply secures_checkOpen fun valid => valid.1.1
      intro opened first reading second later after enqueued
      have now : reading.locals = start := second.2.2
      apply ih after.2
      intro text member
      rcases made text member with ⟨other, inside, rfl⟩ | own
      · rcases List.mem_cons.mp inside with rfl | inside
        · right
          rw [now] at enqueued
          exact enqueued.made (Nat.zero_le _)
        · exact Or.inl ⟨other, inside, rfl⟩
      · exact Or.inr (((own.mono first.1).mono second.1).mono after.1)

theorem secures_storeAtomSpace {Replies : Config (cogSetting sexpr server) → Str → Str → Prop}
    {s : Config (cogSetting sexpr server)} :
    s.SecuresAll (Unloaded start) Replies
      (Config.Waited · 0 ((start.handles table).map (storeText start))) [.storeAtomSpace table] := by
  intro later after
  apply secures_checkOpen fun valid => valid.1.1
  intro opened first reading second
  have now : reading.locals = start := second.2.2
  rw [now]
  apply secures_storeAtoms second.2
  intro text member
  obtain ⟨h, inside, rfl⟩ := List.mem_map.mp member
  exact Or.inl ⟨h, inside, rfl⟩

end Storing

/-- The server holds what it has executed. -/
def Config.Stocked (stock : server.Space → Stock sexpr) (start : Memory sexpr) (table : SpaceId)
    (noKey : sexpr.Content) (s : Config (cogSetting sexpr server)) : Prop :=
  (stock s.space).Described start table noKey (s.executed.map fun entry => entry.value.strToSend)

theorem Config.Stocked.step {s next : Config (cogSetting sexpr server)}
    (frameless : start.bases table = []) (follows : server.Follows stock noKey start table)
    (stocked : s.Stocked stock start table noKey) {action : Action (cogSetting sexpr server)}
    (taken : s.step action = some next)
    (quiet : ∀ sock thread msg rest, s.inbox sock ≠ .synchro thread msg :: rest)
    (serves : ∀ sock entry rest, action = .serve sock → s.inbox sock = .request entry :: rest →
      (∃ h ∈ start.handles table, entry.value.strToSend = storeText start h) ∨
        (∀ h, entry.value.strToSend ≠ storeText start h) ∧
          stock (server.run entry.value.strToSend s.space).1 = stock s.space) :
    next.Stocked stock start table noKey := by
  cases Config.moves_of_step taken with
  | start | edit | exit | connected | read | enqueue | ask | closeConnection | barrier | drain | block
  | finish | answer | take | send | receive | rest | workInsert | workTouch | arrive | release =>
      exact stocked
  | serveSynchro free first => exact absurd first (quiet _ _ _ _)
  | @serve sock entry rest free first =>
      unfold Config.Stocked
      rw [List.map_append]
      rcases serves sock entry rest rfl first with ⟨h, member, own⟩ | ⟨other, same⟩
      · apply stocked.add frameless member own
        intro h inside equal
        have stores := follows.stores h inside s.space
        rw [← equal] at stores
        exact stores
      · have skipped := stocked.skip other
        rw [← same] at skipped
        exact skipped

section Run

variable {thread : ThreadId} {action : Action (cogSetting sexpr server)}
  {s next : Config (cogSetting sexpr server)}

/-- A request that the server executes is one of those that are made. -/
theorem Config.Serving.asked_of_first {duty : Duty (cogSetting sexpr server)}
    (serving : s.Serving duty) {sock : SockId} {entry : Entry (cogSignature sexpr)}
    {rest : List (Wire (cogSignature sexpr))} (first : s.inbox sock = .request entry :: rest) :
    ∃ request, duty.Asks request ∧ entry.value.strToSend = request.text := by
  have synced := serving.regular.synced
  have handed := (synced.wired.request sock entry (by rw [first]; exact List.mem_cons_self)).2
  obtain ⟨counter, request, asks, -, made⟩ :=
    serving.charged.asked synced.census (Or.inr (Or.inr handed))
  exact ⟨request, asks, by rw [made, Request.toMsg_strToSend]⟩

theorem answers_storeText (h : Handle sexpr) (reply : Str) :
    (storedContents start table noKey).Answers (storeText start h) reply :=
  ⟨fun isNode same => absurd same.symm (allText_ne_storeText isNode start h),
    fun _ _ same => absurd same.symm (keysAlistText_ne_storeText _ start h)⟩

theorem storing_dutiful
    (serving : s.Serving (storing server (storedContents start table noKey) start table))
    (from' : action.From thread)
    (starts : ∀ other called, action = .start other called → called = .storeAtomSpace table)
    (taken : s.step action = some next) :
    s.Dutiful (storing server (storedContents start table noKey) start table) action next where
  known _ _ _ _ _ := trivial
  may _ _ _ := trivial
  edits change same := by
    rw [same] at from'
    exact from'.elim
  starts other called same := by
    rw [starts other called same]
    exact keeps_storeAtomSpace
  answers sock wire rest same first := by
    subst same
    cases Config.moves_of_step taken with
    | serveSynchro free other => exact (serving.charged.spoken serving.regular.paired other).elim
    | serve free other =>
        rw [first] at other
        cases other
        obtain ⟨_, ⟨h, -, rfl⟩, text⟩ := serving.asked_of_first first
        rw [Duty.Answered, Wire.text, text]
        exact answers_storeText h _

/-- When `storeAtomSpace` has returned, the barrier has waited for the stores, and nothing else has
happened. -/
theorem stored_exec (frameless : start.bases table = [])
    (follows : server.Follows stock noKey start table) {space : server.Space}
    (nothing : stock space = .empty) {counter : UInt64}
    {actions : List (Action (cogSetting sexpr server))} {final : Config (cogSetting sexpr server)}
    (alone : ∀ action ∈ actions, action.From thread)
    (calls : actions.filterMap (Action.calledBy thread) = [.storeAtomSpace table])
    (run : exec Config.step (Config.initial counter space start) actions = some final)
    (idle : final.caller thread = .idle) :
    final.Serving (storing server (storedContents start table noKey) start table) ∧
      final.StaysOpen ∧ final.Waited 0 ((start.handles table).map (storeText start)) ∧
        final.Stocked stock start table noKey := by
  have initial := Config.serving_initial
    (storing server (storedContents start table noKey) start table) counter space
  have acts : Meets Config.step (fun _ action => Action.From thread action ∧ ∀ other called,
      action = .start other called → called = CogOp.storeAtomSpace table)
        (Config.initial (S := cogSetting sexpr server) counter space start) actions := by
    apply meets_of_forall
    intro action member
    refine ⟨alone action member, fun other called same => ?_⟩
    have listed := Action.From.calls alone (same ▸ member)
    rw [calls] at listed
    exact List.mem_singleton.mp listed
  have preserved : ∀ {s next : Config (cogSetting sexpr server)}
      {action : Action (cogSetting sexpr server)}, (action.From thread ∧ ∀ other called,
        action = .start other called → called = CogOp.storeAtomSpace table) →
      s.Serving (storing server (storedContents start table noKey) start table) →
        s.step action = some next →
          next.Serving (storing server (storedContents start table noKey) start table) :=
    fun condition serving taken => serving.step storing_met
      (fun _ taken => storing_dutiful serving condition.1 condition.2 taken) taken
  have does : Meets Config.step
      (Config.DoesDuty (storing server (storedContents start table noKey) start table))
        (Config.initial counter space start) actions :=
    acts.strengthen _ preserved (fun condition serving _ taken =>
      storing_dutiful serving condition.1 condition.2 taken) initial
  have opens : ∀ other op, .start other op ∈ actions →
      ((cogSetting sexpr server).script op).NeverCloses := by
    intro other op member
    have listed := Action.From.calls alone member
    rw [calls] at listed
    rw [List.mem_singleton.mp listed]
    exact neverCloses_storeAtomSpace
  have valid : ∀ {s : Config (cogSetting sexpr server)}, s.isOpen = true →
      s.Serving (storing server (storedContents start table noKey) start table) →
        Unloaded start s :=
    fun opened serving =>
      ⟨⟨opened, serving.regular.synced.census.ledger⟩, serving.charged.since.symm⟩
  refine ⟨Config.serving_exec storing_met initial does run, ?_, ?_, ?_⟩
  · have opening : Meets Config.step (fun _ action => ∀ other op, action = .start other op →
        ((cogSetting sexpr server).script op).NeverCloses)
          (Config.initial (S := cogSetting sexpr server) counter space start) actions :=
      meets_of_forall fun action member other op same => opens other op (same ▸ member)
    exact opening.invariant Config.StaysOpen (fun starts stays taken => stays.step taken starts)
      (Config.staysOpen_initial (S := cogSetting sexpr server) counter space start) run
  · exact Config.attained_exec storing_met valid (fun grows => Config.Waited.mono grows) initial rfl
      does ((Config.staysOpen_initial (S := cogSetting sexpr server) counter space start).keepsOpen
        opens) secures_storeAtomSpace calls run idle
  · have both := acts.invariant (fun s =>
      s.Serving (storing server (storedContents start table noKey) start table) ∧
        s.Stocked stock start table noKey) ?_ ⟨initial, ?_⟩ run
    · exact both.2
    · intro s action next condition holds taken
      refine ⟨preserved condition holds.1 taken, holds.2.step frameless follows taken ?_ ?_⟩
      · exact fun sock asker msg rest first =>
          (holds.1.charged.spoken holds.1.regular.paired first).elim
      · intro sock entry rest _ first
        obtain ⟨_, ⟨h, member, rfl⟩, text⟩ := holds.1.asked_of_first first
        exact Or.inl ⟨h, member, text⟩
    · have empty : (stock space).Described start table noKey [] := by
        rw [nothing]
        exact .nothing
      exact empty

/-! ## The load -/

/-- The lists of all the Nodes and of all the Links. -/
abbrev restoring (start : Memory sexpr) (table loaded : SpaceId) (noKey : sexpr.Content) :
    Errand sexpr :=
  listErrand (storedContents start table noKey) start loaded allTexts

theorem restoring_proper (brackets : sexpr.Brackets sexpr.Writes)
    (keyed : start.Keyed table) (bare : start.bases loaded = []) :
    (restoring start table loaded noKey).Proper (storedContents start table noKey) sexpr.Writes start
      fun _ => True := by
  have apart : loaded ∉ start.bases loaded := by
    rw [bare]
    exact List.not_mem_nil
  apply listErrand_proper_of_alike brackets apart (storedContents_serves keyed) _
    (alikeLists_of_bare bare _ _)
  intro msg member expr
  obtain ⟨isNode, rfl⟩ := mem_allTexts member
  exact allText_ne_keysAlistText isNode expr

/-- The duty of the errand, while stores may still be on their way to the server. -/
def loading (server : Server) (proper : (restoring start table loaded noKey).Proper
    (storedContents start table noKey) sexpr.Writes start fun _ => True) :
    Duty (cogSetting sexpr server) :=
  (Errand.duty server proper).widen (fun request => (Errand.duty server proper).Asks request ∨
    (storing server (storedContents start table noKey) start table).Asks request) fun _ => False

section Loading

variable (proper : (restoring start table loaded noKey).Proper (storedContents start table noKey)
  sexpr.Writes start fun _ => True)

/-- Nothing is to be brought about for a store. -/
theorem brings_storeText (h : Handle sexpr) (state : Memory sexpr)
    (asked : Request (cogSignature sexpr) → Prop) :
    (restoring start table loaded noKey).Brings (storedContents start table noKey)
      (storeText start h) state asked where
  listed msg member same := by
    obtain ⟨isNode, rfl⟩ := mem_allTexts member
    exact absurd same.symm (allText_ne_storeText isNode start h)
  attached expr _ _ same := absurd same.symm (keysAlistText_ne_storeText expr start h)

theorem loading_met (undoes : sexpr.Undoes) (brackets : sexpr.Brackets sexpr.Writes) :
    (loading server proper).Met := by
  apply (Errand.met proper undoes brackets).widen fun _ => Or.inl
  intro request asks
  rcases asks with own | ⟨h, -, rfl⟩
  · exact Or.inl own
  · exact Or.inr ⟨⟨_, rfl⟩, fun _ => brings_storeText h⟩

theorem keeps_loadAtomSpace :
    (CogStorage.script (.loadAtomSpace loaded)).Keeps (loading server proper) := by
  intro isOpen
  cases isOpen with
  | false => trivial
  | true =>
      exact ⟨Or.inl (Or.inl ⟨_, allText_mem true, loaded, rfl, rfl⟩),
        Or.inl (Or.inl ⟨_, allText_mem false, loaded, rfl, rfl⟩), trivial⟩

/-- The state in which the load begins. -/
structure Filled (server : Server) (start : Memory sexpr) (table : SpaceId) (noKey : sexpr.Content)
    (s : Config (cogSetting sexpr server)) : Prop where
  serving : s.Serving (storing server (storedContents start table noKey) start table)
  waited : s.Waited 0 ((start.handles table).map (storeText start))

/-- The server executes a store, or has executed them all and is asked for what it holds. -/
theorem served_loading {middle : Config (cogSetting sexpr server)}
    (filled : Filled server start table noKey middle) (grows : middle.Grows s)
    (serving : s.Serving (loading server proper)) {sock : SockId} {entry : Entry (cogSignature sexpr)}
    {rest : List (Wire (cogSignature sexpr))} (first : s.inbox sock = .request entry :: rest)
    (taken : s.step (.serve sock) = some next) :
    (∃ h ∈ start.handles table, entry.value.strToSend = storeText start h) ∨
      (∀ h ∈ start.handles table,
        storeText start h ∈ s.executed.map fun entry => entry.value.strToSend) ∧
      ((∃ isNode, entry.value.strToSend = allText isNode) ∨ ∃ atom, InStock start table noKey atom ∧
        entry.value.strToSend = keysAlistText (sexpr.encodeAtom atom)) := by
  obtain ⟨request, asks, text⟩ := serving.asked_of_first first
  rcases asks with load | ⟨h, member, rfl⟩
  · right
    have shape : (∃ isNode, entry.value.strToSend = allText isNode) ∨
        ∃ atom, InStock start table noKey atom ∧
          entry.value.strToSend = keysAlistText (sexpr.encodeAtom atom) := by
      rw [text]
      rcases load with ⟨msg, member, _, _, rfl⟩ | ⟨expr, h, ⟨msg, _, atom, listed, _⟩, rfl⟩
      · exact Or.inl (mem_allTexts member)
      · exact Or.inr ⟨atom, listed.1, by rw [← listed.2.2]; rfl⟩
    refine ⟨fun h member => ?_, shape⟩
    have synced := serving.regular.synced
    have handed := (synced.wired.request sock entry (by rw [first]; exact List.mem_cons_self)).2
    have new : middle.calls.length ≤ entry.tag := by
      apply grows.late_of_text filled.serving.regular.synced.census.ledger synced (Or.inr (Or.inr handed))
      intro call inside same
      obtain ⟨counter, _, ⟨other, -, rfl⟩, -, made⟩ := filled.serving.charged.calls call inside
      rw [made, Request.toMsg_strToSend] at same
      rcases shape with ⟨isNode, equal⟩ | ⟨atom, -, equal⟩
      · exact allText_ne_storeText isNode start other (same.trans equal).symm
      · exact keysAlistText_ne_storeText _ start other (same.trans equal).symm
    obtain ⟨number, waited⟩ := filled.waited
    obtain ⟨_, -, -, ran, executed, -, same⟩ := waited.executed grows synced first taken new _
      (List.mem_map_of_mem member)
    exact List.mem_map.mpr ⟨ran, executed, same⟩
  · exact Or.inl ⟨h, member, text⟩

theorem loading_dutiful (frameless : start.bases table = [])
    (keyed : start.Keyed table)
    (follows : server.Follows stock noKey start table) {middle : Config (cogSetting sexpr server)}
    (filled : Filled server start table noKey middle) (grows : middle.Grows s)
    (serving : s.Serving (loading server proper)) (stocked : s.Stocked stock start table noKey)
    (from' : action.From thread)
    (starts : ∀ other called, action = .start other called → called = .loadAtomSpace loaded)
    (taken : s.step action = some next) : s.Dutiful (loading server proper) action next where
  known _ _ _ _ _ := trivial
  may _ _ _ := trivial
  edits change same := by
    rw [same] at from'
    exact from'.elim
  starts other called same := by
    rw [starts other called same]
    exact keeps_loadAtomSpace proper
  answers sock wire rest same first := by
    subst same
    cases Config.moves_of_step taken with
    | serveSynchro free other => exact (serving.charged.spoken serving.regular.paired other).elim
    | serve free other =>
        rw [first] at other
        cases other
        rcases served_loading proper filled grows serving first taken with ⟨h, -, text⟩ | ⟨all, -⟩
        · rw [Duty.Answered, Wire.text, text]
          exact answers_storeText h _
        · exact answers_of_described frameless keyed follows stocked all _

/-- The server still holds what it has executed. -/
theorem stocked_loading (frameless : start.bases table = [])
    (follows : server.Follows stock noKey start table) {middle : Config (cogSetting sexpr server)}
    (filled : Filled server start table noKey middle) (grows : middle.Grows s)
    (serving : s.Serving (loading server proper)) (stocked : s.Stocked stock start table noKey)
    (taken : s.step action = some next) : next.Stocked stock start table noKey := by
  apply stocked.step frameless follows taken
  · exact fun sock asker msg rest first =>
      (serving.charged.spoken serving.regular.paired first).elim
  · intro sock entry rest same first
    rw [same] at taken
    rcases served_loading proper filled grows serving first taken with store | ⟨all, shape⟩
    · exact Or.inl store
    · right
      rcases shape with ⟨isNode, text⟩ | ⟨atom, inside, text⟩
      · rw [text]
        exact ⟨allText_ne_storeText isNode start, (follows.lists isNode s.space).1⟩
      · rw [text]
        exact ⟨keysAlistText_ne_storeText _ start,
          (follows.keys atom s.space ((stocked.stored all atom).mpr inside)).1⟩

end Loading

theorem secures_loadAtomSpace {Replies : Config (cogSetting sexpr server) → Str → Str → Prop} :
    s.SecuresAll Config.Usable Replies (Config.Waited · 0 allTexts)
      [(.loadAtomSpace loaded : CogOp sexpr)] := by
  intro later after
  apply secures_checkOpen And.left
  intro opened first middle second nodes last third links ended number after fenced
  refine ⟨number, fenced.waited third.2.2 after.1 (Nat.zero_le _) fun text member => ?_⟩
  rcases List.mem_cons.mp member with rfl | member
  · exact (nodes.made (Nat.zero_le _)).mono third.1
  · rw [List.mem_singleton.mp member]
    exact links.made (Nat.zero_le _)

theorem neverCloses_loadAtomSpace :
    (CogStorage.script (.loadAtomSpace loaded : CogOp sexpr)).NeverCloses := by
  intro isOpen
  cases isOpen <;> trivial

/-- Once the server is filled, a load is an errand that is fulfilled when it returns. -/
theorem loaded_exec (undoes : sexpr.Undoes) (brackets : sexpr.Brackets sexpr.Writes)
    (frameless : start.bases table = []) (keyed : start.Keyed table)
    (follows : server.Follows stock noKey start table) (bare : start.bases loaded = [])
    {middle : Config (cogSetting sexpr server)} (filled : Filled server start table noKey middle)
    (stocked : middle.Stocked stock start table noKey) (stays : middle.StaysOpen)
    (idle : ∀ other, middle.caller other = .idle)
    {actions : List (Action (cogSetting sexpr server))} {final : Config (cogSetting sexpr server)}
    (alone : ∀ action ∈ actions, action.From thread)
    (calls : actions.filterMap (Action.calledBy thread) = [.loadAtomSpace loaded])
    (run : exec Config.step middle actions = some final) (done : final.caller thread = .idle) :
    final.locals.bases = start.bases ∧
      (restoring start table loaded noKey).Fulfilled (storedContents start table noKey)
        final.locals := by
  have proper : (restoring start table loaded noKey).Proper (storedContents start table noKey)
      sexpr.Writes start fun _ => True := restoring_proper brackets keyed bare
  have met : (loading server proper).Met := loading_met proper undoes brackets
  have initial : middle.Serving (loading server proper) := by
    apply filled.serving.takeUp idle
    · rw [← filled.serving.charged.since]
      exact .refl _ start
    · intro wire reply answered
      cases wire <;> exact answered
    · rintro request ⟨h, member, rfl⟩
      exact ⟨Or.inr ⟨h, member, rfl⟩, fun _ => trivial, ⟨_, rfl⟩, fun _ => brings_storeText h⟩
  have acts : Meets Config.step (fun _ action => Action.From thread action ∧ ∀ other called,
      action = .start other called → called = CogOp.loadAtomSpace loaded) middle actions := by
    apply meets_of_forall
    intro action member
    refine ⟨alone action member, fun other called same => ?_⟩
    have listed := Action.From.calls alone (same ▸ member)
    rw [calls] at listed
    exact List.mem_singleton.mp listed
  have does : Meets Config.step (Config.DoesDuty (loading server proper)) middle actions := by
    refine acts.strengthen (fun s => s.Serving (loading server proper) ∧ middle.Grows s ∧
      s.Stocked stock start table noKey) ?_ ?_ ⟨initial, .refl middle, stocked⟩
    · intro s action next condition holds taken
      obtain ⟨serving, grows, stocked⟩ := holds
      refine ⟨serving.step met (fun _ taken => ?_) taken,
        grows.trans (Config.grows_step serving.regular.owned taken),
        stocked_loading proper frameless follows filled grows serving stocked taken⟩
      exact loading_dutiful proper frameless keyed follows filled grows serving stocked condition.1
        condition.2 taken
    · intro s action condition holds next taken
      exact loading_dutiful proper frameless keyed follows filled holds.2.1 holds.1 holds.2.2
        condition.1 condition.2 taken
  have valid : ∀ {s : Config (cogSetting sexpr server)}, s.isOpen = true →
      s.Serving (loading server proper) → s.Usable :=
    fun opened serving => ⟨opened, serving.regular.synced.census.ledger⟩
  have opens : ∀ other op, .start other op ∈ actions →
      ((cogSetting sexpr server).script op).NeverCloses := by
    intro other op member
    have listed := Action.From.calls alone member
    rw [calls] at listed
    rw [List.mem_singleton.mp listed]
    exact neverCloses_loadAtomSpace
  have waited := Config.attained_exec met valid (fun grows => Config.Waited.mono grows) initial
    (idle thread) does (stays.keepsOpen opens) secures_loadAtomSpace calls run done
  have serving := Config.serving_exec met initial does run
  refine ⟨serving.charged.since.grows.bases, ?_⟩
  apply Errand.fulfilled proper serving waited fun msg member => member
  intro expr h target
  obtain ⟨msg, member, atom, listed, -⟩ := target
  exact Or.inr ⟨msg, member, atom, listed⟩

end Run

/-! ## One Atom is stored and loaded -/

section One

def savedAtom : spaced.Content := .node .concept (bytes "a")

def savedPair : spaced.Content × spaced.Value := (.node .predicate (bytes "k"), .string (bytes "v"))

/-- An Atom with a value in the first AtomSpace. -/
def savedAtoms : Memory spaced :=
  ((Memory.empty ()).insertAtom 0 savedAtom).setValue ⟨savedAtom, .space 0⟩ savedPair.1
    (some savedPair.2)

/-- A server that is asked for nothing else. -/
def savingServer : Server where
  Space := Bool
  run msg space :=
    if msg = storeText savedAtoms ⟨savedAtom, .space 0⟩ then (true, [])
    else if msg = allText true then
      (space, if space then bytes "((Concept \"a\")(Predicate \"k\"))\n" else bytes "()\n")
    else if msg = keysAlistText (spaced.encodeAtom savedAtom) then
      (space, bytes "(((Predicate \"k\") . (StringValue \"v\")))\n")
    else (space, bytes "()\n")

/-- Whether the Atom has been stored. -/
def savedStock (space : Bool) : Stock spaced where
  Has atom := space = true ∧ (atom = savedAtom ∨ atom = savedPair.1)
  value atom key :=
    if space = true ∧ atom = savedAtom ∧ key = savedPair.1 then some savedPair.2 else none

/-- The key of which no value is taken away here. -/
def savedNoKey : spaced.Content := .node .predicate (bytes "*-TruthValueKey-*")

theorem savedAtoms_handles : savedAtoms.handles 0 = [⟨savedAtom, .space 0⟩] := by
  decide +kernel

theorem savedStock_store (space : Bool) :
    savedStock true = (savedStock space).store savedNoKey
      (savedAtoms.values ⟨savedAtom, .space 0⟩) savedAtom := by
  have values : savedAtoms.values ⟨savedAtom, .space 0⟩ = [savedPair] := rfl
  have parts : savedAtom.parts ++ [savedPair].flatMap (pieces savedAtom) =
      [savedAtom, savedPair.1, savedAtom] := by decide +kernel
  rw [values]
  change savedStock true = (savedStock space).setValues savedAtom [savedPair]
  unfold savedStock Stock.setValues
  rw [parts]
  congr 1
  · funext atom
    simp only [true_and, List.mem_cons, List.not_mem_nil, or_false, eq_iff_iff]
    tauto
  · funext atom key
    by_cases same : atom = savedAtom
    · by_cases own : key = savedPair.1
      · have found : [savedPair].lookup savedPair.1 = some savedPair.2 := by
          rw [List.lookup_cons, beq_self_eq_true]
        simp [same, own, found]
      · have absent : [savedPair].lookup key = none := by
          rw [List.lookup_cons, beq_false_of_ne own, List.lookup_nil]
        simp [same, own, absent]
    · simp [same]

/-- A list of Atoms without blanks in between. -/
def plainList (atoms : List spaced.Content) : Str :=
  listText (atoms.map fun atom => ⟨[], spaced.encodeAtom atom, atom⟩) [] (bytes "\n")

theorem prints_plainList (atoms : List spaced.Content) :
    PrintsList spaced.Writes (plainList atoms) fun expr atom => atom ∈ atoms ∧ spaced.Writes expr atom := by
  refine ⟨_, [], bytes "\n", by decide, by decide, ?_, ?_, rfl⟩
  · intro element member
    obtain ⟨atom, -, rfl⟩ := List.mem_map.mp member
    have none : Blank [] := by decide
    exact ⟨none, rfl⟩
  · intro expr atom
    constructor
    · rintro ⟨member, rfl⟩
      exact ⟨[], List.mem_map_of_mem member⟩
    · rintro ⟨before, member⟩
      obtain ⟨other, inside, same⟩ := List.mem_map.mp member
      cases same
      exact ⟨inside, rfl⟩

theorem savingServer_follows :
    savingServer.Follows savedStock savedNoKey savedAtoms 0 where
  stores h member space := by
    rw [savedAtoms_handles, List.mem_singleton] at member
    subst member
    exact savedStock_store space
  lists isNode space := by
    have empty : plainList [] = bytes "()\n" := by decide +kernel
    have full : plainList [savedAtom, savedPair.1] =
        bytes "((Concept \"a\")(Predicate \"k\"))\n" := by decide +kernel
    have nothing := prints_plainList []
    have all := prints_plainList [savedAtom, savedPair.1]
    rw [empty] at nothing
    rw [full] at all
    cases isNode with
    | false =>
        refine ⟨rfl, nothing.congr fun expr atom => ?_⟩
        constructor
        · rintro ⟨none, -⟩
          exact absurd none List.not_mem_nil
        · rintro ⟨⟨-, rfl | rfl⟩, isLink, -⟩ <;> cases isLink
    | true =>
        cases space with
        | false =>
            refine ⟨rfl, nothing.congr fun expr atom => ?_⟩
            constructor
            · rintro ⟨none, -⟩
              exact absurd none List.not_mem_nil
            · rintro ⟨⟨none, -⟩, -⟩
              cases none
        | true =>
            refine ⟨rfl, all.congr fun expr atom => ?_⟩
            constructor
            · rintro ⟨member, writes⟩
              simp only [List.mem_cons, List.not_mem_nil, or_false] at member
              refine ⟨⟨rfl, member⟩, ?_, writes⟩
              rcases member with rfl | rfl <;> rfl
            · rintro ⟨⟨-, member⟩, -, writes⟩
              exact ⟨by simpa using member, writes⟩
  keys atom space has := by
    obtain ⟨rfl, rfl | rfl⟩ := has
    · refine ⟨rfl, [savedPair], List.nodup_singleton _, fun pair => ?_, [], [([], savedPair)], [],
        bytes "\n", by decide, by decide, by decide, by decide, rfl, by decide +kernel⟩
      simp only [List.mem_singleton, savedStock, true_and]
      split
      · next same =>
          rw [Option.some.injEq]
          exact ⟨fun equal => equal ▸ rfl, fun equal => Prod.ext same equal.symm⟩
      · next other =>
          constructor
          · exact fun equal => absurd (congrArg Prod.fst equal) other
          · intro found
            cases found
    · refine ⟨rfl, [], List.nodup_nil, fun pair => ?_, [], [], [], bytes "\n", by decide, by decide,
        by decide, by decide, rfl, by decide +kernel⟩
      have apart : savedPair.1 ≠ savedAtom := by decide +kernel
      simp [savedStock, apart]

/-- `storeAtomSpace` and `loadAtomSpace`: worker 0 sends the store, workers 2 and 3 ask for the lists,
and the server serves worker 3 first. -/
def savingRun : List (Action (cogSetting spaced savingServer)) :=
  [.start 0 (.storeAtomSpace 0), .advance 0, .advance 0, .advance 0, .advance 0, .advance 0,
    .barrier 0 7, .take 0 0, .send 0, .drain 0, .block 0 0, .block 1 0, .block 2 0, .block 3 0,
    .finish 0, .advance 0, .start 0 (.loadAtomSpace 1), .advance 0, .advance 0, .advance 0,
    .barrier 0 8, .take 2 1, .take 3 2, .send 2, .send 3, .arrive (.worker 1), .arrive (.worker 2),
    .arrive (.worker 3), .serve (.worker 0), .arrive (.worker 0),
    .release 7 [.worker 0, .worker 1, .worker 2, .worker 3], .serve (.worker 3), .serve (.worker 2),
    .receive 3, .work 3, .receive 2, .work 2, .work 2, .work 2, .work 2, .work 2, .take 0 3,
    .take 1 4, .send 0, .send 1, .serve (.worker 0), .serve (.worker 1), .receive 0, .receive 1,
    .work 0, .work 0, .work 0, .work 0, .work 0, .work 1, .drain 0, .block 0 1, .block 1 1,
    .block 2 1, .block 3 1, .finish 0, .advance 0]

end One

end AtomSpaceCog
