import AtomSpaceCog.Simple.Alone
import AtomSpaceCog.Storage.Restore

/-! # Storing and loading an AtomSpace without a queue

`storeAtomSpace` and then `loadAtomSpace` on one `CogSimpleStorage`. The stores are told to the
server without waiting for it; but it executes them before it is asked, and what it answers
restores the AtomSpace.
-/

namespace AtomSpaceCog.Simple

open Transition CogSimpleStorage

variable {sexpr : FrameSexpr} {server : Server} {start : Memory sexpr.toSexpr} {table loaded : SpaceId}
  {noKey : sexpr.Content} {stock : server.Space → Stock sexpr.toSexpr} {own : Option SpaceId}

/-- The node writes no frames: it is in the AtomSpace that is stored, or in none. -/
def Single (own : Option SpaceId) (table : SpaceId) (node : Node sexpr) : Prop :=
  (own = none ∨ own = some table) ∧ node.multiSpace = false

/-- After the stores, the server holds what they say. -/
theorem perform_storeAtoms (frameless : start.bases table = [])
    (follows : server.Follows stock noKey start table) {node : Node sexpr}
    (single : Single own table node) (same : node.memory = start)
    {handles : List (Handle sexpr.toSexpr)} (subset : handles ⊆ start.handles table)
    (next : SimpleProg sexpr) {space : server.Space} (reply : Str) {texts : List Str}
    (described : (stock space).Described start table noKey texts) :
    ∃ later answer all, (handles.foldr (fun h rest => storeAtom own h rest) next).perform server
        node space reply = next.perform server node later answer ∧
      (stock later).Described start table noKey all ∧ texts ⊆ all ∧
        ∀ h ∈ handles, storeText start h ∈ all := by
  induction handles generalizing space reply texts with
  | nil => exact ⟨space, reply, texts, rfl, described, List.Subset.refl _, fun h member =>
      absurd member List.not_mem_nil⟩
  | cons h handles ih =>
      have member := subset List.mem_cons_self
      obtain ⟨atom, -, rfl⟩ := (mem_handles frameless).mp member
      have within : own = none ∨ (⟨atom, .space table⟩ : Handle sexpr.toSexpr).getAtomSpace = own :=
        single.1.imp id Eq.symm
      rw [List.foldr_cons, perform_storeAtom single.2 within, same]
      have added : (stock (server.run (storeText start ⟨atom, .space table⟩) space).1).Described
          start table noKey (texts ++ [storeText start ⟨atom, .space table⟩]) := by
        apply described.add frameless member rfl
        intro other inside equal
        rw [equal]
        exact follows.stores other inside space
      obtain ⟨later, answer, all, performs, holds, before, after⟩ :=
        ih (fun other inside => subset (List.mem_cons_of_mem _ inside)) _ added
      refine ⟨later, answer, all, performs, holds, fun text inside => ?_, fun other inside => ?_⟩
      · exact before (List.mem_append_left _ inside)
      · rcases List.mem_cons.mp inside with rfl | inside
        · exact before (List.mem_append_right _ (List.mem_singleton.mpr rfl))
        · exact after other inside

/-- What a load from a server that holds the AtomSpace makes of the AtomSpaces. -/
structure Loaded (noKey : sexpr.Content) (start : Memory sexpr.toSexpr) (table loaded : SpaceId)
    (memory : Memory sexpr.toSexpr) : Prop where
  allows : ((listErrand (storedContents start table noKey) start loaded allTexts).change
    (storedContents start table noKey)).Allows start memory
  fetched : ∀ atom, InStock start table noKey atom →
    AtomSpaceCog.Fetched (storedContents start table noKey) start loaded atom memory

theorem perform_loadAtomSpace (undoes : sexpr.Undoes) (brackets : sexpr.Brackets sexpr.Writes)
    (layered : start.Layered) (unframed : ∀ fidMap text l r atom,
      substr text l (r - l + 1) = sexpr.encodeAtom atom → sexpr.homeIn fidMap text l r = none)
    (keyed : start.Keyed table) {space : server.Space}
    (still : ∀ msg, IsQuestion msg → (server.run msg space).1 = space)
    (answers : ∀ msg, (storedContents start table noKey).Answers msg (server.run msg space).2)
    {node : Node sexpr} (same : node.memory = start) (reply : Str) :
    ∃ final, (prog own (.loadAtomSpace loaded)).perform server node space reply = some (final, space) ∧
      Loaded noKey start table loaded final.memory := by
  obtain rfl := same
  have ends : (prog own (.loadAtomSpace loaded)).Ends (storedContents node.memory table noKey).Answers
      (fun final => Loaded noKey node.memory table loaded final.memory) node [] := by
    apply ends_lists brackets undoes layered (storedContents_serves keyed) ?_ (List.Subset.refl allTexts)
      node [] (.refl _ node.memory)
    · intro final allows fetched _
      exact ⟨allows, fun atom inside =>
        fetched (allText atom.isNode) (allText_mem _) (sexpr.encodeAtom atom) atom ⟨inside, rfl, rfl⟩⟩
    · intro msg member expr atom listed fidMap text l r part
      obtain ⟨-, -, writes⟩ := listed
      exact unframed fidMap text l r atom (part.trans writes)
  obtain ⟨final, ran, loads⟩ := ends.run answers
  have fetches : (SimpleOp.loadAtomSpace loaded : SimpleOp sexpr).fetches = true := rfl
  obtain ⟨next, same, asks⟩ := asks_prog own fetches
  refine ⟨final, ?_, loads⟩
  -- The operation begins with a message, and reads no reply to an earlier one.
  have fresh : (prog own (.loadAtomSpace loaded)).perform server node space reply =
      (prog own (.loadAtomSpace loaded)).perform server node space (server.run [] space).2 := rfl
  rw [fresh]
  rw [same] at ran ⊢
  refine (asks.perform still node []).trans ?_
  have went : next.run (fun msg => (server.run msg space).2) node [] = some final := ran
  rw [went]
  rfl

/-- What was stored is loaded: after `storeAtomSpace`, `loadAtomSpace` into an empty AtomSpace
leaves each Atom there with the values that were on it. -/
theorem stored_then_loaded (undoes : sexpr.Undoes) (brackets : sexpr.Brackets sexpr.Writes)
    (layered : start.Layered) (unframed : ∀ fidMap text l r atom,
      substr text l (r - l + 1) = sexpr.encodeAtom atom → sexpr.homeIn fidMap text l r = none)
    (frameless : start.bases table = []) (keyed : start.Keyed table)
    (follows : server.Follows stock noKey start table)
    (still : ∀ msg space, IsQuestion msg → (server.run msg space).1 = space)
    {space : server.Space} (nothing : stock space = .empty) (bare : start.bases loaded = [])
    {node : Node sexpr} (same : node.memory = start) (single : Single own table node)
    {actions : List (Action (simpleClient sexpr own))} {s : State (simpleClient sexpr own) server}
    {thread : ThreadId} (alone : ∀ action ∈ actions, action.OfThread thread)
    (calls : actions.filterMap Action.called = [.storeAtomSpace table, .loadAtomSpace loaded])
    (run : exec State.step (State.initial space node) actions = some s)
    (idle : s.thread thread = .idle) (live : s.sock = .live) :
    ∀ atom ∈ start.atoms table, atom ∈ s.locals.memory.atoms loaded ∧
      ∀ key value, start.getValue ⟨atom, .space table⟩ key = some value →
        s.locals.memory.getValue ⟨atom, .space loaded⟩ key = some value := by
  have performed := performed_of_run run alone idle live
  obtain ⟨later, answer, all, stores, described, -, every⟩ :=
    perform_storeAtoms frameless follows single same (List.Subset.refl (start.handles table))
      (.exit .returned) [] (nothing ▸ Stock.Described.nothing)
  obtain ⟨final, loads, ⟨allows, fetched⟩⟩ : ∃ final, (prog own (.loadAtomSpace loaded)).perform server
      node later [] = some (final, later) ∧ Loaded noKey start table loaded final.memory :=
    perform_loadAtomSpace undoes brackets layered unframed keyed (fun msg => still msg later)
      (answers_of_described frameless keyed follows described every) same []
  have stored : (prog own (.storeAtomSpace table)).perform server node space [] =
      some (node, later) := by
    refine Eq.trans ?_ stores
    rw [← same]
    rfl
  have both : performAll (simpleClient sexpr own) server [.storeAtomSpace table, .loadAtomSpace loaded]
      node space = some (final, later) := by
    change ((prog own (.storeAtomSpace table)).perform server node space []).bind _ = _
    rw [stored, Option.bind_some]
    change ((prog own (.loadAtomSpace loaded)).perform server node later []).bind _ = _
    rw [loads]
    rfl
  rw [calls, both] at performed
  have ended : s.locals = final := (congrArg Prod.fst (Option.some.inj performed)).symm
  rw [ended]
  intro atom member
  have handle : (⟨atom, .space table⟩ : Handle sexpr.toSexpr) ∈ start.handles table :=
    (mem_handles frameless).mpr ⟨atom, member, rfl⟩
  obtain ⟨held, attached⟩ := fetched atom ⟨_, handle, List.mem_append_left _ atom.self_mem_parts⟩
  rw [handleOf_of_bare bare] at attached
  constructor
  · rcases (held atom atom.self_mem_parts).mem_or_below with here | ⟨below, above, -⟩
    · exact here
    · rw [allows.grows.bases, bare] at above
      exact absurd above List.not_mem_nil
  · intro key value found
    have pair : (key, value) ∈ pairsOf start table atom :=
      (mem_pairsOf frameless keyed (key, value)).mpr ⟨_, handle, rfl, found⟩
    exact (attached _ pair).value

section One

theorem char_of_question {msg : Str} (question : IsQuestion msg) : msg[5]? ≠ some 115 := by
  obtain ⟨start, member, rest, rfl⟩ := question
  have all : ∀ start ∈ questions, 5 < start.length ∧ start[5]? ≠ some 115 := by decide
  obtain ⟨long, other⟩ := all start member
  rwa [List.getElem?_append_left long]

theorem savingServer_still (msg : Str) (space : savingServer.Space) (question : IsQuestion msg) :
    (savingServer.run msg space).1 = space := by
  have other := ne_storeText (char_of_question question) savedAtoms ⟨savedAtom, .space 0⟩
  simp only [savingServer, if_neg other]
  split
  · rfl
  · split <;> rfl

/-- The server gets to the store when it is asked for the Nodes. -/
def plainSavingRun : List (Action (simpleClient spacedFrames none)) :=
  let go : Action (simpleClient spacedFrames none) := .advance 0
  [.start 0 (.storeAtomSpace 0), go, go, go, go, go, go, go, .start 0 (.loadAtomSpace 1), go, go,
    .serve, .serve, go, go, go, .serve, go, go, go, go, go, go, go, .serve, go, go, .serve, go, go, go]

/-- The AtomSpace is to be stored. -/
def plainSaving : State (simpleClient spacedFrames none) savingServer :=
  .initial false ⟨savedAtoms, false, []⟩

theorem stored_then_loaded_one :
    ∃ s : State (simpleClient spacedFrames none) savingServer,
      exec State.step plainSaving plainSavingRun = some s ∧
        ∀ atom ∈ savedAtoms.atoms 0, atom ∈ s.locals.memory.atoms 1 ∧
          ∀ key value, savedAtoms.getValue ⟨atom, .space 0⟩ key = some value →
            s.locals.memory.getValue ⟨atom, .space 1⟩ key = some value := by
  have runs : (exec State.step plainSaving plainSavingRun).any
      (fun s => (match s.thread 0 with | .idle => true | _ => false) && decide (s.sock = .live)) =
        true := by decide +kernel
  obtain ⟨s, run, ended⟩ := (Option.any_eq_true _ _).mp runs
  obtain ⟨idle, live⟩ := Bool.and_eq_true_iff.mp ended
  have free : s.thread 0 = .idle := by
    revert idle
    cases s.thread 0 with
    | idle => exact fun _ => rfl
    | running => exact nofun
  have keyed : savedAtoms.Keyed 0 := by
    intro atom member
    have one : savedAtoms.atoms 0 = [savedAtom] := by decide +kernel
    rw [one, List.mem_singleton] at member
    subst member
    exact List.nodup_singleton savedPair.1
  have layered : savedAtoms.Layered :=
    ⟨fun _ _ below => absurd below List.not_mem_nil, fun _ => List.not_mem_nil⟩
  have nothing : savedStock false = .empty := by
    unfold savedStock Stock.empty
    simp
  have alone : ∀ action ∈ plainSavingRun, action.OfThread 0 := by simp [plainSavingRun, Action.OfThread]
  exact ⟨s, run, stored_then_loaded spaced_undoes spacedFrames_brackets layered
    (fun _ _ _ _ _ _ => rfl) rfl keyed savingServer_follows savingServer_still nothing rfl rfl
    ⟨Or.inl rfl, rfl⟩ alone rfl run free (of_decide_eq_true live)⟩

end One

end AtomSpaceCog.Simple
