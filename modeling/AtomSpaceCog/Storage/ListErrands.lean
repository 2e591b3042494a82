import AtomSpaceCog.Storage.Errands
import AtomSpaceCog.Storage.Growing
import AtomSpaceCog.Storage.Attaching
import AtomSpaceCog.Simple.Fetching

/-! # Errands for lists

The operations that fetch lists of Atoms, on either storage node: which change they make up, and
when it is the same one.
-/

namespace AtomSpaceCog

open Transition Simple

/-- What is built on other AtomSpaces is built on what those are built on, and nothing on
itself. -/
structure Memory.Layered {sexpr : Sexpr} (memory : Memory sexpr) : Prop where
  below : ∀ space, ∀ base ∈ memory.bases space, memory.bases base ⊆ memory.bases space
  apart : ∀ space, space ∉ memory.bases space

section

variable {sexpr : Sexpr} {memory : Memory sexpr} {table base : SpaceId}

theorem Memory.mem_bases_of_locate {atom : sexpr.Content}
    (located : memory.locate table atom = some base) (other : base ≠ table) :
    base ∈ memory.bases table :=
  (List.mem_cons.mp (List.mem_of_find?_eq_some located)).resolve_left other

/-- What an AtomSpace below holds, the AtomSpace holds. -/
theorem Memory.Layered.holds (layered : memory.Layered) (below : base ∈ memory.bases table)
    {atom : sexpr.Content} (held : memory.Holds base atom) : memory.Holds table atom := by
  obtain ⟨space, inside, member⟩ := Memory.holds_iff.mp held
  refine Memory.holds_iff.mpr ⟨space, List.mem_cons_of_mem _ ?_, member⟩
  rcases List.mem_cons.mp inside with rfl | inside
  · exact below
  · exact layered.below table base below inside

/-- The other AtomSpaces have gained nothing. -/
def Memory.Small (start : Memory sexpr) (table : SpaceId) (later : Memory sexpr) : Prop :=
  ∀ space ≠ table, ∀ atom ∈ later.atoms space, atom ∈ start.atoms space

/-- Then what an AtomSpace below holds, it held before. -/
theorem Memory.Small.holds {later : Memory sexpr} (small : memory.Small table later)
    (layered : memory.Layered) (bases : later.bases = memory.bases)
    (below : base ∈ memory.bases table) {atom : sexpr.Content} (held : later.Holds base atom) :
    memory.Holds base atom := by
  obtain ⟨space, inside, member⟩ := Memory.holds_iff.mp held
  rw [bases] at inside
  refine Memory.holds_iff.mpr ⟨space, inside, small space ?_ atom member⟩
  rcases List.mem_cons.mp inside with rfl | inside
  · exact fun same => layered.apart table (same ▸ below)
  · exact fun same => layered.apart table (same ▸ layered.below table base below inside)

end

/-- Lists are fetched into an AtomSpace, and the values on their Atoms. -/
def listErrand {sexpr : Sexpr} (contents : Contents sexpr) (start : Memory sexpr) (table : SpaceId)
    (messages : List Str) : Errand sexpr where
  table := some table
  messages := messages
  Targets expr h := ∃ msg ∈ messages, ∃ atom, contents.Lists msg expr atom ∧
    h = start.handleOf table atom

/-- The server answers what it holds, to messages that ask for lists. -/
structure Contents.Serves {sexpr : Sexpr} (contents : Contents sexpr)
    (IsExpr : Str → sexpr.Content → Prop) (messages : List Str) : Prop where
  lists : ∀ msg ∈ messages, ∀ reply, contents.Answers msg reply →
    PrintsList IsExpr reply (contents.Lists msg)
  exprs : ∀ msg ∈ messages, ∀ expr atom, contents.Lists msg expr atom → IsExpr expr atom
  alists : ∀ msg ∈ messages, ∀ expr atom, contents.Lists msg expr atom → ∀ reply,
    contents.Answers (keysAlistText expr) reply → PrintsPairs reply (contents.pairs atom)
  distinct : ∀ atom, ((contents.pairs atom).map Prod.fst).Nodup

/-- None of the messages asks for the values on an Atom. -/
def AsksLists (messages : List Str) : Prop := ∀ msg ∈ messages, ∀ expr, msg ≠ keysAlistText expr

/-- Each listed Atom is in the AtomSpace itself, or whatever comes with its values is held where
it is. -/
def AlikeLists {sexpr : Sexpr} (contents : Contents sexpr) (start : Memory sexpr) (table : SpaceId)
    (messages : List Str) : Prop :=
  ∀ msg ∈ messages, ∀ expr atom, contents.Lists msg expr atom → ∀ base ≠ table,
    start.locate table atom = some base → ∀ pair ∈ contents.pairs atom,
      ∀ part ∈ pieces atom pair, start.Holds base part

section Queue

variable {sexpr : Sexpr} {IsExpr : Str → sexpr.Content → Prop} {contents : Contents sexpr}
  {start : Memory sexpr} {table : SpaceId} {messages : List Str}

/-- A text is an expression of one Atom. -/
theorem Sexpr.Brackets.one (brackets : sexpr.Brackets IsExpr) (fidMap : sexpr.FidMap) {expr : Str}
    {atom other : sexpr.Content} (isExpr : IsExpr expr atom) (also : IsExpr expr other) :
    atom = other := by
  obtain ⟨_, first⟩ := brackets.decodes fidMap [] [] isExpr
  obtain ⟨_, second⟩ := brackets.decodes fidMap [] [] also
  exact congrArg Prod.fst (Option.some.inj (first.symm.trans second))

/-- The handle of an Atom that is elsewhere. -/
theorem locate_of_home {atom : sexpr.Content} {home : SpaceId}
    (lives : (start.handleOf table atom).getAtomSpace = some home) (other : home ≠ table) :
    start.locate table atom = some home := by
  change some ((start.locate table atom).getD table) = some home at lives
  cases located : start.locate table atom with
  | none =>
      rw [located] at lives
      exact absurd (Option.some.inj lives).symm other
  | some found =>
      rw [located] at lives
      exact lives

theorem handleOf_of_allows {change : Change sexpr} {now : Memory sexpr}
    (apart : table ∉ start.bases table) (into : change.table = some table)
    (allows : change.Allows start now) (atom : sexpr.Content) :
    now.handleOf table atom = start.handleOf table atom := by
  unfold Memory.handleOf
  rw [allows.locate into apart]

theorem listErrand_proper (brackets : sexpr.Brackets IsExpr) (apart : table ∉ start.bases table)
    (serves : contents.Serves IsExpr messages) (asks : AsksLists messages)
    {Known : Memory sexpr → Prop}
    (quiet : ∀ expr h, (listErrand contents start table messages).Targets expr h → ∀ home,
      h.getAtomSpace = some home → some table ≠ some home → ∀ now,
        ((listErrand contents start table messages).change contents).Allows start now →
          ∀ pair ∈ contents.pairs h.atom, ∀ atoms ⊆ pieces h.atom pair,
            Known (now.insertAll home atoms) → ∀ atom ∈ atoms, now.Holds home atom) :
    (listErrand contents start table messages).Proper contents IsExpr start Known where
  lists := serves.lists
  alists expr h target reply answers := by
    obtain ⟨msg, member, atom, listed, rfl⟩ := target
    exact serves.alists msg member expr atom listed reply answers
  distinct expr h _ := serves.distinct h.atom
  apart := asks
  one expr h other target also := by
    obtain ⟨msg, member, atom, listed, rfl⟩ := target
    obtain ⟨msg', member', atom', listed', rfl⟩ := also
    rw [brackets.one start.fidMap (serves.exprs msg member expr atom listed)
      (serves.exprs msg' member' expr atom' listed')]
  found msg member expr atom listed table same now allows := by
    refine ⟨msg, member, atom, listed, ?_⟩
    cases same
    exact handleOf_of_allows apart rfl allows atom
  quiet := quiet

/-- Where the Atoms are placed well, nothing is put into other AtomSpaces. -/
theorem listErrand_proper_of_alike (brackets : sexpr.Brackets IsExpr)
    (above : table ∉ start.bases table)
    (serves : contents.Serves IsExpr messages) (asks : AsksLists messages)
    (alike : AlikeLists contents start table messages) :
    (listErrand contents start table messages).Proper contents IsExpr start fun _ => True := by
  apply listErrand_proper brackets above serves asks
  intro expr h target home lives other now allows pair inside atoms subset _ part own
  obtain ⟨msg, member, atom, listed, rfl⟩ := target
  have apart : home ≠ table := fun same => other (congrArg some same).symm
  exact allows.grows.holds (alike msg member expr atom listed home apart
    (locate_of_home lives apart) pair inside part (subset own))

/-- Where nothing was put into other AtomSpaces, all that comes with the values was held. -/
theorem listErrand_proper_of_small (brackets : sexpr.Brackets IsExpr) (layered : start.Layered)
    (serves : contents.Serves IsExpr messages) (asks : AsksLists messages) :
    (listErrand contents start table messages).Proper contents IsExpr start (start.Small table) := by
  apply listErrand_proper brackets (layered.apart table) serves asks
  intro expr h target home lives other now allows pair inside atoms subset small part own
  obtain ⟨msg, member, atom, listed, rfl⟩ := target
  have apart : home ≠ table := fun same => other (congrArg some same).symm
  have below := Memory.mem_bases_of_locate (locate_of_home lives apart) apart
  have inserted := Memory.insertAll_spec now home atoms
  apply allows.grows.holds
  apply small.holds layered (inserted.2.1.bases.trans allows.grows.bases) below
  exact inserted.2.2 part own

/-- Once the errand is fulfilled, all of the change has been made. -/
theorem listErrand_done (layered : start.Layered) (alike : AlikeLists contents start table messages)
    {final : Memory sexpr}
    (allows : ((listErrand contents start table messages).change contents).Allows start final)
    (fulfilled : (listErrand contents start table messages).Fulfilled contents final) :
    ((listErrand contents start table messages).change contents).Done final where
  atoms {space part} same new := by
    cases same
    rcases new with ⟨msg, member, expr, whole, listed, inside⟩ | ⟨expr, h, target, pair, inside, own⟩
    · exact fulfilled.listed msg member expr whole listed table rfl part inside
    · have attached := fulfilled.attached expr h target pair inside
      obtain ⟨msg, member, atom, listed, rfl⟩ := target
      cases lives : (start.handleOf table atom).getAtomSpace with
      | none => cases lives
      | some home =>
          by_cases here : home = table
          · exact here ▸ attached.held home lives part own
          · have located := locate_of_home lives here
            apply allows.grows.holds
            exact layered.holds (Memory.mem_bases_of_locate located here)
              (alike msg member expr atom listed home here located pair inside part own)
  values sets := by
    obtain ⟨⟨expr, target⟩, inside⟩ := sets
    exact (fulfilled.attached expr _ target _ inside).value

/-- When it is fulfilled and nothing was put into other AtomSpaces, the Atoms were placed well. -/
theorem alikeLists_of_small (layered : start.Layered) {final : Memory sexpr}
    (bases : final.bases = start.bases) (small : start.Small table final)
    (fulfilled : (listErrand contents start table messages).Fulfilled contents final) :
    AlikeLists contents start table messages := by
  intro msg member expr atom listed base other located pair inside part own
  apply small.holds layered bases (Memory.mem_bases_of_locate located other)
  have target : (listErrand contents start table messages).Targets expr
      (start.handleOf table atom) := ⟨msg, member, atom, listed, rfl⟩
  apply (fulfilled.attached expr _ target pair inside).held base _ part own
  change some ((start.locate table atom).getD table) = some base
  rw [located]
  rfl

end Queue

section NoQueue

variable {sexpr : FrameSexpr} {IsExpr : Str → sexpr.Content → Prop}
  {contents : Contents sexpr.toSexpr} {start : Memory sexpr.toSexpr} {table : SpaceId}
  {messages : List Str}

/-- No text of a list names a frame. -/
def Frameless (contents : Contents sexpr.toSexpr) (messages : List Str) : Prop :=
  ∀ msg ∈ messages, ∀ expr atom, contents.Lists msg expr atom → ∀ fidMap text l r,
    substr text l (r - l + 1) = expr → sexpr.homeIn fidMap text l r = none

/-- A listed Atom is in the AtomSpace, and its pairs are on it. -/
def Fetched (contents : Contents sexpr.toSexpr) (start : Memory sexpr.toSexpr) (table : SpaceId)
    (atom : sexpr.Content) (memory : Memory sexpr.toSexpr) : Prop :=
  (∀ part ∈ atom.parts, memory.Holds table part) ∧
    ∀ pair ∈ contents.pairs atom,
      Attached (some table) (start.handleOf table atom) pair memory

theorem attaching_of_listed (serves : contents.Serves IsExpr messages) {msg expr : Str}
    {atom : sexpr.Content} (member : msg ∈ messages) (listed : contents.Lists msg expr atom)
    {printed : List (sexpr.Content × sexpr.Value)} (order : printed.Perm (contents.pairs atom)) :
    ((listErrand contents start table messages).change contents).Attaching (some table)
      (start.handleOf table atom) printed where
  fits home same := by
    cases same
    refine ⟨rfl, fun pair inside part own => ?_⟩
    exact Or.inr ⟨expr, _, ⟨msg, member, atom, listed, rfl⟩, pair, order.mem_iff.mp inside, own⟩
  sets pair inside := ⟨⟨expr, msg, member, atom, listed, rfl⟩, order.mem_iff.mp inside⟩
  one pair inside value sets := by
    have equal : (pair.1, value) = pair := List.inj_on_of_nodup_map (serves.distinct atom) sets.2
      (order.mem_iff.mp inside) rfl
    rw [← equal]

theorem lasting_fetched (serves : contents.Serves IsExpr messages) :
    Lasting ((listErrand contents start table messages).change contents).Allows
      fun element memory => (∃ msg ∈ messages, contents.Lists msg element.expr element.atom) ∧
        Fetched contents start table element.atom memory where
  refl := .refl _
  trans := .trans
  stable allows done := by
    obtain ⟨⟨msg, member, listed⟩, held, attached⟩ := done
    refine ⟨⟨msg, member, listed⟩, fun part own => allows.grows.holds (held part own), ?_⟩
    intro pair inside
    exact (attached pair inside).keep (attaching_of_listed serves member listed (.refl _)) inside
      allows

theorem visits_of_listed (undoes : sexpr.Undoes) (layered : start.Layered)
    (serves : contents.Serves IsExpr messages) (frameless : Frameless contents messages) {msg : Str}
    (member : msg ∈ messages) {element : Element sexpr.toSexpr}
    (listed : contents.Lists msg element.expr element.atom) :
    Visits contents.Answers table start
      ((listErrand contents start table messages).change contents).Allows
      (fun element memory => (∃ msg ∈ messages, contents.Lists msg element.expr element.atom) ∧
        Fetched contents start table element.atom memory) element where
  homeless home placed := by
    obtain ⟨fidMap, text, l, r, part, rfl⟩ := placed
    exact frameless msg member element.expr element.atom listed fidMap text l r part
  visit reply answers := by
    obtain ⟨printed, order, prints⟩ :=
      serves.alists msg member element.expr element.atom listed reply answers
    refine ⟨_, prints.decodes undoes, fun fidMap memory since => ?_⟩
    have attaching : ((listErrand contents start table messages).change contents).Attaching
        (some table) (start.handleOf table element.atom) printed :=
      attaching_of_listed serves member listed order
    have named : ((listErrand contents start table messages).change contents).Allows memory
        { memory with fidMap := fidMap } := (Change.Allows.refl _ memory).congr rfl rfl rfl
    have inserts : ((listErrand contents start table messages).change contents).Allows memory
        ({ memory with fidMap := fidMap }.insertAtom table element.atom) := by
      apply named.trans (Change.allows_insertAll _)
      exact fun part own => Or.inl ⟨rfl, Or.inl ⟨msg, member, _, _, listed, own⟩⟩
    have held := (Memory.insertAtom_spec { memory with fidMap := fidMap } table element.atom).2.2
    have handle := handleOf_of_allows (layered.apart table) rfl (since.trans inserts) element.atom
    obtain ⟨attaches, attached⟩ := foldl_attachTo_spec attaching
      ({ memory with fidMap := fidMap }.insertAtom table element.atom)
    simp only [visited, handle]
    refine ⟨inserts.trans attaches, ⟨msg, member, listed⟩, ?_, ?_⟩
    · exact fun part own => attaches.grows.holds (held part own)
    · exact fun pair inside => attached pair (order.mem_iff.mpr inside)

/-- The lists are fetched one after the other. -/
theorem ends_lists (brackets : sexpr.Brackets IsExpr) (undoes : sexpr.Undoes)
    (layered : start.Layered) (serves : contents.Serves IsExpr messages)
    (frameless : Frameless contents messages) {Goal : Node sexpr → Prop} {next : SimpleProg sexpr}
    {rest : List Str} (subset : rest ⊆ messages) (node : Node sexpr) (latest : Str)
    (since : ((listErrand contents start table messages).change contents).Allows start node.memory)
    (goal : ∀ final : Node sexpr,
      ((listErrand contents start table messages).change contents).Allows node.memory final.memory →
        (∀ msg ∈ rest, ∀ expr atom, contents.Lists msg expr atom →
          Fetched contents start table atom final.memory) →
            ∀ latest, next.Ends contents.Answers Goal final latest) :
    (rest.foldr (fun msg next => CogSimpleStorage.sendAtomList msg table next) next).Ends
      contents.Answers Goal node latest := by
  induction rest generalizing node latest with
  | nil =>
      apply goal node (.refl _ node.memory)
      intro msg member
      exact absurd member List.not_mem_nil
  | cons msg rest ih =>
      have member := subset List.mem_cons_self
      apply ends_sendAtomList brackets (lasting_fetched serves) msg _ node latest since
      intro reply answers
      obtain ⟨elements, gap, trail, gapBlank, trailBlank, good, listed, same⟩ :=
        serves.lists msg member reply answers
      refine ⟨elements, gap, trail, gapBlank, trailBlank, good, ?_, same, ?_⟩
      · intro element inside
        apply visits_of_listed undoes layered serves frameless member
        exact (listed _ _).mpr ⟨element.gap, inside⟩
      · intro middle allows done latest
        apply ih (List.subset_of_cons_subset subset) middle latest (since.trans allows)
        intro final goes others
        apply goal final (allows.trans goes)
        intro other inside expr atom own
        rcases List.mem_cons.mp inside with rfl | inside
        · obtain ⟨before, here⟩ := (listed expr atom).mp own
          exact ((lasting_fetched serves).stable goes (done _ here)).2
        · exact others other inside expr atom own

/-- When all lists were fetched, all of the change has been made. -/
theorem done_of_fetched {final : Memory sexpr.toSexpr}
    (fetched : ∀ msg ∈ messages, ∀ expr atom, contents.Lists msg expr atom →
      Fetched contents start table atom final) :
    ((listErrand contents start table messages).change contents).Done final where
  atoms {space part} same new := by
    cases same
    rcases new with ⟨msg, member, expr, whole, listed, inside⟩ | ⟨expr, h, target, pair, inside, own⟩
    · exact (fetched msg member expr whole listed).1 part inside
    · obtain ⟨msg, member, atom, listed, rfl⟩ := target
      exact ((fetched msg member expr atom listed).2 pair inside).held table rfl part own
  values sets := by
    obtain ⟨⟨expr, msg, member, atom, listed, rfl⟩, inside⟩ := sets
    exact ((fetched msg member expr atom listed).2 _ inside).value

end NoQueue

end AtomSpaceCog
