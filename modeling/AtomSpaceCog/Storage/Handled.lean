import AtomSpaceCog.Storage.Operations
import AtomSpaceCog.Channel.Duties
import AtomSpaceCog.Decoding.Lists
import AtomSpaceCog.Decoding.RoundTrip
import AtomSpaceCog.Sexpr.Gains

/-! # Handlers among others

What the handlers of `CogStorage` bring about when other handlers run in between: the pairs
of an association list are attached, and the Atoms of a list are inserted and their values
asked for. Each lemma leaves to its user what may be relied on.
-/

namespace AtomSpaceCog

variable {sexpr : Sexpr} {server : Server}

/-- The request for the keys and values on an Atom. -/
def keysRequest (expr : Str) (h : Handle sexpr) : Request (cogSignature sexpr) :=
  enqueue sexpr (keysAlistText expr) ⟨none, some h, none⟩ .decodeKvpListConst

/-- The Atoms that are inserted when a pair is attached to an Atom. -/
def pieces (atom : sexpr.Content) (pair : sexpr.Content × sexpr.Value) : List sexpr.Content :=
  pair.1.parts ++ ((sexpr.atomsIn pair.2).flatMap Atom.parts ++ atom.parts)

/-- The pair is on the Atom, and its Atoms are in the AtomSpace. -/
structure Attached (space : Option SpaceId) (h : Handle sexpr) (pair : sexpr.Content × sexpr.Value)
    (memory : Memory sexpr) : Prop where
  value : memory.getValue h pair.1 = some pair.2
  held : ∀ home, space = some home → ∀ atom ∈ pieces h.atom pair, memory.Holds home atom

/-- What is relied on while pairs are attached to an Atom. -/
structure Attaches (duty : Duty (cogSetting sexpr server)) (number : Nat) (text : Str)
    (space : Option SpaceId) (h : Handle sexpr) (pair : sexpr.Content × sexpr.Value) : Prop where
  grows : ∀ {state later}, duty.Rely state later → Memory.Grows state later
  inserts : ∀ {home now atoms}, space = some home → duty.Rely duty.start now →
    atoms ⊆ pieces h.atom pair → duty.Known number text now (Memory.insertAll now home atoms) →
      duty.Rely now (Memory.insertAll now home atoms)
  sets : ∀ {now}, duty.Rely duty.start now → duty.Rely now (Memory.setValue now h pair.1 (some pair.2))
  keeps : ∀ {state later}, duty.Rely state later → Memory.getValue state h pair.1 = some pair.2 →
    Memory.getValue later h pair.1 = some pair.2

section Attach

variable {duty : Duty (cogSetting sexpr server)} {number : Nat} {text : Str} {space : Option SpaceId}
  {h : Handle sexpr} {pair : sexpr.Content × sexpr.Value} {state later : Memory sexpr}
  {asked : Request (cogSignature sexpr) → Prop}

theorem Attached.mono (attaches : Attaches duty number text space h pair) (rely : duty.Rely state later)
    (attached : Attached space h pair state) : Attached space h pair later where
  value := attaches.keeps rely attached.value
  held home same atom member := (attaches.grows rely).holds (attached.held home same atom member)

/-- After a pair was attached, the work goes on. -/
theorem ensures_attach (attaches : Attaches duty number text space h pair) (since : duty.Rely duty.start state)
    {next : CogWork sexpr}
    (rest : ∀ later, duty.Rely state later → Attached space h pair later →
      next.Ensures duty number text later asked) :
    (attach sexpr space h pair.1 (some pair.2) next).Ensures duty number text state asked := by
  cases space with
  | none =>
      intro now goes known
      have sets := attaches.sets (duty.trans since goes)
      refine ⟨sets, rest _ (duty.trans goes sets) ⟨?_, nofun⟩⟩
      exact Memory.getValue_setValue_self now h pair.1 pair.2
  | some home =>
      obtain ⟨key, value⟩ := pair
      intro first goes known
      have keyed := attaches.inserts rfl (duty.trans since goes)
        (List.subset_append_left _ _) known
      have keyHeld := (Memory.insertAll_spec first home key.parts).2.2
      refine ⟨keyed, fun second goes' known' => ?_⟩
      have toSecond := duty.trans (duty.trans goes keyed) goes'
      dsimp only at known' ⊢
      rw [Memory.addAtoms_eq] at known' ⊢
      have added := attaches.inserts rfl (duty.trans since toSecond)
        (List.Subset.trans (List.subset_append_left _ _) (List.subset_append_right _ _)) known'
      have valueHeld :=
        (Memory.insertAll_spec second home ((sexpr.atomsIn value).flatMap Atom.parts)).2.2
      refine ⟨added, fun third goes'' _ => ?_⟩
      have toThird := duty.trans (duty.trans toSecond added) goes''
      have sets := attaches.sets (duty.trans since toThird)
      refine ⟨sets, fun fourth goes''' known'''' => ?_⟩
      have toFourth := duty.trans (duty.trans toThird sets) goes'''
      have owned := attaches.inserts rfl (duty.trans since toFourth)
        (List.Subset.trans (List.subset_append_right _ _) (List.subset_append_right _ _)) known''''
      have atomHeld := (Memory.insertAll_spec fourth home h.atom.parts).2.2
      refine ⟨owned, rest _ (duty.trans toFourth owned) ⟨?_, ?_⟩⟩
      · apply attaches.keeps (duty.trans goes''' owned)
        exact Memory.getValue_setValue_self third h key value
      · intro _ same atom member
        cases same
        rcases List.mem_append.mp member with inside | member
        · exact (attaches.grows (duty.trans goes' (duty.trans added (duty.trans goes''
            (duty.trans sets (duty.trans goes''' owned)))))).holds (keyHeld atom inside)
        · rcases List.mem_append.mp member with inside | inside
          · exact (attaches.grows (duty.trans goes'' (duty.trans sets
              (duty.trans goes''' owned)))).holds (valueHeld atom inside)
          · exact atomHeld atom inside

/-- After the pairs of a list were attached, the work goes on. -/
theorem ensures_attachAll {pairs : List (sexpr.Content × sexpr.Value)}
    (attaches : ∀ pair ∈ pairs, Attaches duty number text space h pair) (since : duty.Rely duty.start state)
    {last : CogWork sexpr}
    (rest : ∀ later, duty.Rely state later → (∀ pair ∈ pairs, Attached space h pair later) →
      last.Ensures duty number text later asked) :
    (attachAll space h (pairs.map fun pair => (pair.1, some pair.2)) last).Ensures duty number text state
      asked := by
  induction pairs generalizing state with
  | nil => exact rest state (duty.refl state) nofun
  | cons pair pairs ih =>
      apply ensures_attach (attaches pair List.mem_cons_self) since
      intro later goes attached
      apply ih (fun other member => attaches other (List.mem_cons_of_mem _ member))
        (duty.trans since goes)
      intro last further others
      apply rest last (duty.trans goes further)
      intro other member
      rcases List.mem_cons.mp member with rfl | member
      · exact attached.mono (attaches _ List.mem_cons_self) further
      · exact others other member

end Attach

/-- What is relied on while the Atoms of a list are inserted. -/
structure Lists (duty : Duty (cogSetting sexpr server)) (number : Nat) (text : Str) (table : SpaceId)
    (element : Element sexpr) : Prop where
  grows : ∀ {state later}, duty.Rely state later → Memory.Grows state later
  inserts : ∀ {now : Memory sexpr} {fidMap}, duty.Rely duty.start now →
    duty.Known number text now ({ now with fidMap := fidMap }.insertAtom table element.atom) →
      duty.Rely now ({ now with fidMap := fidMap }.insertAtom table element.atom)
  asks : ∀ {now : Memory sexpr}, duty.Rely duty.start now → now.Holds table element.atom →
    duty.Asks (keysRequest element.expr (now.handleOf table element.atom))

/-- The Atom is in the AtomSpace, and its values were asked for. -/
structure Listed (duty : Duty (cogSetting sexpr server)) (table : SpaceId) (memory : Memory sexpr)
    (asked : Request (cogSignature sexpr) → Prop) (element : Element sexpr) : Prop where
  held : ∀ part ∈ element.atom.parts, memory.Holds table part
  asked : ∃ h : Handle sexpr, h.atom = element.atom ∧ duty.Asks (keysRequest element.expr h) ∧
    asked (keysRequest element.expr h)

section Lists

variable {duty : Duty (cogSetting sexpr server)} {number : Nat} {text : Str} {table : SpaceId}
  {state later : Memory sexpr} {asked more : Request (cogSignature sexpr) → Prop}
  {IsExpr : Str → sexpr.Content → Prop}

/-- The loop, with the bounds of what is left of the list, handles the elements that are
left. -/
theorem ensures_atomListLoop (brackets : sexpr.Brackets IsExpr) {gap : Str} (blank : Blank gap)
    (back : Str) {elements : List (Element sexpr)} (good : ∀ element ∈ elements, element.Good IsExpr)
    (lists : ∀ element ∈ elements, Lists duty number text table element) (front : Str) (fuel : Nat)
    (enough : elements.length < fuel) (since : duty.Rely duty.start state)
    (post : ∀ later more, duty.Rely state later → (∀ request, asked request → more request) →
      (∀ element ∈ elements, Listed duty table later more element) → duty.Post number text later more) :
    (atomListLoop sexpr table (front ++ elementsText elements ++ gap ++ back)
      (front ++ elementsText elements ++ gap).length fuel front.length
      (front ++ elementsText elements ++ gap).length).Ensures duty number text state asked := by
  induction elements generalizing front fuel state asked with
  | nil =>
      obtain ⟨fuel, rfl⟩ : ∃ rest, fuel = rest + 1 := ⟨fuel - 1, by omega⟩
      obtain ⟨pcnt, ends⟩ := brackets.blank front back blank
      simp only [elementsText, List.flatMap_nil, List.append_nil, atomListLoop, ends, if_true]
      exact post state asked (duty.refl state) (fun _ made => made) (by simp)
  | cons element elements ih =>
      obtain ⟨fuel, rfl⟩ : ∃ rest, fuel = rest + 1 := ⟨fuel - 1, by omega⟩
      have own := lists element List.mem_cons_self
      obtain ⟨l, r, bounds, different, behind, part, decodes⟩ :=
        brackets.bounds (good element List.mem_cons_self) front (elementsText elements ++ gap) back
      have whole : front ++ elementsText (element :: elements) ++ gap =
          front ++ (element.gap ++ element.expr) ++ (elementsText elements ++ gap) := by
        simp [elementsText]
      simp only [← List.append_assoc] at bounds part decodes whole behind
      rw [whole, atomListLoop, bounds]
      simp only [different, if_false, Int.lt_irrefl]
      intro now goes known
      obtain ⟨later, decodes⟩ := decodes now.fidMap
      simp only [addDecoded_of_decodes table decodes, Option.map_some, Option.getD_some, part,
        behind] at known ⊢
      have inserts := own.inserts (duty.trans since goes) known
      have held := (Memory.insertAtom_spec { now with fidMap := later } table element.atom).2.2
      generalize { now with fidMap := later }.insertAtom table element.atom = inserted
        at inserts held
      have reached := duty.trans goes inserts
      have asks := own.asks (duty.trans since reached) (held _ element.atom.self_mem_parts)
      refine ⟨inserts, asks, ?_⟩
      have rest := @ih inserted (fun other => asked other ∨
          other = keysRequest element.expr (inserted.handleOf table element.atom))
        (fun other member => good other (List.mem_cons_of_mem _ member))
        (fun other member => lists other (List.mem_cons_of_mem _ member))
        (front ++ (element.gap ++ element.expr)) fuel (Nat.lt_of_succ_lt_succ enough)
        (duty.trans since reached)
      simp only [← List.append_assoc] at rest
      apply rest
      intro last more further subset others
      apply post last more (duty.trans reached further) fun request made => subset request (Or.inl made)
      intro other member
      rcases List.mem_cons.mp member with rfl | member
      · exact ⟨fun part inside => (own.grows further).holds (held part inside), _, rfl, asks,
          subset _ (Or.inr rfl)⟩
      · exact others other member

/-- `CogStorage::decode_atom_list` inserts the Atoms of a list and asks for the values on
each. -/
theorem ensures_decodeAtomList (brackets : sexpr.Brackets IsExpr) {gap trail : Str}
    (gapBlank : Blank gap) (trailBlank : Blank trail) {elements : List (Element sexpr)}
    (good : ∀ element ∈ elements, element.Good IsExpr)
    (lists : ∀ element ∈ elements, Lists duty number text table element) (since : duty.Rely duty.start state)
    (post : ∀ later more, duty.Rely state later → (∀ request, asked request → more request) →
      (∀ element ∈ elements, Listed duty table later more element) → duty.Post number text later more) :
    (decodeAtomList sexpr (listText elements gap trail) ⟨some table, none, none⟩).Ensures duty number text
      state asked := by
  obtain ⟨first, last⟩ := listText_bounds elements gap trailBlank
  have enough := length_le_elementsText brackets elements good
  by_cases empty : 1 = ([40] ++ elementsText elements ++ gap).length
  · obtain rfl : elements = [] := by
      simp only [List.length_append, List.length_singleton] at empty
      exact List.length_eq_zero_iff.mp (by omega)
    simp only [decodeAtomList, first, last, if_pos empty]
    exact post state asked (duty.refl state) (fun _ made => made) (by simp)
  · have walked := ensures_atomListLoop brackets gapBlank (41 :: trail) good lists [40]
      ((listText elements gap trail).length + 1)
      (by simp only [listText, List.length_append, List.length_cons]; omega) since post
    simp only [decodeAtomList, first, last, if_neg empty]
    exact walked

end Lists

end AtomSpaceCog
