import AtomSpaceCog.Decoding.Walk

/-! # Fetching without a queue

An operation of a `CogSimpleStorage` by itself, against a server that answers each message:
where it ends (`Prog.Ends`), and what `decode_atom_list` does on the way.
-/

namespace AtomSpaceCog.Simple

variable {Local : Type}

/-- Carry out a program on an open connection, with the reply to each message; none where it
throws or never returns. -/
def Prog.run (reply : Str → Str) : Prog Local → Local → Str → Option Local
  | .exit _, state, _ => some state
  | .touch change next, state, latest => (next state).run reply (change state) latest
  | .connected next, state, latest => (next true).run reply state latest
  | .lock next, state, latest => next.run reply state latest
  | .unlock next, state, latest => next.run reply state latest
  | .send msg next, state, _ => next.run reply state msg
  | .recv next, state, latest => (next (reply latest)).run reply state latest
  | .closeSocket next, state, latest => next.run reply state latest
  | .clearSocket next, state, latest => next.run reply state latest
  | .stuck, _, _ => none

/-- Whichever of its answers each message gets, the program ends, and well. -/
def Prog.Ends (Answers : Str → Str → Prop) (Goal : Local → Prop) :
    Prog Local → Local → Str → Prop
  | .exit _, state, _ => Goal state
  | .touch change next, state, latest => (next state).Ends Answers Goal (change state) latest
  | .connected next, state, latest => (next true).Ends Answers Goal state latest
  | .lock next, state, latest => next.Ends Answers Goal state latest
  | .unlock next, state, latest => next.Ends Answers Goal state latest
  | .send msg next, state, _ => next.Ends Answers Goal state msg
  | .recv next, state, latest =>
      ∀ reply, Answers latest reply → (next reply).Ends Answers Goal state latest
  | .closeSocket next, state, latest => next.Ends Answers Goal state latest
  | .clearSocket next, state, latest => next.Ends Answers Goal state latest
  | .stuck, _, _ => False

theorem Prog.Ends.run {Answers : Str → Str → Prop} {Goal : Local → Prop} {reply : Str → Str}
    (answers : ∀ msg, Answers msg (reply msg)) {prog : Prog Local} {state : Local} {latest : Str}
    (ends : prog.Ends Answers Goal state latest) :
    ∃ final, prog.run reply state latest = some final ∧ Goal final := by
  induction prog generalizing state latest with
  | exit how => exact ⟨state, rfl, ends⟩
  | touch change next ih => exact ih state ends
  | connected next ih => exact ih true ends
  | lock next ih | unlock next ih | send msg next ih | closeSocket next ih | clearSocket next ih =>
      exact ih ends
  | recv next ih => exact ih _ (ends _ (answers latest))
  | stuck => exact ends.elim

variable {sexpr : FrameSexpr} {IsExpr : Str → sexpr.Content → Prop} {Answers : Str → Str → Prop}
  {Goal : Node sexpr → Prop}

/-- After the pairs of a reply were attached, the operation goes on. -/
theorem ends_attachAll {space : Option SpaceId} {h : Handle sexpr.toSexpr}
    {pairs : List (sexpr.Content × Option sexpr.Value)} {node : Node sexpr}
    {next : SimpleProg sexpr} {latest : Str}
    (rest : next.Ends Answers Goal
      { node with memory := pairs.foldl (attachTo space h) node.memory } latest) :
    (decode next (attachAll space h pairs .done)).Ends Answers Goal node latest := by
  induction pairs generalizing node with
  | nil => exact rest
  | cons pair pairs ih =>
      have later := @ih { node with memory := attachTo space h node.memory pair } rest
      cases space with
      | none => exact later
      | some space => exact later

section Walk

variable {table : SpaceId} {start : Memory sexpr.toSexpr}
  {Keeps : Memory sexpr.toSexpr → Memory sexpr.toSexpr → Prop}
  {Done : Element sexpr.toSexpr → Memory sexpr.toSexpr → Prop}

/-- What the visit of an element keeps, and what it brings about, whichever reply is given. -/
structure Visits (Answers : Str → Str → Prop) (table : SpaceId) (start : Memory sexpr.toSexpr)
    (Keeps : Memory sexpr.toSexpr → Memory sexpr.toSexpr → Prop)
    (Done : Element sexpr.toSexpr → Memory sexpr.toSexpr → Prop)
    (element : Element sexpr.toSexpr) : Prop where
  homeless : ∀ home, element.Home home → home = none
  visit : ∀ reply, Answers (keysAlistText element.expr) reply → ∃ pairs,
    @Decodes sexpr.toSexpr reply pairs ∧ ∀ fidMap memory, Keeps start memory →
      Keeps memory (visited table table fidMap element.atom pairs memory) ∧
        Done element (visited table table fidMap element.atom pairs memory)

/-- What is kept composes, and what was brought about stays. -/
structure Lasting (Keeps : Memory sexpr.toSexpr → Memory sexpr.toSexpr → Prop)
    (Done : Element sexpr.toSexpr → Memory sexpr.toSexpr → Prop) : Prop where
  refl : ∀ memory, Keeps memory memory
  trans : ∀ {memory middle later}, Keeps memory middle → Keeps middle later → Keeps memory later
  stable : ∀ {element memory later}, Keeps memory later → Done element memory → Done element later

/-- The loop of `CogSimpleStorage::decode_atom_list`, with the bounds of what is left of the
list, visits the elements that are left. -/
theorem ends_atomListLoop (brackets : sexpr.Brackets IsExpr) (lasting : Lasting Keeps Done)
    {gap : Str} (blank : Blank gap) (back : Str) (next : SimpleProg sexpr)
    (elements : List (Element sexpr.toSexpr)) (good : ∀ element ∈ elements, element.Good IsExpr)
    (visits : ∀ element ∈ elements, Visits Answers table start Keeps Done element) (front : Str)
    (fuel : Nat) (enough : elements.length < fuel) (node : Node sexpr) (latest : Str)
    (since : Keeps start node.memory)
    (rest : ∀ final : Node sexpr, Keeps node.memory final.memory →
      (∀ element ∈ elements, Done element final.memory) →
        ∀ latest, next.Ends Answers Goal final latest) :
    (CogSimpleStorage.atomListLoop table (front ++ elementsText elements ++ gap ++ back)
      (front ++ elementsText elements ++ gap).length next fuel front.length
      (front ++ elementsText elements ++ gap).length).Ends Answers Goal node latest := by
  induction elements generalizing front fuel node latest with
  | nil =>
      obtain ⟨fuel, rfl⟩ : ∃ rest, fuel = rest + 1 := ⟨fuel - 1, by omega⟩
      obtain ⟨pcnt, ends⟩ := brackets.blank front back blank
      simp only [elementsText, List.flatMap_nil, List.append_nil, CogSimpleStorage.atomListLoop,
        ends, if_true]
      apply rest node (lasting.refl node.memory)
      intro element member
      exact absurd member List.not_mem_nil
  | cons element elements ih =>
      obtain ⟨fuel, rfl⟩ : ∃ rest, fuel = rest + 1 := ⟨fuel - 1, by omega⟩
      obtain ⟨l, r, bounds, different, behind, part, decodes⟩ :=
        brackets.bounds (good element List.mem_cons_self) front (elementsText elements ++ gap) back
      obtain ⟨later, decodes⟩ := decodes node.memory.fidMap
      obtain ⟨homeless, visit⟩ := visits element List.mem_cons_self
      have nowhere := homeless _ ⟨node.memory.fidMap, _, l, r, part, rfl⟩
      have handled : CogSimpleStorage.addDecoded table (front ++ (element.gap ++ element.expr) ++
          (elementsText elements ++ gap) ++ back) l r node =
            some (({ node.memory with fidMap := later }.insertAtom table element.atom).handleOf
              table element.atom, { node with
                memory := { node.memory with fidMap := later }.insertAtom table element.atom }) := by
        simp only [CogSimpleStorage.addDecoded, decodes, nowhere, Option.getD_none]
      have text : front ++ elementsText (element :: elements) ++ gap =
          front ++ (element.gap ++ element.expr) ++ (elementsText elements ++ gap) := by
        simp [elementsText]
      simp only [← List.append_assoc] at bounds part handled text behind
      rw [text, CogSimpleStorage.atomListLoop, bounds]
      simp only [different, if_false, Int.lt_irrefl, Prog.Ends, handled, Option.map_some,
        Option.getD_some, part]
      intro reply answers
      obtain ⟨pairs, decoded, keeps⟩ := visit reply answers
      obtain ⟨kept, done⟩ := keeps later node.memory since
      rw [decoded, behind]
      apply ends_attachAll
      have walked := ih (fun other member => good other (List.mem_cons_of_mem _ member))
        (fun other member => visits other (List.mem_cons_of_mem _ member))
        (front ++ (element.gap ++ element.expr)) fuel (Nat.lt_of_succ_lt_succ enough)
        { node with memory := visited table table later element.atom pairs node.memory }
        (keysAlistText element.expr) (lasting.trans since kept)
      simp only [← List.append_assoc] at walked
      apply walked
      intro final goes all
      apply rest final (lasting.trans kept goes)
      intro other member
      rcases List.mem_cons.mp member with rfl | member
      · exact lasting.stable goes done
      · exact all other member

/-- `CogSimpleStorage::decode_atom_list` on the reply to a message. -/
theorem ends_sendAtomList (brackets : sexpr.Brackets IsExpr) (lasting : Lasting Keeps Done)
    (msg : Str) (next : SimpleProg sexpr) (node : Node sexpr) (latest : Str)
    (since : Keeps start node.memory)
    (listed : ∀ reply, Answers msg reply → ∃ elements gap trail, Blank gap ∧ Blank trail ∧
      (∀ element ∈ elements, element.Good IsExpr) ∧
      (∀ element ∈ elements, Visits Answers table start Keeps Done element) ∧
      reply = listText elements gap trail ∧
      ∀ final : Node sexpr, Keeps node.memory final.memory →
        (∀ element ∈ elements, Done element final.memory) →
          ∀ latest, next.Ends Answers Goal final latest) :
    (CogSimpleStorage.sendAtomList msg table next).Ends Answers Goal node latest := by
  intro reply answers
  obtain ⟨elements, gap, trail, gapBlank, trailBlank, good, visits, rfl, rest⟩ := listed reply answers
  obtain ⟨first, last⟩ := listText_bounds elements gap trailBlank
  have enough := length_le_elementsText brackets elements good
  by_cases empty : 1 = ([40] ++ elementsText elements ++ gap).length
  · obtain rfl : elements = [] := by
      simp only [List.length_append, List.length_singleton] at empty
      exact List.length_eq_zero_iff.mp (by omega)
    simp only [first, last, if_pos empty]
    apply rest node (lasting.refl node.memory)
    intro element member
    exact absurd member List.not_mem_nil
  · simp only [first, last, if_neg empty]
    apply ends_atomListLoop brackets lasting gapBlank (41 :: trail) next elements good visits [40]
      ((listText elements gap trail).length + 1) _ node msg since rest
    simp only [listText, List.length_append, List.length_cons]
    omega

end Walk

end AtomSpaceCog.Simple
