import AtomSpaceCog.Decoding.Effects

/-! # Walking a list reply

The text of a list of Atom expressions with blanks around them, and the walk of
`CogStorage::decode_atom_list` over it. At each round the bounds are those of what is
left of the list, the end being the closing parenthesis.
-/

namespace AtomSpaceCog

/-- The reader of expressions brackets the one that comes next, after blanks, and finds the
end of blanks; what it brackets is decoded. The relation says which texts are expressions
of an Atom. -/
structure Sexpr.Brackets (sexpr : Sexpr) (IsExpr : Str → sexpr.Content → Prop) : Prop where
  balanced : ∀ {expr atom}, IsExpr expr atom → ∃ inner, expr = 40 :: inner ++ [41]
  blank : ∀ front {gap} back, Blank gap → ∃ pcnt,
    sexpr.getNextExpr (front ++ gap ++ back) front.length (front ++ gap).length =
      some (pcnt, (front ++ gap).length, (front ++ gap).length)
  next : ∀ front {gap expr atom} tail back, Blank gap → IsExpr expr atom →
    sexpr.getNextExpr (front ++ gap ++ expr ++ tail ++ back) front.length
        (front ++ gap ++ expr ++ tail).length =
      some (0, (front ++ gap).length, (front ++ gap ++ expr).length - 1)
  decodes : ∀ fidMap front {expr atom} back, IsExpr expr atom → ∃ later,
    sexpr.decodeAtomIn fidMap (front ++ expr ++ back) front.length ((front ++ expr).length - 1) =
      some (atom, later)

variable {sexpr : Sexpr}

/-- An expression with the blanks before it and the Atom that it is decoded to. -/
structure Element (sexpr : Sexpr) where
  gap : Str
  expr : Str
  atom : sexpr.Content

/-- The elements of a list. -/
def elementsText (elements : List (Element sexpr)) : Str :=
  elements.flatMap fun element => element.gap ++ element.expr

/-- `(e1 ... en)`, with texts before the closing parenthesis and after the list. -/
def listText (elements : List (Element sexpr)) (gap trail : Str) : Str :=
  40 :: elementsText elements ++ gap ++ 41 :: trail

/-- Blanks and an expression. -/
structure Element.Good (IsExpr : Str → sexpr.Content → Prop) (element : Element sexpr) : Prop where
  blank : Blank element.gap
  isExpr : IsExpr element.expr element.atom

variable {IsExpr : Str → sexpr.Content → Prop} {element : Element sexpr}

/-- The bounds of an element. -/
theorem Sexpr.Brackets.bounds (brackets : sexpr.Brackets IsExpr) (good : element.Good IsExpr)
    (front tail back : Str) : ∃ l r,
    sexpr.getNextExpr (front ++ (element.gap ++ element.expr) ++ tail ++ back) front.length
        (front ++ (element.gap ++ element.expr) ++ tail).length = some (0, l, r) ∧ l ≠ r ∧
      r + 1 = (front ++ (element.gap ++ element.expr)).length ∧
      substr (front ++ (element.gap ++ element.expr) ++ tail ++ back) l (r - l + 1) = element.expr ∧
      ∀ fidMap, ∃ later, sexpr.decodeAtomIn fidMap
        (front ++ (element.gap ++ element.expr) ++ tail ++ back) l r = some (element.atom, later) := by
  obtain ⟨gap, expr, atom⟩ := element
  obtain ⟨blank, isExpr⟩ := good
  dsimp only at blank isExpr ⊢
  obtain ⟨inner, shape⟩ := brackets.balanced isExpr
  have long : 2 ≤ expr.length := by
    rw [shape]
    simp
  have bounds := brackets.next front tail back blank isExpr
  have part : substr (front ++ gap ++ expr ++ (tail ++ back)) (front ++ gap).length expr.length =
      expr := substr_append _ _ _
  have decodes := fun fidMap => brackets.decodes fidMap (front ++ gap) (tail ++ back) isExpr
  have whole : (front ++ gap ++ expr).length = (front ++ gap).length + expr.length :=
    List.length_append
  have count : (front ++ gap ++ expr).length - 1 - (front ++ gap).length + 1 = expr.length := by
    omega
  rw [← count, ← List.append_assoc] at part
  simp only [← List.append_assoc] at decodes bounds ⊢
  exact ⟨_, _, bounds, by omega, by omega, part, decodes⟩

theorem length_le_elementsText (brackets : sexpr.Brackets IsExpr) (elements : List (Element sexpr))
    (good : ∀ element ∈ elements, element.Good IsExpr) :
    elements.length ≤ (elementsText elements).length := by
  induction elements with
  | nil => exact Nat.zero_le _
  | cons element elements ih =>
      obtain ⟨inner, shape⟩ := brackets.balanced (good element List.mem_cons_self).isExpr
      have rest := ih fun other member => good other (List.mem_cons_of_mem _ member)
      simp only [elementsText, List.flatMap_cons, List.length_append, List.length_cons, shape]
        at rest ⊢
      omega

/-- The request for the values on an element. -/
def RequestFor (element : Element sexpr) (request : Request (cogSignature sexpr)) : Prop :=
  ∃ h : Handle sexpr, h.atom = element.atom ∧
    request = enqueue sexpr (keysAlistText element.expr) ⟨none, some h, none⟩ .decodeKvpListConst

/-- Insert an Atom that was decoded. -/
theorem addDecoded_of_decodes (table : SpaceId) {expr : Str} {l r : Nat} {memory : Memory sexpr}
    {atom : sexpr.Content} {later : sexpr.FidMap}
    (decodes : sexpr.decodeAtomIn memory.fidMap expr l r = some (atom, later)) :
    addDecoded sexpr table expr l r memory =
      some (atom, { memory with fidMap := later }.insertAtom table atom) := by
  simp only [addDecoded, decodes]

/-- The loop, with the bounds of what is left of the list, handles the elements that are
left. -/
theorem perform_atomListLoop (brackets : sexpr.Brackets IsExpr) (table : SpaceId) {gap : Str}
    (blank : Blank gap) (back : Str) (elements : List (Element sexpr))
    (good : ∀ element ∈ elements, element.Good IsExpr) (front : Str) (fuel : Nat)
    (enough : elements.length < fuel) (memory : Memory sexpr) :
    ∃ final requests, (atomListLoop sexpr table (front ++ elementsText elements ++ gap ++ back)
        (front ++ elementsText elements ++ gap).length fuel front.length
        (front ++ elementsText elements ++ gap).length).perform memory = some (final, requests) ∧
      List.Forall₂ RequestFor elements requests ∧ memory.Grows final ∧
      final.values = memory.values ∧ ∀ element ∈ elements, final.Holds table element.atom := by
  induction elements generalizing front fuel memory with
  | nil =>
      obtain ⟨fuel, rfl⟩ : ∃ rest, fuel = rest + 1 := ⟨fuel - 1, by omega⟩
      obtain ⟨pcnt, ends⟩ := brackets.blank front back blank
      refine ⟨memory, [], ?_, .nil, .refl memory, rfl, nofun⟩
      simp only [elementsText, List.flatMap_nil, List.append_nil, atomListLoop, ends, if_true]
      rfl
  | cons element elements ih =>
      obtain ⟨fuel, rfl⟩ : ∃ rest, fuel = rest + 1 := ⟨fuel - 1, by omega⟩
      obtain ⟨l, r, bounds, different, behind, part, decodes⟩ :=
        brackets.bounds (good element List.mem_cons_self) front (elementsText elements ++ gap) back
      obtain ⟨later, decodes⟩ := decodes memory.fidMap
      have handled := addDecoded_of_decodes table decodes
      obtain ⟨sameValues, growing, _⟩ :=
        Memory.insertAtom_spec { memory with fidMap := later } table element.atom
      have here := Memory.holds_insertAtom { memory with fidMap := later } table element.atom
      generalize { memory with fidMap := later }.insertAtom table element.atom = inserted
        at handled sameValues growing here
      obtain ⟨final, requests, performed, made, grows, values, held⟩ :=
        ih (fun other member => good other (List.mem_cons_of_mem _ member))
          (front ++ (element.gap ++ element.expr)) fuel (Nat.lt_of_succ_lt_succ enough) inserted
      have text : front ++ elementsText (element :: elements) ++ gap =
          front ++ (element.gap ++ element.expr) ++ (elementsText elements ++ gap) := by
        simp [elementsText]
      refine ⟨final, enqueue sexpr (keysAlistText element.expr)
        ⟨none, some (inserted.handleOf table element.atom), none⟩ .decodeKvpListConst :: requests,
        ?_, .cons ⟨inserted.handleOf table element.atom, rfl, rfl⟩ made, ?_,
        values.trans sameValues, ?_⟩
      · simp only [← List.append_assoc] at bounds part handled performed text behind
        rw [text]
        rw [atomListLoop, bounds]
        simp only [different, if_false, Int.lt_irrefl, Work.perform, handled, Option.map_some,
          Option.getD_some, part, behind, performed]
      · exact ⟨grows.bases.trans growing.bases, fun member => grows.atoms (growing.atoms member)⟩
      · intro other member
        rcases List.mem_cons.mp member with rfl | member
        · exact grows.holds here
        · exact held other member

/-- The bounds with which `decode_atom_list` starts. -/
theorem listText_bounds (elements : List (Element sexpr)) (gap : Str) {trail : Str}
    (trailBlank : Blank trail) :
    past (find (listText elements gap trail) 40 0) 1 = 1 ∧
      (rfind (listText elements gap trail) 41).getD npos =
        ([40] ++ elementsText elements ++ gap).length := by
  have closes : 41 ∉ trail := fun member => absurd (trailBlank 41 member) (by decide)
  have first : find (listText elements gap trail) 40 0 = some 0 :=
    findBy_append (decide_eq_true rfl) [] (elementsText elements ++ gap ++ 41 :: trail)
  have last := rfind_append ([40] ++ elementsText elements ++ gap) closes
  exact ⟨congrArg (past · 1) first, congrArg (Option.getD · npos) last⟩

/-- `CogStorage::decode_atom_list` on the text of a list inserts its Atoms and asks for the
values on each, in order. -/
theorem perform_decodeAtomList (brackets : sexpr.Brackets IsExpr) (table : SpaceId)
    {gap trail : Str} (gapBlank : Blank gap) (trailBlank : Blank trail)
    (elements : List (Element sexpr)) (good : ∀ element ∈ elements, element.Good IsExpr)
    (memory : Memory sexpr) :
    ∃ final requests, (decodeAtomList sexpr (listText elements gap trail)
        ⟨some table, none, none⟩).perform memory = some (final, requests) ∧
      List.Forall₂ RequestFor elements requests ∧ memory.Grows final ∧
      final.values = memory.values ∧ ∀ element ∈ elements, final.Holds table element.atom := by
  obtain ⟨first, last⟩ := listText_bounds elements gap trailBlank
  have enough := length_le_elementsText brackets elements good
  by_cases empty : 1 = ([40] ++ elementsText elements ++ gap).length
  · obtain rfl : elements = [] := by
      simp only [List.length_append, List.length_singleton] at empty
      exact List.length_eq_zero_iff.mp (by omega)
    refine ⟨memory, [], ?_, .nil, .refl memory, rfl, nofun⟩
    simp only [decodeAtomList, first, last, if_pos empty]
    rfl
  · obtain ⟨final, requests, performed, made, grows, values, held⟩ :=
      perform_atomListLoop brackets table gapBlank (41 :: trail) elements good [40]
        ((listText elements gap trail).length + 1)
        (by simp only [listText, List.length_append, List.length_cons]; omega) memory
    refine ⟨final, requests, ?_, made, grows, values, held⟩
    simp only [decodeAtomList, first, last, if_neg empty]
    exact performed

end AtomSpaceCog
