import AtomSpaceCog.Sexpr.Atomese

/-! # AtomSpaces only grow

Inserting Atoms leaves the values and the Atoms that are there, and the Atoms that were
inserted are found afterwards. Setting a value changes that value alone.
-/

namespace AtomSpaceCog

variable {sexpr : Sexpr}

section Pairs

variable {Key Value : Type} [DecidableEq Key]

theorem lookup_filter_of_ne {key other : Key} (different : other ≠ key) (pairs : List (Key × Value)) :
    (pairs.filter fun pair => pair.1 ≠ key).lookup other = pairs.lookup other := by
  induction pairs with
  | nil => rfl
  | cons pair pairs ih =>
      by_cases same : pair.1 = key
      · have skipped : (other == pair.1) = false := by simp [same, different]
        rw [List.filter_cons_of_neg (by simpa using same), ih, List.lookup_cons, skipped]
      · rw [List.filter_cons_of_pos (by simpa using same), List.lookup_cons, List.lookup_cons, ih]

/-- A value is found under the key it was put under. -/
theorem lookup_setPair_self (key : Key) (value : Value) (pairs : List (Key × Value)) :
    (setPair key (some value) pairs).lookup key = some value := by
  simp [setPair]

/-- What is under the other keys stays. -/
theorem lookup_setPair_of_ne {key other : Key} (different : other ≠ key) (value : Option Value)
    (pairs : List (Key × Value)) : (setPair key value pairs).lookup other = pairs.lookup other := by
  cases value with
  | none => exact lookup_filter_of_ne different pairs
  | some value =>
      have skipped : (other == key) = false := by simp [different]
      rw [setPair, List.lookup_cons, skipped]
      exact lookup_filter_of_ne different pairs

end Pairs

namespace Memory

variable {memory middle later : Memory sexpr}

/-- No AtomSpace loses an Atom, and each stays built on the same others. -/
structure Grows (memory later : Memory sexpr) : Prop where
  bases : later.bases = memory.bases
  atoms : ∀ {space atom}, atom ∈ memory.atoms space → atom ∈ later.atoms space

@[refl] theorem Grows.refl (memory : Memory sexpr) : Grows memory memory := ⟨rfl, id⟩

theorem Grows.trans (first : Grows memory middle) (second : Grows middle later) :
    Grows memory later :=
  ⟨second.bases.trans first.bases, fun member => second.atoms (first.atoms member)⟩

/-- An Atom is in the AtomSpace, or in one that it is built on. -/
def Holds (memory : Memory sexpr) (table : SpaceId) (atom : sexpr.Content) : Prop :=
  (memory.locate table atom).isSome = true

theorem holds_iff {table : SpaceId} {atom : sexpr.Content} :
    memory.Holds table atom ↔ ∃ space ∈ table :: memory.bases table, atom ∈ memory.atoms space := by
  unfold Holds locate
  simp only [List.find?_isSome, decide_eq_true_eq]

theorem Grows.holds (grows : Grows memory later) {table : SpaceId} {atom : sexpr.Content}
    (held : memory.Holds table atom) : later.Holds table atom := by
  obtain ⟨space, below, member⟩ := holds_iff.mp held
  exact holds_iff.mpr ⟨space, grows.bases ▸ below, grows.atoms member⟩

section Insert

variable (memory) (table : SpaceId) (atom : sexpr.Content)

theorem insertOne_values : (memory.insertOne table atom).values = memory.values := by
  unfold insertOne
  split <;> rfl

theorem grows_insertOne : Grows memory (memory.insertOne table atom) := by
  unfold insertOne
  split
  · exact .refl memory
  · refine ⟨rfl, fun {space part} member => ?_⟩
    by_cases same : space = table
    · subst same
      simp [member]
    · simpa [Function.update_of_ne same] using member

theorem holds_insertOne : (memory.insertOne table atom).Holds table atom := by
  unfold insertOne
  split
  · next found => simp [Holds, found]
  · exact holds_iff.mpr ⟨table, List.mem_cons_self, by simp⟩

end Insert

/-- What each insertion keeps, a list of insertions keeps; and each of the Atoms is found
afterwards. -/
theorem foldl_insert {insert : Memory sexpr → sexpr.Content → Memory sexpr} {table : SpaceId}
    (values : ∀ memory atom, (insert memory atom).values = memory.values)
    (grows : ∀ memory atom, Grows memory (insert memory atom))
    (held : ∀ memory atom, (insert memory atom).Holds table atom)
    (atoms : List sexpr.Content) (memory : Memory sexpr) :
    (atoms.foldl insert memory).values = memory.values ∧ Grows memory (atoms.foldl insert memory) ∧
      ∀ atom ∈ atoms, (atoms.foldl insert memory).Holds table atom := by
  induction atoms generalizing memory with
  | nil => exact ⟨rfl, .refl memory, fun atom member => absurd member List.not_mem_nil⟩
  | cons atom atoms ih =>
      obtain ⟨sameValues, growing, all⟩ := ih (insert memory atom)
      refine ⟨sameValues.trans (values memory atom), (grows memory atom).trans growing, ?_⟩
      intro other member
      rcases List.mem_cons.mp member with rfl | member
      · exact growing.holds (held memory other)
      · exact all other member

theorem insertAtom_spec (memory : Memory sexpr) (table : SpaceId) (atom : sexpr.Content) :
    (memory.insertAtom table atom).values = memory.values ∧
      Grows memory (memory.insertAtom table atom) ∧
        ∀ part ∈ atom.parts, (memory.insertAtom table atom).Holds table part :=
  foldl_insert (fun memory part => memory.insertOne_values table part)
    (fun memory part => memory.grows_insertOne table part)
    (fun memory part => memory.holds_insertOne table part) atom.parts memory

theorem holds_insertAtom (memory : Memory sexpr) (table : SpaceId) (atom : sexpr.Content) :
    (memory.insertAtom table atom).Holds table atom :=
  (insertAtom_spec memory table atom).2.2 atom atom.self_mem_parts

theorem addAtoms_spec (memory : Memory sexpr) (table : SpaceId) (value : Option sexpr.Value) :
    (memory.addAtoms table value).values = memory.values ∧
      Grows memory (memory.addAtoms table value) ∧
        ∀ given ∈ value, ∀ atom ∈ sexpr.atomsIn given,
          (memory.addAtoms table value).Holds table atom := by
  cases value with
  | none => exact ⟨rfl, .refl memory, fun given some => nomatch some⟩
  | some value =>
      obtain ⟨sameValues, growing, all⟩ := foldl_insert
        (fun memory atom => (insertAtom_spec memory table atom).1)
        (fun memory atom => (insertAtom_spec memory table atom).2.1)
        (fun memory atom => holds_insertAtom memory table atom) (sexpr.atomsIn value) memory
      refine ⟨sameValues, growing, ?_⟩
      intro given same
      obtain rfl := Option.some.inj same
      exact all

section SetValue

variable (memory) (handle : Handle sexpr) (key : sexpr.Content) (value : Option sexpr.Value)

theorem grows_setValue : Grows memory (memory.setValue handle key value) := ⟨rfl, id⟩

theorem setValue_values_of_ne {other : Handle sexpr} (different : other ≠ handle) :
    (memory.setValue handle key value).values other = memory.values other :=
  Function.update_of_ne different _ _

theorem getValue_setValue_self (value : sexpr.Value) :
    (memory.setValue handle key (some value)).getValue handle key = some value := by
  simp [getValue, setValue, lookup_setPair_self]

theorem getValue_setValue_of_ne {other : sexpr.Content} (different : other ≠ key) :
    (memory.setValue handle key value).getValue handle other = memory.getValue handle other := by
  simp [getValue, setValue, lookup_setPair_of_ne different]

end SetValue

/-- Atoms with the same values on them. -/
theorem getValue_congr (same : later.values = memory.values) (handle : Handle sexpr)
    (key : sexpr.Content) : later.getValue handle key = memory.getValue handle key := by
  unfold getValue
  rw [same]

end Memory

end AtomSpaceCog
