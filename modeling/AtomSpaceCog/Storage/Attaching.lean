import AtomSpaceCog.Storage.Handled

/-! # Attaching pairs to an Atom

What `ro_decode_alist` does to the memory when nothing else runs in between, as a change that
allows it.
-/

namespace AtomSpaceCog

variable {sexpr : Sexpr} {change : Change sexpr} {space : Option SpaceId} {h : Handle sexpr}
  {memory later : Memory sexpr}

/-- The change lets pairs be attached to an Atom. -/
structure Change.Attaching (change : Change sexpr) (space : Option SpaceId) (h : Handle sexpr)
    (pairs : List (sexpr.Content × sexpr.Value)) : Prop where
  fits : ∀ home, space = some home → change.table = some home ∧
    ∀ pair ∈ pairs, ∀ atom ∈ pieces h.atom pair, change.New atom
  sets : ∀ pair ∈ pairs, change.Sets h pair.1 pair.2
  one : ∀ pair ∈ pairs, ∀ value, change.Sets h pair.1 value → value = pair.2

theorem Attached.keep {pairs : List (sexpr.Content × sexpr.Value)}
    (attaching : change.Attaching space h pairs) {pair : sexpr.Content × sexpr.Value}
    (member : pair ∈ pairs) (allows : change.Allows memory later)
    (attached : Attached space h pair memory) : Attached space h pair later where
  value := by
    rcases allows.values h pair.1 with same | ⟨value, sets, own⟩
    · rw [same]
      exact attached.value
    · rw [own, attaching.one pair member value sets]
  held home same atom piece := allows.grows.holds (attached.held home same atom piece)

theorem attached_attachTo (space : Option SpaceId) (h : Handle sexpr) (memory : Memory sexpr)
    (pair : sexpr.Content × sexpr.Value) :
    Attached space h pair (attachTo space h memory (pair.1, some pair.2)) where
  value := by
    rw [Memory.getValue_congr (attachTo_values space h memory _)]
    exact memory.getValue_setValue_self h pair.1 pair.2
  held home same atom member := by
    subst same
    have keyed := Memory.insertAll_spec memory home pair.1.parts
    have added := Memory.insertAll_spec (memory.insertAll home pair.1.parts) home
      ((sexpr.atomsIn pair.2).flatMap Atom.parts)
    rw [← Memory.addAtoms_eq] at added
    have set := Memory.grows_setValue
      ((memory.insertAll home pair.1.parts).addAtoms home (some pair.2)) h pair.1 (some pair.2)
    have own := Memory.insertAll_spec (((memory.insertAll home pair.1.parts).addAtoms home
      (some pair.2)).setValue h pair.1 (some pair.2)) home h.atom.parts
    rcases List.mem_append.mp member with inside | member
    · exact own.2.1.holds (set.holds (added.2.1.holds (keyed.2.2 atom inside)))
    · rcases List.mem_append.mp member with inside | inside
      · exact own.2.1.holds (set.holds (added.2.2 atom inside))
      · exact own.2.2 atom inside

theorem allows_attachTo {pairs : List (sexpr.Content × sexpr.Value)}
    (attaching : change.Attaching space h pairs) {pair : sexpr.Content × sexpr.Value}
    (member : pair ∈ pairs) (memory : Memory sexpr) :
    change.Allows memory (attachTo space h memory (pair.1, some pair.2)) := by
  have sets : ∀ memory : Memory sexpr, change.Allows memory (memory.setValue h pair.1 (some pair.2)) :=
    fun _ => Change.allows_setValue (attaching.sets pair member)
  cases space with
  | none => exact sets memory
  | some home =>
      obtain ⟨into, new⟩ := attaching.fits home rfl
      have inserts : ∀ (memory : Memory sexpr) {atoms}, atoms ⊆ pieces h.atom pair →
          change.Allows memory (memory.insertAll home atoms) := by
        intro memory atoms subset
        apply Change.allows_insertAll
        exact fun atom own => Or.inl ⟨into, new pair member atom (subset own)⟩
      have keyed := inserts memory (List.subset_append_left pair.1.parts _)
      have added := inserts (memory.insertAll home pair.1.parts)
        (List.Subset.trans (List.subset_append_left ((sexpr.atomsIn pair.2).flatMap Atom.parts) _)
          (List.subset_append_right _ _))
      rw [← Memory.addAtoms_eq] at added
      exact ((keyed.trans added).trans (sets _)).trans
        (inserts _ (List.Subset.trans (List.subset_append_right _ _) (List.subset_append_right _ _)))

/-- Attaching pairs does what the change allows, and afterwards they are attached. -/
theorem foldl_attachTo_spec {pairs : List (sexpr.Content × sexpr.Value)}
    (attaching : change.Attaching space h pairs) (memory : Memory sexpr) :
    let final := (pairs.map fun pair => (pair.1, some pair.2)).foldl (attachTo space h) memory
    change.Allows memory final ∧ ∀ pair ∈ pairs, Attached space h pair final := by
  have walk : ∀ rest ⊆ pairs, ∀ memory : Memory sexpr,
      let final := (rest.map fun pair => (pair.1, some pair.2)).foldl (attachTo space h) memory
      change.Allows memory final ∧ ∀ pair ∈ rest, Attached space h pair final := by
    intro rest subset
    induction rest with
    | nil => exact fun memory => ⟨.refl change memory, fun pair member => absurd member List.not_mem_nil⟩
    | cons pair rest ih =>
        intro memory
        have member := subset List.mem_cons_self
        obtain ⟨allows, attached⟩ := ih (List.subset_of_cons_subset subset)
          (attachTo space h memory (pair.1, some pair.2))
        refine ⟨(allows_attachTo attaching member memory).trans allows, fun other inside => ?_⟩
        rcases List.mem_cons.mp inside with rfl | inside
        · exact (attached_attachTo space h memory other).keep attaching member allows
        · exact attached other inside
  exact walk pairs (List.Subset.refl pairs) memory

end AtomSpaceCog
