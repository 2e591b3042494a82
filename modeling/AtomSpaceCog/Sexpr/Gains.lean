import AtomSpaceCog.Sexpr.Growth
import Mathlib.Data.List.Find

/-! # What a memory gains

Atoms are inserted into one AtomSpace and values are set, in any order and with repetitions.
What the memory is afterwards depends only on which Atoms and which values they were
(`Change.agree`).
-/

namespace AtomSpaceCog

variable {sexpr : Sexpr}

namespace Memory

/-- Each AtomSpace has the same Atoms, and each Atom the same values. -/
structure Same (memory other : Memory sexpr) : Prop where
  atoms : ∀ space atom, atom ∈ memory.atoms space ↔ atom ∈ other.atoms space
  values : ∀ handle key, memory.getValue handle key = other.getValue handle key

/-- Insert Atoms whose parts are already there or come before them. -/
def insertAll (memory : Memory sexpr) (space : SpaceId) (atoms : List sexpr.Content) : Memory sexpr :=
  atoms.foldl (fun memory atom => memory.insertOne space atom) memory

theorem addAtoms_eq (memory : Memory sexpr) (space : SpaceId) (value : sexpr.Value) :
    memory.addAtoms space (some value) =
      memory.insertAll space ((sexpr.atomsIn value).flatMap Atom.parts) := by
  rw [insertAll, List.foldl_flatMap]
  rfl

theorem insertAll_spec (memory : Memory sexpr) (space : SpaceId) (atoms : List sexpr.Content) :
    (memory.insertAll space atoms).values = memory.values ∧ Grows memory (memory.insertAll space atoms) ∧
      ∀ atom ∈ atoms, (memory.insertAll space atoms).Holds space atom :=
  foldl_insert (fun memory part => memory.insertOne_values space part)
    (fun memory part => memory.grows_insertOne space part)
    (fun memory part => memory.holds_insertOne space part) atoms memory

/-- Inserting an Atom that is there does nothing. -/
theorem insertOne_of_holds {memory : Memory sexpr} {space : SpaceId} {atom : sexpr.Content}
    (held : memory.Holds space atom) : memory.insertOne space atom = memory := by
  obtain ⟨found, located⟩ := Option.isSome_iff_exists.mp held
  unfold insertOne
  rw [located]

theorem insertOne_of_not_holds {memory : Memory sexpr} {space : SpaceId} {atom : sexpr.Content}
    (absent : ¬ memory.Holds space atom) : memory.insertOne space atom =
      { memory with atoms := Function.update memory.atoms space (memory.atoms space ++ [atom]) } := by
  unfold insertOne
  rw [Option.not_isSome_iff_eq_none.mp absent]

/-- What an AtomSpace holds and has not got itself, one that it is built on has. -/
theorem Holds.mem_or_below {memory : Memory sexpr} {space : SpaceId} {atom : sexpr.Content}
    (held : memory.Holds space atom) :
    atom ∈ memory.atoms space ∨ ∃ below ∈ memory.bases space, atom ∈ memory.atoms below := by
  obtain ⟨home, above, member⟩ := holds_iff.mp held
  rcases List.mem_cons.mp above with rfl | below
  · exact Or.inl member
  · exact Or.inr ⟨home, below, member⟩

end Memory

/-- Atoms that one AtomSpace may gain, and values that may be set. -/
structure Change (sexpr : Sexpr) where
  /-- The AtomSpace that may gain Atoms. -/
  table : Option SpaceId
  New : sexpr.Content → Prop
  Sets : Handle sexpr → sexpr.Content → sexpr.Value → Prop

namespace Change

variable {change : Change sexpr} {memory middle later other : Memory sexpr} {space : SpaceId}

/-- Nothing has happened but what may. -/
structure Allows (change : Change sexpr) (memory later : Memory sexpr) : Prop where
  grows : memory.Grows later
  others : ∀ {space atom}, change.table ≠ some space → atom ∈ later.atoms space →
    atom ∈ memory.atoms space
  gained : ∀ {space atom}, change.table = some space → atom ∈ later.atoms space →
    atom ∈ memory.atoms space ∨ change.New atom ∧ ¬ memory.Holds space atom
  values : ∀ handle key, later.getValue handle key = memory.getValue handle key ∨
    ∃ value, change.Sets handle key value ∧ later.getValue handle key = some value

/-- All that may happen has happened. -/
structure Done (change : Change sexpr) (later : Memory sexpr) : Prop where
  atoms : ∀ {space atom}, change.table = some space → change.New atom → later.Holds space atom
  values : ∀ {handle key value}, change.Sets handle key value → later.getValue handle key = some value

theorem Allows.refl (change : Change sexpr) (memory : Memory sexpr) : change.Allows memory memory where
  grows := .refl memory
  others _ member := member
  gained _ member := Or.inl member
  values _ _ := Or.inl rfl

theorem Allows.trans (first : change.Allows memory middle) (second : change.Allows middle later) :
    change.Allows memory later where
  grows := first.grows.trans second.grows
  others apart member := first.others apart (second.others apart member)
  gained same member := by
    rcases second.gained same member with prior | ⟨new, absent⟩
    · exact first.gained same prior
    · exact Or.inr ⟨new, fun held => absent (first.grows.holds held)⟩
  values handle key := by
    rcases second.values handle key with same | set
    · rw [same]
      exact first.values handle key
    · exact Or.inr set

/-- A change of nothing that is compared here. -/
theorem Allows.congr (allows : change.Allows memory later) (bases : other.bases = later.bases)
    (atoms : other.atoms = later.atoms) (values : other.values = later.values) :
    change.Allows memory other where
  grows := ⟨bases.trans allows.grows.bases, fun member => by rw [atoms]; exact allows.grows.atoms member⟩
  others apart member := allows.others apart (atoms ▸ member)
  gained same member := allows.gained same (atoms ▸ member)
  values handle key := by
    rw [Memory.getValue_congr values]
    exact allows.values handle key

/-- What was new is in the AtomSpace itself, unless one that it is built on had it. -/
theorem Allows.mem_of_new (allows : change.Allows memory later) (same : change.table = some space)
    {atom : sexpr.Content} (absent : ¬ memory.Holds space atom) (held : later.Holds space atom) :
    atom ∈ later.atoms space := by
  obtain ⟨home, above, member⟩ := Memory.holds_iff.mp held
  by_cases own : home = space
  · rwa [own] at member
  · have apart : change.table ≠ some home := by
      rw [same]
      exact fun equal => own (Option.some.inj equal).symm
    rw [allows.grows.bases] at above
    exact absurd (Memory.holds_iff.mpr ⟨home, above, allows.others apart member⟩) absent

theorem mem_of_agree (first : change.Allows memory later) (second : change.Allows memory other)
    (done : change.Done other) {atom : sexpr.Content} (member : atom ∈ later.atoms space) :
    atom ∈ other.atoms space := by
  by_cases same : change.table = some space
  · rcases first.gained same member with prior | ⟨new, absent⟩
    · exact second.grows.atoms prior
    · exact second.mem_of_new same absent (done.atoms same new)
  · exact second.grows.atoms (first.others same member)

/-- What happens altogether determines the memory. -/
theorem agree (first : change.Allows memory later) (firstDone : change.Done later)
    (second : change.Allows memory other) (secondDone : change.Done other) : later.Same other where
  atoms _ _ := ⟨mem_of_agree first second secondDone, mem_of_agree second first firstDone⟩
  values handle key := by
    rcases first.values handle key with kept | ⟨value, sets, own⟩
    · rcases second.values handle key with still | ⟨value, sets, own⟩
      · exact kept.trans still.symm
      · exact (firstDone.values sets).trans own.symm
    · exact own.trans (secondDone.values sets).symm

/-- An Atom that one change puts into an AtomSpace, and another one does not, was held there if
they leave the same. -/
theorem holds_of_same {change' : Change sexpr} (first : change.Allows memory later)
    (done : change.Done later) (second : change'.Allows memory other) (same : later.Same other)
    (into : change.table = some space) (apart : change'.table ≠ some space) {atom : sexpr.Content}
    (new : change.New atom) : memory.Holds space atom := by
  by_contra absent
  have member := first.mem_of_new into absent (done.atoms into new)
  have before := second.others apart ((same.atoms space atom).mp member)
  exact absent (Memory.holds_iff.mpr ⟨space, List.mem_cons_self, before⟩)

/-- The change without its Atoms. -/
def alone (change : Change sexpr) : Change sexpr := { change with table := none }

/-- Where all the Atoms are held, none is put anywhere. -/
theorem Allows.alone (allows : change.Allows memory later)
    (held : ∀ space, change.table = some space → ∀ atom, change.New atom → memory.Holds space atom) :
    change.alone.Allows memory later where
  grows := allows.grows
  others {space atom} _ member := by
    by_cases into : change.table = some space
    · rcases allows.gained into member with prior | ⟨new, absent⟩
      · exact prior
      · exact absurd (held space into atom new) absent
    · exact allows.others into member
  gained same := by cases same
  values := allows.values

theorem Done.alone (done : change.Done later) : change.alone.Done later where
  atoms same := by cases same
  values := done.values

section Steps

/-- The Atoms may be inserted into the AtomSpace, or are there. -/
def Fits (change : Change sexpr) (memory : Memory sexpr) (space : SpaceId) (atoms : List sexpr.Content) :
    Prop :=
  ∀ atom ∈ atoms, change.table = some space ∧ change.New atom ∨ memory.Holds space atom

theorem allows_insertOne {atom : sexpr.Content}
    (fits : change.table = some space ∧ change.New atom ∨ memory.Holds space atom) :
    change.Allows memory (memory.insertOne space atom) := by
  by_cases held : memory.Holds space atom
  · rw [Memory.insertOne_of_holds held]
    exact .refl change memory
  · obtain ⟨same, new⟩ := fits.resolve_right held
    have grows := memory.grows_insertOne space atom
    rw [Memory.insertOne_of_not_holds held] at grows ⊢
    refine ⟨grows, ?_, ?_, fun _ _ => Or.inl rfl⟩
    · intro home part apart member
      have different : home ≠ space := fun equal => apart (equal ▸ same)
      exact Function.update_of_ne different _ memory.atoms ▸ member
    · intro home part equal member
      obtain rfl := Option.some.inj (same.symm.trans equal)
      dsimp only at member
      rw [Function.update_self] at member
      rcases List.mem_append.mp member with prior | last
      · exact Or.inl prior
      · rw [List.mem_singleton.mp last]
        exact Or.inr ⟨new, held⟩

theorem allows_insertAll {atoms : List sexpr.Content} (fits : change.Fits memory space atoms) :
    change.Allows memory (memory.insertAll space atoms) := by
  induction atoms generalizing memory with
  | nil => exact .refl change memory
  | cons atom atoms ih =>
      have first := allows_insertOne (fits atom List.mem_cons_self)
      refine first.trans (ih ?_)
      intro part member
      exact (fits part (List.mem_cons_of_mem _ member)).imp_right first.grows.holds

theorem allows_setValue {handle : Handle sexpr} {key : sexpr.Content} {value : sexpr.Value}
    (sets : change.Sets handle key value) : change.Allows memory (memory.setValue handle key (some value)) where
  grows := memory.grows_setValue handle key (some value)
  others _ member := member
  gained _ member := Or.inl member
  values other part := by
    by_cases same : other = handle
    · subst same
      by_cases equal : part = key
      · subst equal
        exact Or.inr ⟨value, sets, memory.getValue_setValue_self other part value⟩
      · exact Or.inl (memory.getValue_setValue_of_ne other key (some value) equal)
    · left
      unfold Memory.getValue
      rw [memory.setValue_values_of_ne handle key (some value) same]

end Steps

/-- An AtomSpace that may gain Atoms goes on to find an Atom where it has found it. -/
theorem Allows.locate (allows : change.Allows memory later) (same : change.table = some space)
    (above : space ∉ memory.bases space) (atom : sexpr.Content) :
    (later.locate space atom).getD space = (memory.locate space atom).getD space := by
  have below : (later.bases space).find? (fun home => atom ∈ later.atoms home) =
      (memory.bases space).find? fun home => atom ∈ memory.atoms home := by
    rw [allows.grows.bases]
    apply List.find?_congr
    intro home member
    have apart : change.table ≠ some home := by
      rw [same]
      intro equal
      cases equal
      exact above member
    exact decide_eq_decide.mpr ⟨allows.others apart, allows.grows.atoms⟩
  unfold Memory.locate
  rw [List.find?_cons, List.find?_cons, below]
  by_cases before : atom ∈ memory.atoms space
  · simp [before, allows.grows.atoms before]
  · by_cases after : atom ∈ later.atoms space
    · have absent := ((allows.gained same after).resolve_left before).2
      have none : (memory.bases space).find? (fun home => atom ∈ memory.atoms home) = none := by
        apply List.find?_eq_none.mpr
        intro home member
        simp only [decide_eq_true_eq]
        exact fun inside => absent (Memory.holds_iff.mpr ⟨home, List.mem_cons_of_mem _ member, inside⟩)
      simp [before, after, none]
    · simp [before, after]

end Change

end AtomSpaceCog
