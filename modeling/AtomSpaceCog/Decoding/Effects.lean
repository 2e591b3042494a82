import AtomSpaceCog.Decoding.Rounds
import AtomSpaceCog.Sexpr.Growth

/-! # What decoding does

The work of a handler carried out by itself, and what `ro_decode_alist` does with the
pairs that it finds.
-/

namespace AtomSpaceCog

variable {sig : Signature} {Local : Type}

/-- Carry out the work with nothing in between: the state it leaves and the requests it
makes, where it gets to its end. -/
def Work.perform : Work sig Local → Local → Option (Local × List (Request sig))
  | .done, state => some (state, [])
  | .insert request next, state =>
      (next.perform state).map fun result => (result.1, request :: result.2)
  | .touch change next, state => (next state).perform (change state)
  | .stuck, _ => none

variable {sexpr : Sexpr}

/-- Attach the pairs to the Atom, in order. -/
def attachAll (space : Option SpaceId) (atom : Handle sexpr)
    (pairs : List (sexpr.Content × Option sexpr.Value)) (last : CogWork sexpr) : CogWork sexpr :=
  pairs.foldr (fun pair rest => attach sexpr space atom pair.1 pair.2 rest) last

/-- The memory after a pair was attached. -/
def attachTo (space : Option SpaceId) (atom : Handle sexpr) (memory : Memory sexpr)
    (pair : sexpr.Content × Option sexpr.Value) : Memory sexpr :=
  match space with
  | some space =>
      (((memory.insertAtom space pair.1).addAtoms space pair.2).setValue atom pair.1 pair.2).insertAtom
        space atom.atom
  | none => memory.setValue atom pair.1 pair.2

/-- A round that stores something attaches it, and the loop goes on. -/
theorem alistLoop_of_round {space : Option SpaceId} {atom : Handle sexpr} {alist : Str}
    {fuel pos : Nat} {stored : Stored sexpr} {next : Option Nat}
    (round : alistRound sexpr alist pos = some (stored, next)) :
    alistLoop sexpr space atom alist (fuel + 1) (some pos) =
      attach sexpr space atom stored.key stored.value
        (alistLoop sexpr space atom alist fuel next) := by
  obtain ⟨keyRead, after, valueRead, found⟩ := alistRound_eq_some.mp round
  simp only [alistLoop, keyRead, valueRead, found]

/-- The loop attaches the pairs of its rounds, and then ends, throws, or does not end. -/
theorem alistLoop_eq (space : Option SpaceId) (atom : Handle sexpr) (alist : Str) (fuel : Nat)
    (pos : Option Nat) : ∃ last, (last = .done ∨ last = .stuck) ∧
      alistLoop sexpr space atom alist fuel pos =
        attachAll space atom ((Loop.items (alistRound sexpr alist) fuel pos).map fun stored =>
          (stored.key, stored.value)) last := by
  induction fuel generalizing pos with
  | zero =>
      cases pos with
      | none => exact ⟨.done, .inl rfl, rfl⟩
      | some pos => exact ⟨.stuck, .inr rfl, rfl⟩
  | succ fuel ih =>
      cases pos with
      | none => exact ⟨.done, .inl rfl, rfl⟩
      | some pos =>
          rw [alistLoop, Loop.items, alistRound]
          cases sexpr.decodeAtom alist (pos + 1) with
          | none => exact ⟨.stuck, .inr rfl, rfl⟩
          | some key =>
              dsimp only
              cases sexpr.decodeValue alist (past (findText alist (bytes " . ") key.2) 3) with
              | none => exact ⟨.stuck, .inr rfl, rfl⟩
              | some value =>
                  obtain ⟨last, ending, same⟩ := ih (find alist 40 value.2)
                  exact ⟨last, ending, congrArg (attach sexpr space atom key.1 value.1) same⟩

theorem perform_attach (space : Option SpaceId) (atom : Handle sexpr) (key : sexpr.Content)
    (value : Option sexpr.Value) (next : CogWork sexpr) (memory : Memory sexpr) :
    (attach sexpr space atom key value next).perform memory =
      next.perform (attachTo space atom memory (key, value)) := by
  cases space <;> rfl

theorem perform_attachAll (space : Option SpaceId) (atom : Handle sexpr)
    (pairs : List (sexpr.Content × Option sexpr.Value)) (last : CogWork sexpr)
    (memory : Memory sexpr) :
    (attachAll space atom pairs last).perform memory =
      last.perform (pairs.foldl (attachTo space atom) memory) := by
  induction pairs generalizing memory with
  | nil => rfl
  | cons pair pairs ih =>
      rw [attachAll, List.foldr_cons, perform_attach, List.foldl_cons]
      exact ih _

section Attach

variable (space : Option SpaceId) (atom : Handle sexpr) (memory : Memory sexpr)

theorem grows_attachTo (pair : sexpr.Content × Option sexpr.Value) :
    memory.Grows (attachTo space atom memory pair) := by
  cases space with
  | none => exact memory.grows_setValue atom pair.1 pair.2
  | some space =>
      have key := (Memory.insertAtom_spec memory space pair.1).2.1
      have value := (Memory.addAtoms_spec (memory.insertAtom space pair.1) space pair.2).2.1
      have set := Memory.grows_setValue ((memory.insertAtom space pair.1).addAtoms space pair.2)
        atom pair.1 pair.2
      exact ((key.trans value).trans set).trans (Memory.insertAtom_spec _ space atom.atom).2.1

/-- Attaching a pair changes the values as setting it does. -/
theorem attachTo_values (pair : sexpr.Content × Option sexpr.Value) :
    (attachTo space atom memory pair).values = (memory.setValue atom pair.1 pair.2).values := by
  cases space with
  | none => rfl
  | some space =>
      rw [attachTo, (Memory.insertAtom_spec _ space atom.atom).1, Memory.setValue, Memory.setValue,
        (Memory.addAtoms_spec _ space pair.2).1, (Memory.insertAtom_spec memory space pair.1).1]

theorem holds_attachTo (home : SpaceId) (key : sexpr.Content) (value : sexpr.Value) :
    (attachTo (some home) atom memory (key, some value)).Holds home key ∧
      ∀ part ∈ sexpr.atomsIn value,
        (attachTo (some home) atom memory (key, some value)).Holds home part := by
  have inserted := Memory.holds_insertAtom memory home key
  obtain ⟨_, growing, all⟩ :=
    Memory.addAtoms_spec (memory.insertAtom home key) home (some value)
  have later : ((memory.insertAtom home key).addAtoms home (some value)).Grows
      (attachTo (some home) atom memory (key, some value)) :=
    (Memory.grows_setValue _ atom key (some value)).trans
      (Memory.insertAtom_spec _ home atom.atom).2.1
  exact ⟨later.holds (growing.holds inserted), fun part member =>
    later.holds (all value rfl part member)⟩

/-- After the pairs were attached, each key has its value, the other keys have what they
had, and the Atoms of the pairs are in the AtomSpace. -/
theorem foldl_attachTo (pairs : List (sexpr.Content × sexpr.Value))
    (distinct : (pairs.map Prod.fst).Nodup) :
    let final := (pairs.map fun pair => (pair.1, some pair.2)).foldl (attachTo space atom) memory
    (∀ pair ∈ pairs, final.getValue atom pair.1 = some pair.2) ∧
      (∀ key ∉ pairs.map Prod.fst, final.getValue atom key = memory.getValue atom key) ∧
      (∀ other ≠ atom, final.values other = memory.values other) ∧
      memory.Grows final ∧
      ∀ home ∈ space, ∀ pair ∈ pairs, final.Holds home pair.1 ∧
        ∀ part ∈ sexpr.atomsIn pair.2, final.Holds home part := by
  induction pairs generalizing memory with
  | nil => exact ⟨nofun, fun _ _ => rfl, fun _ _ => rfl, .refl memory, nofun⟩
  | cons pair pairs ih =>
      obtain ⟨key, value⟩ := pair
      rw [List.map_cons, List.nodup_cons] at distinct
      obtain ⟨absent, distinct⟩ := distinct
      rw [List.map_cons, List.foldl_cons]
      obtain ⟨own, others, frame, growing, held⟩ :=
        ih (attachTo space atom memory (key, some value)) distinct
      have values := attachTo_values space atom memory (key, some value)
      refine ⟨?_, ?_, ?_, (grows_attachTo space atom memory _).trans growing, ?_⟩
      · intro other member
        rcases List.mem_cons.mp member with rfl | member
        · rw [others key absent, Memory.getValue_congr values, Memory.getValue_setValue_self]
        · exact own other member
      · intro other outside
        rw [List.map_cons, List.mem_cons, not_or] at outside
        rw [others other outside.2, Memory.getValue_congr values,
          Memory.getValue_setValue_of_ne _ _ _ _ outside.1]
      · intro other different
        rw [frame other different, values, Memory.setValue_values_of_ne _ _ _ _ different]
      · intro home same other member
        obtain rfl := Option.mem_def.mp same
        rcases List.mem_cons.mp member with rfl | member
        · obtain ⟨keyHeld, partsHeld⟩ := holds_attachTo atom memory home key value
          exact ⟨growing.holds keyHeld, fun part inside => growing.holds (partsHeld part inside)⟩
        · exact held home rfl other member

end Attach

end AtomSpaceCog
