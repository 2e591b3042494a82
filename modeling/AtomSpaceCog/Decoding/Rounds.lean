import AtomSpaceCog.Foundation.Loop
import AtomSpaceCog.Storage.Handlers

/-! # The rounds of ro_decode_alist

`ro_decode_alist` with its loop bounded to a number of rounds, and what a single round
finds. Which rounds there are depends on the text alone.
-/

namespace AtomSpaceCog

variable (sexpr : Sexpr)

/-- What a round stores on the Atom, and where the text of the key ended. -/
structure Stored where
  key : sexpr.Content
  stop : Nat
  value : Option sexpr.Value

/-- A round of the loop of `ro_decode_alist`, and the position of the next one. -/
def alistRound (alist : Str) (pos : Nat) : Option (Stored sexpr × Option Nat) :=
  match sexpr.decodeAtom alist (pos + 1) with
  | none => none
  | some (key, stop) =>
      match sexpr.decodeValue alist (past (findText alist (bytes " . ") stop) 3) with
      | none => none
      | some (value, pos) => some (⟨key, stop, value⟩, find alist 40 pos)

/-- The loop of `ro_decode_alist`; none when it is not over within a number of rounds. -/
def alistLoopWithin (space : Option SpaceId) (atom : Handle sexpr) (alist : Str) :
    Nat → Option Nat → Option (CogWork sexpr)
  | _, none => some .done
  | 0, some _ => none
  | fuel + 1, some pos =>
      match sexpr.decodeAtom alist (pos + 1) with
      | none => some .stuck
      | some (key, pos) =>
          match sexpr.decodeValue alist (past (findText alist (bytes " . ") pos) 3) with
          | none => some .stuck
          | some (value, pos) =>
              (alistLoopWithin space atom alist fuel (find alist 40 pos)).map
                (attach sexpr space atom key value)

/-- `ro_decode_alist`; none when its loop is not over within a number of rounds. -/
def roDecodeAlistWithin (fuel : Nat) (as : Option SpaceId) (atom : Handle sexpr) (alist : Str) :
    Option (CogWork sexpr) :=
  let space := as <|> atom.getAtomSpace
  match findFirstNotOf alist (bytes " \n\t") 0 with
  | none => some .done
  | some pos =>
      if alist[pos]? ≠ some 40 then some .stuck
      else alistLoopWithin sexpr space atom alist fuel (find alist 40 (pos + 1))

/-- The position of the first round. -/
def firstPair (alist : Str) : Option Nat :=
  match findFirstNotOf alist (bytes " \n\t") 0 with
  | none => none
  | some pos => if alist[pos]? ≠ some 40 then none else find alist 40 (pos + 1)

/-- The pairs that are stored in the first rounds. -/
def storedWithin (alist : Str) (count : Nat) : List (Stored sexpr) :=
  Loop.items (alistRound sexpr alist) count (firstPair alist)

/-- Both readers throw, or pass a part of the text. -/
structure Sexpr.Advances (sexpr : Sexpr) : Prop where
  atom : ∀ {text pos atom next}, sexpr.decodeAtom text pos = some (atom, next) →
    pos < next ∧ next ≤ text.length
  value : ∀ {text pos value next}, sexpr.decodeValue text pos = some (value, next) →
    pos < next ∧ next ≤ text.length

variable {sexpr}

theorem alistRound_eq_some {alist : Str} {pos : Nat} {stored : Stored sexpr} {next : Option Nat} :
    alistRound sexpr alist pos = some (stored, next) ↔
      sexpr.decodeAtom alist (pos + 1) = some (stored.key, stored.stop) ∧
        ∃ after, sexpr.decodeValue alist (past (findText alist (bytes " . ") stored.stop) 3) =
            some (stored.value, after) ∧ find alist 40 after = next := by
  obtain ⟨key, stop, value⟩ := stored
  unfold alistRound
  constructor
  · intro found
    split at found
    · cases found
    · next key' stop' keyRead =>
        split at found
        · cases found
        · next value' after valueRead =>
            cases found
            exact ⟨keyRead, after, valueRead, rfl⟩
  · intro ⟨keyRead, after, valueRead, found⟩
    simp only [keyRead, valueRead, found]

/-- The loop is over within as many rounds as the rounds are. -/
theorem alistLoopWithin_isSome (space : Option SpaceId) (atom : Handle sexpr) (alist : Str)
    (fuel : Nat) (pos : Option Nat) :
    (alistLoopWithin sexpr space atom alist fuel pos).isSome =
      Loop.endsWithin (alistRound sexpr alist) fuel pos := by
  induction fuel generalizing pos with
  | zero => cases pos <;> rfl
  | succ fuel ih =>
      cases pos with
      | none => rfl
      | some pos =>
          rw [Loop.endsWithin, alistLoopWithin, alistRound]
          cases sexpr.decodeAtom alist (pos + 1) with
          | none => rfl
          | some key =>
              dsimp only
              cases sexpr.decodeValue alist (past (findText alist (bytes " . ") key.2) 3) with
              | none => rfl
              | some value =>
                  dsimp only
                  rw [Option.isSome_map, ih]

theorem roDecodeAlistWithin_isSome (as : Option SpaceId) (atom : Handle sexpr) (alist : Str)
    (fuel : Nat) :
    (roDecodeAlistWithin sexpr fuel as atom alist).isSome =
      Loop.endsWithin (alistRound sexpr alist) fuel (firstPair alist) := by
  unfold roDecodeAlistWithin firstPair
  cases findFirstNotOf alist (bytes " \n\t") 0 with
  | none => simp
  | some pos =>
      dsimp only
      split
      · simp
      · exact alistLoopWithin_isSome _ atom alist fuel _

/-- A loop that is over in time does what the loop does. -/
theorem alistLoop_of_within {space : Option SpaceId} {atom : Handle sexpr} {alist : Str}
    {fuel : Nat} {pos : Option Nat} {work : CogWork sexpr}
    (within : alistLoopWithin sexpr space atom alist fuel pos = some work) :
    alistLoop sexpr space atom alist fuel pos = work := by
  induction fuel generalizing pos work with
  | zero =>
      cases pos with
      | none => exact Option.some.inj within
      | some pos => cases within
  | succ fuel ih =>
      cases pos with
      | none => exact Option.some.inj within
      | some pos =>
          unfold alistLoopWithin at within
          unfold alistLoop
          cases keyRead : sexpr.decodeAtom alist (pos + 1) with
          | none => simpa [keyRead] using within
          | some key =>
              cases valueRead : sexpr.decodeValue alist
                  (past (findText alist (bytes " . ") key.2) 3) with
              | none => simpa [keyRead, valueRead] using within
              | some value =>
                  simp only [keyRead, valueRead, Option.map_eq_some_iff] at within ⊢
                  obtain ⟨rest, later, rfl⟩ := within
                  rw [ih later]

end AtomSpaceCog
