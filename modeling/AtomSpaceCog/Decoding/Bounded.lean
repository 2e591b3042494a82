import AtomSpaceCog.Decoding.Walk

/-! # Every walk over a list reply ends

`decode_atom_list` looks for the next expression behind the one that it has decoded. So it ends,
whatever the server has sent: both nodes make at most one round for each byte of the reply, and
one more.
-/

namespace AtomSpaceCog

open Simple

/-- An expression that `get_next_expr` finds closed begins inside of the text, no earlier than
where it was looked for, and ends behind its beginning. -/
def Sexpr.FindsAhead (sexpr : Sexpr) : Prop :=
  ∀ {text l r pcnt left right}, sexpr.getNextExpr text l r = some (pcnt, left, right) →
    left ≠ right → ¬ 0 < pcnt → l ≤ left ∧ left < right ∧ left < text.length

section Rounds

variable {sexpr : Sexpr} {expr : Str}

/-- After a round that goes on, fewer bytes are left than rounds. -/
theorem Sexpr.FindsAhead.rounds_left (ahead : sexpr.FindsAhead) {l r left right rounds : Nat}
    {pcnt : Int} (found : sexpr.getNextExpr expr l r = some (pcnt, left, right))
    (other : left ≠ right) (closed : ¬ 0 < pcnt) (enough : expr.length - l < rounds + 1) :
    expr.length - (right + 1) < rounds := by
  obtain ⟨behind, ends, inside⟩ := ahead found other closed
  omega

/-- The loop of a `CogStorage` does not run out of rounds. -/
theorem atomListLoop_rounds (ahead : sexpr.FindsAhead) (table : SpaceId) (finish : Nat)
    {rounds more l r : Nat} (enough : expr.length - l < rounds) (within : rounds ≤ more) :
    atomListLoop sexpr table expr finish more l r =
      atomListLoop sexpr table expr finish rounds l r := by
  induction rounds generalizing more l r with
  | zero => exact absurd enough (Nat.not_lt_zero _)
  | succ rounds ih =>
      obtain ⟨more, rfl⟩ : ∃ rest, more = rest + 1 := ⟨more - 1, by omega⟩
      simp only [atomListLoop]
      cases found : sexpr.getNextExpr expr l r with
      | none => rfl
      | some bounds =>
          obtain ⟨pcnt, left, right⟩ := bounds
          by_cases same : left = right
          · simp only [same, if_true]
          by_cases unclosed : 0 < pcnt
          · simp only [same, unclosed, if_true, if_false]
          have left_over := ahead.rounds_left found same unclosed enough
          simp only [same, unclosed, if_false, ih left_over (Nat.le_of_succ_le_succ within)]

end Rounds

section Plain

variable {sexpr : FrameSexpr} {expr : Str}

/-- Nor does the one of a `CogSimpleStorage`. -/
theorem simple_atomListLoop_rounds (ahead : sexpr.toSexpr.FindsAhead) (table : SpaceId)
    (finish : Nat) (next : SimpleProg sexpr) {rounds more l r : Nat}
    (enough : expr.length - l < rounds) (within : rounds ≤ more) :
    CogSimpleStorage.atomListLoop table expr finish next more l r =
      CogSimpleStorage.atomListLoop table expr finish next rounds l r := by
  induction rounds generalizing more l r with
  | zero => exact absurd enough (Nat.not_lt_zero _)
  | succ rounds ih =>
      obtain ⟨more, rfl⟩ : ∃ rest, more = rest + 1 := ⟨more - 1, by omega⟩
      simp only [CogSimpleStorage.atomListLoop]
      cases found : sexpr.getNextExpr expr l r with
      | none => rfl
      | some bounds =>
          obtain ⟨pcnt, left, right⟩ := bounds
          by_cases same : left = right
          · simp only [same, if_true]
          by_cases unclosed : 0 < pcnt
          · simp only [same, unclosed, if_true, if_false]
          have left_over := ahead.rounds_left found same unclosed enough
          simp only [same, unclosed, if_false, ih left_over (Nat.le_of_succ_le_succ within)]

/-- `decode_atom_list` ends on every text: with any bound on its rounds that is greater than the
length of the text, both nodes do the same. -/
theorem decode_atom_list_ends (ahead : sexpr.toSexpr.FindsAhead) (table : SpaceId) (expr : Str)
    (finish l r : Nat) (next : SimpleProg sexpr) {rounds : Nat} (enough : expr.length < rounds) :
    atomListLoop sexpr.toSexpr table expr finish rounds l r =
        atomListLoop sexpr.toSexpr table expr finish (expr.length + 1) l r ∧
      CogSimpleStorage.atomListLoop table expr finish next rounds l r =
        CogSimpleStorage.atomListLoop table expr finish next (expr.length + 1) l r := by
  have left_over : expr.length - l < expr.length + 1 := Nat.lt_succ_of_le (Nat.sub_le _ _)
  exact ⟨atomListLoop_rounds ahead table finish left_over enough,
    simple_atomListLoop_rounds ahead table finish next left_over enough⟩

end Plain

/-- Blanks are passed over, and what follows is read up to its closing parenthesis. -/
theorem spaced_findsAhead : spaced.FindsAhead := by
  intro text l r pcnt left right found other closed
  change Spaced.getNextExpr text l r = _ at found
  unfold Spaced.getNextExpr Plain.getNextExpr at found
  dsimp only at found
  split at found
  · cases found
    exact absurd rfl other
  split at found
  · next same =>
      cases found
      exact absurd same other
  split at found
  · next rest here =>
      have inside : l + (Spaced.blanksAt text l).length < text.length := by
        by_contra outside
        rw [List.drop_eq_nil_of_le (Nat.le_of_not_lt outside)] at here
        cases here
      split at found
      · cases found
        omega
      · cases found
        exact absurd Int.zero_lt_one closed
  · cases found

/-- The second expression is not closed. -/
theorem decode_atom_list_ends_unclosed :
    atomListLoop spaced 0 (bytes "((Concept \"a\") (Concept \"b\"") 13 1000 1 13 =
      atomListLoop spaced 0 (bytes "((Concept \"a\") (Concept \"b\"") 13 28 1 13 := by
  have ahead : spacedFrames.toSexpr.FindsAhead := spaced_findsAhead
  exact (decode_atom_list_ends ahead 0 (bytes "((Concept \"a\") (Concept \"b\"") 13 1 13 .stuck
    (by decide)).1

end AtomSpaceCog
