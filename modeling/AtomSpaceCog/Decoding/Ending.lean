import AtomSpaceCog.Decoding.Rounds
import AtomSpaceCog.Sexpr.Spaced

/-! # When the alist decoder ends

Each round goes forward in the text while a separator follows its key. When none does,
`find` gives `npos`, and the position after it, `npos + 3`, is 2: the decoder starts
again near the beginning. It does so a second time, and then for ever, exactly when
that second walk meets such a key too.
-/

namespace AtomSpaceCog

variable (sexpr : Sexpr)

/-- At this parenthesis a key is decoded that no separator follows. -/
def LacksDot (alist : Str) (pos : Nat) : Prop :=
  ∃ key stop, sexpr.decodeAtom alist (pos + 1) = some (key, stop) ∧
    findText alist (bytes " . ") stop = none

/-- At this parenthesis stands a key, with a separator and a value further on, and the
next parenthesis comes after them. -/
def Follows (alist : Str) (pos next : Nat) : Prop :=
  ∃ key stop dot value after, sexpr.decodeAtom alist (pos + 1) = some (key, stop) ∧
    findText alist (bytes " . ") stop = some dot ∧
      sexpr.decodeValue alist (dot + 3) = some (value, after) ∧ find alist 40 after = some next

/-- The walk from this parenthesis comes to a key without a separator. -/
def RunsOut (alist : Str) (pos : Nat) : Prop :=
  ∃ last, Relation.ReflTransGen (Follows sexpr alist) pos last ∧ LacksDot sexpr alist last

/-- The first parenthesis after the expression at offset 2. -/
def secondStart (alist : Str) : Option Nat :=
  match sexpr.decodeValue alist 2 with
  | none => none
  | some (_, pos) => find alist 40 pos

/-- Both walks come to a key without a separator: the one from the first pair, and the one
from the second start. -/
def RunsOutTwice (alist : Str) : Prop :=
  (∃ first, firstPair alist = some first ∧ RunsOut sexpr alist first) ∧
    ∃ again, secondStart sexpr alist = some again ∧ RunsOut sexpr alist again

variable {sexpr} {alist : Str} {pos next : Nat}

theorem past_none : past none 3 = 2 := by decide

/-- A round goes on to a later pair, or from a key without a separator to the second
start. -/
theorem next_cases (goes : Loop.Next (alistRound sexpr alist) pos next) :
    Follows sexpr alist pos next ∨
      LacksDot sexpr alist pos ∧ secondStart sexpr alist = some next := by
  obtain ⟨⟨key, stop, value⟩, found⟩ := goes
  obtain ⟨keyRead, after, valueRead, later⟩ := alistRound_eq_some.mp found
  cases dot : findText alist (bytes " . ") stop with
  | none =>
      rw [dot, past_none] at valueRead
      exact .inr ⟨⟨key, stop, keyRead, dot⟩, by simp only [secondStart, valueRead, later]⟩
  | some dot' =>
      rw [dot] at valueRead
      exact .inl ⟨key, stop, dot', value, after, keyRead, dot, valueRead, later⟩

theorem next_of_follows (follows : Follows sexpr alist pos next) :
    Loop.Next (alistRound sexpr alist) pos next := by
  obtain ⟨key, stop, dot, value, after, keyRead, found, valueRead, later⟩ := follows
  refine ⟨⟨key, stop, value⟩, alistRound_eq_some.mpr ⟨keyRead, after, ?_, later⟩⟩
  rw [found]
  exact valueRead

theorem next_of_lacksDot (lacks : LacksDot sexpr alist pos)
    (again : secondStart sexpr alist = some next) : Loop.Next (alistRound sexpr alist) pos next := by
  obtain ⟨key, stop, keyRead, absent⟩ := lacks
  unfold secondStart at again
  split at again
  · cases again
  · next value after valueRead =>
      refine ⟨⟨key, stop, value⟩, alistRound_eq_some.mpr ⟨keyRead, after, ?_, again⟩⟩
      rw [absent, past_none]
      exact valueRead

theorem next_of_round
    (found : (alistRound sexpr alist pos).map Prod.snd = some (some next)) :
    Loop.Next (alistRound sexpr alist) pos next := by
  obtain ⟨⟨stored, later⟩, found, rfl⟩ := Option.map_eq_some_iff.mp found
  exact ⟨stored, found⟩

/-- A pair takes up at least six bytes. -/
theorem Follows.bounds (advances : sexpr.Advances) (follows : Follows sexpr alist pos next) :
    pos + 6 ≤ next ∧ next < alist.length := by
  obtain ⟨key, stop, dot, value, after, keyRead, found, valueRead, later⟩ := follows
  have keyEnd := (advances.atom keyRead).1
  have dotEnd := findText_le found
  have valueEnd := (advances.value valueRead).1
  have bounds := findBy_bounds later
  omega

/-- A walk that does not run out is over after as many rounds as pairs fit in the text. -/
theorem endsWithin_of_not_runsOut (advances : sexpr.Advances) (whole : ¬ RunsOut sexpr alist pos) :
    Loop.endsWithin (alistRound sexpr alist) (alist.length / 6 + 1) (some pos) = true := by
  refine Loop.endsWithin_of_shrinks (fun pos => ¬ RunsOut sexpr alist pos)
    (fun pos => (alist.length - pos) / 6) 0 ?_ whole (by omega)
  intro pos next whole goes
  rcases next_cases goes with follows | ⟨lacks, _⟩
  · have bounds := follows.bounds advances
    refine .inl ⟨fun ⟨last, path, lacks⟩ => whole ⟨last, .head follows path, lacks⟩, ?_⟩
    omega
  · exact absurd ⟨pos, .refl, lacks⟩ whole

/-- From anywhere, a loop that does not run out after the second start is over after
twice as many rounds. -/
theorem endsWithin_of_second (advances : sexpr.Advances) (pos : Nat)
    (whole : ∀ again, secondStart sexpr alist = some again → ¬ RunsOut sexpr alist again) :
    Loop.endsWithin (alistRound sexpr alist) (alist.length / 6 + 1 + (alist.length / 6 + 1))
      (some pos) = true := by
  refine Loop.endsWithin_of_shrinks (fun _ => True) (fun pos => (alist.length - pos) / 6)
    (alist.length / 6 + 1) ?_ trivial (by omega)
  intro pos next _ goes
  rcases next_cases goes with follows | ⟨_, again⟩
  · have bounds := follows.bounds advances
    exact .inl ⟨trivial, by omega⟩
  · exact .inr (endsWithin_of_not_runsOut advances (whole next again))

/-- A walk that runs out, where the second one does too, always goes on. -/
theorem RunsOut.stays {again : Nat} (second : secondStart sexpr alist = some again)
    (outAgain : RunsOut sexpr alist again) (out : RunsOut sexpr alist pos) :
    ∃ next, Loop.Next (alistRound sexpr alist) pos next ∧ RunsOut sexpr alist next := by
  obtain ⟨last, path, lacks⟩ := out
  rcases path.cases_head with rfl | ⟨next, follows, rest⟩
  · exact ⟨again, next_of_lacksDot lacks second, outAgain⟩
  · exact ⟨next, next_of_follows follows, last, rest, lacks⟩

/-- A loop that ends is over after as many rounds as the text has bytes, and one. -/
theorem endsWithin_length (advances : sexpr.Advances) (once : ¬ RunsOutTwice sexpr alist) :
    Loop.endsWithin (alistRound sexpr alist) (alist.length + 1) (firstPair alist) = true := by
  cases start : firstPair alist with
  | none => exact Loop.endsWithin_none _
  | some first =>
      have inside : 0 < alist.length := by
        unfold firstPair at start
        split at start
        · cases start
        · split at start
          · cases start
          · have bounds := findBy_bounds start
            omega
      by_cases out : RunsOut sexpr alist first
      · have second := endsWithin_of_second advances first fun again second outAgain =>
          once ⟨⟨first, start, out⟩, again, second, outAgain⟩
        exact Loop.endsWithin_mono second (by omega)
      · exact Loop.endsWithin_mono (endsWithin_of_not_runsOut advances out) (by omega)

theorem spaced_advances : spaced.Advances where
  atom := Spaced.reread_advances
  value := Spaced.reread_advances

/-- What the bounded loop does when it ends, `ro_decode_alist` does. -/
theorem roDecodeAlist_of_within (advances : sexpr.Advances) (once : ¬ RunsOutTwice sexpr alist)
    (as : Option SpaceId) (atom : Handle sexpr) :
    roDecodeAlistWithin sexpr (alist.length + 1) as atom alist =
      some (roDecodeAlist sexpr as atom alist) := by
  have ends := roDecodeAlistWithin_isSome as atom alist (alist.length + 1)
  rw [endsWithin_length advances once] at ends
  obtain ⟨work, within⟩ := Option.isSome_iff_exists.mp ends
  rw [within]
  unfold roDecodeAlistWithin at within
  unfold roDecodeAlist
  split at within
  · next blank => simpa [blank] using within.symm
  · next pos found =>
      simp only [found]
      split at within
      · next bad => simpa [bad] using within.symm
      · next good => rw [if_neg good, alistLoop_of_within within]

/-- `ro_decode_alist` ends on exactly those texts on which it does not run out of
separators twice. -/
theorem ro_decode_alist_ends_iff (advances : sexpr.Advances) (as : Option SpaceId)
    (atom : Handle sexpr) (alist : Str) :
    (∃ rounds, (roDecodeAlistWithin sexpr rounds as atom alist).isSome = true) ↔
      ¬ RunsOutTwice sexpr alist := by
  simp only [roDecodeAlistWithin_isSome]
  constructor
  · intro ⟨rounds, ends⟩ ⟨⟨first, start, out⟩, again, second, outAgain⟩
    rw [start, Loop.not_endsWithin_of_stays (RunsOut.stays second outAgain) out] at ends
    exact Bool.false_ne_true ends
  · intro once
    exact ⟨alist.length + 1, endsWithin_length advances once⟩

/-- A key without a separator after a whole pair sends the decoder back once. -/
theorem ro_decode_alist_ends_after_second_start :
    ∃ rounds, (roDecodeAlistWithin spaced rounds none ⟨.node .concept (bytes "h"), .space 0⟩
      (bytes "(((Concept \"a\") . (Concept \"b\"))((Concept \"c\")))")).isSome = true := by
  apply (ro_decode_alist_ends_iff spaced_advances _ _ _).mpr
  intro ⟨_, again, second, last, path, lacks⟩
  have start : secondStart spaced
      (bytes "(((Concept \"a\") . (Concept \"b\"))((Concept \"c\")))") = some 18 := by
    decide +kernel
  have throws : spaced.decodeAtom
      (bytes "(((Concept \"a\") . (Concept \"b\"))((Concept \"c\")))") (18 + 1) = none :=
    Option.isNone_iff_eq_none.mp (by decide +kernel)
  obtain rfl := Option.some.inj (start.symm.trans second)
  rcases path.cases_head with rfl | ⟨_, ⟨_, _, _, _, _, keyRead, _⟩, _⟩
  · obtain ⟨_, _, keyRead, _⟩ := lacks
    exact nomatch throws.symm.trans keyRead
  · exact nomatch throws.symm.trans keyRead

/-- Two keys without values: the decoder never ends. -/
theorem ro_decode_alist_circles :
    spaced.Advances ∧ ¬ ∃ rounds, (roDecodeAlistWithin spaced rounds none
      ⟨.node .concept (bytes "h"), .space 0⟩
      (bytes "(((Concept \"a\"))((Concept \"b\")))")).isSome = true := by
  refine ⟨spaced_advances, ?_⟩
  intro ⟨rounds, ends⟩
  have stays : ∀ {pos}, pos = 1 ∨ pos = 16 → ∃ next, Loop.Next (alistRound spaced
      (bytes "(((Concept \"a\"))((Concept \"b\")))")) pos next ∧ (next = 1 ∨ next = 16) := by
    intro pos here
    rcases here with rfl | rfl
    · exact ⟨16, next_of_round (by decide +kernel), .inr rfl⟩
    · exact ⟨16, next_of_round (by decide +kernel), .inr rfl⟩
  have start : firstPair (bytes "(((Concept \"a\"))((Concept \"b\")))") = some 1 := by
    decide +kernel
  rw [roDecodeAlistWithin_isSome, start, Loop.not_endsWithin_of_stays stays (.inl rfl)] at ends
  exact Bool.false_ne_true ends

end AtomSpaceCog
