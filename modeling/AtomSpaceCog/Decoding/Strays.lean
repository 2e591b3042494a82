import AtomSpaceCog.Decoding.Rounds
import AtomSpaceCog.Sexpr.Spaced

/-! # Where the pairs that are stored come from

`ro_decode_alist` searches for the separator instead of expecting it after the key. Each
value that it stores is the one written behind the key, unless the walk over the pairs of
the text meets a key that has no separator behind it while a value is found elsewhere.
-/

namespace AtomSpaceCog

/-- The readers throw, or decode the expression that comes next, after blanks. The two
relations say which texts are written for an Atom and for a Value. -/
structure Sexpr.Decodes (sexpr : Sexpr) (IsAtom : Str → sexpr.Content → Prop)
    (IsValue : Str → Option sexpr.Value → Prop) : Prop where
  atom : ∀ {text pos atom next}, sexpr.decodeAtom text pos = some (atom, next) →
    ∃ blanks expr back, text.drop pos = blanks ++ expr ++ back ∧ Blank blanks ∧ IsAtom expr atom ∧
      expr ≠ [] ∧ next = pos + blanks.length + expr.length
  value : ∀ {text pos value next}, sexpr.decodeValue text pos = some (value, next) →
    ∃ blanks expr back, text.drop pos = blanks ++ expr ++ back ∧ Blank blanks ∧
      IsValue expr value ∧ expr ≠ [] ∧ next = pos + blanks.length + expr.length

variable (sexpr : Sexpr)

/-- The separator stands at this position. -/
def DotAt (alist : Str) (stop : Nat) : Prop := bytes " . " <+: alist.drop stop

instance (alist : Str) (stop : Nat) : Decidable (DotAt alist stop) := by
  unfold DotAt
  infer_instance

/-- What was stored is a pair of the text: where the key was decoded, the separator comes
directly after it, and then, up to blanks, the value. -/
def FromPair {sexpr : Sexpr} (IsAtom : Str → sexpr.Content → Prop)
    (IsValue : Str → Option sexpr.Value → Prop) (alist : Str) (stored : Stored sexpr) : Prop :=
  ∃ front key blanks value back,
    alist = front ++ key ++ bytes " . " ++ blanks ++ value ++ back ∧
      (front ++ key).length = stored.stop ∧ IsAtom key stored.key ∧ Blank blanks ∧
        IsValue value stored.value

/-- A pair stands at this parenthesis, with the separator behind its key, and the next
parenthesis comes after it. -/
def Joined (alist : Str) (pos next : Nat) : Prop :=
  ∃ key stop value after, sexpr.decodeAtom alist (pos + 1) = some (key, stop) ∧ DotAt alist stop ∧
    sexpr.decodeValue alist (stop + 3) = some (value, after) ∧ find alist 40 after = some next

/-- At this parenthesis stands a key without the separator behind it, and a value can be
decoded after the next separator, or at offset 2 where there is none. -/
def StrayKey (alist : Str) (pos : Nat) : Prop :=
  ∃ key stop, sexpr.decodeAtom alist (pos + 1) = some (key, stop) ∧ ¬ DotAt alist stop ∧
    (sexpr.decodeValue alist (past (findText alist (bytes " . ") stop) 3)).isSome = true

/-- The walk over the pairs of the text comes to such a key. -/
def MeetsStray (alist : Str) : Prop :=
  ∃ first pos, firstPair alist = some first ∧
    Relation.ReflTransGen (Joined sexpr alist) first pos ∧ StrayKey sexpr alist pos

variable {sexpr} {alist : Str} {pos next stop : Nat}
  {IsAtom : Str → sexpr.Content → Prop} {IsValue : Str → Option sexpr.Value → Prop}

theorem DotAt.found (dot : DotAt alist stop) : findText alist (bytes " . ") stop = some stop := by
  obtain ⟨back, text⟩ := dot
  have inside : stop ≤ alist.length := by
    have lengths := congrArg List.length text
    simp only [List.length_append, List.length_drop, show (bytes " . ").length = 3 from rfl]
      at lengths
    omega
  have found := findText_append (alist.take stop) (bytes " . ") back
  rwa [List.append_assoc, text, List.take_append_drop, List.length_take_of_le inside] at found

theorem FromPair.dotAt {stored : Stored sexpr} (pair : FromPair IsAtom IsValue alist stored) :
    DotAt alist stored.stop := by
  obtain ⟨front, key, blanks, value, back, text, place, _⟩ := pair
  refine ⟨blanks ++ value ++ back, ?_⟩
  have regrouped : alist = (front ++ key) ++ (bytes " . " ++ (blanks ++ value ++ back)) := by
    rw [text]
    simp only [List.append_assoc]
  rw [regrouped, ← place, List.drop_left]

/-- A round at a key with the separator behind it stores a pair of the text. -/
theorem fromPair_of_dotAt (reads : sexpr.Decodes IsAtom IsValue) {stored : Stored sexpr}
    {after : Option Nat} (round : alistRound sexpr alist pos = some (stored, after))
    (dot : DotAt alist stored.stop) : FromPair IsAtom IsValue alist stored := by
  obtain ⟨keyRead, _, valueRead, _⟩ := alistRound_eq_some.mp round
  rw [dot.found] at valueRead
  obtain ⟨before, key, behind, keyText, _, isAtom, nonempty, keyEnd⟩ := reads.atom keyRead
  obtain ⟨blanks, value, back, valueText, blank, isValue, _⟩ := reads.value valueRead
  obtain ⟨rest, dotText⟩ := dot
  have behindEq : behind = bytes " . " ++ rest := by
    rw [dotText, keyEnd, Nat.add_assoc, ← List.drop_drop, keyText, ← List.length_append,
      List.drop_left]
  have restEq : rest = blanks ++ value ++ back := by
    rw [← valueText, past, ← List.drop_drop, ← dotText]
    rfl
  have whole : alist = alist.take (pos + 1) ++ (before ++ key ++ behind) := by
    rw [← keyText, List.take_append_drop]
  have inside : pos + 1 ≤ alist.length := by
    have lengths := congrArg List.length keyText
    have positive := List.length_pos_iff.mpr nonempty
    simp only [List.length_append, List.length_drop] at lengths
    omega
  refine ⟨alist.take (pos + 1) ++ before, key, blanks, value, back, ?_, ?_, isAtom, blank, isValue⟩
  · rw [behindEq, restEq] at whole
    simpa only [List.append_assoc] using whole
  · rw [keyEnd]
    simp only [List.length_append, List.length_take_of_le inside]

/-- A round at a key with the separator behind it goes on to the next pair. -/
theorem joined_of_next {stored : Stored sexpr}
    (round : alistRound sexpr alist pos = some (stored, some next))
    (dot : DotAt alist stored.stop) : Joined sexpr alist pos next := by
  obtain ⟨keyRead, after, valueRead, later⟩ := alistRound_eq_some.mp round
  rw [dot.found] at valueRead
  exact ⟨stored.key, stored.stop, stored.value, after, keyRead, dot, valueRead, later⟩

theorem next_of_joined (joined : Joined sexpr alist pos next) :
    Loop.Next (alistRound sexpr alist) pos next := by
  obtain ⟨key, stop, value, after, keyRead, dot, valueRead, later⟩ := joined
  refine ⟨⟨key, stop, value⟩, alistRound_eq_some.mpr ⟨keyRead, after, ?_, later⟩⟩
  rw [dot.found]
  exact valueRead

/-- A round that stores something at a key without the separator behind it is a stray
key. -/
theorem strayKey_iff : StrayKey sexpr alist pos ↔
    ∃ stored after, alistRound sexpr alist pos = some (stored, after) ∧
      ¬ DotAt alist stored.stop := by
  constructor
  · intro ⟨key, stop, keyRead, far, read⟩
    obtain ⟨⟨value, after⟩, valueRead⟩ := Option.isSome_iff_exists.mp read
    exact ⟨⟨key, stop, value⟩, _, alistRound_eq_some.mpr ⟨keyRead, after, valueRead, rfl⟩, far⟩
  · intro ⟨stored, _, round, far⟩
    obtain ⟨keyRead, _, valueRead, _⟩ := alistRound_eq_some.mp round
    exact ⟨stored.key, stored.stop, keyRead, far, Option.isSome_of_eq_some valueRead⟩

/-- Without stray keys the loop walks over the pairs of the text. -/
theorem joined_of_reaches {first last : Nat}
    (none : ∀ pos, Relation.ReflTransGen (Joined sexpr alist) first pos → ¬ StrayKey sexpr alist pos)
    (path : Relation.ReflTransGen (Loop.Next (alistRound sexpr alist)) first last) :
    Relation.ReflTransGen (Joined sexpr alist) first last := by
  induction path with
  | refl => exact .refl
  | @tail pos next _ goes ih =>
      obtain ⟨stored, round⟩ := goes
      have dot : DotAt alist stored.stop :=
        Classical.byContradiction fun far => none pos ih (strayKey_iff.mpr ⟨stored, _, round, far⟩)
      exact ih.tail (joined_of_next round dot)

/-- Each pair that is stored comes from a pair of the text, on exactly those texts whose
walk meets no stray key. -/
theorem ro_decode_alist_pairs_iff (reads : sexpr.Decodes IsAtom IsValue) (alist : Str) :
    (∀ count, ∀ stored ∈ storedWithin sexpr alist count, FromPair IsAtom IsValue alist stored) ↔
      ¬ MeetsStray sexpr alist := by
  constructor
  · intro fromPairs ⟨first, pos, start, path, stray⟩
    obtain ⟨stored, after, round, far⟩ := strayKey_iff.mp stray
    have reaches : Relation.ReflTransGen (Loop.Next (alistRound sexpr alist)) first pos :=
      Relation.ReflTransGen.mono (fun _ _ => next_of_joined) _ _ path
    obtain ⟨count, member⟩ := Loop.mem_items_of_reaches reaches round
    exact far (fromPairs count stored (by rwa [storedWithin, start])).dotAt
  · intro none count stored member
    obtain ⟨first, start, pos, after, path, round⟩ := Loop.reaches_of_mem_items member
    have joined := joined_of_reaches (fun pos path stray => none ⟨first, pos, start, path, stray⟩) path
    apply fromPair_of_dotAt reads round
    apply Classical.byContradiction
    intro far
    exact none ⟨first, pos, start, joined, strayKey_iff.mpr ⟨stored, after, round, far⟩⟩

theorem spaced_decodes : spaced.Decodes Spaced.WritesAtom Spaced.WritesValue where
  atom found := by
    obtain ⟨blanks, back, text, blank, nonempty, next⟩ := Spaced.reread_eq_some found
    exact ⟨blanks, _, back, text, blank, rfl, nonempty, next⟩
  value found := by
    obtain ⟨blanks, back, text, blank, nonempty, next⟩ := Spaced.reread_eq_some found
    exact ⟨blanks, _, back, text, blank, rfl, nonempty, next⟩

/-- A reply that is cut off behind its first value. -/
def truncated : Str := bytes "(((Concept \"a\") . (Concept \"b\")"

theorem not_meetsStray_truncated : ¬ MeetsStray spaced truncated := by
  intro ⟨first, pos, start, path, stray⟩
  have starts : firstPair truncated = some 1 := by decide +kernel
  obtain rfl := Option.some.inj (starts.symm.trans start)
  have last : (alistRound spaced truncated 1).map (fun found => (found.1.stop, found.2)) =
      some (15, none) := by decide +kernel
  obtain ⟨⟨stored, after⟩, round, ends⟩ := Option.map_eq_some_iff.mp last
  obtain ⟨stop, rfl⟩ := Prod.mk.inj ends
  rcases path.cases_head with rfl | ⟨next, joined, _⟩
  · obtain ⟨other, after, again, far⟩ := strayKey_iff.mp stray
    obtain ⟨rfl, _⟩ := Prod.mk.inj (Option.some.inj (round.symm.trans again))
    rw [stop] at far
    exact far (by decide +kernel)
  · obtain ⟨other, again⟩ := next_of_joined joined
    exact nomatch (Prod.mk.inj (Option.some.inj (round.symm.trans again))).2

/-- The value that is stored from it belongs to its key. -/
theorem ro_decode_alist_pairs_of_truncated :
    ∃ stored ∈ storedWithin spaced truncated 2,
      FromPair Spaced.WritesAtom Spaced.WritesValue truncated stored := by
  have one : (storedWithin spaced truncated 2).map Stored.stop = [15] := by decide +kernel
  obtain ⟨stored, member, _⟩ := List.mem_map.mp (one ▸ List.mem_singleton_self 15)
  exact ⟨stored, member,
    (ro_decode_alist_pairs_iff spaced_decodes truncated).mpr not_meetsStray_truncated 2 stored member⟩

/-- A key without a value is given the value of the next pair. -/
theorem ro_decode_alist_strays :
    spaced.Decodes Spaced.WritesAtom Spaced.WritesValue ∧
      ∃ stored ∈ storedWithin spaced
          (bytes "(((Concept \"a\"))((Concept \"b\") . (Concept \"c\")))") 1,
        ¬ FromPair Spaced.WritesAtom Spaced.WritesValue
          (bytes "(((Concept \"a\"))((Concept \"b\") . (Concept \"c\")))") stored := by
  refine ⟨spaced_decodes, ?_⟩
  have one : (storedWithin spaced
      (bytes "(((Concept \"a\"))((Concept \"b\") . (Concept \"c\")))") 1).map Stored.stop = [15] := by
    decide +kernel
  obtain ⟨stored, member, stop⟩ := List.mem_map.mp (one ▸ List.mem_singleton_self 15)
  refine ⟨stored, member, fun pair => ?_⟩
  have dot := pair.dotAt
  rw [stop] at dot
  exact absurd dot (by decide +kernel)

end AtomSpaceCog
