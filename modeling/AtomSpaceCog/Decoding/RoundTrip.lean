import AtomSpaceCog.Decoding.Effects
import AtomSpaceCog.Sexpr.Plain

/-! # Decoding what was printed

`ro_decode_alist` on the text of an association list with blanks around its pairs. Each
search starts outside of every key and value, since the readers leave the position just
past what they read; so it finds the parenthesis of the next pair, or none.
-/

namespace AtomSpaceCog

variable {sexpr : Sexpr}

/-- The readers of Atoms and Values undo the writers, and stop just past the
expression. -/
structure Sexpr.Undoes (sexpr : Sexpr) : Prop where
  atom : ∀ front atom back,
    sexpr.decodeAtom (front ++ sexpr.encodeAtom atom ++ back) front.length =
      some (atom, front.length + (sexpr.encodeAtom atom).length)
  value : ∀ front value back,
    sexpr.decodeValue (front ++ sexpr.encodeValue (some value) ++ back) front.length =
      some (some value, front.length + (sexpr.encodeValue (some value)).length)

theorem Sexpr.Inverts.undoes (inverts : sexpr.Inverts) : sexpr.Undoes :=
  ⟨inverts.atom, inverts.value⟩

/-- `(KEY . VALUE)` -/
def pairText (pair : sexpr.Content × sexpr.Value) : Str :=
  40 :: (sexpr.encodeAtom pair.1 ++ bytes " . " ++ sexpr.encodeValue (some pair.2) ++ [41])

/-- The pairs with what stands before each, up to the end of the text. -/
def pairsText (entries : List (Str × sexpr.Content × sexpr.Value)) (gap trail : Str) : Str :=
  entries.flatMap (fun entry => entry.1 ++ pairText entry.2) ++ gap ++ 41 :: trail

/-- `((KEY . VALUE)(KEY2 . VALUE2)...)`, with texts before the list, before each pair,
before the closing parenthesis and after the list. -/
def alistText (lead : Str) (entries : List (Str × sexpr.Content × sexpr.Value)) (gap trail : Str) :
    Str :=
  lead ++ 40 :: pairsText entries gap trail

theorem Blank.no_open {text : Str} (blank : Blank text) : 40 ∉ text := fun member =>
  absurd (blank 40 member) (by decide)

theorem length_le_pairsText (entries : List (Str × sexpr.Content × sexpr.Value)) (gap trail : Str) :
    entries.length ≤ (pairsText entries gap trail).length := by
  induction entries with
  | nil => exact Nat.zero_le _
  | cons entry entries ih =>
      simp only [pairsText, List.flatMap_cons, pairText, List.length_append, List.length_cons]
        at ih ⊢
      omega

/-- The round at a printed pair stores it, and the search for the next one starts behind
it. -/
theorem alistRound_pairText (undoes : sexpr.Undoes) (front : Str) (pair : sexpr.Content × sexpr.Value)
    (rest : Str) : ∃ stop, alistRound sexpr (front ++ pairText pair ++ rest) front.length =
      some (⟨pair.1, stop, some pair.2⟩,
        find (front ++ pairText pair ++ rest) 40 (front ++ pairText pair).length) := by
  obtain ⟨key, value⟩ := pair
  -- the text, split where each reader and each search starts
  have atKey : front ++ pairText (key, value) ++ rest = (front ++ [40]) ++ sexpr.encodeAtom key ++
      (bytes " . " ++ sexpr.encodeValue (some value) ++ [41] ++ rest) := by
    simp [pairText]
  have atDot : front ++ pairText (key, value) ++ rest =
      (front ++ [40] ++ sexpr.encodeAtom key) ++ bytes " . " ++
        (sexpr.encodeValue (some value) ++ [41] ++ rest) := by
    simp [pairText]
  have atValue : front ++ pairText (key, value) ++ rest =
      (front ++ [40] ++ sexpr.encodeAtom key ++ bytes " . ") ++ sexpr.encodeValue (some value) ++
        ([41] ++ rest) := by
    simp [pairText]
  have atClose : front ++ pairText (key, value) =
      (front ++ [40] ++ sexpr.encodeAtom key ++ bytes " . " ++ sexpr.encodeValue (some value)) ++
        [41] := by
    simp [pairText]
  have keyRead : sexpr.decodeAtom (front ++ pairText (key, value) ++ rest) (front.length + 1) =
      some (key, (front ++ [40] ++ sexpr.encodeAtom key).length) := by
    have read := undoes.atom (front ++ [40]) key
      (bytes " . " ++ sexpr.encodeValue (some value) ++ [41] ++ rest)
    rwa [← atKey, ← List.length_append, List.length_append, List.length_singleton] at read
  have dotFound : findText (front ++ pairText (key, value) ++ rest) (bytes " . ")
      (front ++ [40] ++ sexpr.encodeAtom key).length =
        some (front ++ [40] ++ sexpr.encodeAtom key).length := by
    rw [atDot]
    exact findText_append _ _ _
  have valueRead : sexpr.decodeValue (front ++ pairText (key, value) ++ rest)
      ((front ++ [40] ++ sexpr.encodeAtom key).length + 3) =
        some (some value, (front ++ [40] ++ sexpr.encodeAtom key ++ bytes " . " ++
          sexpr.encodeValue (some value)).length) := by
    have read := undoes.value (front ++ [40] ++ sexpr.encodeAtom key ++ bytes " . ") value
      ([41] ++ rest)
    rwa [← atValue, ← List.length_append, List.length_append] at read
  have nextFound : find (front ++ pairText (key, value) ++ rest) 40
      (front ++ [40] ++ sexpr.encodeAtom key ++ bytes " . " ++ sexpr.encodeValue (some value)).length =
        find (front ++ pairText (key, value) ++ rest) 40 (front ++ pairText (key, value)).length := by
    rw [atClose]
    exact find_append _ (by decide) rest
  exact ⟨_, alistRound_eq_some.mpr ⟨keyRead, _, by rw [dotFound]; exact valueRead, nextFound⟩⟩

/-- The loop, started behind a part of the text, attaches the pairs that follow. -/
theorem alistLoop_pairsText (undoes : sexpr.Undoes) (space : Option SpaceId) (atom : Handle sexpr)
    {gap trail : Str} (gapBlank : Blank gap) (trailBlank : Blank trail)
    (entries : List (Str × sexpr.Content × sexpr.Value)) (blank : ∀ entry ∈ entries, Blank entry.1)
    (front : Str) (fuel : Nat) (enough : entries.length ≤ fuel) :
    alistLoop sexpr space atom (front ++ pairsText entries gap trail) fuel
        (find (front ++ pairsText entries gap trail) 40 front.length) =
      attachAll space atom (entries.map fun entry => (entry.2.1, some entry.2.2)) .done := by
  induction entries generalizing front fuel with
  | nil =>
      have closed : 40 ∉ pairsText ([] : List (Str × sexpr.Content × sexpr.Value)) gap trail := by
        simp only [pairsText, List.flatMap_nil, List.nil_append, List.mem_append, List.mem_cons]
        rintro (member | same | member)
        · exact gapBlank.no_open member
        · exact absurd same (by decide)
        · exact trailBlank.no_open member
      rw [find_none front closed]
      cases fuel <;> rfl
  | cons entry entries ih =>
      obtain ⟨before, pair⟩ := entry
      cases fuel with
      | zero => exact absurd enough (Nat.not_succ_le_zero _)
      | succ fuel =>
          have text : front ++ pairsText ((before, pair) :: entries) gap trail =
              (front ++ before) ++ pairText pair ++ pairsText entries gap trail := by
            simp [pairsText]
          have pairFound : find ((front ++ before) ++ pairText pair ++ pairsText entries gap trail) 40
              front.length = some (front ++ before).length := by
            rw [List.append_assoc, find_append front (blank _ List.mem_cons_self).no_open]
            exact findBy_append (decide_eq_true rfl) _ _
          obtain ⟨stop, round⟩ :=
            alistRound_pairText undoes (front ++ before) pair (pairsText entries gap trail)
          have rest := ih (fun other member => blank other (List.mem_cons_of_mem _ member))
            (front ++ before ++ pairText pair) fuel (Nat.le_of_succ_le_succ enough)
          rw [text, pairFound, alistLoop_of_round round, rest]
          rfl

/-- On a printed list, `ro_decode_alist` attaches its pairs. -/
theorem roDecodeAlist_alistText (undoes : sexpr.Undoes) (as : Option SpaceId) (h : Handle sexpr)
    {lead gap trail : Str} (leadBlank : Blank lead) (gapBlank : Blank gap) (trailBlank : Blank trail)
    (entries : List (Str × sexpr.Content × sexpr.Value))
    (blank : ∀ entry ∈ entries, Blank entry.1) :
    roDecodeAlist sexpr as h (alistText lead entries gap trail) =
      attachAll (as <|> h.getAtomSpace) h (entries.map fun entry => (entry.2.1, some entry.2.2))
        .done := by
  have found : findFirstNotOf (alistText lead entries gap trail) (bytes " \n\t") 0 =
      some lead.length := findFirstNotOf_append leadBlank (by decide) _
  have opens : (alistText lead entries gap trail)[lead.length]? = some 40 := by
    simp [alistText]
  have behind : alistText lead entries gap trail =
      (lead ++ [40]) ++ pairsText entries gap trail := by
    simp [alistText]
  have enough := length_le_pairsText entries gap trail
  have loop := alistLoop_pairsText undoes (as <|> h.getAtomSpace) h gapBlank trailBlank entries
    blank (lead ++ [40]) ((alistText lead entries gap trail).length + 1)
    (by rw [behind, List.length_append]; omega)
  rw [← behind, List.length_append, List.length_singleton] at loop
  unfold roDecodeAlist
  simp only [found, opens, ne_eq, not_true_eq_false, if_false]
  exact loop

/-- `ro_decode_alist` decodes the reply to its end, and finds these pairs. -/
def Decodes (reply : Str) (pairs : List (sexpr.Content × Option sexpr.Value)) : Prop :=
  ∀ (as : Option SpaceId) (h : Handle sexpr),
    roDecodeAlist sexpr as h reply = attachAll (as <|> h.getAtomSpace) h pairs .done

/-- The text prints the pairs, with blanks around them. -/
def Prints (reply : Str) (pairs : List (sexpr.Content × sexpr.Value)) : Prop :=
  ∃ lead entries gap trail, Blank lead ∧ Blank gap ∧ Blank trail ∧
    (∀ entry ∈ entries, Blank entry.1) ∧ entries.map Prod.snd = pairs ∧
      reply = alistText lead entries gap trail

theorem Prints.decodes (undoes : sexpr.Undoes) {reply : Str}
    {pairs : List (sexpr.Content × sexpr.Value)} (prints : Prints reply pairs) :
    Decodes reply (pairs.map fun pair => (pair.1, some pair.2)) := by
  obtain ⟨lead, entries, gap, trail, leadBlank, gapBlank, trailBlank, blank, rfl, rfl⟩ := prints
  intro as h
  rw [roDecodeAlist_alistText undoes as h leadBlank gapBlank trailBlank entries blank, List.map_map]
  rfl

/-- Decoding an association list undoes printing it: each key has its value, no other key
has changed, and where there is an AtomSpace the Atoms have found a home in it. A blank
text sets nothing. -/
theorem ro_decode_alist_undoes_printing (undoes : sexpr.Undoes) (as : Option SpaceId)
    (h : Handle sexpr) (memory : Memory sexpr) {lead gap trail : Str} (leadBlank : Blank lead)
    (gapBlank : Blank gap) (trailBlank : Blank trail)
    (entries : List (Str × sexpr.Content × sexpr.Value)) (blank : ∀ entry ∈ entries, Blank entry.1)
    (distinct : (entries.map fun entry => entry.2.1).Nodup) :
    (∃ final, (roDecodeAlist sexpr as h (alistText lead entries gap trail)).perform memory =
        some (final, []) ∧
      (∀ entry ∈ entries, final.getValue h entry.2.1 = some entry.2.2) ∧
      (∀ key, (∀ entry ∈ entries, key ≠ entry.2.1) →
        final.getValue h key = memory.getValue h key) ∧
      (∀ other ≠ h, final.values other = memory.values other) ∧
      (entries = [] → final = memory) ∧
      ∀ space, (as <|> h.getAtomSpace) = some space → ∀ entry ∈ entries,
        final.Holds space entry.2.1 ∧ ∀ atom ∈ sexpr.atomsIn entry.2.2, final.Holds space atom) ∧
      ∀ text, Blank text → (roDecodeAlist sexpr as h text).perform memory = some (memory, []) := by
  constructor
  · obtain ⟨own, others, frame, _, held⟩ :=
      foldl_attachTo (as <|> h.getAtomSpace) h memory (entries.map Prod.snd)
        (by rwa [List.map_map])
    have final : (entries.map Prod.snd).map (fun pair => (pair.1, some pair.2)) =
        entries.map fun entry => (entry.2.1, some entry.2.2) := List.map_map
    rw [final] at own others frame held
    refine ⟨_, ?_, ?_, ?_, frame, ?_, ?_⟩
    · rw [roDecodeAlist_alistText undoes as h leadBlank gapBlank trailBlank entries blank,
        perform_attachAll]
      rfl
    · intro entry member
      exact own entry.2 (List.mem_map_of_mem member)
    · intro key outside
      apply others key
      intro member
      obtain ⟨pair, listed, rfl⟩ := List.mem_map.mp member
      obtain ⟨entry, inside, rfl⟩ := List.mem_map.mp listed
      exact outside entry inside rfl
    · intro empty
      rw [empty]
      rfl
    · intro space given entry member
      exact held space given entry.2 (List.mem_map_of_mem member)
  · intro text blankText
    unfold roDecodeAlist
    rw [findFirstNotOf_none blankText]
    rfl

/-- A name with parentheses, a separator and quotes, a string that seems to close the list,
and a list as a value. -/
def quotedEntries : List (Str × plain.Content × plain.Value) :=
  [(bytes " ", .node .concept (bytes "a (b . c) \"d\""), .string (bytes ")) . (")),
    (bytes "\n", .node .predicate (bytes "p"), .atom (.link .list [.node .concept (bytes "x")]))]

theorem ro_decode_alist_undoes_printing_quoted :
    ∃ final, (roDecodeAlist plain (some 0) ⟨.node .concept (bytes "h"), .loose 0⟩
        (bytes
          "\n( ((Concept \"a (b . c) \\\"d\\\"\") . (StringValue \")) . (\"))\n((Predicate \"p\") . (List (Concept \"x\"))) )\n")).perform
          (Memory.empty ()) = some (final, []) ∧
      (final.getValue ⟨.node .concept (bytes "h"), .loose 0⟩
        (.node Plain.Kind.concept (bytes "a (b . c) \"d\"")) = some (.string (bytes ")) . (")) ∧
      final.Holds 0 (.node Plain.Kind.concept (bytes "a (b . c) \"d\"")) ∧
      final.Holds 0 (.link Plain.Kind.list [.node .concept (bytes "x")])) := by
  have newline : Blank (bytes "\n") := by decide
  have blank : Blank (bytes " ") := by decide
  have blanks : ∀ entry ∈ quotedEntries, Blank entry.1 := by decide +kernel
  have distinct : (quotedEntries.map fun entry => entry.2.1).Nodup := by decide +kernel
  have text : alistText (bytes "\n") quotedEntries (bytes " ") (bytes "\n") = bytes
      "\n( ((Concept \"a (b . c) \\\"d\\\"\") . (StringValue \")) . (\"))\n((Predicate \"p\") . (List (Concept \"x\"))) )\n" := by
    decide +kernel
  obtain ⟨⟨final, performed, own, _, _, _, held⟩, _⟩ :=
    ro_decode_alist_undoes_printing Plain.plain_inverts.undoes (some 0)
      ⟨.node .concept (bytes "h"), .loose 0⟩ (Memory.empty ()) newline blank newline quotedEntries
      blanks distinct
  rw [text] at performed
  refine ⟨final, performed, own _ List.mem_cons_self, ?_, ?_⟩
  · exact (held 0 rfl _ List.mem_cons_self).1
  · exact (held 0 rfl _ (List.mem_cons_of_mem _ List.mem_cons_self)).2 _ List.mem_cons_self

end AtomSpaceCog
