import AtomSpaceCog.Decoding.Lists
import AtomSpaceCog.Decoding.RoundTrip
import AtomSpaceCog.Sexpr.Spaced
import AtomSpaceCog.Simple.Talk

/-! # The walks of both storage nodes

`CogSimpleStorage::decode_atom_list` walks over a list reply as `CogStorage` does, but waits
for the values on each Atom before it goes on.
-/

namespace AtomSpaceCog

open Simple

/-- A reply that `ro_decode_alist` decodes to its end. -/
def Decodable {S : Sexpr} (reply : Str) : Prop :=
  ∃ pairs, @Decodes S reply pairs

variable {sexpr : FrameSexpr} {IsExpr : Str → sexpr.Content → Prop}

/-- Decoding makes no requests. -/
theorem talks_attachAll (space : Option SpaceId) (h : Handle sexpr.toSexpr)
    (pairs : List (sexpr.Content × Option sexpr.Value)) (node : Node sexpr)
    (next : SimpleProg sexpr) :
    Talks (decode next (attachAll space h pairs .done)) node [] [] next
      { node with memory := pairs.foldl (attachTo space h) node.memory } := by
  induction pairs generalizing node with
  | nil => exact .here next node
  | cons pair pairs ih =>
      have rest := ih { node with memory := attachTo space h node.memory pair }
      cases space with
      | none => exact .touch rest
      | some space => exact .touch (.touch (.touch (.touch rest)))

theorem grows_foldl_attachTo (space : Option SpaceId) (h : Handle sexpr.toSexpr)
    (pairs : List (sexpr.Content × Option sexpr.Value)) (memory : Memory sexpr.toSexpr) :
    memory.Grows (pairs.foldl (attachTo space h) memory) := by
  induction pairs generalizing memory with
  | nil => exact .refl memory
  | cons pair pairs ih => exact (grows_attachTo space h memory pair).trans (ih _)

/-- The memory after an Atom of a list was inserted, and pairs were attached to it. -/
def visited (table space : SpaceId) (fidMap : sexpr.FidMap) (atom : sexpr.Content)
    (pairs : List (sexpr.Content × Option sexpr.Value)) (memory : Memory sexpr.toSexpr) :
    Memory sexpr.toSexpr :=
  let inserted := { memory with fidMap := fidMap }.insertAtom space atom
  pairs.foldl (attachTo (some table) (inserted.handleOf space atom)) inserted

theorem visited_spec (table space : SpaceId) (fidMap : sexpr.FidMap) (atom : sexpr.Content)
    (pairs : List (sexpr.Content × Option sexpr.Value)) (memory : Memory sexpr.toSexpr) :
    memory.Grows (visited table space fidMap atom pairs memory) ∧
      (visited table space fidMap atom pairs memory).Holds space atom := by
  have inserted := (Memory.insertAtom_spec { memory with fidMap := fidMap } space atom).2.1
  have held := Memory.holds_insertAtom { memory with fidMap := fidMap } space atom
  have attached := grows_foldl_attachTo (some table)
    (({ memory with fidMap := fidMap }.insertAtom space atom).handleOf space atom) pairs
    ({ memory with fidMap := fidMap }.insertAtom space atom)
  exact ⟨⟨attached.bases.trans inserted.bases, fun member => attached.atoms (inserted.atoms member)⟩,
    attached.holds held⟩

/-- The AtomSpace in which the Atom of an element is decoded, in some text. -/
def Element.Home (element : Element sexpr.toSexpr) (home : Option SpaceId) : Prop :=
  ∃ fidMap expr l r, substr expr l (r - l + 1) = element.expr ∧ sexpr.homeIn fidMap expr l r = home

/-- What a visit of each element keeps, and what it brings about. -/
structure Visiting (table : SpaceId) (start : Memory sexpr.toSexpr)
    (elements : List (Element sexpr.toSexpr))
    (Keeps : Memory sexpr.toSexpr → Memory sexpr.toSexpr → Prop)
    (Done : Element sexpr.toSexpr → Str → Memory sexpr.toSexpr → Prop) : Prop where
  refl : ∀ memory, Keeps memory memory
  trans : ∀ {memory middle later}, Keeps memory middle → Keeps middle later → Keeps memory later
  stable : ∀ {element reply memory later}, Keeps memory later → Done element reply memory →
    Done element reply later
  visits : ∀ element ∈ elements, ∀ {reply pairs home}, element.Home home →
    @Decodes sexpr.toSexpr reply pairs → ∀ fidMap memory, Keeps start memory →
      Keeps memory (visited table (home.getD table) fidMap element.atom pairs memory) ∧
        Done element reply (visited table (home.getD table) fidMap element.atom pairs memory)

section Walk

variable {table : SpaceId} {start : Memory sexpr.toSexpr}
  {Keeps : Memory sexpr.toSexpr → Memory sexpr.toSexpr → Prop}
  {Done : Element sexpr.toSexpr → Str → Memory sexpr.toSexpr → Prop}

theorem Visiting.tail {element : Element sexpr.toSexpr} {elements : List (Element sexpr.toSexpr)}
    (visiting : Visiting table start (element :: elements) Keeps Done) :
    Visiting table start elements Keeps Done where
  refl := visiting.refl
  trans := visiting.trans
  stable := visiting.stable
  visits other member := visiting.visits other (List.mem_cons_of_mem _ member)

/-- The loop of `CogSimpleStorage::decode_atom_list`, with the bounds of what is left of the
list, visits the elements that are left. -/
theorem talks_atomListLoop (brackets : sexpr.Brackets IsExpr) {gap : Str} (blank : Blank gap)
    (back : Str) (next : SimpleProg sexpr) (visits : List (Element sexpr.toSexpr × Str))
    (good : ∀ element ∈ visits.map Prod.fst, element.Good IsExpr)
    (decodable : ∀ reply ∈ visits.map Prod.snd, Decodable (S := sexpr.toSexpr) reply)
    (visiting : Visiting table start (visits.map Prod.fst) Keeps Done) (front : Str) (fuel : Nat)
    (enough : visits.length < fuel) (node : Node sexpr) (since : Keeps start node.memory) :
    ∃ final, Talks (CogSimpleStorage.atomListLoop table
        (front ++ elementsText (visits.map Prod.fst) ++ gap ++ back)
        (front ++ elementsText (visits.map Prod.fst) ++ gap).length next fuel front.length
        (front ++ elementsText (visits.map Prod.fst) ++ gap).length) node
          (visits.map fun visit => keysAlistText visit.1.expr) (visits.map Prod.snd) next final ∧
      Keeps node.memory final.memory ∧ ∀ visit ∈ visits, Done visit.1 visit.2 final.memory := by
  induction visits generalizing front fuel node with
  | nil =>
      obtain ⟨fuel, rfl⟩ : ∃ rest, fuel = rest + 1 := ⟨fuel - 1, by omega⟩
      obtain ⟨pcnt, ends⟩ := brackets.blank front back blank
      refine ⟨node, ?_, visiting.refl node.memory, nofun⟩
      simp only [List.map_nil, elementsText, List.flatMap_nil, List.append_nil,
        CogSimpleStorage.atomListLoop, ends, if_true]
      exact .here next node
  | cons visit visits ih =>
      obtain ⟨element, reply⟩ := visit
      obtain ⟨fuel, rfl⟩ : ∃ rest, fuel = rest + 1 := ⟨fuel - 1, by omega⟩
      rw [List.map_cons] at good decodable visiting
      obtain ⟨l, r, bounds, different, behind, part, decodes⟩ :=
        brackets.bounds (good element List.mem_cons_self) front
          (elementsText (visits.map Prod.fst) ++ gap) back
      obtain ⟨later, decodes⟩ := decodes node.memory.fidMap
      obtain ⟨pairs, decoded⟩ := decodable reply List.mem_cons_self
      generalize same : sexpr.homeIn node.memory.fidMap (front ++ (element.gap ++ element.expr) ++
        (elementsText (visits.map Prod.fst) ++ gap) ++ back) l r = home
      obtain ⟨kept, done⟩ := visiting.visits element List.mem_cons_self ⟨_, _, l, r, part, same⟩
        decoded later node.memory since
      rw [visited] at kept done
      generalize made : { node.memory with fidMap := later }.insertAtom (home.getD table)
        element.atom = inserted at kept done
      have handled : CogSimpleStorage.addDecoded table (front ++ (element.gap ++ element.expr) ++
          (elementsText (visits.map Prod.fst) ++ gap) ++ back) l r node =
            some (inserted.handleOf (home.getD table) element.atom,
              { node with memory := inserted }) := by
        simp only [CogSimpleStorage.addDecoded, decodes, same, made]
      have attached := talks_attachAll (some table) (inserted.handleOf (home.getD table) element.atom)
        pairs { node with memory := inserted }
      generalize pairs.foldl (attachTo (some table) (inserted.handleOf (home.getD table)
        element.atom)) inserted = attachedMemory at attached kept done
      obtain ⟨final, walked, keeps, dones⟩ :=
        ih (fun other member => good other (List.mem_cons_of_mem _ member))
          (fun other member => decodable other (List.mem_cons_of_mem _ member)) visiting.tail
          (front ++ (element.gap ++ element.expr)) fuel (Nat.lt_of_succ_lt_succ enough)
          { node with memory := attachedMemory } (visiting.trans since kept)
      have text : front ++ elementsText (element :: visits.map Prod.fst) ++ gap =
          front ++ (element.gap ++ element.expr) ++ (elementsText (visits.map Prod.fst) ++ gap) := by
        simp [elementsText]
      refine ⟨final, ?_, visiting.trans kept keeps, ?_⟩
      · simp only [← List.append_assoc, List.map_cons] at bounds part handled walked text behind ⊢
        rw [text, CogSimpleStorage.atomListLoop, bounds]
        simp only [different, if_false, Int.lt_irrefl]
        apply Talks.touch
        simp only [handled, Option.map_some, Option.getD_some, part]
        apply Talks.send
        apply Talks.recv
        rw [decoded, behind]
        exact (attached _).trans walked
      · intro other member
        rcases List.mem_cons.mp member with rfl | member
        · exact visiting.stable keeps done
        · exact dones other member

/-- `CogSimpleStorage::decode_atom_list` on the reply to a message. -/
theorem talks_sendAtomList (brackets : sexpr.Brackets IsExpr) (msg : Str) {gap trail : Str}
    (gapBlank : Blank gap) (trailBlank : Blank trail) (next : SimpleProg sexpr)
    (visits : List (Element sexpr.toSexpr × Str))
    (good : ∀ element ∈ visits.map Prod.fst, element.Good IsExpr)
    (decodable : ∀ reply ∈ visits.map Prod.snd, Decodable (S := sexpr.toSexpr) reply)
    (visiting : Visiting table start (visits.map Prod.fst) Keeps Done) (node : Node sexpr)
    (since : Keeps start node.memory) :
    ∃ final, Talks (CogSimpleStorage.sendAtomList msg table next) node
        (msg :: visits.map fun visit => keysAlistText visit.1.expr)
        (listText (visits.map Prod.fst) gap trail :: visits.map Prod.snd) next final ∧
      Keeps node.memory final.memory ∧ ∀ visit ∈ visits, Done visit.1 visit.2 final.memory := by
  obtain ⟨first, last⟩ := listText_bounds (visits.map Prod.fst) gap trailBlank
  have enough := length_le_elementsText brackets (visits.map Prod.fst) good
  rw [List.length_map] at enough
  by_cases empty : 1 = ([40] ++ elementsText (visits.map Prod.fst) ++ gap).length
  · obtain rfl : visits = [] := by
      simp only [List.length_append, List.length_singleton] at empty
      exact List.length_eq_zero_iff.mp (by omega)
    refine ⟨node, .send (.recv ?_), visiting.refl node.memory, nofun⟩
    simp only [first, last, if_pos empty]
    exact .here next node
  · obtain ⟨final, walked, keeps, dones⟩ :=
      talks_atomListLoop brackets gapBlank (41 :: trail) next visits good decodable visiting [40]
        ((listText (visits.map Prod.fst) gap trail).length + 1)
        (by simp only [listText, List.length_append, List.length_cons]; omega) node since
    refine ⟨final, .send (.recv ?_), keeps, dones⟩
    simp only [first, last, if_neg empty]
    exact walked

end Walk

theorem visiting_grows (table : SpaceId) (start : Memory sexpr.toSexpr)
    (elements : List (Element sexpr.toSexpr)) :
    Visiting table start elements Memory.Grows
      fun element _ memory => ∃ space, memory.Holds space element.atom where
  refl := .refl
  trans := .trans
  stable grows held := by
    obtain ⟨space, held⟩ := held
    exact ⟨space, grows.holds held⟩
  visits element _ reply pairs home _ _ fidMap memory _ := by
    obtain ⟨grows, held⟩ := visited_spec table (home.getD table) fidMap element.atom pairs memory
    exact ⟨grows, _, held⟩

/-- A list reply is walked completely and once, by both storage nodes: they handle its
elements in order, and ask for the values on each with the text of the element. -/
theorem decode_atom_list_walks (brackets : sexpr.Brackets IsExpr) (table : SpaceId)
    {gap trail : Str} (gapBlank : Blank gap) (trailBlank : Blank trail)
    (elements : List (Element sexpr.toSexpr)) (good : ∀ element ∈ elements, element.Good IsExpr) :
    (∀ memory, ∃ final requests, (decodeAtomList sexpr.toSexpr (listText elements gap trail)
        ⟨some table, none, none⟩).perform memory = some (final, requests) ∧
      List.Forall₂ RequestFor elements requests ∧
      ∀ element ∈ elements, final.Holds table element.atom) ∧
    ∀ (msg : Str) (next : SimpleProg sexpr) (node : Node sexpr) (replies : List Str),
      replies.length = elements.length → (∀ reply ∈ replies, Decodable (S := sexpr.toSexpr) reply) →
      ∃ final, Talks (CogSimpleStorage.sendAtomList msg table next) node
          (msg :: elements.map fun element => keysAlistText element.expr)
          (listText elements gap trail :: replies) next final ∧
        ∀ element ∈ elements, ∃ space, final.memory.Holds space element.atom := by
  constructor
  · intro memory
    obtain ⟨final, requests, performed, made, _, _, held⟩ :=
      perform_decodeAtomList brackets table gapBlank trailBlank elements good memory
    exact ⟨final, requests, performed, made, held⟩
  · intro msg next node replies paired decodable
    have firsts : (elements.zip replies).map Prod.fst = elements :=
      List.map_fst_zip paired.ge
    have seconds : (elements.zip replies).map Prod.snd = replies :=
      List.map_snd_zip paired.le
    obtain ⟨final, talks, _, held⟩ := talks_sendAtomList brackets msg gapBlank trailBlank next
      (elements.zip replies) (by rwa [firsts]) (by rwa [seconds])
      (visiting_grows table node.memory _) node (.refl node.memory)
    have texts : ((elements.zip replies).map fun visit => keysAlistText visit.1.expr) =
        elements.map fun element => keysAlistText element.expr := by
      have composed : ((elements.zip replies).map fun visit => keysAlistText visit.1.expr) =
          ((elements.zip replies).map Prod.fst).map fun element => keysAlistText element.expr := by
        rw [List.map_map]
        rfl
      rw [composed, firsts]
    rw [firsts, seconds, texts] at talks
    refine ⟨final, talks, fun element member => ?_⟩
    rw [← firsts] at member
    obtain ⟨visit, inside, rfl⟩ := List.mem_map.mp member
    exact held visit inside

theorem spaced_brackets : spaced.Brackets Spaced.WritesAtom where
  balanced written := ⟨_, written.trans (Plain.encode_eq _)⟩
  blank front _ back blank := ⟨0, Spaced.getNextExpr_blank blank front back⟩
  next := by
    rintro front gap _ atom tail back blank rfl
    exact Spaced.getNextExpr_encode blank front atom tail back
  decodes := by
    rintro fidMap front _ atom back rfl
    have decoded := Plain.plain_inverts.atomIn fidMap front atom back
    rw [← List.length_append] at decoded
    exact ⟨fidMap, decoded⟩

theorem spaced_undoes : spaced.Undoes where
  atom front atom back :=
    Spaced.reread_write (Plain.decodeAtom_encode front atom back) (Plain.encode_eq atom) (by decide)
  value front value back := by
    have decoded := Plain.decodeValue_encodeValue front value back
    cases value with
    | atom atom => exact Spaced.reread_write decoded (Plain.encode_eq atom) (by decide)
    | string text =>
        have opens : Plain.encodeValue (some (.string text)) =
            40 :: (bytes "StringValue \"" ++ (Plain.escape text ++ [34, 41])) := rfl
        exact Spaced.reread_write decoded opens (by decide)

/-- One AtomSpace, whose name is empty. -/
def spacedFrames : FrameSexpr where
  toSexpr := spaced
  encodeAtomMulti _ := spaced.encodeAtom
  encodeFrame _ := bytes "(AtomSpace \"\")"
  getName _ := []
  insertFid _ _ _ := ()
  clearFid := ()
  framesIn _ := []
  homeIn _ _ _ _ := none
  decodeFrame _ _ := some ()

theorem spacedFrames_brackets : spacedFrames.Brackets Spaced.WritesAtom := spaced_brackets

/-- A name with a parenthesis, and a link on the next line. -/
def twoElements : List (Element spacedFrames.toSexpr) :=
  [⟨[], bytes "(Concept \"a)\")", .node Plain.Kind.concept (bytes "a)")⟩,
    ⟨bytes " \n", bytes "(List (Concept \"b\"))",
      .link Plain.Kind.list [.node Plain.Kind.concept (bytes "b")]⟩]

/-- A list of two elements; neither has values. -/
theorem decode_atom_list_walks_two :
    (∃ final requests, (decodeAtomList spacedFrames.toSexpr
        (bytes "((Concept \"a)\") \n(List (Concept \"b\"))\t)\n") ⟨some 0, none, none⟩).perform
          (Memory.empty ()) = some (final, requests) ∧ List.Forall₂ RequestFor twoElements requests) ∧
    ∃ final, Talks (CogSimpleStorage.sendAtomList (bytes "(cog-get-atoms 'Atom #t)\n") 0 .stuck)
      (⟨Memory.empty (), false, []⟩ : Node spacedFrames)
      [bytes "(cog-get-atoms 'Atom #t)\n", bytes "(cog-keys->alist (Concept \"a)\"))\n",
        bytes "(cog-keys->alist (List (Concept \"b\")))\n"]
      [bytes "((Concept \"a)\") \n(List (Concept \"b\"))\t)\n", bytes "()\n", bytes "()\n"]
      .stuck final := by
  have tab : Blank (bytes "\t") := by decide
  have newline : Blank (bytes "\n") := by decide
  have good : ∀ element ∈ twoElements, element.Good Spaced.WritesAtom := by
    intro element member
    rcases List.mem_cons.mp member with rfl | member
    · exact ⟨by decide, show bytes _ = Plain.encode _ by decide +kernel⟩
    · rw [List.mem_singleton.mp member]
      exact ⟨by decide, show bytes _ = Plain.encode _ by decide +kernel⟩
  have empty : Decodable (S := spacedFrames.toSexpr) (bytes "()\n") := by
    have none : Blank [] := by decide
    exact ⟨[], fun as h => roDecodeAlist_alistText spaced_undoes as h none none newline [] nofun⟩
  have text : listText twoElements (bytes "\t") (bytes "\n") =
      bytes "((Concept \"a)\") \n(List (Concept \"b\"))\t)\n" := by decide +kernel
  obtain ⟨cog, simple⟩ :=
    decode_atom_list_walks spacedFrames_brackets 0 tab newline twoElements good
  rw [text] at cog simple
  obtain ⟨final, requests, performed, made, _⟩ := cog (Memory.empty ())
  obtain ⟨node, talks, _⟩ := simple (bytes "(cog-get-atoms 'Atom #t)\n") .stuck
    ⟨Memory.empty (), false, []⟩ [bytes "()\n", bytes "()\n"] rfl (by simpa using empty)
  exact ⟨⟨final, requests, performed, made⟩, node, talks⟩

end AtomSpaceCog
