import AtomSpaceCog.Storage.ListErrands
import AtomSpaceCog.Storage.Requests

/-! # What the server holds

The AtomSpace of a server, and what the messages that store and load an AtomSpace do to it. In
whatever order the Atoms of an AtomSpace are stored, and however often, the server holds the
same in the end (`Stock.Described.stored`).
-/

namespace AtomSpaceCog

variable {sexpr : Sexpr}

/-- The AtomSpace of a server: its Atoms, and the values on them. -/
structure Stock (sexpr : Sexpr) where
  Has : sexpr.Content → Prop
  value : sexpr.Content → sexpr.Content → Option sexpr.Value

/-- The Atoms that come with a store. -/
def storedParts (noKey : sexpr.Content) (values : List (sexpr.Content × sexpr.Value))
    (atom : sexpr.Content) : List sexpr.Content :=
  atom.parts ++ if values ≠ [] then values.flatMap (pieces atom) else noKey.parts

namespace Stock

variable (stock : Stock sexpr)

def empty : Stock sexpr := ⟨fun _ => False, fun _ _ => none⟩

/-- `cog-set-values!` -/
def setValues (atom : sexpr.Content) (values : List (sexpr.Content × sexpr.Value)) : Stock sexpr where
  Has part := stock.Has part ∨ part ∈ atom.parts ++ values.flatMap (pieces atom)
  value other key :=
    if other = atom then (values.lookup key).or (stock.value other key) else stock.value other key

/-- `cog-set-value!` of `#f`, which takes the value away. -/
def takeValue (atom key : sexpr.Content) : Stock sexpr where
  Has part := stock.Has part ∨ part ∈ atom.parts ++ key.parts
  value other part := if other = atom ∧ part = key then none else stock.value other part

/-- What the message of `storeAtom` says: without values, that none is under a certain key. -/
def store (noKey : sexpr.Content) (values : List (sexpr.Content × sexpr.Value))
    (atom : sexpr.Content) : Stock sexpr :=
  if values ≠ [] then stock.setValues atom values else stock.takeValue atom noKey

variable {stock} {noKey atom : sexpr.Content} {values : List (sexpr.Content × sexpr.Value)}

theorem store_has {part : sexpr.Content} :
    (stock.store noKey values atom).Has part ↔
      stock.Has part ∨ part ∈ storedParts noKey values atom := by
  unfold store storedParts
  split <;> rfl

theorem store_value_of_ne {other : sexpr.Content} (apart : other ≠ atom) (key : sexpr.Content) :
    (stock.store noKey values atom).value other key = stock.value other key := by
  unfold store
  split
  · exact if_neg apart
  · exact if_neg fun both => apart both.1

/-- What is on the Atom afterwards was stored, or was there before. -/
theorem store_value_self {key : sexpr.Content} {value : sexpr.Value}
    (found : (stock.store noKey values atom).value atom key = some value) :
    values.lookup key = some value ∨ stock.value atom key = some value := by
  unfold store at found
  split at found
  · change (if atom = atom then _ else _) = some value at found
    rw [if_pos rfl] at found
    exact (Option.or_eq_some_iff.mp found).imp_right And.right
  · change (if atom = atom ∧ key = noKey then none else _) = some value at found
    split at found
    · cases found
    · exact Or.inr found

/-- What is stored is on the Atom. -/
theorem store_value_of_lookup {key : sexpr.Content} {value : sexpr.Value}
    (listed : values.lookup key = some value) :
    (stock.store noKey values atom).value atom key = some value := by
  have some : values ≠ [] := by
    rintro rfl
    cases listed
  unfold store
  rw [if_pos some]
  change (if atom = atom then _ else _) = _
  rw [if_pos rfl, listed]
  rfl

end Stock

section Texts

/-- The text of `storeAtom` for an Atom with its values. -/
def storeText (memory : Memory sexpr) (h : Handle sexpr) : Str :=
  storeAtomText (memory.values h) h.atom

/-- The text that asks for all the Nodes, or for all the Links. -/
def allText (isNode : Bool) : Str := getAtomsText (if isNode then "Node" else "Link")

theorem allText_injective {isNode other : Bool} (same : allText isNode = allText other) :
    isNode = other := by
  have char := congrArg (fun text : Str => text[16]?) same
  revert char
  cases isNode <;> cases other <;> decide

theorem storeText_char (memory : Memory sexpr) (h : Handle sexpr) :
    (storeText memory h)[5]? = some 115 := by
  unfold storeText storeAtomText
  split <;> rfl

theorem ne_storeText {text : Str} (other : text[5]? ≠ some 115) (memory : Memory sexpr)
    (h : Handle sexpr) : text ≠ storeText memory h := by
  intro same
  apply other
  rw [same]
  exact storeText_char memory h

theorem allText_ne_storeText (isNode : Bool) (memory : Memory sexpr) (h : Handle sexpr) :
    allText isNode ≠ storeText memory h :=
  ne_storeText (by cases isNode <;> decide) memory h

theorem keysAlistText_ne_storeText (expr : Str) (memory : Memory sexpr) (h : Handle sexpr) :
    keysAlistText expr ≠ storeText memory h := by
  apply ne_storeText
  change some (107 : UInt8) ≠ some 115
  decide

end Texts

section Server

/-- The text prints the values on an Atom, in some order. -/
def PrintsValues (reply : Str) (value : sexpr.Content → Option sexpr.Value) : Prop :=
  ∃ pairs, (pairs.map Prod.fst).Nodup ∧ (∀ pair, pair ∈ pairs ↔ value pair.1 = some pair.2) ∧
    Prints reply pairs

/-- What the text of an Atom is, as it is written. -/
def Sexpr.Writes (sexpr : Sexpr) (expr : Str) (atom : sexpr.Content) : Prop :=
  expr = sexpr.encodeAtom atom

/-- The server does what the messages that store or load the AtomSpace say. -/
structure Server.Follows (server : Server) (stock : server.Space → Stock sexpr)
    (noKey : sexpr.Content) (start : Memory sexpr) (table : SpaceId) : Prop where
  stores : ∀ h ∈ start.handles table, ∀ space,
    stock (server.run (storeText start h) space).1 =
      (stock space).store noKey (start.values h) h.atom
  lists : ∀ isNode space, stock (server.run (allText isNode) space).1 = stock space ∧
    PrintsList sexpr.Writes (server.run (allText isNode) space).2 fun expr atom =>
      (stock space).Has atom ∧ atom.isNode = isNode ∧ sexpr.Writes expr atom
  keys : ∀ atom space, (stock space).Has atom →
    stock (server.run (keysAlistText (sexpr.encodeAtom atom)) space).1 = stock space ∧
      PrintsValues (server.run (keysAlistText (sexpr.encodeAtom atom)) space).2
        ((stock space).value atom)

end Server

/-- What the server has in the end. -/
def InStock (start : Memory sexpr) (table : SpaceId) (noKey atom : sexpr.Content) : Prop :=
  ∃ h ∈ start.handles table, atom ∈ storedParts noKey (start.values h) h.atom

/-- The server holds what these messages have stored. -/
structure Stock.Described (stock : Stock sexpr) (start : Memory sexpr) (table : SpaceId)
    (noKey : sexpr.Content) (texts : List Str) : Prop where
  has : ∀ atom, stock.Has atom ↔ ∃ h ∈ start.handles table,
    storeText start h ∈ texts ∧ atom ∈ storedParts noKey (start.values h) h.atom
  value : ∀ atom key value, stock.value atom key = some value ↔
    ∃ h ∈ start.handles table, h.atom = atom ∧ storeText start h ∈ texts ∧
      start.getValue h key = some value

namespace Stock.Described

variable {stock next : Stock sexpr} {start : Memory sexpr} {table : SpaceId}
  {noKey : sexpr.Content} {texts : List Str}

theorem nothing : (Stock.empty : Stock sexpr).Described start table noKey [] where
  has atom := by
    constructor
    · exact False.elim
    · rintro ⟨h, _, inside, _⟩
      exact absurd inside List.not_mem_nil
  value atom key value := by
    constructor
    · intro found
      cases found
    · rintro ⟨h, _, _, inside, _⟩
      exact absurd inside List.not_mem_nil

/-- A message that stores nothing. -/
theorem skip (described : stock.Described start table noKey texts) {text : Str}
    (other : ∀ h, text ≠ storeText start h) :
    stock.Described start table noKey (texts ++ [text]) := by
  have same : ∀ h, storeText start h ∈ texts ++ [text] ↔ storeText start h ∈ texts := by
    intro h
    rw [List.mem_append, List.mem_singleton]
    exact or_iff_left (Ne.symm (other h))
  constructor
  · simp only [same]
    exact described.has
  · simp only [same]
    exact described.value

/-- The object of an Atom in an AtomSpace without frames. -/
theorem handle_eq (frameless : start.bases table = []) {h other : Handle sexpr}
    (member : h ∈ start.handles table) (also : other ∈ start.handles table)
    (same : h.atom = other.atom) : h = other := by
  unfold Memory.handles at member also
  rw [frameless, List.flatMap_singleton] at member also
  obtain ⟨atom, -, rfl⟩ := List.mem_map.mp member
  obtain ⟨part, -, rfl⟩ := List.mem_map.mp also
  obtain rfl : atom = part := same
  rfl

/-- A message that stores one of the Atoms. -/
theorem add (frameless : start.bases table = [])
    (described : stock.Described start table noKey texts) {text : Str} {last : Handle sexpr}
    (member : last ∈ start.handles table) (own : text = storeText start last)
    (stores : ∀ h ∈ start.handles table, text = storeText start h →
      next = stock.store noKey (start.values h) h.atom) :
    next.Described start table noKey (texts ++ [text]) := by
  have step := stores last member own
  have known : ∀ h, storeText start h ∈ texts ++ [text] ↔
      storeText start h ∈ texts ∨ text = storeText start h := by
    intro h
    rw [List.mem_append, List.mem_singleton, eq_comm (a := storeText start h)]
  constructor
  · intro atom
    simp only [known]
    constructor
    · intro has
      rw [step, Stock.store_has, described.has] at has
      rcases has with ⟨h, inside, sent, part⟩ | part
      · exact ⟨h, inside, Or.inl sent, part⟩
      · exact ⟨last, member, Or.inr own, part⟩
    · rintro ⟨h, inside, sent | same, part⟩
      · rw [step, Stock.store_has]
        exact Or.inl ((described.has atom).mpr ⟨h, inside, sent, part⟩)
      · rw [stores h inside same, Stock.store_has]
        exact Or.inr part
  · intro atom key value
    simp only [known]
    constructor
    · intro found
      have before : stock.value atom key = some value → ∃ h ∈ start.handles table, h.atom = atom ∧
          (storeText start h ∈ texts ∨ text = storeText start h) ∧
            start.getValue h key = some value := by
        intro found
        obtain ⟨h, inside, same, sent, listed⟩ := (described.value atom key value).mp found
        exact ⟨h, inside, same, Or.inl sent, listed⟩
      rw [step] at found
      by_cases same : atom = last.atom
      · subst same
        rcases Stock.store_value_self found with listed | prior
        · exact ⟨last, member, rfl, Or.inr own, listed⟩
        · exact before prior
      · rw [Stock.store_value_of_ne same] at found
        exact before found
    · rintro ⟨h, inside, rfl, sent, listed⟩
      by_cases same : h.atom = last.atom
      · obtain rfl := handle_eq frameless inside member same
        rw [step]
        exact Stock.store_value_of_lookup listed
      · rcases sent with sent | equal
        · rw [step, Stock.store_value_of_ne same]
          exact (described.value _ _ _).mpr ⟨h, inside, rfl, sent, listed⟩
        · rw [stores h inside equal]
          exact Stock.store_value_of_lookup listed

/-- When all the Atoms have been stored. -/
theorem stored (described : stock.Described start table noKey texts)
    (all : ∀ h ∈ start.handles table, storeText start h ∈ texts) (atom : sexpr.Content) :
    stock.Has atom ↔ InStock start table noKey atom := by
  rw [described.has]
  constructor
  · rintro ⟨h, member, _, part⟩
    exact ⟨h, member, part⟩
  · rintro ⟨h, member, part⟩
    exact ⟨h, member, all h member, part⟩

end Stock.Described

end AtomSpaceCog
