import AtomSpaceCog.Foundation.Bytes
import Mathlib.Data.List.Basic
import Mathlib.Logic.Function.Basic

/-! # Atoms, values and AtomSpaces

An Atom is a node with a name or a link with an outgoing set. The AtomSpace library
that the storage nodes are written against is a parameter (`Sexpr`): its Values, the
texts it writes for Atoms and Values, and its readers. A `Memory` holds AtomSpaces,
which may be built on others, and the values that the Atom objects carry.
-/

namespace AtomSpaceCog

/-- An Atom by its content. -/
inductive Atom (AtomType : Type) where
  | node (type : AtomType) (name : Str)
  | link (type : AtomType) (outgoing : List (Atom AtomType))

namespace Atom

variable {AtomType : Type}

section Decide

variable [DecidableEq AtomType]

mutual

def decEq : (atom other : Atom AtomType) → Decidable (atom = other)
  | .node type name, .node type' name' =>
      decidable_of_iff (type = type' ∧ name = name') (by simp)
  | .link type outgoing, .link type' outgoing' =>
      have := decEqList outgoing outgoing'
      decidable_of_iff (type = type' ∧ outgoing = outgoing') (by simp)
  | .node _ _, .link _ _ => isFalse (by simp)
  | .link _ _, .node _ _ => isFalse (by simp)

def decEqList : (atoms others : List (Atom AtomType)) → Decidable (atoms = others)
  | [], [] => isTrue rfl
  | atom :: atoms, other :: others =>
      have := decEq atom other
      have := decEqList atoms others
      decidable_of_iff (atom = other ∧ atoms = others) (by simp)
  | [], _ :: _ => isFalse (by simp)
  | _ :: _, [] => isFalse (by simp)

end

instance : DecidableEq (Atom AtomType) := decEq

end Decide

/-- `get_type()` -/
def getType : Atom AtomType → AtomType
  | node type _ => type
  | link type _ => type

/-- `is_node()` -/
def isNode : Atom AtomType → Bool
  | node _ _ => true
  | link _ _ => false

mutual

/-- The Atoms that an Atom is made of, it being the last. -/
def parts : Atom AtomType → List (Atom AtomType)
  | node type name => [node type name]
  | link type outgoing => partsList outgoing ++ [link type outgoing]

/-- The Atoms that a list of Atoms is made of. -/
def partsList : List (Atom AtomType) → List (Atom AtomType)
  | [] => []
  | atom :: atoms => parts atom ++ partsList atoms

end

theorem self_mem_parts (atom : Atom AtomType) : atom ∈ atom.parts := by
  cases atom <;> simp [parts]

end Atom

/-- The AtomSpace library: what it is given, what it writes and how it reads. A
reader that gives `none` throws, or reads no Atom. -/
structure Sexpr where
  AtomType : Type
  [decEq : DecidableEq AtomType]
  Value : Type
  /-- The map that `decode_atom` is given for the names of frames. -/
  FidMap : Type
  /-- `nameserver().getTypeName` -/
  getTypeName : AtomType → Str
  /-- `Sexpr::encode_atom` -/
  encodeAtom : Atom AtomType → Str
  /-- `Sexpr::encode_value`; there is no value where the pointer is null. -/
  encodeValue : Option Value → Str
  /-- `Sexpr::encode_atom_values`, from the values on the Atom -/
  encodeAtomValues : List (Atom AtomType × Value) → Str
  /-- `Sexpr::get_next_expr(s, l, r, 0)`: the count of open parentheses, and the new
  `l` and `r` -/
  getNextExpr : Str → Nat → Nat → Option (Int × Nat × Nat)
  /-- `Sexpr::decode_atom(s, l, r, 0, map)` -/
  decodeAtomIn : FidMap → Str → Nat → Nat → Option (Atom AtomType × FidMap)
  /-- `Sexpr::decode_atom(s, pos)`, with the new `pos` -/
  decodeAtom : Str → Nat → Option (Atom AtomType × Nat)
  /-- `Sexpr::decode_value(s, pos)`, with the new `pos` -/
  decodeValue : Str → Nat → Option (Option Value × Nat)
  /-- The Atoms inside a Value. -/
  atomsIn : Value → List (Atom AtomType)

namespace Sexpr

variable (sexpr : Sexpr)

instance : DecidableEq sexpr.AtomType := sexpr.decEq

/-- The Atoms of the library. -/
abbrev Content := Atom sexpr.AtomType

end Sexpr

/-- The readers undo the writers: on a text in which an expression starts at a
position, they bracket it, decode it and pass it. -/
structure Sexpr.Inverts (sexpr : Sexpr) : Prop where
  opens : ∀ atom, ∃ rest, sexpr.encodeAtom atom = 40 :: rest
  nextExpr : ∀ front atom back finish,
    front.length + (sexpr.encodeAtom atom).length ≤ finish →
      sexpr.getNextExpr (front ++ sexpr.encodeAtom atom ++ back) front.length finish =
        some (0, front.length, front.length + (sexpr.encodeAtom atom).length - 1)
  nextExprEnd : ∀ text pos, sexpr.getNextExpr text pos pos = some (0, pos, pos)
  /-- The Atoms are in no frame, so that no frame name is looked up. -/
  atomIn : ∀ fidMap front atom back,
    sexpr.decodeAtomIn fidMap (front ++ sexpr.encodeAtom atom ++ back) front.length
        (front.length + (sexpr.encodeAtom atom).length - 1) = some (atom, fidMap)
  atom : ∀ front atom back,
    sexpr.decodeAtom (front ++ sexpr.encodeAtom atom ++ back) front.length =
      some (atom, front.length + (sexpr.encodeAtom atom).length)
  value : ∀ front value back,
    sexpr.decodeValue (front ++ sexpr.encodeValue (some value) ++ back) front.length =
      some (some value, front.length + (sexpr.encodeValue (some value)).length)

abbrev SpaceId := Nat

/-- Where an Atom object lives: in an AtomSpace, which holds one object for each
content, or in none. -/
inductive Home where
  | space (space : SpaceId)
  | loose (object : Nat)
deriving DecidableEq

/-- An Atom object. -/
structure Handle (sexpr : Sexpr) where
  atom : sexpr.Content
  home : Home
deriving DecidableEq

variable {sexpr : Sexpr}

/-- `getAtomSpace()` -/
def Handle.getAtomSpace (handle : Handle sexpr) : Option SpaceId :=
  match handle.home with
  | .space space => some space
  | .loose _ => none

/-- The AtomSpaces of the program and the values on its Atoms. -/
structure Memory (sexpr : Sexpr) where
  atoms : SpaceId → List sexpr.Content
  /-- The AtomSpaces that an AtomSpace is built on, the nearest first. -/
  bases : SpaceId → List SpaceId
  /-- The keys and values on an Atom, in the order in which they are listed. -/
  values : Handle sexpr → List (sexpr.Content × sexpr.Value)
  /-- The static `_fid_map` of `decode_atom_list` -/
  fidMap : sexpr.FidMap

/-- No AtomSpace holds an Atom, and none is built on another. -/
def Memory.empty (fidMap : sexpr.FidMap) : Memory sexpr where
  atoms _ := []
  bases _ := []
  values _ := []
  fidMap := fidMap

/-- Put a value under a key in place of the one that is there; a null value takes
the key away. -/
def setPair {Key Value : Type} [DecidableEq Key] (key : Key) (value : Option Value)
    (pairs : List (Key × Value)) : List (Key × Value) :=
  match value with
  | some value => (key, value) :: pairs.filter fun pair => pair.1 ≠ key
  | none => pairs.filter fun pair => pair.1 ≠ key

namespace Memory

variable (memory : Memory sexpr)

/-- The AtomSpace, of this one and those it is built on, that holds the Atom. -/
def locate (table : SpaceId) (atom : sexpr.Content) : Option SpaceId :=
  (table :: memory.bases table).find? fun space => atom ∈ memory.atoms space

/-- Insert an Atom whose parts are already there. -/
def insertOne (table : SpaceId) (atom : sexpr.Content) : Memory sexpr :=
  match memory.locate table atom with
  | some _ => memory
  | none => { memory with
      atoms := Function.update memory.atoms table (memory.atoms table ++ [atom]) }

/-- Insert an Atom and its parts. -/
def insertAtom (table : SpaceId) (atom : sexpr.Content) : Memory sexpr :=
  atom.parts.foldl (fun memory part => memory.insertOne table part) memory

/-- The object that the AtomSpace or one that it is built on holds for the Atom. -/
def handleOf (table : SpaceId) (atom : sexpr.Content) : Handle sexpr :=
  ⟨atom, .space ((memory.locate table atom).getD table)⟩

/-- `get_handles_by_type(ATOM, true)`: the Atoms of the AtomSpace and of those that it is
built on. -/
def handles (table : SpaceId) : List (Handle sexpr) :=
  (table :: memory.bases table).flatMap fun space =>
    ((memory.atoms space).filter fun atom => memory.locate table atom = some space).map
      fun atom => ⟨atom, .space space⟩

/-- `AtomSpace::add_atoms`: insert the Atoms inside a Value. -/
def addAtoms (table : SpaceId) (value : Option sexpr.Value) : Memory sexpr :=
  match value with
  | some value =>
      (sexpr.atomsIn value).foldl (fun memory atom => memory.insertAtom table atom) memory
  | none => memory

/-- `h->getValue(key)` -/
def getValue (handle : Handle sexpr) (key : sexpr.Content) : Option sexpr.Value :=
  (memory.values handle).lookup key

/-- `h->setValue(key, value)` -/
def setValue (handle : Handle sexpr) (key : sexpr.Content) (value : Option sexpr.Value) :
    Memory sexpr :=
  { memory with
    values := Function.update memory.values handle (setPair key value (memory.values handle)) }

end Memory

end AtomSpaceCog
