import AtomSpaceCog.Decoding.Effects
import AtomSpaceCog.Sexpr.Plain

/-! # The map of frame names

`CogStorage::decode_atom_list` keeps the frames that it has met in a static map, by
name, for all the storages of the process. A name that a reply mentions is looked up
there, and only a name that is not there becomes a new frame. So what a reply is
decoded to depends on the replies that were decoded before, whichever server they
came from (`FrameReader.decoded_alike_iff`).
-/

namespace AtomSpaceCog

/-- A reply in the course of the process: to which storage, the how-manieth, and its
text. -/
structure Origin where
  storage : Nat
  turn : Nat
  reply : Str
deriving DecidableEq

/-- A frame, by the reply that it was created for. -/
inductive Frame where
  | earlier (origin : Origin) (name : Str)
  /-- Created for the reply that is being decoded. -/
  | fresh (name : Str)
deriving DecidableEq

/-- `_fid_map` -/
abbrev FrameMap := Str → Option Frame

/-- What an expression holds: an Atom, and the names of the frames that it and its
parts are in. -/
structure FrameReader (sexpr : Sexpr) where
  read : Str → Nat → Nat → Option (sexpr.Content × List Str)

/-- The frame of a name, which is created and recorded if it is not in the map. -/
def resolve (create : Str → Frame) (map : FrameMap) (name : Str) : Frame × FrameMap :=
  match map name with
  | some frame => (frame, map)
  | none => (create name, Function.update map name (some (create name)))

def resolveAll (create : Str → Frame) : FrameMap → List Str → List Frame × FrameMap
  | map, [] => ([], map)
  | map, name :: names =>
      let (frame, map) := resolve create map name
      let (frames, map) := resolveAll create map names
      (frame :: frames, map)

/-- What is given to `add_nocheck`. -/
structure Added (sexpr : Sexpr) where
  table : SpaceId
  atom : sexpr.Content
  frames : List Frame
deriving DecidableEq

namespace FrameReader

variable {sexpr : Sexpr} (reader : FrameReader sexpr) (create : Str → Frame)

/-- `Sexpr::decode_atom(expr, l, r, 0, map)`: the Atom with its frames, and the map. -/
def decodeAtom (map : FrameMap) (expr : Str) (l r : Nat) :
    Option (sexpr.Content × List Frame × FrameMap) :=
  (reader.read expr l r).map fun (atom, names) => (atom, resolveAll create map names)

/-- The library, with frames that are created so. -/
def library : Sexpr :=
  { sexpr with
    FidMap := FrameMap
    decodeAtomIn := fun map expr l r =>
      (reader.decodeAtom create map expr l r).map fun (atom, _, map) => (atom, map) }

/-- The loop of `CogStorage::decode_atom_list`: what it adds, and the map that it
leaves. -/
def atomListFrames (table : SpaceId) (expr : Str) (finish : Nat) :
    Nat → Nat → Nat → FrameMap → List (Added sexpr) × FrameMap
  | 0, _, _, map => ([], map)
  | fuel + 1, l, r, map =>
      match sexpr.getNextExpr expr l r with
      | none => ([], map)
      | some (pcnt, l, r) =>
          if l = r then ([], map)
          else if 0 < pcnt then ([], map)
          else
            match reader.decodeAtom create map expr l r with
            | none => ([], map)
            | some (atom, frames, map) =>
                let (added, map) := atomListFrames table expr finish fuel (r + 1) finish map
                (⟨table, atom, frames⟩ :: added, map)

/-- `CogStorage::decode_atom_list` -/
def decodeAtomListFrames (table : SpaceId) (expr : Str) (map : FrameMap) :
    List (Added sexpr) × FrameMap :=
  let l := past (find expr 40 0) 1
  let finish := (rfind expr 41).getD npos
  if l = finish then ([], map)
  else reader.atomListFrames create table expr finish (expr.length + 1) l finish map

/-- The Atoms that a reply holds, up to the first that cannot be read, with the names
of their frames. -/
def atomListItems (expr : Str) (finish : Nat) : Nat → Nat → Nat → List (sexpr.Content × List Str)
  | 0, _, _ => []
  | fuel + 1, l, r =>
      match sexpr.getNextExpr expr l r with
      | none => []
      | some (pcnt, l, r) =>
          if l = r then []
          else if 0 < pcnt then []
          else
            match reader.read expr l r with
            | none => []
            | some item => item :: atomListItems expr finish fuel (r + 1) finish

def items (expr : Str) : List (sexpr.Content × List Str) :=
  let l := past (find expr 40 0) 1
  let finish := (rfind expr 41).getD npos
  if l = finish then []
  else reader.atomListItems expr finish (expr.length + 1) l finish

/-- The names that a reply mentions. -/
def namesIn (expr : Str) : List Str := (reader.items expr).flatMap Prod.snd

end FrameReader

/-- A reply that a storage has decoded. -/
structure Delivery where
  storage : Nat
  table : SpaceId
  reply : Str

/-- Which reply it is, after those before. -/
def Delivery.origin (before : List Delivery) (delivery : Delivery) : Origin :=
  ⟨delivery.storage, before.countP fun other => other.storage = delivery.storage, delivery.reply⟩

namespace FrameReader

variable {sexpr : Sexpr} (reader : FrameReader sexpr)

/-- The map when more replies have been decoded. -/
def mapAfter (before : List Delivery) (map : FrameMap) : List Delivery → FrameMap
  | [] => map
  | delivery :: rest =>
      mapAfter (before ++ [delivery]) (reader.decodeAtomListFrames
        (.earlier (delivery.origin before)) delivery.table delivery.reply map).2 rest

/-- What a reply is decoded to in a process that has decoded others. -/
def decoded (history : List Delivery) (table : SpaceId) (reply : Str) : List (Added sexpr) :=
  (reader.decodeAtomListFrames .fresh table reply (reader.mapAfter [] (fun _ => none) history)).1

/-- The reply that mentions a name first. -/
def firstMention (before : List Delivery) (name : Str) : List Delivery → Option Origin
  | [] => none
  | delivery :: rest =>
      if (reader.namesIn delivery.reply).contains name then some (delivery.origin before)
      else firstMention (before ++ [delivery]) name rest

end FrameReader

/-! ## Frames are looked up by name -/

/-- The frame that a name has when it is looked up. -/
def frameOf (create : Str → Frame) (map : FrameMap) (name : Str) : Frame :=
  (map name).getD (create name)

/-- The map with more names recorded. -/
def recorded (create : Str → Frame) (map : FrameMap) (names : List Str) : FrameMap :=
  fun name => if names.contains name then some (frameOf create map name) else map name

section Resolve

variable (create : Str → Frame)

/-- A name keeps its frame when names are recorded. -/
theorem frameOf_recorded (map : FrameMap) (names : List Str) :
    frameOf create (recorded create map names) = frameOf create map := by
  funext name
  by_cases member : name ∈ names
  · simp only [frameOf, recorded, List.contains_iff_mem, member, ↓reduceIte, Option.getD_some]
  · simp only [frameOf, recorded, List.contains_iff_mem, member, ↓reduceIte]

theorem recorded_append (map : FrameMap) (names more : List Str) :
    recorded create (recorded create map names) more = recorded create map (names ++ more) := by
  funext name
  rw [recorded, frameOf_recorded]
  by_cases later : name ∈ more
  · simp only [recorded, List.contains_iff_mem, later, List.mem_append, or_true, ↓reduceIte]
  · simp only [recorded, List.contains_iff_mem, later, List.mem_append, or_false, ↓reduceIte]

theorem recorded_nil (map : FrameMap) : recorded create map [] = map := by
  funext name
  exact if_neg (by simp)

theorem resolve_eq (map : FrameMap) (name : Str) :
    resolve create map name = (frameOf create map name, recorded create map [name]) := by
  rw [resolve]
  cases known : map name with
  | some frame =>
      refine Prod.ext (by simp [frameOf, known]) ?_
      funext other
      by_cases same : other = name
      · simp [recorded, frameOf, same, known]
      · simp [recorded, same]
  | none =>
      refine Prod.ext (by simp [frameOf, known]) ?_
      funext other
      by_cases same : other = name
      · simp [recorded, frameOf, same, known]
      · simp [recorded, same]

/-- Names resolve one by one as the map stood before the first. -/
theorem resolveAll_eq (map : FrameMap) (names : List Str) :
    resolveAll create map names = (names.map (frameOf create map), recorded create map names) := by
  induction names generalizing map with
  | nil => rw [resolveAll, recorded_nil, List.map_nil]
  | cons name names ih =>
      simp only [resolveAll, resolve_eq, ih, frameOf_recorded, recorded_append, List.map_cons,
        List.singleton_append]

end Resolve

namespace FrameReader

variable {sexpr : Sexpr} (reader : FrameReader sexpr)

theorem atomListFrames_eq (create : Str → Frame) (table : SpaceId) (expr : Str) (finish : Nat)
    (fuel l r : Nat) (map : FrameMap) :
    reader.atomListFrames create table expr finish fuel l r map =
      ((reader.atomListItems expr finish fuel l r).map fun item =>
          ⟨table, item.1, item.2.map (frameOf create map)⟩,
        recorded create map ((reader.atomListItems expr finish fuel l r).flatMap Prod.snd)) := by
  induction fuel generalizing l r map with
  | zero => simp only [atomListFrames, atomListItems, List.map_nil, List.flatMap_nil, recorded_nil]
  | succ fuel ih =>
      rw [atomListFrames, atomListItems]
      match sexpr.getNextExpr expr l r with
      | none => simp only [List.map_nil, List.flatMap_nil, recorded_nil]
      | some (pcnt, l, r) =>
          by_cases ended : l = r
          · simp only [ended, ↓reduceIte, List.map_nil, List.flatMap_nil, recorded_nil]
          by_cases unbalanced : 0 < pcnt
          · simp only [ended, unbalanced, ↓reduceIte, List.map_nil, List.flatMap_nil, recorded_nil]
          simp only [ended, unbalanced, ↓reduceIte, decodeAtom]
          match reader.read expr l r with
          | none => simp only [Option.map_none, List.map_nil, List.flatMap_nil, recorded_nil]
          | some (atom, names) =>
              simp only [Option.map_some, resolveAll_eq, ih, frameOf_recorded, recorded_append,
                List.map_cons, List.flatMap_cons]

theorem decodeAtomListFrames_eq (create : Str → Frame) (table : SpaceId) (expr : Str)
    (map : FrameMap) :
    reader.decodeAtomListFrames create table expr map =
      ((reader.items expr).map fun item => ⟨table, item.1, item.2.map (frameOf create map)⟩,
        recorded create map (reader.namesIn expr)) := by
  rw [decodeAtomListFrames, namesIn, items]
  by_cases empty : past (find expr 40 0) 1 = (rfind expr 41).getD npos
  · simp only [empty, ↓reduceIte, List.map_nil, List.flatMap_nil, recorded_nil]
  · simp only [empty, ↓reduceIte, atomListFrames_eq]

/-- What is in the map is what was there before, and the frames of the names that were
mentioned since. -/
theorem mapAfter_eq (before : List Delivery) (map : FrameMap) (history : List Delivery)
    (name : Str) :
    reader.mapAfter before map history name =
      (map name).or ((reader.firstMention before name history).map (.earlier · name)) := by
  induction history generalizing before map with
  | nil => simp only [mapAfter, firstMention, Option.map_none, Option.or_none]
  | cons delivery rest ih =>
      rw [mapAfter, ih, decodeAtomListFrames_eq, firstMention]
      simp only [recorded, List.contains_iff_mem]
      by_cases mentioned : name ∈ reader.namesIn delivery.reply
      · simp only [mentioned, ↓reduceIte, Option.some_or, Option.map_some, frameOf]
        cases map name with
        | none => rfl
        | some frame => rfl
      · simp only [mentioned, ↓reduceIte]

/-- Each name of a reply stands for the frame that its first mention created, or for a
new one. -/
theorem decoded_eq (history : List Delivery) (table : SpaceId) (reply : Str) :
    reader.decoded history table reply =
      (reader.items reply).map fun item => ⟨table, item.1, item.2.map fun name =>
        ((reader.firstMention [] name history).map (.earlier · name)).getD (.fresh name)⟩ := by
  have frames : frameOf .fresh (reader.mapAfter [] (fun _ => none) history) = fun name =>
      ((reader.firstMention [] name history).map (.earlier · name)).getD (.fresh name) := by
    funext name
    rw [frameOf, mapAfter_eq, Option.none_or]
  rw [decoded, decodeAtomListFrames_eq, frames]

theorem frame_alike_iff {first second : Option Origin} {name : Str} :
    (first.map (Frame.earlier · name)).getD (.fresh name) =
        (second.map (Frame.earlier · name)).getD (.fresh name) ↔ first = second := by
  cases first with
  | none => cases second <;> simp
  | some origin => cases second <;> simp

/-- Two processes decode a reply to the same Atoms and frames exactly when each name
that it mentions was first mentioned by the same earlier reply to the same storage in
both, or by none. -/
theorem decoded_alike_iff (first second : List Delivery) (table : SpaceId) (reply : Str) :
    reader.decoded first table reply = reader.decoded second table reply ↔
      ∀ name ∈ reader.namesIn reply,
        reader.firstMention [] name first = reader.firstMention [] name second := by
  rw [decoded_eq, decoded_eq, List.map_inj_left]
  simp only [namesIn, List.mem_flatMap, forall_exists_index, and_imp, Added.mk.injEq, true_and,
    List.map_inj_left, frame_alike_iff]
  constructor
  · intro alike name item member inside
    exact alike item member name inside
  · intro alike item member name inside
    exact alike name item member inside

/-- An Atom in the frame `foo`. -/
def inFoo : Str := bytes "(Concept \"a\" (AtomSpace \"foo\"))"

/-- A reader that knows one expression. -/
def readsFoo : FrameReader plain where
  read expr l r :=
    if substr expr l (r - l + 1) = inFoo then some (.node .concept (bytes "a"), [bytes "foo"])
    else none

/-- Another storage has decoded the same reply from its own server before: the Atom comes
to be in the frame of that storage instead of a new one. -/
theorem decoded_other_server :
    ¬ ∀ (first second : List Delivery) (storage : Nat) (table : SpaceId) (reply : Str),
      first.filter (·.storage = storage) = second.filter (·.storage = storage) →
        readsFoo.decoded first table reply = readsFoo.decoded second table reply := by
  intro always
  have alike := always [⟨1, 7, bytes "(" ++ inFoo ++ bytes ")\n"⟩] [] 0 7
    (bytes "(" ++ inFoo ++ bytes ")\n") rfl
  revert alike
  decide +kernel

end FrameReader

/-! ## The handler -/

/-- Carry out the work as far as it goes: the state it leaves and the requests it has
made. -/
def Work.trace {sig : Signature} {Local : Type} : Work sig Local → Local → Local × List (Request sig)
  | .done, state => (state, [])
  | .insert request next, state =>
      let (state, requests) := next.trace state
      (state, request :: requests)
  | .touch change next, state => (next state).trace (change state)
  | .stuck, state => (state, [])

/-- The Atom that a request is about. -/
def targetOf {sexpr : Sexpr} : Request (cogSignature sexpr) → Option sexpr.Content
  | .enqueue _ _ pkt _ => pkt.h.map Handle.atom
  | .enqueueNoreply _ => none

theorem insertAtom_fidMap {sexpr : Sexpr} (memory : Memory sexpr) (table : SpaceId)
    (atom : sexpr.Content) : (memory.insertAtom table atom).fidMap = memory.fidMap := by
  unfold Memory.insertAtom
  induction atom.parts generalizing memory with
  | nil => rfl
  | cons part parts ih =>
      rw [List.foldl_cons, ih, Memory.insertOne]
      split <;> rfl

namespace FrameReader

variable {sexpr : Sexpr} (reader : FrameReader sexpr) (create : Str → Frame)

theorem trace_atomListLoop (table : SpaceId) (expr : Str) (finish fuel l r : Nat)
    (memory : Memory (reader.library create)) :
    ((atomListLoop (reader.library create) table expr finish fuel l r).trace memory).1.fidMap =
        (reader.atomListFrames create table expr finish fuel l r memory.fidMap).2 ∧
      ((atomListLoop (reader.library create) table expr finish fuel l r).trace memory).2.map targetOf =
        (reader.atomListFrames create table expr finish fuel l r memory.fidMap).1.map
          fun added => some added.atom := by
  induction fuel generalizing l r memory with
  | zero => exact ⟨rfl, rfl⟩
  | succ fuel ih =>
      have bracket : (reader.library create).getNextExpr = sexpr.getNextExpr := rfl
      simp only [atomListLoop, atomListFrames, bracket]
      match sexpr.getNextExpr expr l r with
      | none => exact ⟨rfl, rfl⟩
      | some (pcnt, l, r) =>
          by_cases ended : l = r
          · simp only [ended, ↓reduceIte]
            exact ⟨rfl, rfl⟩
          by_cases unbalanced : 0 < pcnt
          · simp only [ended, unbalanced, ↓reduceIte]
            exact ⟨rfl, rfl⟩
          have decodes : (reader.library create).decodeAtomIn memory.fidMap expr l r =
              (reader.decodeAtom create memory.fidMap expr l r).map fun (atom, _, map) =>
                (atom, map) := rfl
          simp only [ended, unbalanced, ↓reduceIte, Work.trace, addDecoded, decodes]
          match reader.decodeAtom create memory.fidMap expr l r with
          | none => exact ⟨rfl, rfl⟩
          | some (atom, frames, map) =>
              have kept : ({ memory with fidMap := map }.insertAtom table atom).fidMap = map :=
                insertAtom_fidMap { memory with fidMap := map } table atom
              have rest := ih (r + 1) finish ({ memory with fidMap := map }.insertAtom table atom)
              rw [kept] at rest
              refine ⟨rest.1, ?_⟩
              exact congrArg (some atom :: ·) rest.2

/-- The handler of `CogStorage` uses the static map in this way, and asks for the values
on the Atoms that it adds. -/
theorem trace_decodeAtomList (table : SpaceId) (expr : Str)
    (memory : Memory (reader.library create)) :
    ((decodeAtomList (reader.library create) expr ⟨some table, none, none⟩).trace memory).1.fidMap =
        (reader.decodeAtomListFrames create table expr memory.fidMap).2 ∧
      ((decodeAtomList (reader.library create) expr ⟨some table, none, none⟩).trace memory).2.map
          targetOf =
        (reader.decodeAtomListFrames create table expr memory.fidMap).1.map
          fun added => some added.atom := by
  unfold decodeAtomList decodeAtomListFrames
  by_cases empty : past (find expr 40 0) 1 = (rfind expr 41).getD npos
  · simp only [empty, ↓reduceIte]
    exact ⟨rfl, rfl⟩
  · simp only [empty, ↓reduceIte]
    exact reader.trace_atomListLoop create table expr _ _ _ _ memory

end FrameReader

end AtomSpaceCog
