import AtomSpaceCog.Simple.Frames
import AtomSpaceCog.Simple.Talk

/-! # The order in which Atoms are stored

`storeAtom` names the frame of an Atom only from the first Atom on that lives outside of the
AtomSpace of the storage node. An Atom of that AtomSpace is put into the default AtomSpace of
the server before, and into its own frame after, so the order matters as soon as there are
Atoms of both kinds, and only then.
-/

namespace AtomSpaceCog.Simple

open CogSimpleStorage

variable {sexpr : FrameSexpr}

section View

variable (sexpr)

/-- The Atoms in the AtomSpaces of a server and the values on them; `none` is its default
AtomSpace. -/
@[ext] structure View where
  has : Option SpaceId → sexpr.Content → Prop
  value : Option SpaceId → sexpr.Content → sexpr.Content → Option sexpr.Value

variable {sexpr}

/-- Some Atoms are added, and the values on one Atom are changed. -/
def View.store (view : View sexpr) (place : Option SpaceId) (atom : sexpr.Content)
    (added : Option SpaceId → sexpr.Content → Prop)
    (written : (sexpr.Content → Option sexpr.Value) → sexpr.Content → Option sexpr.Value) :
    View sexpr where
  has other content := view.has other content ∨ added other content
  value := Function.update view.value place
    (Function.update (view.value place) atom (written (view.value place atom)))

/-- Stores of different Atoms commute. -/
theorem View.store_comm (view : View sexpr) {place place' : Option SpaceId}
    {atom atom' : sexpr.Content} (apart : (place, atom) ≠ (place', atom'))
    (added added' : Option SpaceId → sexpr.Content → Prop)
    (written written' : (sexpr.Content → Option sexpr.Value) → sexpr.Content → Option sexpr.Value) :
    (view.store place atom added written).store place' atom' added' written' =
      (view.store place' atom' added' written').store place atom added written := by
  apply View.ext
  · funext other content
    exact propext (by simp only [store, or_assoc, or_comm (a := added other content)])
  · by_cases same : place = place'
    · subst same
      have differ : atom ≠ atom' := fun same => apart (by rw [same])
      simp only [store, Function.update_self, Function.update_idem,
        Function.update_of_ne differ, Function.update_of_ne differ.symm]
      rw [Function.update_comm differ]
    · simp only [store, Function.update_of_ne same, Function.update_of_ne (Ne.symm same)]
      rw [Function.update_comm same]

end View

/-- The AtomSpace that a storing message acts on: that of the Atom where the message names
it, and else the default one. -/
def place (several : Bool) (h : Handle sexpr.toSexpr) : Option SpaceId :=
  if several then h.getAtomSpace else none

/-- What a server does with the messages that store some Atoms. -/
structure Stores (server : Server) (hs : List (Handle sexpr.toSexpr)) where
  view : server.Space → View sexpr
  /-- The Atoms that a message adds, with their parts and the keys. -/
  adds : Bool → Handle sexpr.toSexpr → List (sexpr.Content × sexpr.Value) →
    Option SpaceId → sexpr.Content → Prop
  /-- What a message makes of the values on its Atom. -/
  written : List (sexpr.Content × sexpr.Value) → (sexpr.Content → Option sexpr.Value) →
    sexpr.Content → Option sexpr.Value
  adds_self : ∀ several, ∀ h ∈ hs, ∀ pairs, adds several h pairs (place several h) h.atom
  /-- A message that names a frame does not act on the default AtomSpace. -/
  adds_frames : ∀ h ∈ hs, ∀ pairs atom, ¬ adds true h pairs none atom
  view_store : ∀ several, ∀ h ∈ hs, ∀ pairs space,
    view (server.run (storeAtomText several h pairs) space).1 =
      (view space).store (place several h) h.atom (adds several h pairs) (written pairs)
  view_define : ∀ frame space, view (server.run (defineText sexpr frame) space).1 = view space
  /-- The server may hold no Atoms. -/
  empty : ∃ space, ∀ place atom, ¬ (view space).has place atom

/-- The state of the server after some messages. -/
def after (server : Server) (sent : List Str) (space : server.Space) : server.Space :=
  sent.foldl (fun space msg => (server.run msg space).1) space

/-- Calls of `storeAtom` one after the other, and what they send. -/
def StoredInOrder (own : Option SpaceId) :
    List (Handle sexpr.toSexpr) → Node sexpr → List Str → Node sexpr → Prop
  | [], node, sent, final => sent = [] ∧ final = node
  | h :: hs, node, sent, final => ∃ first middle rest,
      Talks (prog own (.storeAtom h)) node first [] (.exit .returned) middle ∧
        sent = first ++ rest ∧ StoredInOrder own hs middle rest final

section Calls

variable {own : SpaceId} {h : Handle sexpr.toSexpr} {node final : Node sexpr} {sent : List Str}

theorem talks_cacheFrame (hasp : SpaceId) (node : Node sexpr) (next : SimpleProg sexpr) :
    ∃ final, Talks (cacheFrame hasp next) node [] [] next final ∧
      final.memory.values = node.memory.values ∧ final.multiSpace = node.multiSpace := by
  suffices loop : ∀ frames : List SpaceId, ∃ final,
      Talks (frames.foldr (fun frame rest =>
        .touch (fun node => { node with
          frameMap := frame :: node.frameMap
          memory := { node.memory with
            fidMap := sexpr.insertFid node.memory.fidMap (sexpr.getName frame) frame } })
          fun _ => rest) next) node [] [] next final ∧
        final.memory.values = node.memory.values ∧ final.multiSpace = node.multiSpace by
    obtain ⟨final, talks, values, multi⟩ := loop ((node.memory.bases hasp).reverse ++ [hasp])
    exact ⟨final, .touch talks, values, multi⟩
  intro frames
  induction frames generalizing node with
  | nil => exact ⟨node, .here _ _, rfl, rfl⟩
  | cons frame frames ih =>
      obtain ⟨final, talks, values, multi⟩ := ih _
      exact ⟨final, .touch talks, values, multi⟩

theorem talks_writeFrame (hasp : SpaceId) (node : Node sexpr) (multi : node.multiSpace = true)
    (next : SimpleProg sexpr) :
    ∃ front final, Talks (writeFrame (some hasp) next) node front [] next final ∧
      (front = [] ∨ front = [defineText sexpr hasp]) ∧
      final.memory.values = node.memory.values ∧ final.multiSpace = true := by
  by_cases cached : hasp ∈ node.frameMap
  · refine ⟨[], node, .touch ?_, .inl rfl, rfl, multi⟩
    rw [if_pos cached]
    exact .here _ _
  · obtain ⟨final, talks, values, same⟩ :=
      talks_cacheFrame hasp { node with multiSpace := true } next
    refine ⟨[defineText sexpr hasp], final, .touch ?_, .inr rfl, values, same⟩
    rw [if_neg cached]
    exact .touch (.lock (.send (.unlock talks)))

/-- The message of `storeAtom` itself. -/
theorem talks_storeMessage (h : Handle sexpr.toSexpr) (node : Node sexpr) (next : SimpleProg sexpr) :
    Talks (read fun node =>
      if node.memory.values h ≠ [] then
        tell (bytes "(cog-set-values! " ++ encodeAtom node.multiSpace h ++
          sexpr.encodeAtomValues (node.memory.values h) ++ bytes ")\n") next
      else
        tell (bytes "(cog-set-value! " ++ encodeAtom node.multiSpace h ++
          bytes "(Predicate \"*-TruthValueKey-*\") #f)\n") next)
      node [storeAtomText node.multiSpace h (node.memory.values h)] [] next node := by
  apply Talks.touch
  cases values : node.memory.values h with
  | nil => exact .lock (.send (.unlock (.here _ _)))
  | cons pair pairs => exact .lock (.send (.unlock (.here _ _)))

/-- What a call of `storeAtom` sends: the frame, if the server may not know it, and the
Atom. -/
theorem talks_storeAtom (own : SpaceId) (node : Node sexpr) (framed : h.getAtomSpace ≠ none) :
    ∃ front home several final,
      Talks (prog (some own) (.storeAtom h)) node
        (front ++ [storeAtomText several h (node.memory.values h)]) [] (.exit .returned) final ∧
      (front = [] ∨ front = [defineText sexpr home]) ∧
      several = (node.multiSpace || decide (h.getAtomSpace ≠ some own)) ∧
      final.memory.values = node.memory.values ∧ final.multiSpace = several := by
  obtain ⟨home, here⟩ := Option.ne_none_iff_exists'.mp framed
  have involved : decide (some own ≠ none ∧ h.getAtomSpace ≠ some own) =
      decide (h.getAtomSpace ≠ some own) := by simp
  cases multi : node.multiSpace || decide (h.getAtomSpace ≠ some own) with
  | false =>
      have message := talks_storeMessage h { node with multiSpace := false } (.exit .returned)
      refine ⟨[], home, false, { node with multiSpace := false }, .touch ?_, .inl rfl, rfl, rfl, rfl⟩
      rw [involved, multi]
      exact message
  | true =>
      obtain ⟨front, final, told, short, values, latched⟩ := talks_writeFrame home
        { node with multiSpace := true } rfl _
      have message := talks_storeMessage h final (.exit .returned)
      rw [values, latched] at message
      refine ⟨front, home, true, final, .touch ?_, short, rfl, values, latched⟩
      rw [involved, multi, here]
      exact told.trans message

/-- What the server makes of a call of `storeAtom`. -/
theorem view_storeAtom {server : Server} {hs : List (Handle sexpr.toSexpr)}
    (stores : Stores server hs) (member : h ∈ hs) (framed : h.getAtomSpace ≠ none)
    (talks : Talks (prog (some own) (.storeAtom h)) node sent [] (.exit .returned) final) :
    final.memory.values = node.memory.values ∧
      final.multiSpace = (node.multiSpace || decide (h.getAtomSpace ≠ some own)) ∧
      ∀ space, stores.view (after server sent space) =
        (stores.view space).store (place final.multiSpace h) h.atom
          (stores.adds final.multiSpace h (node.memory.values h))
          (stores.written (node.memory.values h)) := by
  obtain ⟨front, home, several, other, expected, short, mode, values, latched⟩ :=
    talks_storeAtom own node framed
  obtain ⟨rfl, rfl⟩ := talks.unique expected
  refine ⟨values, latched.trans mode, fun space => ?_⟩
  rw [latched]
  rcases short with rfl | rfl
  · exact stores.view_store several h member _ space
  · refine (stores.view_store several h member _ _).trans ?_
    rw [stores.view_define]

end Calls

section Orders

variable {server : Server} {own : SpaceId} {hs : List (Handle sexpr.toSexpr)}
  {order : List (Handle sexpr.toSexpr)} {node final : Node sexpr} {sent : List Str}

theorem after_append (first rest : List Str) (space : server.Space) :
    after server (first ++ rest) space = after server rest (after server first space) :=
  List.foldl_append

/-- The calls can all be made. -/
theorem exists_storedInOrder (own : SpaceId) (framed : ∀ h ∈ order, h.getAtomSpace ≠ none)
    (node : Node sexpr) : ∃ sent final, StoredInOrder (some own) order node sent final := by
  induction order generalizing node with
  | nil => exact ⟨[], node, rfl, rfl⟩
  | cons h order ih =>
      obtain ⟨front, home, several, middle, talks, _⟩ :=
        talks_storeAtom own node (framed h List.mem_cons_self)
      obtain ⟨rest, final, stored⟩ := ih (fun h member => framed h (List.mem_cons_of_mem _ member)) middle
      exact ⟨_, final, _, middle, rest, talks, rfl, stored⟩

variable (stores : Stores server hs)

/-- Stores that all name the frame of their Atom, or all do not. -/
def Stores.all (several : Bool) (values : Handle sexpr.toSexpr → List (sexpr.Content × sexpr.Value))
    (order : List (Handle sexpr.toSexpr)) (view : View sexpr) : View sexpr :=
  order.foldl (fun view h => view.store (place several h) h.atom
    (stores.adds several h (values h)) (stores.written (values h))) view

variable {stores}

/-- Where every call names the frame, or none does. -/
theorem view_storedInOrder {several : Bool} (among : ∀ h ∈ order, h ∈ hs)
    (framed : ∀ h ∈ order, h.getAtomSpace ≠ none)
    (mode : ∀ h ∈ order, (node.multiSpace || decide (h.getAtomSpace ≠ some own)) = several)
    (stored : StoredInOrder (some own) order node sent final) (space : server.Space) :
    stores.view (after server sent space) =
      stores.all several node.memory.values order (stores.view space) := by
  induction order generalizing node sent space with
  | nil =>
      obtain ⟨rfl, rfl⟩ := stored
      rfl
  | cons h order ih =>
      obtain ⟨first, middle, rest, talks, rfl, stored⟩ := stored
      obtain ⟨values, latched, view⟩ :=
        view_storeAtom stores (among h List.mem_cons_self) (framed h List.mem_cons_self) talks
      have here : middle.multiSpace = several := latched.trans (mode h List.mem_cons_self)
      have later : ∀ other ∈ order,
          (middle.multiSpace || decide (other.getAtomSpace ≠ some own)) = several := by
        intro other member
        have same := mode other (List.mem_cons_of_mem _ member)
        rw [here]
        cases several with
        | false => simpa using (Bool.or_eq_false_iff.mp same).2
        | true => rfl
      rw [after_append, ih (fun other member => among other (List.mem_cons_of_mem _ member))
        (fun other member => framed other (List.mem_cons_of_mem _ member)) later stored, view, here,
        values]
      rfl

/-- Stores of different Atoms that all name the frame, or all are in one AtomSpace, may be made
in any order. -/
theorem Stores.all_perm {several : Bool} {order order' : List (Handle sexpr.toSexpr)}
    (perm : order.Perm order')
    (apart : ∀ h ∈ order, ∀ h' ∈ order, h ≠ h' → (place several h, h.atom) ≠ (place several h', h'.atom))
    (values : Handle sexpr.toSexpr → List (sexpr.Content × sexpr.Value)) (view : View sexpr) :
    stores.all several values order view = stores.all several values order' view := by
  apply perm.foldl_eq'
  intro h member h' member' view
  by_cases same : h = h'
  · rw [same]
  · exact View.store_comm view (apart h member h' member' same) _ _ _ _

theorem ext_getAtomSpace {h h' : Handle sexpr.toSexpr} (framed : h.getAtomSpace ≠ none)
    (home : h.getAtomSpace = h'.getAtomSpace) (atom : h.atom = h'.atom) : h = h' := by
  obtain ⟨atom, space | object⟩ := h
  · obtain ⟨atom', space' | object'⟩ := h'
    · cases atom
      cases home
      rfl
    · cases home
  · exact absurd rfl framed

/-- A call takes no Atom out. -/
theorem has_storedInOrder (among : ∀ h ∈ order, h ∈ hs) (framed : ∀ h ∈ order, h.getAtomSpace ≠ none)
    (stored : StoredInOrder (some own) order node sent final) {space : server.Space}
    {place : Option SpaceId} {atom : sexpr.Content} (has : (stores.view space).has place atom) :
    (stores.view (after server sent space)).has place atom := by
  induction order generalizing node sent space with
  | nil =>
      obtain ⟨rfl, rfl⟩ := stored
      exact has
  | cons h order ih =>
      obtain ⟨first, middle, rest, talks, rfl, stored⟩ := stored
      obtain ⟨_, _, view⟩ :=
        view_storeAtom stores (among h List.mem_cons_self) (framed h List.mem_cons_self) talks
      rw [after_append]
      apply ih (fun other member => among other (List.mem_cons_of_mem _ member))
        (fun other member => framed other (List.mem_cons_of_mem _ member)) stored
      rw [view]
      exact .inl has

/-- Calls that name frames leave the default AtomSpace alone. -/
theorem Stores.all_has_default {values : Handle sexpr.toSexpr → List (sexpr.Content × sexpr.Value)}
    (among : ∀ h ∈ order, h ∈ hs) (view : View sexpr) (atom : sexpr.Content) :
    (stores.all true values order view).has none atom ↔ view.has none atom := by
  induction order generalizing view with
  | nil => exact Iff.rfl
  | cons h order ih =>
      refine (ih (fun other member => among other (List.mem_cons_of_mem _ member)) _).trans ?_
      exact or_iff_left (stores.adds_frames h (among h List.mem_cons_self) _ atom)

/-- The calls of `storeAtom` leave the same on the server in whichever order they are made. -/
def Orderless (stores : Stores server hs) (own : SpaceId) (memory : Memory sexpr.toSexpr) : Prop :=
  ∀ order order', hs.Perm order → hs.Perm order' → ∀ sent sent' final final',
    StoredInOrder (some own) order ⟨memory, false, []⟩ sent final →
    StoredInOrder (some own) order' ⟨memory, false, []⟩ sent' final' →
      ∀ space, stores.view (after server sent space) = stores.view (after server sent' space)

theorem orderless_of_mode {several : Bool} {memory : Memory sexpr.toSexpr}
    (framed : ∀ h ∈ hs, h.getAtomSpace ≠ none)
    (mode : ∀ h ∈ hs, decide (h.getAtomSpace ≠ some own) = several) :
    Orderless stores own memory := by
  have apart : ∀ h ∈ hs, ∀ h' ∈ hs, h ≠ h' →
      (place several h, h.atom) ≠ (place several h', h'.atom) := by
    intro h member h' member' differ same
    obtain ⟨home, atom⟩ := Prod.mk.inj same
    refine differ (ext_getAtomSpace (framed h member) ?_ atom)
    cases several with
    | true => exact home
    | false =>
        have here := mode h member
        have here' := mode h' member'
        simp only [decide_eq_false_iff_not, not_not] at here here'
        exact here.trans here'.symm
  have view : ∀ order, hs.Perm order → ∀ sent final,
      StoredInOrder (some own) order ⟨memory, false, []⟩ sent final → ∀ space,
        stores.view (after server sent space) =
          stores.all several memory.values hs (stores.view space) := by
    intro order perm sent final stored space
    have fresh : ∀ h ∈ order, ((⟨memory, false, []⟩ : Node sexpr).multiSpace ||
        decide (h.getAtomSpace ≠ some own)) = several :=
      fun h member => mode h (perm.mem_iff.mpr member)
    rw [stores.all_perm perm apart]
    exact view_storedInOrder (fun h member => perm.mem_iff.mpr member)
      (fun h member => framed h (perm.mem_iff.mpr member)) fresh stored space
  intro order order' perm perm' sent sent' final final' stored stored' space
  rw [view order perm sent final stored, view order' perm' sent' final' stored']

/-- The first call puts an Atom of the AtomSpace of the storage node into the default AtomSpace,
but not after a call with an Atom from elsewhere. -/
theorem not_orderless {memory : Memory sexpr.toSexpr} (framed : ∀ h ∈ hs, h.getAtomSpace ≠ none)
    {a b : Handle sexpr.toSexpr} (first : a ∈ hs) (second : b ∈ hs) (here : a.getAtomSpace = some own)
    (foreign : b.getAtomSpace ≠ some own) : ¬ Orderless stores own memory := by
  intro same
  obtain ⟨space, empty⟩ := stores.empty
  have perm := List.perm_cons_erase first
  have perm' := List.perm_cons_erase second
  obtain ⟨sent, final, stored⟩ := exists_storedInOrder own
    (fun h member => framed h (perm.mem_iff.mpr member)) ⟨memory, false, []⟩
  obtain ⟨sent', final', stored'⟩ := exists_storedInOrder own
    (fun h member => framed h (perm'.mem_iff.mpr member)) ⟨memory, false, []⟩
  have views := same _ _ perm perm' sent sent' final final' stored stored' space
  have put : (stores.view (after server sent space)).has none a.atom := by
    obtain ⟨message, middle, rest, talks, rfl, stored⟩ := stored
    obtain ⟨_, latched, view⟩ := view_storeAtom stores first (framed a first) talks
    rw [after_append]
    apply has_storedInOrder (fun h member => List.mem_of_mem_erase member)
      (fun h member => framed h (List.mem_of_mem_erase member)) stored
    have single : middle.multiSpace = false := latched.trans (by simp [here])
    rw [view, single]
    exact .inr (stores.adds_self false a first _)
  have kept : ¬ (stores.view (after server sent' space)).has none a.atom := by
    obtain ⟨message, middle, rest, talks, rfl, stored⟩ := stored'
    obtain ⟨_, latched, view⟩ := view_storeAtom stores second (framed b second) talks
    have several : middle.multiSpace = true := latched.trans (by simp [foreign])
    have latches : ∀ h ∈ hs.erase b,
        (middle.multiSpace || decide (h.getAtomSpace ≠ some own)) = true :=
      fun h _ => by rw [several, Bool.true_or]
    rw [after_append, view_storedInOrder (fun h member => List.mem_of_mem_erase member)
      (fun h member => framed h (List.mem_of_mem_erase member)) latches stored,
      stores.all_has_default (fun h member => List.mem_of_mem_erase member), view, several]
    rintro (has | added)
    · exact empty none a.atom has
    · exact stores.adds_frames b second _ _ added
  exact kept (views ▸ put)

/-- Some Atoms leave the same Atoms and values in the same AtomSpaces of the server in whichever
order they are stored through a `CogSimpleStorage` that was just opened, if and only if all of
them live in the AtomSpace of the storage node, or none does. -/
theorem stored_orderless_iff (stores : Stores server hs) (memory : Memory sexpr.toSexpr)
    (framed : ∀ h ∈ hs, h.getAtomSpace ≠ none) :
    Orderless stores own memory ↔
      (∀ h ∈ hs, h.getAtomSpace = some own) ∨ ∀ h ∈ hs, h.getAtomSpace ≠ some own := by
  constructor
  · intro same
    by_contra mixed
    obtain ⟨somewhere, here⟩ := not_or.mp mixed
    push Not at somewhere here
    obtain ⟨b, second, foreign⟩ := somewhere
    obtain ⟨a, first, here⟩ := here
    exact not_orderless framed first second here foreign same
  · intro uniform
    rcases uniform with here | foreign
    · exact orderless_of_mode framed fun h member => decide_eq_false fun away => away (here h member)
    · exact orderless_of_mode framed fun h member => decide_eq_true (foreign h member)

end Orders

section Runs

open Session

/-- A server for the single Atom of `twoFrames`; its state lists the AtomSpaces that hold it. -/
def oneAtomServer : Server where
  Space := List (Option SpaceId)
  run msg space :=
    if (bytes "(define ").isPrefixOf msg then (space, []) else ((shortForms msg).head? :: space, [])

/-- The Atom in the frames `base` and `top`. -/
def bothFrames : List (Handle twoFrames.toSexpr) := [placed 0, placed 1]

theorem mem_bothFrames {h : Handle twoFrames.toSexpr} (member : h ∈ bothFrames) :
    h = placed 0 ∨ h = placed 1 := by
  simpa [bothFrames] using member

theorem run_storeAtomText (several : Bool) {h : Handle twoFrames.toSexpr} (member : h ∈ bothFrames)
    (pairs : List (twoFrames.Content × twoFrames.Value)) (space : List (Option SpaceId)) :
    (oneAtomServer.run (storeAtomText several h pairs) space).1 = place several h :: space := by
  have set : Around (bytes "(cog-set-values! ") (bytes "()" ++ bytes ")\n") :=
    ⟨by decide +kernel, by decide +kernel, by decide +kernel⟩
  have clobber : Around (bytes "(cog-set-value! ") (bytes "(Predicate \"*-TruthValueKey-*\") #f)\n") :=
    ⟨by decide +kernel, by decide +kernel, by decide +kernel⟩
  have named : (shortForms (storeAtomText several h pairs)).head? = place several h := by
    cases pairs with
    | nil =>
        cases several with
        | false => exact congrArg List.head? clobber.plain
        | true =>
            rcases mem_bothFrames member with rfl | rfl
            · exact congrArg List.head? clobber.base
            · exact congrArg List.head? clobber.top
    | cons pair pairs =>
        rw [storeAtomText, List.append_assoc (_ ++ _)]
        cases several with
        | false => exact congrArg List.head? set.plain
        | true =>
            rcases mem_bothFrames member with rfl | rfl
            · exact congrArg List.head? set.base
            · exact congrArg List.head? set.top
  have other : (bytes "(define ").isPrefixOf (storeAtomText several h pairs) = false := by
    cases pairs <;> simp only [storeAtomText, List.append_assoc] <;> rfl
  simp only [oneAtomServer, other, named, Bool.false_eq_true, ↓reduceIte]

/-- The Atom carries no values. -/
def oneAtomView (space : List (Option SpaceId)) : View twoFrames where
  has place atom := place ∈ space ∧ atom = .node () []
  value _ _ _ := none

def oneAtomStores : Stores oneAtomServer bothFrames where
  view := oneAtomView
  adds several h _ other atom := other = place several h ∧ atom = .node () []
  written _ values := values
  adds_self several h member pairs := by
    rcases mem_bothFrames member with rfl | rfl
    · exact ⟨rfl, rfl⟩
    · exact ⟨rfl, rfl⟩
  adds_frames h member pairs atom := by
    rcases mem_bothFrames member with rfl | rfl
    · exact fun added => nomatch added.1
    · exact fun added => nomatch added.1
  view_store several h member pairs (space : List (Option SpaceId)) := by
    refine (congrArg oneAtomView (run_storeAtomText several member pairs space)).trans ?_
    apply View.ext
    · funext other atom
      simp only [oneAtomView, View.store, List.mem_cons]
      exact propext (or_and_right.trans or_comm)
    · funext other atom key
      simp only [oneAtomView, View.store, Function.update_eq_self]
  view_define frame space := by
    have define : (bytes "(define ").isPrefixOf (defineText twoFrames frame) = true := by
      rw [defineText, List.append_assoc]
      rfl
    apply congrArg oneAtomView
    change (if _ then _ else _ : List (Option SpaceId) × Str).1 = space
    rw [if_pos define]
  empty := ⟨[], fun _ _ has => List.not_mem_nil has.1⟩

/-- Atoms in the frames `base` and `top`, stored through a storage node in a third. -/
theorem stored_orderless_from_above :
    bothFrames.Perm [placed 1, placed 0] ∧ Orderless oneAtomStores 2 noAtoms := by
  have framed : ∀ h ∈ bothFrames, h.getAtomSpace ≠ none := by decide
  exact ⟨.swap _ _ _, (stored_orderless_iff oneAtomStores noAtoms framed).mpr (.inr (by decide))⟩

/-- A storage node in the frame `base`: the first call puts the Atom of that frame into the
default AtomSpace of the server, the second puts it into its frame. -/
theorem stored_orderless_fails : ¬ Orderless oneAtomStores 0 noAtoms :=
  not_orderless (a := placed 0) (b := placed 1) (by decide) (by decide) (by decide) rfl (by decide)

end Runs

end AtomSpaceCog.Simple
