import AtomSpaceCog.Storage.Handled
import AtomSpaceCog.Channel.Secures

/-! # Errands

What a fetch is sent for: the lists that it asks for, and the Atoms whose values it asks for.
The handlers of a `CogStorage` do nothing but what the errand allows, and once a barrier has
waited for them they have done all of it (`Errand.fulfilled`).
-/

namespace AtomSpaceCog

open Transition

variable {sexpr : Sexpr}

/-- What a server holds: the replies that it may give, the expressions in its lists with their
Atoms, and the pairs on an Atom. -/
structure Contents (sexpr : Sexpr) where
  Answers : Str → Str → Prop
  Lists : Str → Str → sexpr.Content → Prop
  pairs : sexpr.Content → List (sexpr.Content × sexpr.Value)

/-- The text prints a list of the expressions, in some order and with blanks around them. -/
def PrintsList (IsExpr : Str → sexpr.Content → Prop) (reply : Str)
    (Listed : Str → sexpr.Content → Prop) : Prop :=
  ∃ elements gap trail, Blank gap ∧ Blank trail ∧ (∀ element ∈ elements, element.Good IsExpr) ∧
    (∀ expr atom, Listed expr atom ↔
      ∃ before, (⟨before, expr, atom⟩ : Element sexpr) ∈ elements) ∧
    reply = listText elements gap trail

/-- The text prints the pairs, in some order. -/
def PrintsPairs (reply : Str) (pairs : List (sexpr.Content × sexpr.Value)) : Prop :=
  ∃ printed, printed.Perm pairs ∧ Prints reply printed

section Open

variable {server : Server} {Valid Goal : Config (cogSetting sexpr server) → Prop}
  {Replies : Config (cogSetting sexpr server) → Str → Str → Prop}

/-- On an open channel an operation goes on. -/
theorem secures_checkOpen (opened : ∀ {s}, Valid s → s.isOpen = true)
    {s : Config (cogSetting sexpr server)} {next : CogScript sexpr}
    (rest : ∀ later, s.Later Valid later → next.Secures Valid Replies Goal later) :
    (checkOpen next).Secures Valid Replies Goal s := by
  intro later after
  rw [opened after.2]
  exact rest later after

/-- A barrier waits for the texts. -/
theorem secures_barrier (ledger : ∀ {s}, Valid s → s.Ledger) {since : Nat} {texts : List Str}
    {s : Config (cogSetting sexpr server)} (before : since ≤ s.calls.length)
    (made : ∀ text ∈ texts, s.Made since text) :
    s.SecuresAll Valid Replies (Config.Waited · since texts) [CogOp.barrier] := by
  intro later after last number goes fenced
  refine ⟨number, fenced.waited (ledger after.2) goes.1 (before.trans after.1.calls.length_le)
    fun text member => ?_⟩
  exact (made text member).mono after.1

end Open

/-- What a fetch is for. -/
structure Errand (sexpr : Sexpr) where
  /-- The AtomSpace that Atoms are put into. -/
  table : Option SpaceId
  /-- The messages that ask for lists. -/
  messages : List Str
  /-- The Atoms whose values are asked for, by their texts. -/
  Targets : Str → Handle sexpr → Prop

namespace Errand

variable (errand : Errand sexpr) (contents : Contents sexpr)

/-- What an errand may change. -/
def change : Change sexpr where
  table := errand.table
  New atom := (∃ msg ∈ errand.messages, ∃ expr whole, contents.Lists msg expr whole ∧
      atom ∈ whole.parts) ∨
    ∃ expr h, errand.Targets expr h ∧ ∃ pair ∈ contents.pairs h.atom, atom ∈ pieces h.atom pair
  Sets h key value := (∃ expr, errand.Targets expr h) ∧ (key, value) ∈ contents.pairs h.atom

/-- The server answers what it holds, and the errand asks as the operations do. -/
structure Proper (IsExpr : Str → sexpr.Content → Prop) (start : Memory sexpr)
    (Known : Memory sexpr → Prop) : Prop where
  lists : ∀ msg ∈ errand.messages, ∀ reply, contents.Answers msg reply →
    PrintsList IsExpr reply (contents.Lists msg)
  alists : ∀ expr h, errand.Targets expr h → ∀ reply,
    contents.Answers (keysAlistText expr) reply → PrintsPairs reply (contents.pairs h.atom)
  distinct : ∀ expr h, errand.Targets expr h → ((contents.pairs h.atom).map Prod.fst).Nodup
  apart : ∀ msg ∈ errand.messages, ∀ expr, msg ≠ keysAlistText expr
  one : ∀ expr h other, errand.Targets expr h → errand.Targets expr other → h = other
  /-- The values are asked for on every Atom that is listed, where it is found. -/
  found : ∀ msg ∈ errand.messages, ∀ expr atom, contents.Lists msg expr atom → ∀ table,
    errand.table = some table → ∀ now, (errand.change contents).Allows start now →
      errand.Targets expr (now.handleOf table atom)
  /-- Nothing is put into other AtomSpaces. -/
  quiet : ∀ expr h, errand.Targets expr h → ∀ home, h.getAtomSpace = some home →
    errand.table ≠ some home → ∀ now, (errand.change contents).Allows start now →
      ∀ pair ∈ contents.pairs h.atom, ∀ atoms ⊆ pieces h.atom pair,
        Known (now.insertAll home atoms) → ∀ atom ∈ atoms, now.Holds home atom

/-- The request for a list. -/
def listRequest (msg : Str) (table : SpaceId) : Request (cogSignature sexpr) :=
  enqueue sexpr msg (tablePkt table) .decodeAtomList

/-- What the handlers of an errand bring about. -/
structure Brings (text : Str) (memory : Memory sexpr)
    (asked : Request (cogSignature sexpr) → Prop) : Prop where
  listed : ∀ msg ∈ errand.messages, text = msg → ∀ expr atom, contents.Lists msg expr atom →
    (∀ table, errand.table = some table → ∀ part ∈ atom.parts, memory.Holds table part) ∧
      ∃ h : Handle sexpr, asked (keysRequest expr h)
  attached : ∀ expr h, errand.Targets expr h → text = keysAlistText expr →
    ∀ pair ∈ contents.pairs h.atom, Attached h.getAtomSpace h pair memory

variable {errand contents} {IsExpr : Str → sexpr.Content → Prop} {start : Memory sexpr}
  {Known : Memory sexpr → Prop}

/-- The pairs on an Atom stay once they are set. -/
theorem Proper.keeps (proper : errand.Proper contents IsExpr start Known) {expr : Str}
    {h : Handle sexpr} (target : errand.Targets expr h) {pair : sexpr.Content × sexpr.Value}
    (inside : pair ∈ contents.pairs h.atom) {state later : Memory sexpr}
    (allows : (errand.change contents).Allows state later)
    (set : state.getValue h pair.1 = some pair.2) : later.getValue h pair.1 = some pair.2 := by
  rcases allows.values h pair.1 with same | ⟨value, ⟨_, listed⟩, own⟩
  · exact same.trans set
  · have equal : (pair.1, value) = pair :=
      List.inj_on_of_nodup_map (proper.distinct expr h target) listed inside rfl
    rw [own, ← equal]

theorem Brings.mono (proper : errand.Proper contents IsExpr start Known) {text : Str}
    {state later : Memory sexpr} {asked more : Request (cogSignature sexpr) → Prop}
    (allows : (errand.change contents).Allows state later)
    (subset : ∀ request, asked request → more request)
    (brings : errand.Brings contents text state asked) :
    errand.Brings contents text later more where
  listed msg member same expr atom inside := by
    obtain ⟨held, h, made⟩ := brings.listed msg member same expr atom inside
    exact ⟨fun table into part own => allows.grows.holds (held table into part own), h,
      subset _ made⟩
  attached expr h target same pair inside := by
    obtain ⟨value, held⟩ := brings.attached expr h target same pair inside
    exact ⟨proper.keeps target inside allows value,
      fun home own atom piece => allows.grows.holds (held home own atom piece)⟩

/-- What is asked for, relied on and brought about in an errand. -/
def duty (server : Server) (proper : errand.Proper contents IsExpr start Known) :
    Duty (cogSetting sexpr server) where
  start := start
  Known _ _ _ later := Known later
  Rely := (errand.change contents).Allows
  Asks request := (∃ msg ∈ errand.messages, ∃ table, errand.table = some table ∧
      request = listRequest msg table) ∨
    ∃ expr h, errand.Targets expr h ∧ request = keysRequest expr h
  May _ _ := True
  Speaks _ := True
  Answers _ := contents.Answers
  Replies _ := contents.Answers
  Post _ := errand.Brings contents
  refl := .refl _
  trans := .trans
  stable := Brings.mono proper

section Handlers

variable {server : Server} (proper : errand.Proper contents IsExpr start Known) {number : Nat}
  {text : Str}

theorem attaches {expr : Str} {h : Handle sexpr} (target : errand.Targets expr h)
    {pair : sexpr.Content × sexpr.Value} (inside : pair ∈ contents.pairs h.atom) :
    Attaches (duty server proper) number text h.getAtomSpace h pair where
  grows := Change.Allows.grows
  inserts {home now atoms} same since subset known := by
    apply Change.allows_insertAll
    intro atom own
    by_cases into : errand.table = some home
    · exact Or.inl ⟨into, Or.inr ⟨expr, h, target, pair, inside, subset own⟩⟩
    · exact Or.inr (proper.quiet expr h target home same into now since pair inside atoms subset
        known atom own)
  sets _ := Change.allows_setValue ⟨⟨expr, target⟩, inside⟩
  keeps := proper.keeps target inside

theorem lists {msg : Str} (member : msg ∈ errand.messages) {element : Element sexpr}
    (inside : contents.Lists msg element.expr element.atom) {table : SpaceId}
    (into : errand.table = some table) : Lists (duty server proper) number text table element where
  grows := Change.Allows.grows
  inserts {now fidMap} _ _ := by
    have named : (errand.change contents).Allows now { now with fidMap := fidMap } :=
      (Change.Allows.refl _ now).congr rfl rfl rfl
    apply named.trans (Change.allows_insertAll _)
    exact fun part own => Or.inl ⟨into, Or.inl ⟨msg, member, _, _, inside, own⟩⟩
  asks {now} since _ := Or.inr
    ⟨_, _, proper.found msg member element.expr element.atom inside table into now since, rfl⟩

theorem keysAlistText_injective {expr other : Str}
    (same : keysAlistText expr = keysAlistText other) : expr = other := by
  unfold keysAlistText at same
  exact List.append_cancel_left (List.append_cancel_right same)

/-- The handlers keep to the errand. -/
theorem met (undoes : sexpr.Undoes) (brackets : sexpr.Brackets IsExpr) :
    (duty server proper).Met where
  silent number msg state asked asks := by
    rcases asks with ⟨_, _, _, _, made⟩ | ⟨_, _, _, made⟩ <;> cases made
  handler number client msg data callback reply state asked asks _ answers since := by
    rcases asks with ⟨text, member, table, into, made⟩ | ⟨expr, h, target, made⟩
    · cases made
      obtain ⟨elements, gap, trail, gapBlank, trailBlank, good, listed, rfl⟩ :=
        proper.lists msg member reply answers
      have inside : ∀ element ∈ elements, contents.Lists msg element.expr element.atom :=
        fun element own => (listed _ _).mpr ⟨element.gap, own⟩
      apply ensures_decodeAtomList brackets gapBlank trailBlank good
        (fun element own => lists proper member (inside element own) into) since
      intro later more goes subset all
      refine ⟨fun other _ same expr atom own => ?_, fun expr h _ same => ?_⟩
      · subst same
        obtain ⟨before, here⟩ := (listed expr atom).mp own
        obtain ⟨held, h, -, -, made⟩ := all _ here
        refine ⟨fun space same => ?_, h, made⟩
        obtain rfl := Option.some.inj (into.symm.trans same)
        exact held
      · exact absurd same (proper.apart msg member expr)
    · cases made
      obtain ⟨printed, order, prints⟩ := proper.alists expr h target reply answers
      have work : runHandler sexpr .decodeKvpListConst ⟨none, some h, none⟩ reply =
          attachAll h.getAtomSpace h (printed.map fun pair => (pair.1, some pair.2)) .done :=
        prints.decodes undoes none h
      have attached : (attachAll h.getAtomSpace h
          (printed.map fun pair => (pair.1, some pair.2)) .done).Ensures (duty server proper)
            number (keysAlistText expr) state asked := by
        apply ensures_attachAll
          (fun pair own => attaches proper target (order.mem_iff.mp own)) since
        intro later goes all
        refine ⟨fun msg member same => ?_, fun other atom target' same pair inside => ?_⟩
        · exact absurd same.symm (proper.apart msg member expr)
        · obtain rfl := keysAlistText_injective same
          obtain rfl := proper.one expr h atom target target'
          exact all pair (order.mem_iff.mpr inside)
      rw [← work] at attached
      exact attached

end Handlers

/-- All of the errand has been done. -/
structure Fulfilled (errand : Errand sexpr) (contents : Contents sexpr) (memory : Memory sexpr) :
    Prop where
  listed : ∀ msg ∈ errand.messages, ∀ expr atom, contents.Lists msg expr atom → ∀ table,
    errand.table = some table → ∀ part ∈ atom.parts, memory.Holds table part
  attached : ∀ expr h, errand.Targets expr h → ∀ pair ∈ contents.pairs h.atom,
    Attached h.getAtomSpace h pair memory

/-- When a barrier has waited for the lists, and for the Atoms that are in none of them, all of
the errand has been done. -/
theorem fulfilled {server : Server} (proper : errand.Proper contents IsExpr start Known)
    {Asks : Request (cogSignature sexpr) → Prop} {Speaks : Str → Prop}
    {s : Config (cogSetting sexpr server)}
    (serving : s.Serving ((duty server proper).widen Asks Speaks))
    {texts : List Str} (waited : s.Waited 0 texts) (messages : ∀ msg ∈ errand.messages, msg ∈ texts)
    (targets : ∀ expr h, errand.Targets expr h → keysAlistText expr ∈ texts ∨
      ∃ msg ∈ errand.messages, ∃ atom, contents.Lists msg expr atom) :
    errand.Fulfilled contents s.locals := by
  obtain ⟨number, used, -, drained, -, covers⟩ := waited
  obtain ⟨time, same⟩ := Option.isSome_iff_exists.mp drained
  have post := serving.kept.drained number time same
  constructor
  · intro msg member expr atom listed
    obtain ⟨call, inside, -, covered, text⟩ := covers msg (messages msg member)
    exact ((post call inside covered).listed msg member text expr atom listed).1
  · intro expr h target
    rcases targets expr h target with direct | ⟨msg, member, atom, listed⟩
    · obtain ⟨call, inside, -, covered, text⟩ := covers _ direct
      exact (post call inside covered).attached expr h target text
    · obtain ⟨call, inside, -, covered, text⟩ := covers msg (messages msg member)
      obtain ⟨-, other, asked⟩ := (post call inside covered).listed msg member text expr atom listed
      obtain ⟨request, recorded, early, source, counter, made⟩ := asked
      apply (post request recorded (Or.inr ⟨source, time, same, early⟩)).attached expr h target
      rw [made, Request.toMsg_strToSend]
      rfl

end Errand

end AtomSpaceCog
