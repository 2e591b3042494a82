import AtomSpaceCog.Storage.Handled

/-! # Handlers lose nothing

Whatever the replies are, the handlers of a `CogStorage` only insert Atoms and set values, so
that no AtomSpace loses an Atom in a run in which the program does nothing itself
(`grows_exec`).
-/

namespace AtomSpaceCog

open Transition

variable {sexpr : Sexpr} {server : Server}

/-- The AtomSpaces only grow. -/
def growth (server : Server) (start : Memory sexpr) : Duty (cogSetting sexpr server) where
  start := start
  Known _ _ _ _ := True
  Rely := Memory.Grows
  Asks _ := True
  May _ _ := True
  Speaks _ := True
  Answers _ _ _ := True
  Replies _ _ _ := True
  Post _ _ _ _ := True
  refl := .refl
  trans := .trans
  stable _ _ post := post

section Handlers

variable {start : Memory sexpr} {number : Nat} {text : Str}

theorem growth_attach (space : Option SpaceId) (h : Handle sexpr) (key : sexpr.Content)
    (value : Option sexpr.Value) {next : CogWork sexpr}
    (rest : ∀ state asked, next.Ensures (growth server start) number text state asked)
    (state : Memory sexpr) (asked : Request (cogSignature sexpr) → Prop) :
    (attach sexpr space h key value next).Ensures (growth server start) number text state asked := by
  cases space with
  | none =>
      intro now _ _
      exact ⟨now.grows_setValue h key value, rest _ _⟩
  | some home =>
      intro first _ _
      refine ⟨(first.insertAtom_spec home key).2.1, ?_⟩
      intro second _ _
      refine ⟨(second.addAtoms_spec home value).2.1, ?_⟩
      intro third _ _
      refine ⟨third.grows_setValue h key value, ?_⟩
      intro fourth _ _
      exact ⟨(fourth.insertAtom_spec home h.atom).2.1, rest _ _⟩

theorem growth_alistLoop (space : Option SpaceId) (h : Handle sexpr) (alist : Str) (fuel : Nat)
    (pos : Option Nat) (state : Memory sexpr) (asked : Request (cogSignature sexpr) → Prop) :
    (alistLoop sexpr space h alist fuel pos).Ensures (growth server start) number text state asked := by
  obtain ⟨last, ends, same⟩ := alistLoop_eq space h alist fuel pos
  rw [same]
  generalize (Loop.items (alistRound sexpr alist) fuel pos).map _ = pairs
  induction pairs generalizing state asked with
  | nil => rcases ends with rfl | rfl <;> trivial
  | cons pair pairs ih => exact growth_attach space h pair.1 pair.2 ih state asked

theorem grows_addDecoded {table : SpaceId} {expr : Str} {l r : Nat} {memory : Memory sexpr}
    {added : sexpr.Content × Memory sexpr}
    (decoded : addDecoded sexpr table expr l r memory = some added) : memory.Grows added.2 := by
  unfold addDecoded at decoded
  split at decoded
  · next atom fidMap _ =>
      obtain rfl := Option.some.inj decoded
      have inserted := (Memory.insertAtom_spec { memory with fidMap := fidMap } table atom).2.1
      exact ⟨inserted.bases, inserted.atoms⟩
  · cases decoded

theorem growth_atomListLoop (table : SpaceId) (expr : Str) (finish fuel l r : Nat)
    (state : Memory sexpr) (asked : Request (cogSignature sexpr) → Prop) :
    (atomListLoop sexpr table expr finish fuel l r).Ensures (growth server start) number text state
      asked := by
  induction fuel generalizing l r state asked with
  | zero => trivial
  | succ fuel ih =>
      rw [atomListLoop]
      split
      · trivial
      · next pcnt left right bounds =>
          split
          · trivial
          split
          · trivial
          intro now _ _
          dsimp only
          cases decoded : addDecoded sexpr table expr left right now with
          | none => exact ⟨.refl now, trivial⟩
          | some added => exact ⟨grows_addDecoded decoded, trivial, ih _ _ _ _⟩

theorem growth_met (server : Server) (start : Memory sexpr) : (growth server start).Met where
  silent _ _ _ _ _ _ _ := trivial
  handler number client msg pkt handler reply state asked _ _ _ _ := by
    cases handler with
    | noopConst => trivial
    | decodeValue =>
        change (decodeValueHandler sexpr reply pkt).Ensures (growth server start) number msg state asked
        unfold decodeValueHandler
        split
        · next value _ h key _ _ _ =>
            split
            · intro first _ _
              refine ⟨(first.addAtoms_spec _ value).2.1, ?_⟩
              intro second _ _
              exact ⟨second.grows_setValue h key.atom value, trivial⟩
            · intro now _ _
              exact ⟨now.grows_setValue h key.atom value, trivial⟩
        · trivial
    | decodeAtomList =>
        change (decodeAtomList sexpr reply pkt).Ensures (growth server start) number msg state asked
        unfold decodeAtomList
        cases pkt.table with
        | none => trivial
        | some table =>
            dsimp only
            split
            · trivial
            · exact growth_atomListLoop table reply _ _ _ _ state asked
    | decodeKvpListConst =>
        change (decodeKvpListConst sexpr reply pkt).Ensures (growth server start) number msg state asked
        unfold decodeKvpListConst roDecodeAlist
        cases pkt.h with
        | none => trivial
        | some h =>
            dsimp only
            split
            · trivial
            · split
              · trivial
              · exact growth_alistLoop _ h reply _ _ state asked

end Handlers

end AtomSpaceCog
