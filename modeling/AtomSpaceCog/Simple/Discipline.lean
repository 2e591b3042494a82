import AtomSpaceCog.Simple.Operations

/-! # The discipline of the lock

Between a send and the `do_recv` that follows it there is nothing, and of the operations
all but `proxy_open`, `proxy_close` and `close` hold the lock over both
(`orderly_prog`).
-/

namespace AtomSpaceCog.Simple

variable {Local : Type}

/-- The rest of an operation receives only directly after it has sent, and, unless it is
free to do without, holds the lock then. `asked`: the step before was a send. -/
def Prog.Orderly (free : Bool) : Prog Local → (held asked : Bool) → Prop
  | .exit _, _, _ | .stuck, _, _ => True
  | .touch _ next, held, _ => ∀ locals, (next locals).Orderly free held false
  | .connected next, held, _ => ∀ isOpen, (next isOpen).Orderly free held false
  | .lock next, _, _ => next.Orderly free true false
  | .unlock next, _, _ => next.Orderly free false false
  | .send _ next, held, _ => next.Orderly free held true
  | .recv next, held, asked =>
      asked = true ∧ (free = true ∨ held = true) ∧ ∀ reply, (next reply).Orderly free held false
  | .closeSocket next, held, _ | .clearSocket next, held, _ => next.Orderly free held false

theorem Prog.Orderly.not_awaits {free held : Bool} {prog : Prog Local}
    (orderly : prog.Orderly free held false) : prog.awaits = false := by
  cases prog with
  | recv next => exact absurd orderly.1 Bool.false_ne_true
  | _ => rfl

theorem Prog.Orderly.holds {free held asked : Bool} {prog : Prog Local}
    (orderly : prog.Orderly free held asked) (awaits : prog.awaits = true) :
    free = true ∨ held = true := by
  cases prog with
  | recv next => exact orderly.2.1
  | _ => cases awaits

section Operations

open CogSimpleStorage

variable {sexpr : FrameSexpr} {free held : Bool} {next : SimpleProg sexpr}

theorem orderly_decode (orderly : next.Orderly free held false) (work : CogWork sexpr.toSexpr) :
    (decode next work).Orderly free held false := by
  induction work with
  | done => exact orderly
  | insert request rest ih => exact ih
  | touch change rest ih => exact fun node => ih node.memory
  | stuck => trivial

theorem orderly_tell {msg : Str} (orderly : next.Orderly free false false) :
    (tell msg next).Orderly free held false := orderly

theorem orderly_ask {msg : Str} {next : Str → SimpleProg sexpr}
    (orderly : ∀ reply, (next reply).Orderly free false false) :
    (ask msg next).Orderly free held false := ⟨rfl, Or.inr rfl, orderly⟩

theorem orderly_cacheFrame {hasp : SpaceId} (orderly : next.Orderly free held false) :
    (cacheFrame hasp next).Orderly free held false := by
  intro node
  dsimp only
  induction (node.memory.bases hasp).reverse ++ [hasp] with
  | nil => exact orderly
  | cons frame frames ih => exact fun _ => ih

theorem orderly_writeFrame {hasp : Option SpaceId} (orderly : next.Orderly free false false) :
    (writeFrame hasp next).Orderly free false false := by
  cases hasp with
  | none => trivial
  | some hasp =>
      intro node
      dsimp only
      split
      · exact orderly
      · exact fun _ => orderly_tell (orderly_cacheFrame orderly)

theorem orderly_tellFrame {several : Bool} {h : Handle sexpr.toSexpr}
    (orderly : next.Orderly free false false) : (tellFrame several h next).Orderly free false false := by
  intro node
  dsimp only
  split
  · exact orderly_writeFrame orderly
  · exact orderly

theorem orderly_storeAtom {own : Option SpaceId} {h : Handle sexpr.toSexpr}
    (orderly : next.Orderly free false false) : (storeAtom own h next).Orderly free false false := by
  refine orderly_tellFrame fun node => ?_
  dsimp only
  split <;> exact orderly_tell orderly

theorem orderly_lock (orderly : next.Orderly free true false) :
    (Prog.lock next).Orderly free held false := orderly

theorem orderly_atomListLoop {table : SpaceId} {expr : Str} {finish fuel l r : Nat}
    (orderly : next.Orderly free true false) :
    (CogSimpleStorage.atomListLoop table expr finish next fuel l r).Orderly free true false := by
  induction fuel generalizing l r with
  | zero => trivial
  | succ fuel ih =>
      unfold CogSimpleStorage.atomListLoop
      split
      · trivial
      · split
        · exact orderly
        · split
          · exact orderly
          · intro node
            dsimp only
            split
            · trivial
            · exact ⟨rfl, Or.inr rfl, fun reply => orderly_decode ih _⟩

theorem orderly_sendAtomList {msg : Str} {table : SpaceId} (orderly : next.Orderly free true false) :
    (sendAtomList msg table next).Orderly free true false := by
  refine ⟨rfl, Or.inr rfl, fun expr => ?_⟩
  dsimp only
  split
  · exact orderly
  · exact orderly_atomListLoop orderly

/-- The operations that send a message with a reply without the lock. -/
def SimpleOp.unlocked : SimpleOp sexpr → Bool
  | .proxyOpen | .proxyClose _ | .close _ => true
  | _ => false

theorem orderly_prog (own : Option SpaceId) (op : SimpleOp sexpr) :
    (prog own op).Orderly op.unlocked false false := by
  have ended : ∀ free held : Bool, (Prog.exit .returned : SimpleProg sexpr).Orderly free held false :=
    fun _ _ => trivial
  have unlocked : ∀ free held : Bool,
      (Prog.unlock (.exit .returned) : SimpleProg sexpr).Orderly free held false := fun _ _ => trivial
  cases op with
  | setProxy h => exact orderly_storeAtom (orderly_ask fun _ => trivial)
  | storeAtom h => exact orderly_storeAtom trivial
  | storeValue | updateValue => exact orderly_tellFrame fun _ => orderly_tell trivial
  | loadValue h key => exact ⟨rfl, Or.inr rfl, fun _ => orderly_decode (unlocked _ _) _⟩
  | removeAtom => exact orderly_ask fun _ => trivial
  | getAtom h =>
      refine ⟨rfl, Or.inr rfl, fun msg => ?_⟩
      dsimp only
      split
      · trivial
      · exact ⟨rfl, Or.inr rfl, fun _ => orderly_decode (unlocked _ _) _⟩
  | fetchIncomingSet | fetchIncomingByType | loadType =>
      exact orderly_lock (orderly_sendAtomList (unlocked _ _))
  | loadAtomSpace => exact orderly_lock (orderly_sendAtomList (orderly_sendAtomList (unlocked _ _)))
  | storeAtomSpace table =>
      intro node
      dsimp only
      induction node.memory.handles table with
      | nil => trivial
      | cons h handles ih => exact orderly_storeAtom ih
  | killData => exact ⟨rfl, Or.inr rfl, fun _ _ _ => trivial⟩
  | runQuery => exact orderly_ask fun _ => orderly_decode (ended _ _) _
  | storeFrameDAG => exact orderly_writeFrame fun _ => trivial
  | loadFrameDAG =>
      refine fun _ => ⟨rfl, Or.inr rfl, fun rply => ?_⟩
      dsimp only
      split
      · trivial
      · intro node
        dsimp only
        split <;> trivial
  | barrier => trivial
  | proxyOpen => exact ⟨rfl, Or.inl rfl, fun _ => trivial⟩
  | proxyClose => exact ⟨rfl, Or.inl rfl, fun _ => trivial⟩
  | close =>
      intro isOpen
      cases isOpen
      · trivial
      · exact ⟨rfl, Or.inl rfl, fun _ => trivial⟩

end Operations

end AtomSpaceCog.Simple
