import AtomSpaceCog.Foundation.Text
import AtomSpaceCog.Channel.Machine
import AtomSpaceCog.Sexpr.Atomese

/-! # The handlers of CogStorage

What `CogStorage` does with a reply: nothing, set one value, attach the pairs of an
association list, or insert the Atoms of a list and ask for the values on each.
-/

namespace AtomSpaceCog

/-- `CogStorage::Pkt` -/
structure Pkt (sexpr : Sexpr) where
  table : Option SpaceId
  h : Option (Handle sexpr)
  key : Option (Handle sexpr)
deriving DecidableEq

/-- The member functions of `CogStorage` that are given to `enqueue`. -/
inductive Callback where
  | noopConst
  | decodeValue
  | decodeAtomList
  | decodeKvpListConst
deriving DecidableEq

/-- `CogChannel<CogStorage, Pkt>`; each channel is a member of its only client. -/
abbrev cogSignature (sexpr : Sexpr) : Signature where
  Client := Unit
  Callback := Callback
  Data := Pkt sexpr
  dummy := ⟨none, none, none⟩

/-- What a handler of `CogStorage` does. -/
abbrev CogWork (sexpr : Sexpr) := Work (cogSignature sexpr) (Memory sexpr)

variable (sexpr : Sexpr)

/-- `_io_queue.enqueue(this, msg, pkt, handler)` -/
def enqueue (msg : Str) (pkt : Pkt sexpr) (handler : Callback) : Request (cogSignature sexpr) :=
  .enqueue () msg pkt handler

/-- `"(cog-keys->alist " + expr + ")\n"` -/
def keysAlistText (expr : Str) : Str := bytes "(cog-keys->alist " ++ expr ++ bytes ")\n"

/-- `CogStorage::decode_value` -/
def decodeValueHandler (reply : Str) (pkt : Pkt sexpr) : CogWork sexpr :=
  match sexpr.decodeValue reply 0, pkt.h, pkt.key with
  | some (value, _), some h, some key =>
      match h.getAtomSpace with
      | some space =>
          .touch (·.addAtoms space value) fun _ =>
            .touch (·.setValue h key.atom value) fun _ => .done
      | none => .touch (·.setValue h key.atom value) fun _ => .done
  | _, _, _ => .stuck

/-- Attach a pair to the Atom; where there is an AtomSpace, the Atoms find a home in
it. -/
def attach (space : Option SpaceId) (atom : Handle sexpr) (key : sexpr.Content)
    (value : Option sexpr.Value) (next : CogWork sexpr) : CogWork sexpr :=
  match space with
  | some space =>
      .touch (·.insertAtom space key) fun _ =>
        .touch (·.addAtoms space value) fun _ =>
          .touch (·.setValue atom key value) fun _ =>
            .touch (·.insertAtom space atom.atom) fun _ => next
  | none => .touch (·.setValue atom key value) fun _ => next

/-- The loop of `ro_decode_alist`. -/
def alistLoop (space : Option SpaceId) (atom : Handle sexpr) (alist : Str) :
    Nat → Option Nat → CogWork sexpr
  | _, none => .done
  | 0, some _ => .stuck
  | fuel + 1, some pos =>
      match sexpr.decodeAtom alist (pos + 1) with
      | none => .stuck
      | some (key, pos) =>
          match sexpr.decodeValue alist (past (findText alist (bytes " . ") pos) 3) with
          | none => .stuck
          | some (value, pos) =>
              attach sexpr space atom key value (alistLoop space atom alist fuel (find alist 40 pos))

/-- `CogStorage::ro_decode_alist` -/
def roDecodeAlist (as : Option SpaceId) (atom : Handle sexpr) (alist : Str) : CogWork sexpr :=
  let space := as <|> atom.getAtomSpace
  match findFirstNotOf alist (bytes " \n\t") 0 with
  | none => .done
  | some pos =>
      if alist[pos]? ≠ some 40 then .stuck
      else alistLoop sexpr space atom alist (alist.length + 1) (find alist 40 (pos + 1))

/-- `CogStorage::decode_kvp_list_const` -/
def decodeKvpListConst (reply : Str) (pkt : Pkt sexpr) : CogWork sexpr :=
  match pkt.h with
  | some h => roDecodeAlist sexpr pkt.table h reply
  | none => .stuck

/-- `add_nocheck(table, Sexpr::decode_atom(expr, l, r, 0, _fid_map))`, and the Atom. -/
def addDecoded (table : SpaceId) (expr : Str) (l r : Nat) (memory : Memory sexpr) :
    Option (sexpr.Content × Memory sexpr) :=
  match sexpr.decodeAtomIn memory.fidMap expr l r with
  | some (atom, fidMap) => some (atom, { memory with fidMap := fidMap }.insertAtom table atom)
  | none => none

/-- The loop of `CogStorage::decode_atom_list`. -/
def atomListLoop (table : SpaceId) (expr : Str) (finish : Nat) : Nat → Nat → Nat → CogWork sexpr
  | 0, _, _ => .stuck
  | fuel + 1, l, r =>
      match sexpr.getNextExpr expr l r with
      | none => .stuck
      | some (pcnt, l, r) =>
          if l = r then .done
          else if 0 < pcnt then .done
          else
            .touch (fun memory => ((addDecoded sexpr table expr l r memory).map Prod.snd).getD memory)
              fun memory =>
                match addDecoded sexpr table expr l r memory with
                | none => .stuck
                | some (atom, memory) =>
                    .insert (enqueue sexpr (keysAlistText (substr expr l (r - l + 1)))
                        ⟨none, some (memory.handleOf table atom), none⟩ .decodeKvpListConst)
                      (atomListLoop table expr finish fuel (r + 1) finish)

/-- `CogStorage::decode_atom_list` -/
def decodeAtomList (expr : Str) (pkt : Pkt sexpr) : CogWork sexpr :=
  match pkt.table with
  | none => .stuck
  | some table =>
      let l := past (find expr 40 0) 1
      let finish := (rfind expr 41).getD npos
      if l = finish then .done
      else atomListLoop sexpr table expr finish (expr.length + 1) l finish

/-- `(msg.client->*msg.callback)(reply, msg.data)` -/
def runHandler : Callback → Pkt sexpr → Str → CogWork sexpr
  | .noopConst, _, _ => .done
  | .decodeValue, pkt, reply => decodeValueHandler sexpr reply pkt
  | .decodeAtomList, pkt, reply => decodeAtomList sexpr reply pkt
  | .decodeKvpListConst, pkt, reply => decodeKvpListConst sexpr reply pkt

end AtomSpaceCog
