import AtomSpaceCog.Simple.Program

/-! # The operations of CogSimpleStorage

Each operation as a program, with the places where it takes `_mtx`. The accesses to the
maps of frames, which have a mutex of their own, are single steps.
-/

namespace AtomSpaceCog.Simple

/-- The AtomSpace library with what it writes and reads about frames. -/
structure FrameSexpr extends Sexpr where
  /-- `Sexpr::encode_atom(h, true)`, which names the AtomSpace of the Atom. -/
  encodeAtomMulti : Option SpaceId → Atom AtomType → Str
  /-- `Sexpr::encode_frame` -/
  encodeFrame : SpaceId → Str
  /-- The name of an AtomSpace. -/
  getName : SpaceId → Str
  /-- `_fid_map.insert` -/
  insertFid : FidMap → Str → SpaceId → FidMap
  /-- The map that `_fid_map.clear()` leaves. -/
  clearFid : FidMap
  /-- The AtomSpaces in the map. -/
  framesIn : FidMap → List SpaceId
  /-- The AtomSpace in which `Sexpr::decode_atom(s, l, r, 0, map)` puts the Atom. -/
  homeIn : FidMap → Str → Nat → Nat → Option SpaceId
  /-- `Sexpr::decode_frame`, with the names that it adds to the map. -/
  decodeFrame : FidMap → Str → Option FidMap

/-- The state of a `CogSimpleStorage` and of the AtomSpaces around it. -/
structure Node (sexpr : FrameSexpr) where
  memory : Memory sexpr.toSexpr
  /-- `_multi_space` -/
  multiSpace : Bool
  /-- The AtomSpaces in `_frame_map` -/
  frameMap : List SpaceId

variable (sexpr : FrameSexpr)

/-- The calls of the operations. -/
inductive SimpleOp where
  | setProxy (h : Handle sexpr.toSexpr)
  | storeAtom (h : Handle sexpr.toSexpr)
  | storeValue (h key : Handle sexpr.toSexpr)
  | updateValue (h key : Handle sexpr.toSexpr) (delta : Option sexpr.Value)
  | loadValue (h key : Handle sexpr.toSexpr)
  | removeAtom (h : Handle sexpr.toSexpr) (recursive : Bool)
  | getAtom (h : Handle sexpr.toSexpr)
  | fetchIncomingSet (table : SpaceId) (h : Handle sexpr.toSexpr)
  | fetchIncomingByType (table : SpaceId) (h : Handle sexpr.toSexpr) (t : sexpr.AtomType)
  | loadAtomSpace (table : SpaceId)
  | loadType (table : SpaceId) (t : sexpr.AtomType)
  | storeAtomSpace (table : SpaceId)
  | killData
  /-- `view` is the argument `meta`. -/
  | runQuery (query key : Handle sexpr.toSexpr) (view : Option (Handle sexpr.toSexpr)) (fresh : Bool)
  | storeFrameDAG (top : Option SpaceId)
  | loadFrameDAG
  /-- `id` is the random number of the barrier. -/
  | barrier (id : UInt64)
  | proxyOpen
  | proxyClose (id : UInt64)
  | close (id : UInt64)

/-- The rest of an operation of a `CogSimpleStorage`. -/
abbrev SimpleProg := Prog (Node sexpr)

variable {sexpr}

/-- `Sexpr::encode_atom(h, multi_space)` -/
def encodeAtom (multiSpace : Bool) (h : Handle sexpr.toSexpr) : Str :=
  if multiSpace then sexpr.encodeAtomMulti h.getAtomSpace h.atom else sexpr.encodeAtom h.atom

/-- The operation reads the state of the node. -/
def read (next : Node sexpr → SimpleProg sexpr) : SimpleProg sexpr := .touch id next

/-- `_multi_space = true` -/
def setMulti (next : SimpleProg sexpr) : SimpleProg sexpr :=
  .touch (fun node => { node with multiSpace := true }) fun _ => next

/-- What a decoder does, before the rest of the operation. The decoders make no
requests. -/
def decode (next : SimpleProg sexpr) : CogWork sexpr.toSexpr → SimpleProg sexpr
  | .done => next
  | .insert _ rest => decode next rest
  | .touch change rest =>
      .touch (fun node => { node with memory := change node.memory })
        fun node => decode next (rest node.memory)
  | .stuck => .stuck

/-- A message without a reply, under the lock. -/
def tell (msg : Str) (next : SimpleProg sexpr) : SimpleProg sexpr :=
  .lock <| .send msg <| .unlock next

/-- A message and its reply, under the lock, which is then let go of. -/
def ask (msg : Str) (next : Str → SimpleProg sexpr) : SimpleProg sexpr :=
  .lock <| .send msg <| .recv fun reply => .unlock (next reply)

namespace CogSimpleStorage

/-- `CogSimpleStorage::cacheFrame`, the AtomSpaces below first. -/
def cacheFrame (hasp : SpaceId) (next : SimpleProg sexpr) : SimpleProg sexpr :=
  read fun node =>
    ((node.memory.bases hasp).reverse ++ [hasp]).foldr (fun frame rest =>
      .touch (fun node => { node with
        frameMap := frame :: node.frameMap
        memory := { node.memory with
          fidMap := sexpr.insertFid node.memory.fidMap (sexpr.getName frame) frame } })
        fun _ => rest) next

/-- `CogSimpleStorage::writeFrame`; without an AtomSpace it reads through a null
pointer. -/
def writeFrame (hasp : Option SpaceId) (next : SimpleProg sexpr) : SimpleProg sexpr :=
  match hasp with
  | none => .stuck
  | some hasp =>
      read fun node =>
        if hasp ∈ node.frameMap then next
        else
          setMulti <| tell (bytes "(define *-bogus-top-space-* " ++ sexpr.encodeFrame hasp ++ bytes ")\n") <|
            cacheFrame hasp next

/-- What the operations that write do first: with more than one AtomSpace, the server
is told the AtomSpace of the Atom. -/
def tellFrame (several : Bool) (h : Handle sexpr.toSexpr) (next : SimpleProg sexpr) : SimpleProg sexpr :=
  .touch (fun node => { node with multiSpace := node.multiSpace || several }) fun node =>
    if node.multiSpace || several then writeFrame h.getAtomSpace next else next

/-- `CogSimpleStorage::storeAtom`; `own` is the member `_atom_space`. -/
def storeAtom (own : Option SpaceId) (h : Handle sexpr.toSexpr) (next : SimpleProg sexpr) :
    SimpleProg sexpr :=
  tellFrame (own ≠ none ∧ h.getAtomSpace ≠ own) h <|
    read fun node =>
      if node.memory.values h ≠ [] then
        tell (bytes "(cog-set-values! " ++ encodeAtom node.multiSpace h ++
          sexpr.encodeAtomValues (node.memory.values h) ++ bytes ")\n") next
      else
        tell (bytes "(cog-set-value! " ++ encodeAtom node.multiSpace h ++
          bytes "(Predicate \"*-TruthValueKey-*\") #f)\n") next

/-- `CogSimpleStorage::set_proxy` -/
def setProxy (own : Option SpaceId) (h : Handle sexpr.toSexpr) (next : SimpleProg sexpr) :
    SimpleProg sexpr :=
  storeAtom own h <|
    ask (bytes "(cog-set-proxy! " ++ sexpr.encodeAtom h.atom ++ bytes ")\n") fun _ => next

/-- `CogSimpleStorage::storeValue` -/
def storeValue (own : Option SpaceId) (h key : Handle sexpr.toSexpr) (next : SimpleProg sexpr) :
    SimpleProg sexpr :=
  tellFrame (h.getAtomSpace ≠ own) h <|
    read fun node =>
      tell (bytes "(cog-set-value! " ++ sexpr.encodeAtom h.atom ++ encodeAtom node.multiSpace key ++
        sexpr.encodeValue (node.memory.getValue h key.atom) ++ bytes ")\n") next

/-- `CogSimpleStorage::updateValue` -/
def updateValue (own : Option SpaceId) (h key : Handle sexpr.toSexpr) (delta : Option sexpr.Value)
    (next : SimpleProg sexpr) : SimpleProg sexpr :=
  tellFrame (h.getAtomSpace ≠ own) h <|
    read fun node =>
      tell (bytes "(cog-update-value! " ++ sexpr.encodeAtom h.atom ++ encodeAtom node.multiSpace key ++
        sexpr.encodeValue delta ++ bytes ")\n") next

/-- `CogSimpleStorage::loadValue`; the lock is held to the end. -/
def loadValue (h key : Handle sexpr.toSexpr) (next : SimpleProg sexpr) : SimpleProg sexpr :=
  .lock <| .send (loadValueText h.atom key.atom) <| .recv fun rply =>
    decode (.unlock next) (decodeValueHandler sexpr.toSexpr rply ⟨none, some h, some key⟩)

/-- `CogSimpleStorage::removeAtom` -/
def removeAtom (h : Handle sexpr.toSexpr) (recursive : Bool) (next : SimpleProg sexpr) :
    SimpleProg sexpr :=
  ask (removeAtomText h.atom recursive) fun _ => next

/-- `CogSimpleStorage::getAtom` -/
def getAtom (own : Option SpaceId) (h : Handle sexpr.toSexpr) (next : SimpleProg sexpr) :
    SimpleProg sexpr :=
  .lock <| .send (iknowText h.atom) <| .recv fun msg =>
    if compareEq msg 0 2 (bytes "()") then .unlock next
    else
      .send (keysAlistText (bytes "(" ++ typena h.atom ++ bytes ")")) <| .recv fun msg =>
        decode (.unlock next) (roDecodeAlist sexpr.toSexpr own h msg)

/-- `Sexpr::decode_atom(expr, l, r, 0, _fid_map)`, and `add_nocheck` where the Atom is in
no AtomSpace. -/
def addDecoded (table : SpaceId) (expr : Str) (l r : Nat) (node : Node sexpr) :
    Option (Handle sexpr.toSexpr × Node sexpr) :=
  match sexpr.decodeAtomIn node.memory.fidMap expr l r with
  | none => none
  | some (atom, fidMap) =>
      let space := (sexpr.homeIn node.memory.fidMap expr l r).getD table
      let memory := { node.memory with fidMap := fidMap }.insertAtom space atom
      some (memory.handleOf space atom, { node with memory := memory })

/-- The loop of `CogSimpleStorage::decode_atom_list`. -/
def atomListLoop (table : SpaceId) (expr : Str) (finish : Nat) (next : SimpleProg sexpr) :
    Nat → Nat → Nat → SimpleProg sexpr
  | 0, _, _ => .stuck
  | fuel + 1, l, r =>
      match sexpr.getNextExpr expr l r with
      | none => .stuck
      | some (pcnt, l, r) =>
          if l = r then next
          else if 0 < pcnt then next
          else
            .touch (fun node => ((addDecoded table expr l r node).map Prod.snd).getD node) fun node =>
              match addDecoded table expr l r node with
              | none => .stuck
              | some (h, _) =>
                  .send (keysAlistText (substr expr l (r - l + 1))) <| .recv fun msg =>
                    decode (atomListLoop table expr finish next fuel (r + 1) finish)
                      (roDecodeAlist sexpr.toSexpr (some table) h msg)

/-- A message, and `CogSimpleStorage::decode_atom_list` on its reply. -/
def sendAtomList (msg : Str) (table : SpaceId) (next : SimpleProg sexpr) : SimpleProg sexpr :=
  .send msg <| .recv fun expr =>
    let l := past (find expr 40 0) 1
    let finish := (rfind expr 41).getD npos
    if l = finish then next
    else atomListLoop table expr finish next (expr.length + 1) l finish

/-- `CogSimpleStorage::fetchIncomingSet` -/
def fetchIncomingSet (table : SpaceId) (h : Handle sexpr.toSexpr) (next : SimpleProg sexpr) :
    SimpleProg sexpr :=
  .lock <| sendAtomList (bytes "(cog-incoming-set " ++ sexpr.encodeAtom h.atom ++ bytes ")\n") table <|
    .unlock next

/-- `CogSimpleStorage::fetchIncomingByType` -/
def fetchIncomingByType (table : SpaceId) (h : Handle sexpr.toSexpr) (t : sexpr.AtomType)
    (next : SimpleProg sexpr) : SimpleProg sexpr :=
  .lock <| sendAtomList (bytes "(cog-incoming-by-type " ++ sexpr.encodeAtom h.atom ++ bytes " '" ++
    sexpr.getTypeName t ++ bytes ")\n") table <| .unlock next

/-- `CogSimpleStorage::loadAtomSpace` -/
def loadAtomSpace (table : SpaceId) (next : SimpleProg sexpr) : SimpleProg sexpr :=
  .lock <| sendAtomList (getAtomsText "Node") table <| sendAtomList (getAtomsText "Link") table <|
    .unlock next

/-- `CogSimpleStorage::loadType` -/
def loadType (table : SpaceId) (t : sexpr.AtomType) (next : SimpleProg sexpr) : SimpleProg sexpr :=
  .lock <| sendAtomList (bytes "(cog-get-atoms '" ++ sexpr.getTypeName t ++ bytes ")\n") table <|
    .unlock next

/-- `CogSimpleStorage::storeAtomSpace` -/
def storeAtomSpace (own : Option SpaceId) (table : SpaceId) (next : SimpleProg sexpr) :
    SimpleProg sexpr :=
  read fun node =>
    (node.memory.handles table).foldr (fun h rest => storeAtom own h rest) next

/-- `CogSimpleStorage::kill_data` -/
def killData (next : SimpleProg sexpr) : SimpleProg sexpr :=
  .lock <| .send (bytes "(cog-atomspace-clear)\n") <| .recv fun _ =>
    .touch (fun node => { node with multiSpace := false }) fun _ =>
      .touch (fun node => { node with
        frameMap := []
        memory := { node.memory with fidMap := sexpr.clearFid } }) fun _ => .unlock next

/-- `CogSimpleStorage::runQuery`; the reply is decoded outside of the lock. -/
def runQuery (query key : Handle sexpr.toSexpr) (view : Option (Handle sexpr.toSexpr)) (fresh : Bool)
    (next : SimpleProg sexpr) : SimpleProg sexpr :=
  ask (runQueryText query.atom key.atom (view.map Handle.atom) fresh) fun rply =>
    decode next (decodeValueHandler sexpr.toSexpr rply ⟨none, some query, some key⟩)

/-- `CogSimpleStorage::storeFrameDAG` -/
def storeFrameDAG (top : Option SpaceId) (next : SimpleProg sexpr) : SimpleProg sexpr :=
  writeFrame top <| setMulti next

/-- `CogSimpleStorage::loadFrameDAG` -/
def loadFrameDAG (next : SimpleProg sexpr) : SimpleProg sexpr :=
  setMulti <| .lock <| .send (bytes "(cog-atomspace)\n") <| .recv fun rply =>
    if rply.length < 5 then .unlock next
    else
      .touch (fun node => match sexpr.decodeFrame node.memory.fidMap rply with
          | none => node
          | some fidMap => { node with
              memory := { node.memory with fidMap := fidMap }
              frameMap := sexpr.framesIn fidMap ++ node.frameMap })
        fun node => match sexpr.decodeFrame node.memory.fidMap rply with
          | none => .stuck
          | some _ => .unlock next

/-- `CogSimpleStorage::barrier` -/
def barrier (id : UInt64) (next : SimpleProg sexpr) : SimpleProg sexpr := tell (barrierText 1 id) next

/-- `CogSimpleStorage::proxy_open`, without the lock. -/
def proxyOpen (next : SimpleProg sexpr) : SimpleProg sexpr :=
  .send (bytes "(cog-proxy-open)\n") <| .recv fun _ => next

/-- `CogSimpleStorage::proxy_close`, without the lock. -/
def proxyClose (id : UInt64) (next : SimpleProg sexpr) : SimpleProg sexpr :=
  barrier id <| .send (bytes "(cog-proxy-close)\n") <| .recv fun _ => next

/-- `CogSimpleStorage::close` -/
def close (id : UInt64) (next : SimpleProg sexpr) : SimpleProg sexpr :=
  .connected fun isOpen =>
    if isOpen then proxyClose id <| .closeSocket <| .clearSocket next else .clearSocket next

/-- The program of each operation. -/
def prog (own : Option SpaceId) : SimpleOp sexpr → SimpleProg sexpr
  | .setProxy h => setProxy own h (.exit .returned)
  | .storeAtom h => storeAtom own h (.exit .returned)
  | .storeValue h key => storeValue own h key (.exit .returned)
  | .updateValue h key delta => updateValue own h key delta (.exit .returned)
  | .loadValue h key => loadValue h key (.exit .returned)
  | .removeAtom h recursive => removeAtom h recursive (.exit .returned)
  | .getAtom h => getAtom own h (.exit .returned)
  | .fetchIncomingSet table h => fetchIncomingSet table h (.exit .returned)
  | .fetchIncomingByType table h t => fetchIncomingByType table h t (.exit .returned)
  | .loadAtomSpace table => loadAtomSpace table (.exit .returned)
  | .loadType table t => loadType table t (.exit .returned)
  | .storeAtomSpace table => storeAtomSpace own table (.exit .returned)
  | .killData => killData (.exit .returned)
  | .runQuery query key view fresh => runQuery query key view fresh (.exit .returned)
  | .storeFrameDAG top => storeFrameDAG top (.exit .returned)
  | .loadFrameDAG => loadFrameDAG (.exit .returned)
  | .barrier id => barrier id (.exit .returned)
  | .proxyOpen => proxyOpen (.exit .returned)
  | .proxyClose id => proxyClose id (.exit .returned)
  | .close id => close id (.exit .returned)

end CogSimpleStorage

/-- A `CogSimpleStorage` that lives in an AtomSpace, or in none. -/
abbrev simpleClient (sexpr : FrameSexpr) (own : Option SpaceId) : Client where
  Local := Node sexpr
  Op := SimpleOp sexpr
  prog := CogSimpleStorage.prog own

end AtomSpaceCog.Simple
