import AtomSpaceCog.Storage.Handlers

/-! # The operations of CogStorage

The public operations as scripts of channel calls, and the `Setting` in which a
`CogStorage` works on its channel. `flush` promises nothing about the queue, so the
scripts leave it out. The packets that only `noop_const` is given are never read.
-/

namespace AtomSpaceCog

variable (sexpr : Sexpr)

/-- The calls of the operations. -/
inductive CogOp where
  | proxyOpen
  | proxyClose
  | setProxy (h : Handle sexpr)
  | storeAtom (h : Handle sexpr)
  | removeAtom (h : Handle sexpr) (recursive : Bool)
  | storeValue (h key : Handle sexpr)
  | updateValue (h key : Handle sexpr) (delta : Option sexpr.Value)
  | loadValue (h key : Handle sexpr)
  /-- `stray`: the field `table` of the local packet, which is not initialised, is
  not null. -/
  | getAtom (h : Handle sexpr) (stray : Bool)
  | fetchIncomingSet (table : SpaceId) (h : Handle sexpr)
  | fetchIncomingByType (table : SpaceId) (h : Handle sexpr) (t : sexpr.AtomType)
  | loadAtomSpace (table : SpaceId)
  | loadType (table : SpaceId) (t : sexpr.AtomType)
  | storeAtomSpace (table : SpaceId)
  | killData
  /-- `view` is the argument `meta`. -/
  | runQuery (query key : Handle sexpr) (view : Option (Handle sexpr)) (fresh : Bool)
  | barrier
  | close

/-- The calls that an operation of `CogStorage` makes. -/
abbrev CogScript := Script (cogSignature sexpr) (Memory sexpr)

variable {sexpr}

/-- A request with an empty packet for `noop_const`. -/
def noop (msg : Str) : Request (cogSignature sexpr) :=
  enqueue sexpr msg ⟨none, none, none⟩ .noopConst

/-- `CHECK_OPEN` -/
def checkOpen (next : CogScript sexpr) : CogScript sexpr :=
  .connected fun isOpen => if isOpen then next else .exit .thrown

/-- The text of `storeAtom`, from the values on the Atom. -/
def storeAtomText (values : List (sexpr.Content × sexpr.Value)) (atom : sexpr.Content) : Str :=
  if values ≠ [] then
    bytes "(cog-set-values! " ++ sexpr.encodeAtom atom ++ sexpr.encodeAtomValues values ++
      bytes ")\n"
  else
    bytes "(cog-set-value! " ++ sexpr.encodeAtom atom ++
      bytes "(Predicate \"*-TruthValueKey-*\") #f)\n"

/-- The text of `storeValue`. -/
def storeValueText (atom key : sexpr.Content) (value : Option sexpr.Value) : Str :=
  bytes "(cog-set-value! " ++ sexpr.encodeAtom atom ++ sexpr.encodeAtom key ++
    sexpr.encodeValue value ++ bytes ")\n"

/-- The text of `updateValue`. -/
def updateValueText (atom key : sexpr.Content) (delta : Option sexpr.Value) : Str :=
  bytes "(cog-update-value! " ++ sexpr.encodeAtom atom ++ sexpr.encodeAtom key ++
    sexpr.encodeValue delta ++ bytes ")\n"

/-- The text of `loadValue`. -/
def loadValueText (atom key : sexpr.Content) : Str :=
  bytes "(cog-value " ++ sexpr.encodeAtom atom ++ sexpr.encodeAtom key ++ bytes ")\n"

/-- The text of `removeAtom`. -/
def removeAtomText (atom : sexpr.Content) (recursive : Bool) : Str :=
  (if recursive then bytes "(cog-extract-recursive! " else bytes "(cog-extract! ") ++
    sexpr.encodeAtom atom ++ bytes ")\n"

/-- The string `typena` of `getAtom`. -/
def typena (atom : sexpr.Content) : Str :=
  sexpr.getTypeName atom.getType ++ bytes " " ++
    match atom with
    | .node _ name => bytes "\"" ++ name ++ bytes "\""
    | .link _ outgoing => outgoing.flatMap sexpr.encodeAtom

/-- The string `iknow` of `getAtom`. -/
def iknowText (atom : sexpr.Content) : Str :=
  (if atom.isNode then bytes "(cog-node '" else bytes "(cog-link '") ++ typena atom ++ bytes ")\n"

/-- The text of `runQuery`. -/
def runQueryText (query key : sexpr.Content) (view : Option sexpr.Content) (fresh : Bool) : Str :=
  bytes "(cog-execute-cache! " ++ sexpr.encodeAtom query ++ sexpr.encodeAtom key ++
    (match view with
      | some view => sexpr.encodeAtom view ++ if fresh then bytes " #t" else []
      | none => []) ++
    bytes ")\n"

/-- The text of the messages that ask for all the Atoms of a type, also of those of
its subtypes. -/
def getAtomsText (kind : String) : Str := bytes "(cog-get-atoms '" ++ bytes kind ++ bytes " #t)\n"

/-- The packet that Atoms are loaded with. -/
def tablePkt (table : SpaceId) : Pkt sexpr := ⟨some table, none, none⟩

namespace CogStorage

/-- `CogStorage::barrier` -/
def barrier (next : CogScript sexpr) : CogScript sexpr := .barrier next

/-- `CogStorage::storeAtom` -/
def storeAtom (h : Handle sexpr) (next : CogScript sexpr) : CogScript sexpr :=
  checkOpen <| .read fun memory =>
    .enqueue (.enqueueNoreply (storeAtomText (memory.values h) h.atom)) next

/-- `CogStorage::proxy_open` -/
def proxyOpen (next : CogScript sexpr) : CogScript sexpr :=
  .barrier <| .enqueue (noop (bytes "(cog-proxy-open)\n")) <| .barrier next

/-- `CogStorage::proxy_close` -/
def proxyClose (next : CogScript sexpr) : CogScript sexpr :=
  .barrier <| .enqueue (noop (bytes "(cog-proxy-close)\n")) <| .barrier next

/-- `CogStorage::set_proxy` -/
def setProxy (h : Handle sexpr) (next : CogScript sexpr) : CogScript sexpr :=
  checkOpen <| storeAtom h <| barrier <|
    .enqueue (noop (bytes "(cog-set-proxy! " ++ sexpr.encodeAtom h.atom ++ bytes ")\n")) <|
      .barrier next

/-- `CogStorage::getAtom`; the handler of the existence request is `is_ok`. -/
def getAtom (h : Handle sexpr) (stray : Bool) (next : CogScript sexpr) : CogScript sexpr :=
  checkOpen <| .synchro (iknowText h.atom) fun reply =>
    if compareEq reply 0 2 (bytes "()") ∧ stray = false then next
    else
      .enqueue (enqueue sexpr (keysAlistText (bytes "(" ++ typena h.atom ++ bytes ")"))
        ⟨none, some h, none⟩ .decodeKvpListConst) next

/-- `CogStorage::loadAtomSpace` -/
def loadAtomSpace (table : SpaceId) (next : CogScript sexpr) : CogScript sexpr :=
  checkOpen <|
    .enqueue (enqueue sexpr (getAtomsText "Node") (tablePkt table) .decodeAtomList) <|
      .enqueue (enqueue sexpr (getAtomsText "Link") (tablePkt table) .decodeAtomList) <|
        .barrier next

/-- `CogStorage::storeAtomSpace` -/
def storeAtomSpace (table : SpaceId) (next : CogScript sexpr) : CogScript sexpr :=
  checkOpen <| .read fun memory =>
    (memory.handles table).foldr (fun h rest => storeAtom h rest) (.barrier next)

/-- `CogStorage::kill_data` -/
def killData (next : CogScript sexpr) : CogScript sexpr :=
  checkOpen <| .barrier <| .enqueue (noop (bytes "(cog-atomspace-clear)\n")) <| .barrier next

/-- `CogStorage::close` -/
def close : CogScript sexpr :=
  .connected fun isOpen =>
    if isOpen then
      proxyClose <| .barrier <| .closeConnection <| .exit .returned
    else .exit .notConnected

/-- The calls that each operation makes. -/
def script : CogOp sexpr → CogScript sexpr
  | .proxyOpen => proxyOpen (.exit .returned)
  | .proxyClose => proxyClose (.exit .returned)
  | .setProxy h => setProxy h (.exit .returned)
  | .storeAtom h => storeAtom h (.exit .returned)
  | .removeAtom h recursive =>
      checkOpen <| .enqueue (noop (removeAtomText h.atom recursive)) (.exit .returned)
  | .storeValue h key =>
      checkOpen <| .read fun memory =>
        .enqueue (.enqueueNoreply (storeValueText h.atom key.atom (memory.getValue h key.atom)))
          (.exit .returned)
  | .updateValue h key delta =>
      checkOpen <| .enqueue (.enqueueNoreply (updateValueText h.atom key.atom delta))
        (.exit .returned)
  | .loadValue h key =>
      checkOpen <| .enqueue (enqueue sexpr (loadValueText h.atom key.atom) ⟨none, some h, some key⟩
        .decodeValue) (.exit .returned)
  | .getAtom h stray => getAtom h stray (.exit .returned)
  | .fetchIncomingSet table h =>
      checkOpen <| .enqueue (enqueue sexpr
        (bytes "(cog-incoming-set " ++ sexpr.encodeAtom h.atom ++ bytes ")\n") (tablePkt table)
        .decodeAtomList) (.exit .returned)
  | .fetchIncomingByType table h t =>
      checkOpen <| .enqueue (enqueue sexpr
        (bytes "(cog-incoming-by-type " ++ sexpr.encodeAtom h.atom ++ bytes " '" ++
          sexpr.getTypeName t ++ bytes ")\n") (tablePkt table) .decodeAtomList) (.exit .returned)
  | .loadAtomSpace table => loadAtomSpace table (.exit .returned)
  | .loadType table t =>
      checkOpen <| .enqueue (enqueue sexpr
        (bytes "(cog-get-atoms '" ++ sexpr.getTypeName t ++ bytes ")\n") (tablePkt table)
        .decodeAtomList) (.exit .returned)
  | .storeAtomSpace table => storeAtomSpace table (.exit .returned)
  | .killData => killData (.exit .returned)
  | .runQuery query key view fresh =>
      checkOpen <| .enqueue (enqueue sexpr
        (runQueryText query.atom key.atom (view.map Handle.atom) fresh)
        ⟨none, some query, some key⟩ .decodeValue) (.exit .returned)
  | .barrier => barrier (.exit .returned)
  | .close => close

end CogStorage

/-- A server: its states, and what it does on a message and answers to it. -/
structure Server where
  Space : Type
  run : Str → Space → Space × Str

/-- A server that answers nothing to anything. -/
def Server.silent : Server := ⟨Unit, fun _ _ => ((), [])⟩

/-- A server that answers that there is no value. -/
def Server.valueless : Server := ⟨Unit, fun _ _ => ((), bytes "#f\n")⟩

/-- A `CogStorage` on its channel, and a server. -/
abbrev cogSetting (sexpr : Sexpr) (server : Server) : Setting where
  toSignature := cogSignature sexpr
  Local := Memory sexpr
  Op := CogOp sexpr
  script := CogStorage.script
  Space := server.Space
  run := server.run
  react := fun _ callback pkt reply => runHandler sexpr callback pkt reply

end AtomSpaceCog
