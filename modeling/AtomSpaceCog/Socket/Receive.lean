import AtomSpaceCog.Foundation.Bytes

/-! # Receiving a reply

`do_recv` of both backends reads the socket in pieces and guesses the end of a
reply from the last byte of a piece. The two functions share the loop
(`receiveLoop`); they differ in the size of the buffer and in the state in which
they leave the socket (`Backend.doRecv`). The loop strips idle characters from
both ends of each piece by walking indices over the buffer; `receiveLoop_idle`
and `receiveLoop_core` say what a piece contributes.
-/

namespace AtomSpaceCog

/-- What one call of `recv` gives. -/
inductive RecvResult where
  /-- A positive count: the bytes written to the buffer. -/
  | data (chunk : Str)
  /-- A negative count. -/
  | error
  /-- The count zero: the server closed the connection. -/
  | closed
deriving Repr, DecidableEq

/-- How a call of `do_recv` ends. -/
inductive Received where
  | reply (text : Str)
  /-- Thrown because there is no open socket. -/
  | noSocket
  /-- Thrown because `recv` failed. -/
  | failed
  /-- Thrown because the server closed the connection. -/
  | disconnected
  /-- Still waiting: the results of `recv` at hand are used up. -/
  | waiting
  /-- An index outside the bytes received and the zero after them was read. -/
  | outOfBounds
deriving Repr, DecidableEq

/-- A read of `buf[index]`. Only the positions that hold the bytes received and
the zero written after them are defined. -/
def readAt (buf : Str) (index : Int) : Option UInt8 :=
  if 0 ≤ index then buf[index.toNat]? else none

/-- `while (0x16 == pbf[0] and (pbf-buf < len)) pbf++;` -/
def skipIdle (buf : Str) (len pbf : Nat) : Option Nat := do
  let byte ← readAt buf pbf
  if byte = idle ∧ pbf < len then skipIdle buf len (pbf + 1) else some pbf
termination_by len - pbf

/-- `while (0x16 == buf[len-1] and 0 < len) { len--; buf[len] = 0; }` -/
def trimIdle (buf : Str) (len : Nat) : Option (Str × Nat) := do
  let byte ← readAt buf ((len : Int) - 1)
  match len with
  | 0 => some (buf, 0)
  | rest + 1 => if byte = idle then trimIdle (buf.set rest 0) rest else some (buf, rest + 1)

/-- The leading idle characters of a piece: where the text starts. -/
def stripLeading (buf : Str) (len : Nat) : Option Nat := do
  let byte ← readAt buf 0
  if byte = idle then skipIdle buf len 1 else some 0

/-- The trailing idle characters of a piece: the buffer and the length left. -/
def stripTrailing (buf : Str) (len : Nat) : Option (Str × Nat) := do
  let byte ← readAt buf ((len : Int) - 1)
  if byte = idle then trimIdle (buf.set (len - 1) 0) (len - 1) else some (buf, len)

/-- What one round of the loop does. -/
inductive Round where
  /-- `continue`: the piece was all idle characters. -/
  | again
  /-- The piece was added to `rb` and more is awaited. -/
  | more (rb : Str)
  | done (text : Str)
deriving Repr, DecidableEq

/-- One round of the loop, on the bytes that `recv` wrote to the buffer. -/
def round (garbage firstTime : Bool) (rb chunk : Str) : Option Round := do
  let len := chunk.length
  let buf := chunk ++ [0]
  let pbf ← stripLeading buf len
  if pbf ≠ 0 ∧ pbf = len then
    return .again
  let (buf, len) ← stripTrailing buf len
  if len = 0 then
    return .again
  let last ← readAt buf ((len : Int) - 1)
  if firstTime ∧ (last = newline ∨ garbage) then
    return .done (cString buf pbf)
  let rb := rb ++ cString buf pbf
  if last = newline then
    return .done rb
  return .more rb

/-- The loop of `do_recv` over the results of `recv`, and the results it leaves. -/
def receiveLoop (garbage : Bool) : Bool → Str → List RecvResult → Received × List RecvResult
  | _, _, [] => (.waiting, [])
  | _, _, .error :: rest => (.failed, rest)
  | _, _, .closed :: rest => (.disconnected, rest)
  | firstTime, rb, .data chunk :: rest =>
      match round garbage firstTime rb chunk with
      | none => (.outOfBounds, rest)
      | some .again => receiveLoop garbage firstTime rb rest
      | some (.more rb) => receiveLoop garbage false rb rest
      | some (.done text) => (.reply text, rest)

/-- The two implementations of `do_recv`. -/
inductive Backend where
  /-- `CogChannel::do_recv` -/
  | channel
  /-- `CogSimpleStorage::do_recv` -/
  | simple
deriving Repr, DecidableEq

namespace Backend

/-- The most bytes that one `recv` is asked for. -/
def bufferSize : Backend → Nat
  | channel => 8192
  | simple => 4096

/-- Whether `do_recv` takes the descriptor for an open socket. -/
def socketOpen : Backend → Int → Bool
  | channel, sockfd => sockfd ≠ 0
  | simple, sockfd => 0 < sockfd

/-- The descriptor kept after the call: only `CogSimpleStorage` forgets the one
it closed at the end of file. -/
def socketAfter : Backend → Int → Received → Int
  | simple, _, .disconnected => 0
  | _, sockfd, _ => sockfd

/-- `do_recv(garbage)` on the descriptor `sockfd`: how it ends, the descriptor
kept, and the results of `recv` left for later calls. -/
def doRecv (backend : Backend) (sockfd : Int) (garbage : Bool) (results : List RecvResult) :
    Received × Int × List RecvResult :=
  if backend.socketOpen sockfd then
    let (received, rest) := receiveLoop garbage true [] results
    (received, backend.socketAfter sockfd received, rest)
  else (.noSocket, sockfd, results)

/-- A result of `recv` that carries data: at least one byte, and no more than the
buffer takes. -/
def Fits (backend : Backend) (chunk : Str) : Prop :=
  chunk ≠ [] ∧ chunk.length ≤ backend.bufferSize

end Backend

/-- A run of idle characters. -/
def idles (count : Nat) : Str := List.replicate count idle

@[simp] theorem idles_length (count : Nat) : (idles count).length = count :=
  List.length_replicate

theorem idles_add (first second : Nat) : idles (first + second) = idles first ++ idles second :=
  List.replicate_add ..

theorem idles_succ (count : Nat) : idles (count + 1) = idles count ++ [idle] :=
  List.replicate_succ' ..

/-! ## What one piece contributes -/

theorem readAt_natCast (buf : Str) (index : Nat) : readAt buf (index : Int) = buf[index]? := by
  simp only [readAt, Int.natCast_nonneg, ↓reduceIte, Int.toNat_natCast]

theorem readAt_pred (buf : Str) (len : Nat) : readAt buf (((len + 1 : Nat) : Int) - 1) = buf[len]? := by
  rw [← readAt_natCast]
  congr 1
  omega

/-- The first loop stops at the first byte that is not idle. -/
theorem skipIdle_idles (count : Nat) {byte : UInt8} (other : byte ≠ idle) (rest : Str) {len : Nat}
    (within : count ≤ len) {pbf : Nat} (before : pbf ≤ count) :
    skipIdle (idles count ++ byte :: rest) len pbf = some count := by
  induction distance : count - pbf generalizing pbf with
  | zero =>
      obtain rfl : pbf = count := by omega
      rw [skipIdle, readAt_natCast, List.getElem?_append_right (by simp)]
      simp only [idles_length, Nat.sub_self, List.getElem?_cons_zero, Option.bind_eq_bind,
        Option.bind_some, other, false_and, ↓reduceIte]
  | succ distance ih =>
      have inside : (idles count ++ byte :: rest)[pbf]? = some idle := by
        rw [List.getElem?_append_left (by simp; omega)]
        exact List.getElem?_replicate_of_lt (by omega)
      rw [skipIdle, readAt_natCast, inside]
      simp only [Option.bind_eq_bind, Option.bind_some, true_and]
      rw [if_pos (show pbf < len by omega)]
      exact ih (by omega) (by omega)

theorem stripLeading_idles (count : Nat) {byte : UInt8} (other : byte ≠ idle) (rest : Str)
    {len : Nat} (within : count ≤ len) :
    stripLeading (idles count ++ byte :: rest) len = some count := by
  cases count with
  | zero =>
      simp [stripLeading, readAt, idles, other]
  | succ count =>
      have first : readAt (idles (count + 1) ++ byte :: rest) 0 = some idle := rfl
      simp only [stripLeading, first, Option.bind_eq_bind, Option.bind_some, ↓reduceIte]
      exact skipIdle_idles _ other rest within (by omega)

/-- The buffer after the last loop: the idle characters at the end are zeros. -/
theorem trimIdle_idles (front : Str) {byte : UInt8} (other : byte ≠ idle) (count : Nat)
    (zeros : Str) :
    trimIdle (front ++ byte :: idles count ++ zeros) (front.length + 1 + count) =
      some (front ++ byte :: List.replicate count 0 ++ zeros, front.length + 1) := by
  induction count generalizing zeros with
  | zero =>
      have last : (front ++ byte :: idles 0 ++ zeros)[front.length]? = some byte := by
        simp [idles]
      rw [Nat.add_zero, trimIdle, readAt_pred, last]
      simp [idles, other]
  | succ count ih =>
      have split : front ++ byte :: idles (count + 1) ++ zeros =
          (front ++ byte :: idles count) ++ idle :: zeros := by simp [idles_succ]
      have length : (front ++ byte :: idles count).length = front.length + 1 + count := by
        simp only [List.length_append, List.length_cons, idles_length]
        omega
      have last : ((front ++ byte :: idles count) ++ idle :: zeros)[front.length + 1 + count]? =
          some idle := by rw [← length]; simp
      rw [split, ← Nat.add_assoc, trimIdle, readAt_pred, last]
      simp only [Option.bind_eq_bind, Option.bind_some, ↓reduceIte]
      rw [← length, List.set_append_right _ _ (Nat.le_refl _), Nat.sub_self, List.set_cons_zero,
        length, ih (0 :: zeros), List.replicate_succ']
      simp

theorem stripTrailing_idles (front : Str) {byte : UInt8} (other : byte ≠ idle) (count : Nat) :
    stripTrailing (front ++ byte :: idles count ++ [0]) (front.length + 1 + count) =
      some (front ++ byte :: List.replicate count 0 ++ [0], front.length + 1) := by
  cases count with
  | zero =>
      have last : (front ++ byte :: idles 0 ++ [0])[front.length]? = some byte := by
        simp [idles]
      rw [Nat.add_zero, stripTrailing, readAt_pred, last]
      simp [idles, other]
  | succ count =>
      have split : front ++ byte :: idles (count + 1) ++ [0] =
          (front ++ byte :: idles count) ++ [idle, 0] := by simp [idles_succ]
      have length : (front ++ byte :: idles count).length = front.length + 1 + count := by
        simp only [List.length_append, List.length_cons, idles_length]
        omega
      have last : ((front ++ byte :: idles count) ++ [idle, 0])[front.length + 1 + count]? =
          some idle := by rw [← length]; simp
      rw [split, ← Nat.add_assoc, stripTrailing, readAt_pred, last]
      simp only [Option.bind_eq_bind, Option.bind_some, ↓reduceIte, Nat.add_sub_cancel]
      rw [← length, List.set_append_right _ _ (Nat.le_refl _), Nat.sub_self, List.set_cons_zero,
        length, trimIdle_idles front other count [0, 0], List.replicate_succ']
      simp

/-- A piece of idle characters alone is skipped. -/
theorem round_idles (garbage firstTime : Bool) (rb : Str) (count : Nat) :
    round garbage firstTime rb (idles (count + 1)) = some .again := by
  simp only [round, stripLeading_idles (count + 1) zero_ne_idle [] (Nat.le_refl _), idles_length,
    Option.bind_eq_bind, Option.bind_some]
  simp

/-- A piece whose text neither starts nor ends with an idle character. -/
structure Core (text : Str) : Prop where
  nonempty : text ≠ []
  starts : text.head? ≠ some idle
  ends : text.getLast? ≠ some idle

/-- What a round makes of the text between the idle characters. -/
def contribute (garbage firstTime : Bool) (rb text : Str) : Round :=
  if firstTime ∧ (text.getLast? = some newline ∨ garbage) then .done (cText text)
  else if text.getLast? = some newline then .done (rb ++ cText text)
  else .more (rb ++ cText text)

theorem Core.exists_ends {text : Str} (core : Core text) :
    (∃ first tail, text = first :: tail ∧ first ≠ idle) ∧
      ∃ body last, text = body ++ [last] ∧ last ≠ idle := by
  constructor
  · obtain ⟨first, tail, rfl⟩ := List.exists_cons_of_ne_nil core.nonempty
    exact ⟨first, tail, rfl, fun same => core.starts (by rw [List.head?_cons, same])⟩
  · have split := List.dropLast_append_getLast core.nonempty
    refine ⟨text.dropLast, text.getLast core.nonempty, split.symm, fun same => core.ends ?_⟩
    rw [List.getLast?_eq_some_getLast core.nonempty, same]

/-- The first loop stops at the text of a piece. -/
theorem stripLeading_core {text : Str} (core : Core text) (before after : Nat) :
    stripLeading (idles before ++ text ++ idles after ++ [0])
      (idles before ++ text ++ idles after).length = some before := by
  obtain ⟨⟨first, tail, rfl, other⟩, -⟩ := core.exists_ends
  rw [List.append_assoc, List.append_assoc, List.cons_append]
  exact stripLeading_idles before other _ (by simp)

/-- The last loop stops at the end of the text. -/
theorem stripTrailing_core {text : Str} (core : Core text) (before after : Nat) :
    stripTrailing (idles before ++ text ++ idles after ++ [0])
        (idles before ++ text ++ idles after).length =
      some (idles before ++ text ++ List.replicate after 0 ++ [0], (idles before ++ text).length) := by
  obtain ⟨-, body, last, rfl, other⟩ := core.exists_ends
  have shape := stripTrailing_idles (idles before ++ body) other after
  have length : (idles before ++ (body ++ [last]) ++ idles after).length =
      (idles before ++ body).length + 1 + after := by
    simp only [List.length_append, idles_length, List.length_singleton]
    omega
  have whole : (idles before ++ (body ++ [last])).length = (idles before ++ body).length + 1 := by
    simp only [List.length_append, List.length_singleton]
    omega
  rw [length, whole]
  simpa using shape

/-- The idle characters around the text of a piece are invisible, and no index
outside the bytes received and the zero after them is read. -/
theorem round_core (garbage firstTime : Bool) (rb : Str) {text : Str} (core : Core text)
    (before after : Nat) :
    round garbage firstTime rb (idles before ++ text ++ idles after) =
      some (contribute garbage firstTime rb text) := by
  have leading := stripLeading_core core before after
  have trailing := stripTrailing_core core before after
  obtain ⟨-, body, last, split, -⟩ := core.exists_ends
  have ending : text.getLast? = some last := by rw [split]; simp
  have copied : cString (idles before ++ text ++ List.replicate after 0 ++ [0]) before =
      cText text := by
    have zeros : List.replicate after (0 : UInt8) ++ [0] = 0 :: List.replicate after 0 := by
      rw [← List.replicate_succ', List.replicate_succ]
    rw [List.append_assoc, zeros]
    simpa using cString_append_zero (idles before) text (List.replicate after 0)
  have length : (idles before ++ text).length = (idles before ++ body).length + 1 := by
    rw [split]
    simp only [List.length_append, List.length_singleton]
    omega
  have final : (idles before ++ text ++ List.replicate after 0 ++ [0])[
      (idles before ++ body).length]? = some last := by
    rw [split]
    simp
  have inside : ¬ (before ≠ 0 ∧ before = (idles before ++ text ++ idles after).length) := by
    have := List.length_pos_iff.mpr core.nonempty
    simp only [List.length_append, idles_length]
    omega
  rw [length] at trailing
  simp only [round, leading, Option.bind_eq_bind, Option.bind_some, inside, ↓reduceIte, trailing,
    Nat.add_one_ne_zero, readAt_pred, final, copied, contribute, ending, Option.some.injEq,
    Option.pure_def]
  split
  · rfl
  · split <;> rfl

/-! ## What the loop makes of one piece when no prompt is awaited -/

section Reply

variable {firstTime : Bool} {rb : Str} (empty : firstTime → rb = []) (rest : List RecvResult)

theorem receiveLoop_idles (count : Nat) :
    receiveLoop false firstTime rb (.data (idles (count + 1)) :: rest) =
      receiveLoop false firstTime rb rest := by
  rw [receiveLoop, round_idles]

include empty in
/-- A piece whose text ends in a newline ends the reply. -/
theorem receiveLoop_final {text : Str} (core : Core text) (before after : Nat)
    (ended : text.getLast? = some newline) :
    receiveLoop false firstTime rb (.data (idles before ++ text ++ idles after) :: rest) =
      (.reply (rb ++ cText text), rest) := by
  rw [receiveLoop, round_core _ _ _ core]
  cases firstTime with
  | false => simp only [contribute, ended, Bool.false_eq_true, false_and, ↓reduceIte]
  | true => simp only [contribute, ended, true_or, and_self, ↓reduceIte, empty rfl, List.nil_append]

/-- A piece whose text does not end in a newline is kept, and more is awaited. -/
theorem receiveLoop_more {text : Str} (core : Core text) (before after : Nat)
    (unfinished : text.getLast? ≠ some newline) :
    receiveLoop false firstTime rb (.data (idles before ++ text ++ idles after) :: rest) =
      receiveLoop false false (rb ++ cText text) rest := by
  rw [receiveLoop, round_core _ _ _ core]
  simp only [contribute, unfinished, Bool.false_eq_true, or_self, and_false, ↓reduceIte]

end Reply

end AtomSpaceCog
