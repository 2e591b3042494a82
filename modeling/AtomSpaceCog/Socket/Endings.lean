import AtomSpaceCog.Socket.Segmentation

/-! # How a call of do_recv can end

`do_recv` walks two indices over the bytes of a piece and the zero written after
them. The trailing loop reads `buf[len-1]` before it tests `0 < len`, which is
harmless because the leading loop has already skipped every piece of idle
characters alone: whatever reaches the trailing loop holds another character,
and the loop stops there at the latest. So a call ends with a reply, at the end of
file, or where `recv` fails, which `receiveLoop_failed_iff` makes out beforehand.
-/

namespace AtomSpaceCog

/-- Both loops read positions of the bytes received and the zero after them only,
and a piece that is not skipped as a whole keeps at least one byte. -/
def Inside (chunk : Str) : Prop :=
  ∃ pbf, pbf ≤ chunk.length ∧ stripLeading (chunk ++ [0]) chunk.length = some pbf ∧
    (pbf ≠ 0 ∧ pbf = chunk.length ∨
      ∃ buf len, stripTrailing (chunk ++ [0]) chunk.length = some (buf, len) ∧
        buf.length = chunk.length + 1 ∧ 0 < len ∧ len ≤ chunk.length)

theorem inside_idles (count : Nat) : Inside (idles (count + 1)) := by
  refine ⟨count + 1, ?_, ?_, Or.inl ⟨Nat.succ_ne_zero count, ?_⟩⟩
  · simp only [idles_length, Nat.le_refl]
  · rw [idles_length]
    exact stripLeading_idles (count + 1) zero_ne_idle [] (Nat.le_refl _)
  · rw [idles_length]

theorem inside_core {text : Str} (core : Core text) (before after : Nat) :
    Inside (idles before ++ text ++ idles after) := by
  have nonempty := List.length_pos_iff.mpr core.nonempty
  refine ⟨before, ?_, stripLeading_core core before after,
    Or.inr ⟨_, _, stripTrailing_core core before after, ?_, ?_, ?_⟩⟩
  · simp only [List.length_append, idles_length]
    omega
  · simp only [List.length_append, List.length_replicate, List.length_singleton, idles_length]
  · simp only [List.length_append]
    omega
  · simp only [List.length_append, Nat.le_add_right]

theorem inside_of_nonempty {chunk : Str} (nonempty : chunk ≠ []) : Inside chunk := by
  rcases idles_or_core nonempty with ⟨count, rfl⟩ | ⟨before, text, after, core, rfl⟩
  · exact inside_idles count
  · exact inside_core core before after

/-- Every read of a round is defined, the tests of the last byte included. -/
theorem round_ne_none (garbage firstTime : Bool) (rb : Str) {chunk : Str}
    (nonempty : chunk ≠ []) : round garbage firstTime rb chunk ≠ none := by
  rcases idles_or_core nonempty with ⟨count, rfl⟩ | ⟨before, text, after, core, rfl⟩
  · rw [round_idles]
    apply Option.some_ne_none
  · rw [round_core _ _ _ core]
    apply Option.some_ne_none

/-- The loop reads defined positions only, and whether there is a socket was asked before it. -/
theorem receiveLoop_inside (garbage firstTime : Bool) (rb : Str) (results : List RecvResult)
    (nonempty : ∀ chunk, .data chunk ∈ results → chunk ≠ []) :
    (receiveLoop garbage firstTime rb results).1 ≠ .outOfBounds ∧
      (receiveLoop garbage firstTime rb results).1 ≠ .noSocket := by
  induction results generalizing firstTime rb with
  | nil => simp only [receiveLoop, ne_eq, reduceCtorEq, not_false_eq_true, and_self]
  | cons result results ih =>
      have later : ∀ chunk, .data chunk ∈ results → chunk ≠ [] :=
        fun chunk member => nonempty chunk (.tail _ member)
      cases result with
      | error | closed => simp only [receiveLoop, ne_eq, reduceCtorEq, not_false_eq_true, and_self]
      | data chunk =>
          obtain ⟨outcome, round_eq⟩ :=
            Option.ne_none_iff_exists'.mp (round_ne_none garbage firstTime rb (nonempty chunk (.head _)))
          rw [receiveLoop, round_eq]
          cases outcome with
          | again => exact ih firstTime rb later
          | more rb => exact ih false rb later
          | done text => simp only [ne_eq, reduceCtorEq, not_false_eq_true, and_self]

/-- The last byte of a piece that is not idle. -/
def lastVisible (piece : Str) : Option UInt8 := piece.reverse.find? (· ≠ idle)

/-- A call that has not ended yet ends with this piece. -/
def EndsReply (garbage : Bool) (piece : Str) : Prop :=
  lastVisible piece = some newline ∨ garbage ∧ lastVisible piece ≠ none

instance (garbage : Bool) (piece : Str) : Decidable (EndsReply garbage piece) :=
  inferInstanceAs (Decidable (_ ∨ _))

/-- `recv` fails before a piece ends the call and before the end of file. -/
def ErrorFirst (garbage : Bool) : List RecvResult → Prop
  | .error :: _ => True
  | .data chunk :: rest => ¬ EndsReply garbage chunk ∧ ErrorFirst garbage rest
  | _ => False

theorem lastVisible_idles (count : Nat) : lastVisible (idles count) = none := by
  simp [lastVisible, idles]

theorem lastVisible_core {text : Str} (core : Core text) (before after : Nat) :
    lastVisible (idles before ++ text ++ idles after) = text.getLast? := by
  obtain ⟨-, body, last, rfl, other⟩ := core.exists_ends
  simp [lastVisible, idles, List.find?_append, other]

/-- A piece ends the call, is skipped or is kept. -/
theorem round_cases {garbage firstTime : Bool} (fresh : garbage → firstTime) (rb : Str)
    {chunk : Str} (nonempty : chunk ≠ []) :
    (EndsReply garbage chunk ∧ ∃ text, round garbage firstTime rb chunk = some (.done text)) ∨
      (¬ EndsReply garbage chunk ∧
        (round garbage firstTime rb chunk = some .again ∨
          garbage = false ∧ ∃ rb', round garbage firstTime rb chunk = some (.more rb'))) := by
  rcases idles_or_core nonempty with ⟨count, rfl⟩ | ⟨before, text, after, core, rfl⟩
  · refine Or.inr ⟨?_, Or.inl (round_idles garbage firstTime rb count)⟩
    simp only [EndsReply, lastVisible_idles, reduceCtorEq, ne_eq, not_true_eq_false, and_false,
      or_self, not_false_eq_true]
  · have visible : text.getLast? ≠ none := by simpa using core.nonempty
    rw [round_core _ _ _ core]
    simp only [EndsReply, lastVisible_core core, ne_eq, visible, not_false_eq_true, and_true]
    cases garbage with
    | true => exact Or.inl ⟨Or.inr rfl, cText text, by simp [contribute, fresh rfl]⟩
    | false =>
        by_cases ended : text.getLast? = some newline
        · refine Or.inl ⟨Or.inl ended, ?_⟩
          cases firstTime with
          | true => exact ⟨cText text, by simp [contribute, ended]⟩
          | false => exact ⟨rb ++ cText text, by simp [contribute, ended]⟩
        · exact Or.inr ⟨by simp [ended], Or.inr ⟨rfl, rb ++ cText text, by simp [contribute, ended]⟩⟩

/-- A call fails exactly when `recv` fails before the reply has ended. -/
theorem receiveLoop_failed_iff {garbage firstTime : Bool} (fresh : garbage → firstTime) (rb : Str)
    (results : List RecvResult) (nonempty : ∀ chunk, .data chunk ∈ results → chunk ≠ []) :
    (receiveLoop garbage firstTime rb results).1 = .failed ↔ ErrorFirst garbage results := by
  induction results generalizing firstTime rb with
  | nil => simp only [receiveLoop, ErrorFirst, reduceCtorEq]
  | cons result results ih =>
      have later : ∀ chunk, .data chunk ∈ results → chunk ≠ [] :=
        fun chunk member => nonempty chunk (.tail _ member)
      cases result with
      | error => simp only [receiveLoop, ErrorFirst]
      | closed => simp only [receiveLoop, ErrorFirst, reduceCtorEq]
      | data chunk =>
          rw [receiveLoop, ErrorFirst]
          rcases round_cases fresh rb (nonempty chunk (.head _)) with
            ⟨ends, text, done⟩ | ⟨unended, again | ⟨rfl, rb', more⟩⟩
          · simp only [done, ends, not_true_eq_false, false_and, reduceCtorEq]
          · simp only [again, unended, not_false_eq_true, true_and]
            exact ih fresh rb later
          · simp only [more, unended, not_false_eq_true, true_and]
            exact ih (by simp) rb' later

namespace Backend

/-- A call of `do_recv` never reads outside the bytes received and the zero
written after them, and no piece loses all its bytes to the trailing loop. -/
theorem doRecv_inside (backend : Backend) (sockfd : Int) (garbage : Bool)
    (results : List RecvResult) (fits : ∀ chunk, .data chunk ∈ results → backend.Fits chunk) :
    (backend.doRecv sockfd garbage results).1 ≠ .outOfBounds ∧
      ∀ chunk, .data chunk ∈ results → Inside chunk := by
  constructor
  · rw [doRecv]
    split
    · exact (receiveLoop_inside garbage true [] results fun chunk member => (fits chunk member).1).1
    · simp only [ne_eq, reduceCtorEq, not_false_eq_true]
  · intro chunk member
    exact inside_of_nonempty (fits chunk member).1

/-- A piece of idle characters alone, and one with idle characters at both ends. -/
theorem doRecv_inside_idle_ends :
    (simple.doRecv 5 false [.data (idles 3), .data (idles 1 ++ bytes "()\n" ++ idles 2)]).1 ≠
        .outOfBounds ∧
      ∀ chunk, .data chunk ∈ [RecvResult.data (idles 3),
        .data (idles 1 ++ bytes "()\n" ++ idles 2)] → Inside chunk :=
  doRecv_inside simple 5 false _ (by
    intro chunk member
    simp only [List.mem_cons, RecvResult.data.injEq, List.not_mem_nil, or_false] at member
    rcases member with rfl | rfl <;> exact ⟨by decide, by decide⟩)

end Backend

end AtomSpaceCog
