import Mathlib.Tactic.FinCases
import AtomSpaceCog.Socket.Receive

/-! # Replies cut into pieces

The network may cut the bytes of a reply anywhere. `do_recv` ends at the first
piece whose text ends in a newline and copies pieces as C strings, so a reply
comes back whole exactly when no cut falls behind an inner newline or next to an
idle character and no byte is zero (`Backend.doRecv_whole_iff`).
-/

namespace AtomSpaceCog

/-- Every piece is idle throughout or has a text between its idle characters. -/
theorem idles_or_core {chunk : Str} (nonempty : chunk ≠ []) :
    (∃ count, chunk = idles (count + 1)) ∨
      ∃ before text after, Core text ∧ chunk = idles before ++ text ++ idles after := by
  induction chunk with
  | nil => exact absurd rfl nonempty
  | cons byte tail ih =>
      by_cases empty : tail = []
      · subst empty
        by_cases same : byte = idle
        · exact Or.inl ⟨0, by rw [same]; rfl⟩
        · exact Or.inr ⟨0, [byte], 0, ⟨by simp, by simpa using same, by simpa using same⟩, rfl⟩
      · rcases ih empty with ⟨count, rfl⟩ | ⟨before, text, after, core, rfl⟩
        · by_cases same : byte = idle
          · exact Or.inl ⟨count + 1, by rw [same]; rfl⟩
          · exact Or.inr ⟨0, [byte], count + 1,
              ⟨by simp, by simpa using same, by simpa using same⟩, rfl⟩
        · by_cases same : byte = idle
          · exact Or.inr ⟨before + 1, text, after, core, by rw [same]; rfl⟩
          · refine Or.inr ⟨0, byte :: idles before ++ text, after,
              ⟨by simp, by simpa using same, ?_⟩, by simp [idles]⟩
            rw [List.getLast?_append_of_ne_nil _ core.nonempty]
            exact core.ends

/-- The last byte of a piece is that of its text, unless idle characters follow. -/
theorem getLast?_core {text : Str} (core : Core text) (before after : Nat) :
    (idles before ++ text ++ idles after).getLast? =
      if after = 0 then text.getLast? else some idle := by
  cases after with
  | zero =>
      rw [if_pos rfl]
      simp only [idles, List.replicate_zero, List.append_nil]
      exact List.getLast?_append_of_ne_nil _ core.nonempty
  | succ after => simp [idles_succ]

/-- A piece that is copied byte for byte. -/
structure Intact (chunk : Str) : Prop where
  nonzero : 0 ∉ chunk
  starts : chunk.head? ≠ some idle
  ends : chunk.getLast? ≠ some idle

theorem not_intact_idles (count : Nat) : ¬ Intact (idles (count + 1)) :=
  fun intact => intact.starts rfl

/-- What is copied is the whole piece or less than the piece. -/
theorem intact_or_shorter {text : Str} (core : Core text) (before after : Nat) :
    (Intact (idles before ++ text ++ idles after) ∧
        cText text = idles before ++ text ++ idles after) ∨
      (¬ Intact (idles before ++ text ++ idles after) ∧
        (cText text).length < (idles before ++ text ++ idles after).length) := by
  have shorter : (cText text).length ≤ text.length := cText_length_le text
  cases before with
  | succ before =>
      refine Or.inr ⟨fun intact => intact.starts rfl, ?_⟩
      simp only [List.length_append, idles_length]
      omega
  | zero =>
      cases after with
      | succ after =>
          refine Or.inr ⟨fun intact => intact.ends (by simp [idles_succ]), ?_⟩
          simp only [List.length_append, idles_length]
          omega
      | zero =>
          have plain : idles 0 ++ text ++ idles 0 = text := by simp [idles]
          rw [plain]
          by_cases zero : 0 ∈ text
          · refine Or.inr ⟨fun intact => intact.nonzero zero, lt_of_le_of_ne shorter ?_⟩
            intro same
            exact cText_eq_self.mp ((List.takeWhile_prefix _).eq_of_length same) zero
          · exact Or.inl ⟨⟨zero, core.starts, core.ends⟩, cText_eq_self.mpr zero⟩

/-- A reply is never longer than the pieces read for it. -/
theorem receiveLoop_reply_length {firstTime : Bool} {rb : Str} (empty : firstTime → rb = [])
    (chunks : List Str) (nonempty : ∀ chunk ∈ chunks, chunk ≠ []) {text : Str}
    {rest : List RecvResult}
    (received : receiveLoop false firstTime rb (chunks.map .data) = (.reply text, rest)) :
    text.length ≤ rb.length + chunks.flatten.length := by
  induction chunks generalizing firstTime rb with
  | nil => cases received
  | cons chunk chunks ih =>
      have later : ∀ chunk ∈ chunks, chunk ≠ [] := fun chunk member => nonempty chunk (.tail _ member)
      rw [List.map_cons] at received
      rw [List.flatten_cons, List.length_append]
      rcases idles_or_core (nonempty chunk (.head _)) with
        ⟨count, rfl⟩ | ⟨before, body, after, core, rfl⟩
      · rw [receiveLoop_idles] at received
        have bound := ih empty later received
        omega
      · have copied : (cText body).length ≤ (idles before ++ body ++ idles after).length := by
          have := cText_length_le body
          simp only [List.length_append, idles_length]
          omega
        by_cases ended : body.getLast? = some newline
        · rw [receiveLoop_final empty _ core before after ended] at received
          cases received
          rw [List.length_append]
          omega
        · rw [receiveLoop_more _ core before after ended] at received
          have bound := ih (by simp) later received
          rw [List.length_append] at bound
          omega

/-- The pieces are all copied byte for byte and only the last one ends in a
newline. -/
def Delivered (chunks : List Str) : Prop :=
  (∀ chunk ∈ chunks, Intact chunk) ∧ ∀ chunk ∈ chunks.dropLast, chunk.getLast? ≠ some newline

theorem Delivered.tail {chunk : Str} {chunks : List Str} (delivered : Delivered (chunk :: chunks)) :
    Delivered chunks := by
  refine ⟨fun piece member => delivered.1 piece (.tail _ member), fun piece member => ?_⟩
  cases chunks with
  | nil => cases member
  | cons next chunks => exact delivered.2 piece (.tail _ member)

theorem Delivered.cons {chunk next : Str} {chunks : List Str} (intact : Intact chunk)
    (unfinished : chunk.getLast? ≠ some newline) (delivered : Delivered (next :: chunks)) :
    Delivered (chunk :: next :: chunks) := by
  constructor
  · intro piece member
    rcases List.mem_cons.mp member with rfl | later
    · exact intact
    · exact delivered.1 piece later
  · intro piece member
    rcases List.mem_cons.mp member with rfl | later
    · exact unfinished
    · exact delivered.2 piece later

/-- The loop returns everything it was given exactly when the pieces are
delivered whole. The induction keeps what was read so far in `rb`. -/
theorem receiveLoop_whole_iff (firstTime : Bool) {rb : Str} (empty : firstTime → rb = [])
    (chunks : List Str) (nonempty : ∀ chunk ∈ chunks, chunk ≠ [])
    (ends : chunks.flatten.getLast? = some newline) :
    receiveLoop false firstTime rb (chunks.map .data) = (.reply (rb ++ chunks.flatten), []) ↔
      Delivered chunks := by
  induction chunks generalizing firstTime rb with
  | nil => cases ends
  | cons chunk chunks ih =>
      have later : ∀ chunk ∈ chunks, chunk ≠ [] := fun chunk member => nonempty chunk (.tail _ member)
      rw [List.map_cons, List.flatten_cons]
      rcases idles_or_core (nonempty chunk (.head _)) with
        ⟨count, rfl⟩ | ⟨before, body, after, core, rfl⟩
      · -- Idle characters are dropped, so the reply is shorter than what was sent.
        rw [receiveLoop_idles]
        refine iff_of_false (fun received => ?_)
          fun delivered => not_intact_idles count (delivered.1 _ (.head _))
        have bound := receiveLoop_reply_length empty chunks later received
        simp only [List.length_append, idles_length] at bound
        omega
      · have last := getLast?_core core before after
        by_cases ended : body.getLast? = some newline
        · -- The reply ends at this piece, so no piece may be left.
          rw [receiveLoop_final empty _ core before after ended]
          cases chunks with
          | nil =>
              rw [List.flatten_nil, List.append_nil]
              rcases intact_or_shorter core before after with ⟨intact, same⟩ | ⟨damaged, shorter⟩
              · rw [same]
                exact iff_of_true rfl ⟨fun piece member => List.mem_singleton.mp member ▸ intact,
                  fun piece member => by cases member⟩
              · refine iff_of_false (fun received => ?_) fun delivered => damaged (delivered.1 _ (.head _))
                simp only [Prod.mk.injEq, Received.reply.injEq, List.append_cancel_left_eq] at received
                rw [received.1] at shorter
                exact lt_irrefl _ shorter
          | cons next chunks =>
              refine iff_of_false (fun received => by cases congrArg Prod.snd received)
                fun delivered => ?_
              have unfinished := delivered.2 _ (.head _)
              rw [last] at unfinished
              split at unfinished
              · exact unfinished ended
              · next trailing =>
                  have intact := (delivered.1 _ (.head _)).ends
                  rw [last, if_neg trailing] at intact
                  exact intact rfl
        · rw [receiveLoop_more _ core before after ended]
          cases chunks with
          | nil =>
              -- The last piece ends the reply, so its text does end in a newline.
              rw [List.flatten_cons, List.flatten_nil, List.append_nil, last] at ends
              split at ends
              · exact absurd ends ended
              · exact absurd (Option.some.inj ends) newline_ne_idle.symm
          | cons next chunks =>
              have tailEnds : (next :: chunks).flatten.getLast? = some newline := by
                rw [List.flatten_cons, List.getLast?_append_of_ne_nil] at ends
                · exact ends
                · simp [later next (.head _)]
              rcases intact_or_shorter core before after with ⟨intact, same⟩ | ⟨damaged, shorter⟩
              · have unfinished : (idles before ++ body ++ idles after).getLast? ≠ some newline := by
                  rw [last]
                  split
                  · exact ended
                  · exact fun same => newline_ne_idle.symm (Option.some.inj same)
                rw [same, ← List.append_assoc rb (idles before ++ body ++ idles after),
                  ih false (by simp) later tailEnds]
                exact ⟨.cons intact unfinished, .tail⟩
              · refine iff_of_false (fun received => ?_) fun delivered => damaged (delivered.1 _ (.head _))
                have bound := receiveLoop_reply_length (by simp) _ later received
                simp only [List.length_append] at bound shorter
                omega

namespace Backend

/-- `do_recv(false)` on the pieces of a newline-terminated reply returns the
reply and leaves nothing of it exactly when no byte of the reply is zero, no
piece starts or ends with an idle character, and no piece but the last ends in a
newline. -/
theorem doRecv_whole_iff (backend : Backend) (sockfd : Int)
    (connected : backend.socketOpen sockfd) (reply : Str) (ends : reply.getLast? = some newline)
    (chunks : List Str) (fits : ∀ chunk ∈ chunks, backend.Fits chunk)
    (whole : chunks.flatten = reply) :
    backend.doRecv sockfd false (chunks.map .data) = (.reply reply, sockfd, []) ↔
      0 ∉ reply ∧
        (∀ chunk ∈ chunks, chunk.head? ≠ some idle ∧ chunk.getLast? ≠ some idle) ∧
        ∀ chunk ∈ chunks.dropLast, chunk.getLast? ≠ some newline := by
  have nonempty : ∀ chunk ∈ chunks, chunk ≠ [] := fun chunk member => (fits chunk member).1
  have loop := receiveLoop_whole_iff true (fun _ => rfl) chunks nonempty
    (whole ▸ ends)
  have kept : ∀ text, backend.socketAfter sockfd (.reply text) = sockfd := by
    intro text
    cases backend <;> rfl
  rw [doRecv, if_pos connected]
  constructor
  · intro received
    have answered : receiveLoop false true [] (chunks.map .data) = (.reply reply, []) := by
      have first := congrArg Prod.fst received
      have third := congrArg (fun triple => triple.2.2) received
      exact Prod.ext first third
    rw [← whole] at answered
    obtain ⟨intact, inner⟩ := loop.mp answered
    refine ⟨fun zero => ?_, fun chunk member => ⟨(intact chunk member).starts,
      (intact chunk member).ends⟩, inner⟩
    obtain ⟨chunk, member, inside⟩ := List.mem_flatten.mp (whole ▸ zero)
    exact (intact chunk member).nonzero inside
  · rintro ⟨nonzero, edges, inner⟩
    have delivered : Delivered chunks := by
      refine ⟨fun chunk member => ⟨fun zero => nonzero ?_, (edges chunk member).1,
        (edges chunk member).2⟩, inner⟩
      rw [← whole]
      exact List.mem_flatten.mpr ⟨chunk, member, zero⟩
    have answered := loop.mpr delivered
    rw [whole, List.nil_append] at answered
    rw [answered]
    simp only [kept]

/-- A list reply cut inside a type name comes back whole. -/
theorem doRecv_whole_two_pieces :
    channel.doRecv 5 false ([bytes "((Con", bytes "cept \"a\"))\n"].map .data) =
      (.reply (bytes "((Concept \"a\"))\n"), 5, []) :=
  (doRecv_whole_iff channel 5 rfl (bytes "((Concept \"a\"))\n") rfl
    [bytes "((Con", bytes "cept \"a\"))\n"]
    (by intro chunk member; fin_cases member <;> exact ⟨by decide, by decide⟩) rfl).mpr
      ⟨by decide, by decide, by decide⟩

/-- A list reply that holds a node named by two lines, cut behind the first line
of the name: both backends return the first piece and leave the second one for
the next request. -/
theorem doRecv_inner_newline :
    ¬ ∀ (backend : Backend) (reply : Str) (chunks : List Str),
      reply.getLast? = some newline → (∀ chunk ∈ chunks, backend.Fits chunk) →
        chunks.flatten = reply →
          backend.doRecv 5 false (chunks.map .data) = (.reply reply, 5, []) := by
  intro always
  have cut := always channel (bytes "((Concept \"a\nb\"))\n")
    [bytes "((Concept \"a\n", bytes "b\"))\n"] rfl
    (by intro chunk member; fin_cases member <;> exact ⟨by decide, by decide⟩) rfl
  have first : channel.doRecv 5 false ([bytes "((Concept \"a\n", bytes "b\"))\n"].map .data) =
      (.reply (bytes "((Concept \"a\n"), 5, [.data (bytes "b\"))\n")]) := by decide +kernel
  rw [first] at cut
  cases congrArg (fun received => received.2.2) cut

end Backend

end AtomSpaceCog
