import Mathlib.Tactic.FinCases
import AtomSpaceCog.Socket.Receive

/-! # Idle characters between replies

A congested server sends idle characters around its replies. Whatever is left on
the socket after one reply is idle characters only, and the next call skips them,
so a session of replies comes back reply by reply (`Backend.returnsEach`).
-/

namespace AtomSpaceCog

/-- A text that ends in its only newline and holds no zero and no idle byte. -/
structure Line (text : Str) : Prop where
  ends : ∃ body, text = body ++ [newline] ∧ newline ∉ body
  nonzero : 0 ∉ text
  noIdle : idle ∉ text

/-- A reply of the server with the idle characters sent before and after it. -/
structure Turn where
  before : Nat
  reply : Str
  after : Nat

/-- Successive calls of `do_recv(false)` return the replies of the turns in
order, however the bytes on the socket are cut into results of `recv`. The bytes
of a turn are sent after the call before it returned; `left` is what that call
did not read. -/
def Backend.ReturnsEach (backend : Backend) (sockfd : Int) : Str → List Turn → Prop
  | _, [] => True
  | left, turn :: turns =>
      ∀ cut : List Str, (∀ chunk ∈ cut, backend.Fits chunk) →
        cut.flatten = left ++ idles turn.before ++ turn.reply ++ idles turn.after →
          ∃ rest : List Str,
            backend.doRecv sockfd false (cut.map .data) =
                (.reply turn.reply, sockfd, rest.map .data) ∧
              backend.ReturnsEach sockfd rest.flatten turns

/-- Both parts of a run of idle characters are runs of idle characters. -/
theorem idles_eq_append {count : Nat} {front back : Str} (split : idles count = front ++ back) :
    front = idles front.length ∧ back = idles back.length :=
  (List.replicate_eq_append_iff.mp split).2

namespace Line

variable {text : Str}

theorem nonempty (line : Line text) : text ≠ [] := by
  obtain ⟨body, rfl, -⟩ := line.ends
  simp

theorem getLast? (line : Line text) : text.getLast? = some newline := by
  obtain ⟨body, rfl, -⟩ := line.ends
  simp

/-- Any part of a line is a text between idle characters. -/
theorem core (line : Line text) {part : Str} (nonempty : part ≠ []) (subset : part ⊆ text) :
    Core part where
  nonempty := nonempty
  starts := fun same => line.noIdle (subset (List.mem_of_head? same))
  ends := fun same => line.noIdle (subset (List.mem_of_getLast? same))

/-- The newline of a line is in its last part. -/
theorem of_append {front back : Str} (line : Line (front ++ back)) (nonempty : back ≠ []) :
    newline ∉ front ∧ Line back := by
  obtain ⟨body, split, absent⟩ := line.ends
  obtain ⟨init, last, rfl⟩ : ∃ init last, back = init ++ [last] :=
    ⟨_, _, (List.dropLast_append_getLast nonempty).symm⟩
  rw [← List.append_assoc] at split
  obtain ⟨rfl, same⟩ := List.append_inj' split rfl
  cases same
  refine ⟨fun member => absent (List.mem_append_left _ member), ⟨init, rfl, ?_⟩, ?_, ?_⟩
  · exact fun member => absent (List.mem_append_right _ member)
  · exact fun member => line.nonzero (List.mem_append_right _ member)
  · exact fun member => line.noIdle (List.mem_append_right _ member)

end Line

/-- Reading a line with idle characters around it: the loop returns the line and
leaves idle characters only. The induction is on the pieces; `text` is the part
of the line still to come and `before` counts the idle characters ahead of it. -/
theorem receiveLoop_line (firstTime : Bool) {rb : Str} (empty : firstTime → rb = [])
    (cut : List Str) (nonempty : ∀ chunk ∈ cut, chunk ≠ []) (before after : Nat) {text : Str}
    (line : Line text) (whole : cut.flatten = idles before ++ (text ++ idles after)) :
    ∃ (rest : List Str) (left : Nat),
      receiveLoop false firstTime rb (cut.map .data) = (.reply (rb ++ text), rest.map .data) ∧
        rest.flatten = idles left := by
  induction cut generalizing firstTime rb before text with
  | nil =>
      have absurdEmpty := congrArg List.length whole
      have := List.length_pos_iff.mpr line.nonempty
      simp only [List.flatten_nil, List.length_nil, List.length_append] at absurdEmpty
      omega
  | cons chunk cut ih =>
      have later : ∀ chunk ∈ cut, chunk ≠ [] := fun chunk member => nonempty chunk (.tail _ member)
      have filled : chunk ≠ [] := nonempty chunk (.head _)
      have unchanged : cText text = text := cText_eq_self.mpr line.nonzero
      rw [List.flatten_cons] at whole
      rw [List.map_cons]
      rcases List.append_eq_append_iff.mp whole with
        ⟨back, idling, remaining⟩ | ⟨part, rfl, remaining⟩
      · -- The piece lies within the idle characters before the line.
        obtain ⟨front, tail⟩ := idles_eq_append idling
        obtain ⟨count, counted⟩ := Nat.exists_eq_succ_of_ne_zero
          (List.length_pos_iff.mpr filled).ne'
        rw [front, counted, receiveLoop_idles]
        rw [tail] at remaining
        exact ih firstTime empty later _ line remaining
      by_cases none : part = []
      · subst none
        rw [List.append_nil] at filled ⊢
        cases before with
        | zero => exact absurd rfl filled
        | succ before =>
            rw [receiveLoop_idles]
            exact ih firstTime empty later 0 line (by rw [remaining]; simp [idles])
      rcases List.append_eq_append_iff.mp remaining with
        ⟨trail, rfl, idling⟩ | ⟨next, rfl, rest⟩
      · -- The piece reaches behind the line.
        obtain ⟨trailing, left⟩ := idles_eq_append idling
        refine ⟨cut, cut.flatten.length, ?_, left⟩
        rw [← List.append_assoc, trailing,
          receiveLoop_final empty _ (line.core line.nonempty (List.Subset.refl _)) before _
            line.getLast?, unchanged]
      · -- The piece ends within the line, or with it.
        by_cases finished : next = []
        · subst finished
          rw [List.append_nil] at *
          have final := receiveLoop_final empty (cut.map .data)
            (line.core line.nonempty (List.Subset.refl _)) before 0 line.getLast?
          rw [show idles 0 = [] from rfl, List.append_nil, unchanged] at final
          exact ⟨cut, after, final, rest⟩
        · obtain ⟨inner, following⟩ := line.of_append finished
          have copied : cText part = part :=
            cText_eq_self.mpr fun zero => line.nonzero (List.mem_append_left _ zero)
          have more := @receiveLoop_more firstTime rb (cut.map .data) _
            (line.core none (List.subset_append_left _ _)) before 0
            (fun same => inner (List.mem_of_getLast? same))
          rw [show idles 0 = [] from rfl, List.append_nil, copied] at more
          rw [more, ← List.append_assoc]
          exact ih false (by simp) later 0 following (by rw [rest]; simp [idles])

namespace Backend

/-- Every session comes back reply by reply, from whatever number of idle
characters an earlier reply left on the socket. -/
theorem returnsEach (backend : Backend) (sockfd : Int) (connected : backend.socketOpen sockfd)
    (left : Nat) (turns : List Turn) (lines : ∀ turn ∈ turns, Line turn.reply) :
    backend.ReturnsEach sockfd (idles left) turns := by
  induction turns generalizing left with
  | nil => trivial
  | cons turn turns ih =>
      intro cut fits whole
      have nonempty : ∀ chunk ∈ cut, chunk ≠ [] := fun chunk member => (fits chunk member).1
      rw [← idles_add, List.append_assoc] at whole
      obtain ⟨rest, remaining, received, idling⟩ := receiveLoop_line true
        (fun _ => rfl) cut nonempty _ _ (lines turn (.head _)) whole
      refine ⟨rest, ?_, ?_⟩
      · rw [doRecv, if_pos connected, received]
        cases backend <;> rfl
      · rw [idling]
        exact ih remaining fun turn member => lines turn (.tail _ member)

/-- Two replies with idle characters before, between and after them. -/
theorem returnsEach_two_replies :
    simple.ReturnsEach 5 [] [⟨2, bytes "()\n", 1⟩, ⟨0, bytes "(Concept \"a\")\n", 3⟩] :=
  returnsEach simple 5 rfl 0 _ (by
    intro turn member
    fin_cases member
    · exact ⟨⟨bytes "()", rfl, by decide⟩, by decide, by decide⟩
    · exact ⟨⟨bytes "(Concept \"a\")", rfl, by decide⟩, by decide, by decide⟩)

end Backend

end AtomSpaceCog
