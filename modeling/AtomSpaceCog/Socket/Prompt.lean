import AtomSpaceCog.Socket.Idle
import AtomSpaceCog.Socket.Endings

/-! # The prompt of the server

The prompt has no terminator. `do_recv(true)` takes the first piece that holds
anything but idle characters for all of it, and what was cut off stays on the
socket, in front of the reply to the first request. So the stream is in step
exactly when that remainder cannot be seen (`Backend.inStep_iff`).
-/

namespace AtomSpaceCog

/-- The pieces that are on the socket when `do_recv(true)` has returned. -/
def leftUnread (cut : List Str) : List Str :=
  (cut.dropWhile fun piece => piece.all (· = idle)).tail

namespace Backend

/-- The call of `do_recv(false)` after the one that reads the prompt returns the
reply to the first request, however the bytes still on the socket and those of
the reply are cut. -/
def InStep (backend : Backend) (sockfd : Int) (cut : List Str) (reply : Str) : Prop :=
  ∀ (text : Str) (rest : List Str),
    backend.doRecv sockfd true (cut.map .data) = (.reply text, sockfd, rest.map .data) →
      ∀ later : List Str, (∀ chunk ∈ later, backend.Fits chunk) →
        later.flatten = rest.flatten ++ reply →
          (backend.doRecv sockfd false (later.map .data)).1 = .reply reply

/-- Bytes that leave no trace in the reply behind them: idle characters, and zeros
that no piece can bring together with the reply. -/
def Traceless (backend : Backend) (left : Str) : Prop :=
  ∃ front count, left = front ++ idles count ∧ (∀ byte ∈ front, byte = idle ∨ byte = 0) ∧
    (front = [] ∨ backend.bufferSize < count + 2)

end Backend

/-! ## Reading the prompt -/

theorem all_idle_core {text : Str} (core : Core text) (before after : Nat) :
    (idles before ++ text ++ idles after).all (· = idle) = false := by
  obtain ⟨⟨first, tail, rfl, other⟩, -⟩ := core.exists_ends
  simp [other]

theorem leftUnread_subset (cut : List Str) : leftUnread cut ⊆ cut :=
  fun _ member => (List.dropWhile_sublist _).subset (List.mem_of_mem_tail member)

/-- The first piece with anything but idle characters is taken for the prompt. -/
theorem receiveLoop_prompt (cut : List Str) (nonempty : ∀ chunk ∈ cut, chunk ≠ []) :
    ((∀ byte ∈ cut.flatten, byte = idle) →
        receiveLoop true true [] (cut.map .data) = (.waiting, [])) ∧
      ((¬ ∀ byte ∈ cut.flatten, byte = idle) → ∃ text,
        receiveLoop true true [] (cut.map .data) = (.reply text, (leftUnread cut).map .data)) := by
  induction cut with
  | nil => simp [receiveLoop]
  | cons chunk cut ih =>
      have read := ih fun piece member => nonempty piece (.tail _ member)
      rcases idles_or_core (nonempty chunk (.head _)) with
        ⟨count, rfl⟩ | ⟨before, text, after, core, rfl⟩
      · have same : (∀ byte ∈ (idles (count + 1) :: cut).flatten, byte = idle) ↔
            ∀ byte ∈ cut.flatten, byte = idle := by
          simp only [List.flatten_cons, List.mem_append, or_imp, forall_and]
          exact and_iff_right fun byte member => List.eq_of_mem_replicate member
        have skipped : leftUnread (idles (count + 1) :: cut) = leftUnread cut := by
          simp [leftUnread, idles]
        simp only [List.map_cons, receiveLoop, round_idles, same, skipped]
        exact read
      · have visible : ¬ ∀ byte ∈ ((idles before ++ text ++ idles after) :: cut).flatten,
            byte = idle := by
          intro all
          have only := all_idle_core core before after
          rw [List.all_eq_false] at only
          obtain ⟨byte, member, other⟩ := only
          exact other (by simpa using all byte (List.mem_append_left _ member))
        have taken : leftUnread ((idles before ++ text ++ idles after) :: cut) = cut := by
          have kept : ¬ (idles before ++ text ++ idles after).all (· = idle) := by
            rw [all_idle_core core]
            exact Bool.false_ne_true
          rw [leftUnread,
            List.dropWhile_cons_of_neg (p := fun piece : Str => piece.all (· = idle)) kept]
          rfl
        refine ⟨fun idling => absurd idling visible, fun _ => ⟨cText text, ?_⟩⟩
        rw [taken]
        rw [List.map_cons, receiveLoop, round_core _ _ _ core]
        simp [contribute]

/-! ## A remainder that leaves no trace -/

/-- A piece of idle characters and zeros adds nothing to the reply. -/
theorem receiveLoop_mute {chunk : Str} (nonempty : chunk ≠ [])
    (mute : ∀ byte ∈ chunk, byte = idle ∨ byte = 0) (firstTime : Bool) (rest : List RecvResult) :
    ∃ later, receiveLoop false firstTime [] (.data chunk :: rest) =
      receiveLoop false later [] rest := by
  rcases idles_or_core nonempty with ⟨count, rfl⟩ | ⟨before, text, after, core, rfl⟩
  · exact ⟨firstTime, receiveLoop_idles rest count⟩
  · have silent : ∀ byte ∈ text, byte = idle ∨ byte = 0 := by
      intro byte member
      exact mute byte (List.mem_append_left _ (List.mem_append_right _ member))
    obtain ⟨⟨first, tail, split, other⟩, body, last, split', -⟩ := core.exists_ends
    have zero : first = 0 := (silent first (by simp [split])).resolve_left other
    have nothing : cText text = [] := by simp [cText, split, zero]
    have unfinished : text.getLast? ≠ some newline := by
      intro ends
      rcases silent newline (List.mem_of_getLast? ends) with same | same
      · exact newline_ne_idle same
      · revert same
        decide
    refine ⟨false, ?_⟩
    rw [receiveLoop_more rest core before after unfinished, nothing]
    rfl

theorem receiveLoop_traceless (backend : Backend) {reply : Str} (line : Line reply) {count : Nat}
    (later : List Str) (fits : ∀ chunk ∈ later, backend.Fits chunk) (firstTime : Bool)
    {front : Str} (mute : ∀ byte ∈ front, byte = idle ∨ byte = 0)
    (apart : front = [] ∨ backend.bufferSize < count + 2)
    (whole : later.flatten = front ++ (idles count ++ reply)) :
    (receiveLoop false firstTime [] (later.map .data)).1 = .reply reply := by
  induction later generalizing front firstTime with
  | nil =>
      have absurdEmpty := congrArg List.length whole
      have := List.length_pos_iff.mpr line.nonempty
      simp only [List.flatten_nil, List.length_nil, List.length_append] at absurdEmpty
      omega
  | cons chunk later ih =>
      by_cases empty : front = []
      · subst empty
        obtain ⟨rest, left, received, -⟩ := receiveLoop_line firstTime (fun _ => rfl) (chunk :: later)
          (fun piece member => (fits piece member).1) count 0 line (by simpa [idles] using whole)
        rw [received]
        rfl
      have narrow := apart.resolve_left empty
      have fitting := fits chunk (.head _)
      have fits' : ∀ chunk ∈ later, backend.Fits chunk :=
        fun piece member => fits piece (.tail _ member)
      rw [List.flatten_cons] at whole
      rcases List.append_eq_append_iff.mp whole with
        ⟨front', rfl, remaining⟩ | ⟨part, rfl, remaining⟩
      · -- The piece lies within the front.
        obtain ⟨first', skipped⟩ := receiveLoop_mute fitting.1
          (fun byte member => mute byte (List.mem_append_left _ member)) firstTime (later.map .data)
        rw [List.map_cons, skipped]
        exact ih fits' first' (fun byte member => mute byte (List.mem_append_right _ member))
          (Or.inr narrow) remaining
      · -- The piece reaches behind the front, but not through the idle characters after it.
        have short : part.length ≤ count := by
          have := List.length_pos_iff.mpr empty
          have := fitting.2
          rw [List.length_append] at this
          omega
        obtain ⟨back, idling, rest⟩ : ∃ back, idles count = part ++ back ∧
            later.flatten = back ++ reply := by
          rcases List.append_eq_append_iff.mp remaining with ⟨tail, rfl, rest⟩ | ⟨tail, split, rest⟩
          · rw [List.length_append, idles_length] at short
            obtain rfl : tail = [] := List.length_eq_zero_iff.mp (by omega)
            exact ⟨[], by simp, by simpa using rest.symm⟩
          · exact ⟨tail, split, rest⟩
        obtain ⟨partIdle, backIdle⟩ := idles_eq_append idling
        have silent : ∀ byte ∈ front ++ part, byte = idle ∨ byte = 0 := by
          intro byte member
          rcases List.mem_append.mp member with inside | behind
          · exact mute byte inside
          · rw [partIdle] at behind
            exact Or.inl (List.eq_of_mem_replicate behind)
        obtain ⟨first', skipped⟩ := receiveLoop_mute fitting.1 silent firstTime (later.map .data)
        obtain ⟨left, remainder, received, -⟩ := receiveLoop_line first' (fun _ => rfl) later
          (fun piece member => (fits' piece member).1) back.length 0 line
          (by rw [← backIdle, rest]; simp [idles])
        rw [List.map_cons, skipped, received]
        rfl

/-! ## A remainder that shows -/

/-- The pieces of one byte each. -/
def singly (text : Str) : List Str := text.map fun byte => [byte]

@[simp] theorem singly_flatten (text : Str) : (singly text).flatten = text := by
  induction text with
  | nil => rfl
  | cons byte text ih => rw [singly, List.map_cons, List.flatten_cons, ← singly, ih, List.singleton_append]

theorem singly_fits (backend : Backend) {text : Str} : ∀ chunk ∈ singly text, backend.Fits chunk := by
  intro chunk member
  obtain ⟨byte, -, rfl⟩ := List.mem_map.mp member
  refine ⟨List.cons_ne_nil byte [], ?_⟩
  cases backend <;> exact Nat.le_add_left 1 _

theorem core_singleton {byte : UInt8} (other : byte ≠ idle) : Core [byte] :=
  ⟨List.cons_ne_nil byte [], by simpa using other, by simpa using other⟩

/-- Read byte by byte, a text keeps all its bytes that are neither idle nor zero. -/
theorem receiveLoop_singly (firstTime : Bool) {rb : Str} (empty : firstTime → rb = []) {body : Str}
    (unbroken : newline ∉ body) :
    (receiveLoop false firstTime rb ((singly (body ++ [newline])).map .data)).1 =
      .reply (rb ++ body.filter (fun byte => byte ≠ idle ∧ byte ≠ 0) ++ [newline]) := by
  induction body generalizing firstTime rb with
  | nil =>
      have final := receiveLoop_final empty [] (core_singleton newline_ne_idle) 0 0 rfl
      simp only [idles, List.replicate_zero, List.nil_append, List.append_nil] at final
      simpa [singly, cText, newline] using congrArg Prod.fst final
  | cons byte body ih =>
      have unbroken' : newline ∉ body := fun member => unbroken (.tail _ member)
      have other : byte ≠ newline := by
        rintro rfl
        exact unbroken (.head _)
      have split : (singly (byte :: body ++ [newline])).map RecvResult.data =
          .data [byte] :: (singly (body ++ [newline])).map .data := rfl
      rw [split]
      by_cases idling : byte = idle
      · subst idling
        rw [show [idle] = idles (0 + 1) from rfl, receiveLoop_idles, ih firstTime empty unbroken']
        simp
      · have more := @receiveLoop_more firstTime rb ((singly (body ++ [newline])).map .data) _
          (core_singleton idling) 0 0 (by simpa using other)
        simp only [idles, List.replicate_zero, List.nil_append, List.append_nil] at more
        rw [more, ih false (by simp) unbroken']
        by_cases zero : byte = 0
        · simp [zero, cText]
        · simp [idling, zero, cText]

/-- Zeros and idle characters read byte by byte add nothing. -/
theorem receiveLoop_singly_mute {front : Str} (mute : ∀ byte ∈ front, byte = idle ∨ byte = 0)
    (firstTime : Bool) (rest : List RecvResult) :
    ∃ later, receiveLoop false firstTime [] ((singly front).map .data ++ rest) =
      receiveLoop false later [] rest := by
  induction front generalizing firstTime with
  | nil => exact ⟨firstTime, rfl⟩
  | cons byte front ih =>
      have first : ∀ other ∈ [byte], other = idle ∨ other = 0 := by
        intro other member
        exact mute other (List.mem_singleton.mp member ▸ .head _)
      obtain ⟨next, skipped⟩ := receiveLoop_mute (List.cons_ne_nil byte []) first firstTime
        ((singly front).map .data ++ rest)
      obtain ⟨later, remaining⟩ := ih (fun other member => mute other (.tail _ member)) next
      exact ⟨later, skipped.trans remaining⟩

/-- A zero that is read together with the first byte of the reply hides that byte. -/
theorem receiveLoop_hidden {front : Str} (mute : ∀ byte ∈ front, byte = idle ∨ byte = 0)
    (count : Nat) {first : UInt8} (other : first ≠ idle) {rest body : Str}
    (ends : first :: rest = body ++ [newline]) (unbroken : newline ∉ body) :
    (receiveLoop false true [] ((singly front).map .data ++
        .data (0 :: idles count ++ [first]) :: (singly rest).map .data)).1 ≠
      .reply (first :: rest) := by
  have core : Core (0 :: idles count ++ [first]) :=
    ⟨by simp, by simp [zero_ne_idle], by rw [List.getLast?_concat]; simpa using other⟩
  have nothing : cText (0 :: idles count ++ [first]) = [] := by simp [cText]
  obtain ⟨later, skipped⟩ := receiveLoop_singly_mute mute true
    (.data (0 :: idles count ++ [first]) :: (singly rest).map .data)
  rw [skipped]
  cases body with
  | nil =>
      obtain ⟨rfl, rfl⟩ := List.cons.inj ends
      have final := @receiveLoop_final later [] (fun _ => rfl) ((singly []).map .data) _ core 0 0
        (List.getLast?_concat ..)
      rw [show idles 0 = [] from rfl, List.nil_append, List.append_nil] at final
      rw [final, nothing]
      simp
  | cons byte body =>
      obtain rfl : first = byte := (List.cons.inj ends).1
      obtain rfl : rest = body ++ [newline] := (List.cons.inj ends).2
      have unfinished : (0 :: idles count ++ [first]).getLast? ≠ some newline := by
        rw [List.getLast?_concat]
        rintro same
        exact unbroken (by simp [Option.some.inj same])
      have more := @receiveLoop_more later [] ((singly (body ++ [newline])).map .data) _ core 0 0
        unfinished
      rw [show idles 0 = [] from rfl, List.nil_append, List.append_nil] at more
      rw [more, nothing, List.nil_append, receiveLoop_singly false (by simp) fun member => unbroken (.tail _ member)]
      intro same
      have lengths := congrArg List.length (Received.reply.inj same)
      have bound := List.length_filter_le (fun byte => decide (byte ≠ idle ∧ byte ≠ 0)) body
      simp only [List.nil_append, List.length_append, List.length_cons, List.length_nil] at lengths
      omega

namespace Backend

variable {backend : Backend} {left reply : Str}

/-- Bytes that can be seen, or a zero in the reply, show when all is read byte by
byte. -/
theorem receiveLoop_shows (unbroken : newline ∉ left)
    (ends : ∃ body, reply = body ++ [newline] ∧ newline ∉ body) (noIdle : idle ∉ reply)
    (shows : 0 ∈ reply ∨ ∃ byte ∈ left, byte ≠ idle ∧ byte ≠ 0) :
    (receiveLoop false true [] ((singly (left ++ reply)).map .data)).1 ≠ .reply reply := by
  obtain ⟨body, rfl, absent⟩ := ends
  have whole : newline ∉ left ++ body := by
    simp only [List.mem_append, unbroken, absent, or_self, not_false_eq_true]
  rw [← List.append_assoc, receiveLoop_singly true (fun _ => rfl) whole]
  intro same
  have kept := Received.reply.inj same
  rw [List.nil_append, List.append_cancel_right_eq, List.filter_append] at kept
  by_cases zero : 0 ∈ body
  · rw [← kept, ← List.filter_append] at zero
    simpa using (List.mem_filter.mp zero).2
  · have whole : body.filter (fun byte => decide (byte ≠ idle ∧ byte ≠ 0)) = body := by
      rw [List.filter_eq_self]
      intro byte member
      rw [decide_eq_true_eq]
      constructor
      · rintro rfl
        exact noIdle (List.mem_append_left _ member)
      · rintro rfl
        exact zero member
    rw [whole, List.append_left_eq_self, List.filter_eq_nil_iff] at kept
    rcases shows with inside | ⟨byte, member, visible⟩
    · exact zero (by simpa [newline] using inside)
    · exact kept byte member (decide_eq_true visible)

/-- A remainder that is not traceless, or a zero in the reply, shows in some cut. -/
theorem exists_cut_shows (unbroken : newline ∉ left)
    (ends : ∃ body, reply = body ++ [newline] ∧ newline ∉ body) (noIdle : idle ∉ reply)
    (shows : ¬ (0 ∉ reply ∧ backend.Traceless left)) :
    ∃ later : List Str, (∀ chunk ∈ later, backend.Fits chunk) ∧ later.flatten = left ++ reply ∧
      (receiveLoop false true [] (later.map .data)).1 ≠ .reply reply := by
  by_cases visible : 0 ∈ reply ∨ ∃ byte ∈ left, byte ≠ idle ∧ byte ≠ 0
  · exact ⟨singly (left ++ reply), singly_fits backend, singly_flatten _,
      receiveLoop_shows unbroken ends noIdle visible⟩
  rw [not_or] at visible
  obtain ⟨nonzero, hidden⟩ := visible
  have mute : ∀ byte ∈ left, byte = idle ∨ byte = 0 := by
    intro byte member
    by_contra neither
    exact hidden ⟨byte, member, not_or.mp neither⟩
  have traced : ¬ backend.Traceless left := fun traceless => shows ⟨nonzero, traceless⟩
  by_cases empty : left = []
  · exact absurd ⟨[], 0, empty, by simp, Or.inl rfl⟩ traced
  rcases idles_or_core empty with ⟨count, rfl⟩ | ⟨before, text, after, core, rfl⟩
  · exact absurd ⟨[], count + 1, by simp, by simp, Or.inl rfl⟩ traced
  · -- The last byte that is not idle is a zero; it is read with the reply's first byte.
    obtain ⟨-, body, last, rfl, other⟩ := core.exists_ends
    obtain rfl : last = 0 := (mute last (by simp)).resolve_left other
    have split : idles before ++ (body ++ [0]) ++ idles after =
        (idles before ++ body) ++ 0 :: idles after := by simp
    have near : after + 2 ≤ backend.bufferSize := by
      by_contra far
      exact traced ⟨idles before ++ (body ++ [0]), after, rfl,
        fun byte member => mute byte (List.mem_append_left _ member), Or.inr (by omega)⟩
    obtain ⟨words, rfl, absent⟩ := ends
    obtain ⟨first, rest, shape⟩ := List.exists_cons_of_ne_nil
      (List.append_ne_nil_of_right_ne_nil words (List.cons_ne_nil newline []))
    refine ⟨singly (idles before ++ body) ++ (0 :: idles after ++ [first]) :: singly rest, ?_, ?_, ?_⟩
    · intro chunk member
      rcases List.mem_append.mp member with inside | behind
      · exact singly_fits backend chunk inside
      rcases List.mem_cons.mp behind with rfl | inside
      · refine ⟨by simp, ?_⟩
        simp only [List.length_cons, List.length_append, idles_length, List.length_nil]
        omega
      · exact singly_fits backend chunk inside
    · rw [split, shape]
      simp
    · rw [List.map_append, List.map_cons, shape]
      refine receiveLoop_hidden ?_ after ?_ shape.symm absent
      · intro byte member
        apply mute byte
        rw [split]
        exact List.mem_append_left _ member
      · rintro rfl
        apply noIdle
        rw [shape]
        exact .head _

/-- The connection is in step after the handshake exactly when what is left of the
prompt leaves no trace and the reply has no zero byte, or when the prompt is idle
characters only and the handshake still waits. -/
theorem inStep_iff (backend : Backend) (sockfd : Int) (connected : backend.socketOpen sockfd)
    (prompt : Str) (unbroken : newline ∉ prompt) (cut : List Str)
    (fits : ∀ chunk ∈ cut, backend.Fits chunk) (whole : cut.flatten = prompt) (reply : Str)
    (ends : ∃ body, reply = body ++ [newline] ∧ newline ∉ body) (noIdle : idle ∉ reply) :
    backend.InStep sockfd cut reply ↔
      (∀ byte ∈ prompt, byte = idle) ∨
        (0 ∉ reply ∧ backend.Traceless (leftUnread cut).flatten) := by
  have handshake := receiveLoop_prompt cut fun chunk member => (fits chunk member).1
  have kept : ∀ text, backend.socketAfter sockfd (.reply text) = sockfd := by
    intro text
    cases backend <;> rfl
  have received : ∀ later : List Str, (backend.doRecv sockfd false (later.map .data)).1 =
      (receiveLoop false true [] (later.map .data)).1 := by
    intro later
    rw [doRecv, if_pos connected]
  simp only [InStep, received]
  rw [doRecv, if_pos connected]
  rw [whole] at handshake
  by_cases idling : ∀ byte ∈ prompt, byte = idle
  · refine iff_of_true ?_ (Or.inl idling)
    intro text rest answered
    rw [handshake.1 idling] at answered
    cases answered
  obtain ⟨text, handshake⟩ := handshake.2 idling
  rw [handshake]
  constructor
  · intro inStep
    refine Or.inr ?_
    by_contra shows
    have remains : newline ∉ (leftUnread cut).flatten := by
      rw [← whole] at unbroken
      intro member
      obtain ⟨chunk, among, inside⟩ := List.mem_flatten.mp member
      exact unbroken (List.mem_flatten.mpr ⟨chunk, leftUnread_subset cut among, inside⟩)
    obtain ⟨later, fits', whole', wrong⟩ := exists_cut_shows remains ends noIdle shows
    exact wrong (inStep text (leftUnread cut) (by simp only [kept]) later fits' whole')
  · rintro (all | ⟨nonzero, front, count, split, mute, apart⟩) text' rest answered later fits' whole'
    · exact absurd all idling
    · have same : rest = leftUnread cut := by
        have third := congrArg (fun triple => triple.2.2) answered
        exact (List.map_injective_iff.mpr (fun _ _ => RecvResult.data.inj) third).symm
      have line : Line reply := ⟨ends, nonzero, noIdle⟩
      rw [same, split, List.append_assoc] at whole'
      exact receiveLoop_traceless backend line later fits' true mute apart whole'

/-- The prompt comes in one piece, with idle characters behind it. -/
theorem inStep_one_piece :
    simple.InStep 5 [bytes "opencog> ", idles 2] (bytes "()\n") ↔
      (∀ byte ∈ bytes "opencog> " ++ idles 2, byte = idle) ∨
        (0 ∉ bytes "()\n" ∧ simple.Traceless (leftUnread [bytes "opencog> ", idles 2]).flatten) :=
  inStep_iff simple 5 rfl (bytes "opencog> " ++ idles 2) (by decide)
    [bytes "opencog> ", idles 2]
    (by intro chunk member; fin_cases member <;> exact ⟨by decide, by decide⟩) rfl (bytes "()\n")
    ⟨bytes "()", rfl, by decide⟩ (by decide)

/-- The prompt comes in two pieces: the second is returned in front of the reply. -/
theorem inStep_two_pieces :
    ¬ ∀ (backend : Backend) (prompt : Str) (cut : List Str) (reply : Str), prompt ≠ [] →
      newline ∉ prompt → (∀ chunk ∈ cut, backend.Fits chunk) → cut.flatten = prompt →
        Line reply → backend.InStep 5 cut reply := by
  intro always
  have inStep := always channel (bytes "opencog> ") [bytes "open", bytes "cog> "] (bytes "()\n")
    (by decide) (by decide)
    (by intro chunk member; fin_cases member <;> exact ⟨by decide, by decide⟩) rfl
    ⟨⟨bytes "()", rfl, by decide⟩, by decide, by decide⟩
  have read := inStep (bytes "open") [bytes "cog> "] (by decide +kernel)
    [bytes "cog> ()\n"] (by intro chunk member; fin_cases member; exact ⟨by decide, by decide⟩) rfl
  revert read
  decide +kernel

end Backend

end AtomSpaceCog
