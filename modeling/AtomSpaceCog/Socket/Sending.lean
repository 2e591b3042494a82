import AtomSpaceCog.Socket.Receive

/-! # Sending messages

`do_send` of both backends calls `send` once and takes any count that is not
negative for success. The bytes behind a short count are dropped and the next
message follows what was sent of this one (`Backend.sendAll_whole_iff`).
-/

namespace AtomSpaceCog

/-- What one call of `send` gives. -/
inductive SendResult where
  /-- The number of bytes taken. -/
  | sent (count : Nat)
  /-- A negative count. -/
  | error
deriving Repr, DecidableEq

/-- The results that a stream socket may give for a text: it takes at least one
byte, and no more than there are. Of the empty text it takes nothing. -/
def SendResult.Possible (str : Str) : SendResult → Prop
  | .sent count => count ≤ str.length ∧ (str ≠ [] → 0 < count)
  | .error => True

/-- Why a call of `do_send` throws. -/
inductive SendFailure where
  /-- `CogSimpleStorage` is not connected. -/
  | notConnected
  /-- The channel has no socket yet and cannot open one. -/
  | notOpened
  /-- `send` failed. -/
  | failed
deriving Repr, DecidableEq

namespace Backend

/-- The descriptor that a message is sent on. The channel opens a socket at the
first message of a thread; `openSock` is what `open_sock` gives then. -/
def sendSocket (openSock : Except SendFailure Int) : Backend → Int → Except SendFailure Int
  | channel, sockfd => if sockfd = 0 then openSock else .ok sockfd
  | simple, sockfd => if 0 < sockfd then .ok sockfd else .error .notConnected

/-- `do_send(str)`: the descriptor it leaves and the bytes handed to the server. -/
def doSend (openSock : Except SendFailure Int) (backend : Backend) (sockfd : Int) (str : Str)
    (result : SendResult) : Except SendFailure (Int × Str) := do
  let sockfd ← backend.sendSocket openSock sockfd
  match result with
  | .sent count => .ok (sockfd, str.take count)
  | .error => .error .failed

/-- Messages sent one after the other, each with the result of its `send`: the
descriptor at the end and all the bytes handed to the server. -/
def sendAll (openSock : Except SendFailure Int) (backend : Backend) :
    Int → List (Str × SendResult) → Except SendFailure (Int × Str)
  | sockfd, [] => .ok (sockfd, [])
  | sockfd, (str, result) :: turns => do
      let (sockfd, bytes) ← doSend openSock backend sockfd str result
      let (sockfd, later) ← sendAll openSock backend sockfd turns
      .ok (sockfd, bytes ++ later)

end Backend

/-- What a message whose `send` does not fail puts on the socket. -/
def taken : Str × SendResult → Str
  | (str, .sent count) => str.take count
  | (_, .error) => []

/-- The message was taken from its first to its last byte. -/
def Whole (turn : Str × SendResult) : Prop :=
  turn.2 = .sent turn.1.length

theorem taken_length_le (turn : Str × SendResult) : (taken turn).length ≤ turn.1.length := by
  obtain ⟨str, count | _⟩ := turn
  · rw [taken]
    exact List.length_take_le' count str
  · exact Nat.zero_le _

theorem taken_eq_iff {turn : Str × SendResult} (possible : turn.2.Possible turn.1)
    (accepted : turn.2 ≠ .error) : (taken turn).length = turn.1.length ↔ Whole turn := by
  obtain ⟨str, count | _⟩ := turn
  · have bound := possible.1
    rw [taken, List.length_take_of_le bound, Whole, SendResult.sent.injEq]
  · exact absurd rfl accepted

theorem Whole.taken_eq {turn : Str × SendResult} (whole : Whole turn) : taken turn = turn.1 := by
  obtain ⟨str, result⟩ := turn
  obtain rfl : result = .sent str.length := whole
  exact List.take_length

/-- The bytes taken of a run of messages are all their bytes exactly when every
message was taken whole: a dropped byte is never made up for. -/
theorem flatMap_taken_eq_iff (turns : List (Str × SendResult))
    (possible : ∀ turn ∈ turns, turn.2.Possible turn.1) (accepted : ∀ turn ∈ turns, turn.2 ≠ .error) :
    turns.flatMap taken = (turns.map Prod.fst).flatten ↔ ∀ turn ∈ turns, Whole turn := by
  have shorter : ∀ turns : List (Str × SendResult),
      (turns.flatMap taken).length ≤ ((turns.map Prod.fst).flatten).length := by
    intro turns
    induction turns with
    | nil => exact Nat.le_refl _
    | cons turn turns ih =>
        have := taken_length_le turn
        simp only [List.flatMap_cons, List.map_cons, List.flatten_cons, List.length_append]
        omega
  induction turns with
  | nil => exact iff_of_true rfl (by simp)
  | cons turn turns ih =>
      have later := ih (fun turn member => possible turn (.tail _ member))
        fun turn member => accepted turn (.tail _ member)
      rw [List.flatMap_cons, List.map_cons, List.flatten_cons, List.forall_mem_cons]
      constructor
      · intro same
        have total := congrArg List.length same
        have here := taken_length_le turn
        have rest := shorter turns
        simp only [List.length_append] at total
        have full : (taken turn).length = turn.1.length := by omega
        have split := List.append_inj same full
        exact ⟨(taken_eq_iff (possible turn (.head _)) (accepted turn (.head _))).mp full,
          later.mp split.2⟩
      · intro both
        rw [both.1.taken_eq, later.mpr both.2]

namespace Backend

/-- A socket that is open is the one that messages are sent on. -/
theorem sendSocket_open (openSock : Except SendFailure Int) {backend : Backend} {sockfd : Int}
    (connected : backend.socketOpen sockfd) : backend.sendSocket openSock sockfd = .ok sockfd := by
  cases backend with
  | channel => exact if_neg (by simpa [socketOpen] using connected)
  | simple => exact if_pos (by simpa [socketOpen] using connected)

/-- A run of messages on one socket throws exactly when a `send` fails, and hands
over what each `send` took. -/
theorem sendAll_eq (openSock : Except SendFailure Int) {backend : Backend} {sockfd : Int}
    (connected : backend.socketOpen sockfd) (turns : List (Str × SendResult)) :
    backend.sendAll openSock sockfd turns =
      if ∃ turn ∈ turns, turn.2 = .error then .error .failed
      else .ok (sockfd, turns.flatMap taken) := by
  have opened := sendSocket_open openSock connected
  induction turns with
  | nil => rfl
  | cons turn turns ih =>
      obtain ⟨str, count | _⟩ := turn
      · simp only [sendAll, doSend, opened, bind, Except.bind, ih, List.mem_cons, exists_eq_or_imp,
          reduceCtorEq, false_or, List.flatMap_cons, taken]
        by_cases failing : ∃ turn ∈ turns, turn.2 = .error
        · rw [if_pos failing, if_pos failing]
        · rw [if_neg failing, if_neg failing]
      · simp only [sendAll, doSend, opened, bind, Except.bind, List.mem_cons, exists_eq_or_imp,
          true_or, ↓reduceIte]

/-- As long as no call throws the server is handed the messages whole and in
order, exactly when a `send` fails or every `send` takes its whole message. -/
theorem sendAll_whole_iff (openSock : Except SendFailure Int) (backend : Backend) (sockfd : Int)
    (connected : backend.socketOpen sockfd) (turns : List (Str × SendResult))
    (possible : ∀ turn ∈ turns, turn.2.Possible turn.1) :
    (∀ sockfd' delivered, backend.sendAll openSock sockfd turns = .ok (sockfd', delivered) →
        delivered = (turns.map Prod.fst).flatten) ↔
      (∃ turn ∈ turns, turn.2 = .error) ∨ ∀ turn ∈ turns, turn.2 = .sent turn.1.length := by
  rw [sendAll_eq openSock connected]
  by_cases failing : ∃ turn ∈ turns, turn.2 = .error
  · rw [if_pos failing]
    refine iff_of_true ?_ (Or.inl failing)
    intro sockfd' delivered sent
    cases sent
  · rw [if_neg failing]
    have accepted : ∀ turn ∈ turns, turn.2 ≠ .error :=
      fun turn member error => failing ⟨turn, member, error⟩
    have whole := flatMap_taken_eq_iff turns possible accepted
    constructor
    · intro delivers
      exact Or.inr (whole.mp (delivers sockfd _ rfl))
    · rintro (error | complete) sockfd' delivered sent
      · exact absurd error failing
      · cases sent
        exact whole.mpr complete

/-- `send` takes four bytes of the first message: the rest of it is dropped and the
second message follows the four bytes. -/
theorem sendAll_short :
    ¬ ∀ (backend : Backend) (turns : List (Str × SendResult)),
      (∀ turn ∈ turns, turn.2.Possible turn.1) → ∀ sockfd' delivered,
        backend.sendAll (.error .notOpened) 5 turns = .ok (sockfd', delivered) →
          delivered = (turns.map Prod.fst).flatten := by
  intro always
  have short := always simple [(bytes "(cog-barrier)\n", .sent 4), (bytes "()\n", .sent 3)] (by
    intro turn member
    simp only [List.mem_cons, List.not_mem_nil, or_false] at member
    rcases member with rfl | rfl <;> exact ⟨by decide, by decide⟩) 5 (bytes "(cog()\n") rfl
  revert short
  decide

/-- Two messages taken whole. -/
theorem sendAll_whole_two :
    (∀ sockfd' delivered,
      channel.sendAll (.error .notOpened) 5
          [(bytes "(cog-barrier)\n", .sent 14), (bytes "()\n", .sent 3)] = .ok (sockfd', delivered) →
        delivered = ([bytes "(cog-barrier)\n", bytes "()\n"]).flatten) ↔
      (∃ turn ∈ [(bytes "(cog-barrier)\n", SendResult.sent 14), (bytes "()\n", .sent 3)],
        turn.2 = .error) ∨
      ∀ turn ∈ [(bytes "(cog-barrier)\n", SendResult.sent 14), (bytes "()\n", .sent 3)],
        turn.2 = .sent turn.1.length :=
  sendAll_whole_iff (.error .notOpened) channel 5 rfl
    [(bytes "(cog-barrier)\n", .sent 14), (bytes "()\n", .sent 3)] (by
      intro turn member
      simp only [List.mem_cons, List.not_mem_nil, or_false] at member
      rcases member with rfl | rfl <;> exact ⟨by decide, by decide⟩)

end Backend

end AtomSpaceCog
