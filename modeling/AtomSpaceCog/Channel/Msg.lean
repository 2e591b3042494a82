import AtomSpaceCog.Foundation.Bytes

/-! # Messages and their order

`CogChannel<Client, Data>::Msg` and the comparison by which the message buffer
tells its elements apart. The constructor is meant to number the updates; the
numbering compares 19 bytes with an 18-byte literal, so it only ever applies to the
literal itself (`Msg.make_sequence`).
-/

namespace AtomSpaceCog

/-- What a channel is instantiated with: the client, its member functions that can
serve as handlers, and the packets they are given. -/
structure Signature where
  Client : Type
  Callback : Type
  Data : Type
  /-- `Data()` -/
  dummy : Data

variable {sig : Signature}

/-- `CogChannel::Msg` -/
structure Msg (sig : Signature) where
  client : Option sig.Client
  callback : Option sig.Callback
  sequence : UInt64
  /-- If true, skip `do_recv()`. -/
  noreply : Bool
  strToSend : Str
  data : sig.Data

/-- `0 == str.compare(pos, len, other)` -/
def compareEq (str : Str) (pos len : Nat) (other : Str) : Bool :=
  (str.drop pos).take len = other

/-- The literal that the constructor looks for. -/
def updatePrefix : Str := bytes "(cog-update-value!"

namespace Msg

/-- The constructor, with the static `_sequence_counter` before and after it. -/
def make (counter : UInt64) (client : Option sig.Client) (callback : Option sig.Callback)
    (noreply : Bool) (str : Str) (data : sig.Data) : Msg sig × UInt64 :=
  if compareEq str 0 19 updatePrefix then
    (⟨client, callback, counter + 1, noreply, str, data⟩, counter + 1)
  else
    (⟨client, callback, 0, noreply, str, data⟩, counter)

/-- `Msg::operator<` -/
def Less (msg other : Msg sig) : Prop :=
  if msg.sequence = 0 ∧ other.sequence = 0 then msg.strToSend < other.strToSend
  else msg.sequence > other.sequence

instance (msg other : Msg sig) : Decidable (msg.Less other) := by
  unfold Less
  infer_instance

/-- Equivalence under `operator<`: what an ordered set takes for the same element. -/
def Equivalent (msg other : Msg sig) : Prop := ¬ msg.Less other ∧ ¬ other.Less msg

instance (msg other : Msg sig) : Decidable (msg.Equivalent other) := by
  unfold Equivalent
  infer_instance

theorem equivalent_iff {msg other : Msg sig} :
    msg.Equivalent other ↔
      msg.sequence = other.sequence ∧
        (msg.sequence = 0 → msg.strToSend = other.strToSend) := by
  unfold Equivalent Less
  by_cases both : msg.sequence = 0 ∧ other.sequence = 0
  · rw [if_pos both, if_pos both.symm, both.1, both.2]
    constructor
    · rintro ⟨first, second⟩
      exact ⟨rfl, fun _ => List.le_antisymm (List.not_lt.mp second) (List.not_lt.mp first)⟩
    · rintro ⟨-, same⟩
      rw [same rfl]
      exact ⟨List.lt_irrefl _, List.lt_irrefl _⟩
  · rw [if_neg both, if_neg (fun swapped => both swapped.symm)]
    constructor
    · rintro ⟨first, second⟩
      have same : msg.sequence = other.sequence :=
        UInt64.le_antisymm (UInt64.not_lt.mp first) (UInt64.not_lt.mp second)
      exact ⟨same, fun zero => absurd ⟨zero, same ▸ zero⟩ both⟩
    · rintro ⟨same, -⟩
      rw [same]
      exact ⟨UInt64.lt_irrefl _, UInt64.lt_irrefl _⟩

/-- The texts are compared where both numbers are zero, and else the numbers, the largest
first. -/
theorem less_iff {msg other : Msg sig} :
    msg.Less other ↔ (msg.sequence = 0 ∧ other.sequence = 0 ∧ msg.strToSend < other.strToSend) ∨
      other.sequence < msg.sequence := by
  unfold Less
  by_cases both : msg.sequence = 0 ∧ other.sequence = 0
  · rw [if_pos both, both.1, both.2]
    constructor
    · intro less
      exact Or.inl ⟨rfl, rfl, less⟩
    · intro cases
      rcases cases with ⟨-, -, less⟩ | less
      · exact less
      · exact absurd less (UInt64.lt_irrefl 0)
  · rw [if_neg both]
    constructor
    · exact Or.inr
    · intro cases
      rcases cases with ⟨first, second, -⟩ | less
      · exact absurd ⟨first, second⟩ both
      · exact less

theorem Less.irrefl (msg : Msg sig) : ¬ msg.Less msg := by
  rw [less_iff]
  intro cases
  rcases cases with ⟨-, -, less⟩ | less
  · exact List.lt_irrefl _ less
  · exact UInt64.lt_irrefl _ less

theorem Less.trans {first second third : Msg sig} (less : first.Less second)
    (next : second.Less third) : first.Less third := by
  rw [less_iff] at less next ⊢
  rcases less with ⟨firstZero, secondZero, texts⟩ | greater
  · rcases next with ⟨-, thirdZero, further⟩ | greater
    · exact Or.inl ⟨firstZero, thirdZero, List.lt_trans texts further⟩
    · -- nothing is numbered below zero
      rw [secondZero] at greater
      exact absurd greater UInt64.not_lt_zero
  · rcases next with ⟨secondZero, thirdZero, -⟩ | further
    · rw [secondZero] at greater
      rw [thirdZero]
      exact Or.inr greater
    · exact Or.inr (UInt64.lt_trans further greater)

/-- `operator<` is a strict weak ordering. Messages are equivalent if their texts are equal and
neither is numbered, or if their numbers are equal; and the numbered ones come first. -/
theorem less_strictWeak :
    (∀ msg : Msg sig, ¬ msg.Less msg) ∧
      (∀ first second third : Msg sig, first.Less second → second.Less third → first.Less third) ∧
      (∀ first second third : Msg sig, first.Equivalent second → second.Equivalent third →
        first.Equivalent third) ∧
      (∀ msg other : Msg sig, msg.Equivalent other ↔
        (msg.sequence = 0 ∧ other.sequence = 0 ∧ msg.strToSend = other.strToSend) ∨
          msg.sequence = other.sequence ∧ msg.sequence ≠ 0) ∧
      ∀ msg other : Msg sig, msg.sequence ≠ 0 → other.sequence = 0 → msg.Less other := by
  refine ⟨Less.irrefl, fun _ _ _ => Less.trans, ?_, ?_, ?_⟩
  · intro first second third same further
    rw [equivalent_iff] at same further ⊢
    refine ⟨same.1.trans further.1, fun zero => ?_⟩
    exact (same.2 zero).trans (further.2 (same.1 ▸ zero))
  · intro msg other
    rw [equivalent_iff]
    constructor
    · intro both
      obtain ⟨same, texts⟩ := both
      by_cases zero : msg.sequence = 0
      · exact Or.inl ⟨zero, same ▸ zero, texts zero⟩
      · exact Or.inr ⟨same, zero⟩
    · intro cases
      rcases cases with ⟨zero, otherZero, texts⟩ | ⟨same, numbered⟩
      · exact ⟨zero.trans otherZero.symm, fun _ => texts⟩
      · exact ⟨same, fun zero => absurd zero numbered⟩
  · intro msg other numbered zero
    rw [less_iff, zero]
    exact Or.inr (UInt64.pos_iff_ne_zero.mpr numbered)

/-- Nineteen bytes of a text are the eighteen of the literal only if the text is
the literal. -/
theorem compareEq_updatePrefix {str : Str} :
    compareEq str 0 19 updatePrefix = true ↔ str = updatePrefix := by
  simp only [compareEq, List.drop_zero, decide_eq_true_eq]
  constructor
  · intro same
    have length := congrArg List.length same
    rw [List.length_take, show updatePrefix.length = 18 from rfl] at length
    rwa [List.take_of_length_le (by omega)] at same
  · rintro rfl
    rfl

variable {counter : UInt64} {client : Option sig.Client} {callback : Option sig.Callback}
  {noreply : Bool} {str : Str} {data : sig.Data}

@[simp] theorem make_strToSend :
    (make counter client callback noreply str data).1.strToSend = str := by
  unfold make
  split <;> rfl

@[simp] theorem make_noreply :
    (make counter client callback noreply str data).1.noreply = noreply := by
  unfold make
  split <;> rfl

@[simp] theorem make_client :
    (make counter client callback noreply str data).1.client = client := by
  unfold make
  split <;> rfl

@[simp] theorem make_callback :
    (make counter client callback noreply str data).1.callback = callback := by
  unfold make
  split <;> rfl

@[simp] theorem make_data :
    (make counter client callback noreply str data).1.data = data := by
  unfold make
  split <;> rfl

/-- Only the bare literal is ever numbered. -/
theorem make_sequence (other : str ≠ updatePrefix) :
    (make counter client callback noreply str data).1.sequence = 0 := by
  unfold make
  rw [if_neg (fun same => other (compareEq_updatePrefix.mp same))]

/-- A message as the constructor makes them: numbered only if it is the bare
literal. -/
def WellMade (msg : Msg sig) : Prop := msg.strToSend ≠ updatePrefix → msg.sequence = 0

theorem make_wellMade : (make counter client callback noreply str data).1.WellMade := by
  intro other
  rw [make_strToSend] at other
  exact make_sequence other

/-- The messages send the same text. -/
def SameText (msg other : Msg sig) : Prop := msg.strToSend = other.strToSend

theorem SameText.refl (msg : Msg sig) : msg.SameText msg := rfl

/-- Equivalent messages have the same text. -/
theorem Equivalent.strToSend_eq {msg other : Msg sig} (equivalent : msg.Equivalent other)
    (made : msg.WellMade) (otherMade : other.WellMade) : msg.SameText other := by
  obtain ⟨same, text⟩ := equivalent_iff.mp equivalent
  by_cases zero : msg.sequence = 0
  · exact text zero
  · have first : msg.strToSend = updatePrefix := by
      by_contra different
      exact zero (made different)
    have second : other.strToSend = updatePrefix := by
      by_contra different
      exact zero (same.trans (otherMade different))
    exact first.trans second.symm

/-- A text other than the bare literal is told apart by the text alone. -/
theorem equivalent_of_strToSend_eq {msg other : Msg sig} (made : msg.WellMade)
    (otherMade : other.WellMade) (different : msg.strToSend ≠ updatePrefix)
    (same : msg.strToSend = other.strToSend) : msg.Equivalent other := by
  rw [equivalent_iff, made different, otherMade (same ▸ different)]
  exact ⟨rfl, fun _ => same⟩

end Msg

/-- The arguments of `enqueue` or of `enqueue_noreply`. -/
inductive Request (sig : Signature) where
  | enqueue (client : sig.Client) (msg : Str) (data : sig.Data) (handler : sig.Callback)
  | enqueueNoreply (msg : Str)

namespace Request

/-- The text that is sent for the request. -/
def text : Request sig → Str
  | enqueue _ msg _ _ => msg
  | enqueueNoreply msg => msg

/-- The message block that is put into the buffer, with the static counter before
and after. -/
def toMsg (counter : UInt64) : Request sig → Msg sig × UInt64
  | enqueue client msg data handler => Msg.make counter (some client) (some handler) false msg data
  | enqueueNoreply msg => Msg.make counter none none true msg sig.dummy

@[simp] theorem toMsg_strToSend (counter : UInt64) (request : Request sig) :
    (request.toMsg counter).1.strToSend = request.text := by
  cases request <;> exact Msg.make_strToSend

theorem toMsg_wellMade (counter : UInt64) (request : Request sig) :
    (request.toMsg counter).1.WellMade := by
  cases request <;> exact Msg.make_wellMade

end Request

end AtomSpaceCog
