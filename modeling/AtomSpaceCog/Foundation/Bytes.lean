import Mathlib.Data.List.Basic
import Mathlib.Data.List.TakeWhile

/-! # Byte strings

Strings are lists of bytes, as `std::string` is; a C string read out of a buffer
ends at its first zero byte.
-/

namespace AtomSpaceCog

/-- A string of bytes. -/
abbrev Str := List UInt8

/-- The bytes of an ASCII literal. -/
def bytes (text : String) : Str := text.toList.map fun char => char.toNat.toUInt8

/-- The byte that ends every message. -/
def newline : UInt8 := 10

/-- The synchronous idle character. -/
def idle : UInt8 := 0x16

/-- The part of a text that is read when it is taken for a C string. -/
def cText (text : Str) : Str := text.takeWhile (· ≠ 0)

/-- The C string that starts at position `start` of a buffer. -/
def cString (buffer : Str) (start : Nat) : Str := cText (buffer.drop start)

theorem newline_ne_idle : newline ≠ idle := by decide

theorem zero_ne_idle : (0 : UInt8) ≠ idle := by decide

theorem cText_length_le (text : Str) : (cText text).length ≤ text.length :=
  (List.takeWhile_prefix _).length_le

/-- Reading a text as a C string keeps it exactly when it holds no zero byte. -/
theorem cText_eq_self {text : Str} : cText text = text ↔ 0 ∉ text := by
  rw [cText, List.takeWhile_eq_self_iff]
  constructor
  · intro nonzero member
    simpa using nonzero 0 member
  · intro absent byte member
    simp only [ne_eq, decide_not, Bool.not_eq_eq_eq_not, Bool.not_true, decide_eq_false_iff_not]
    rintro rfl
    exact absent member

/-- A C string ends at the first zero written after its text. -/
theorem cString_append_zero (front text back : Str) :
    cString (front ++ text ++ 0 :: back) front.length = cText text := by
  unfold cString cText
  rw [List.append_assoc, List.drop_left]
  induction text with
  | nil => simp
  | cons byte text ih =>
      rw [List.cons_append, List.takeWhile_cons, List.takeWhile_cons, ih]

end AtomSpaceCog
