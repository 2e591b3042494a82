import AtomSpaceCog.Sexpr.Plain

/-! # Readers that pass over blanks

The plain notation with readers that pass over blanks, tabs and newlines before an
expression and accept an expression exactly as it is written.
-/

namespace AtomSpaceCog

namespace Spaced

/-- The blanks at a position. -/
def blanksAt (text : Str) (pos : Nat) : Str :=
  (text.drop pos).takeWhile fun byte => byte ∈ bytes " \n\t"

/-- Read an expression after blanks, if it stands there as it is written. -/
def reread {Item : Type} (read : Str → Nat → Option (Item × Nat)) (write : Item → Str) (text : Str)
    (pos : Nat) : Option (Item × Nat) :=
  let start := pos + (blanksAt text pos).length
  (read text start).bind fun found =>
    if (write found.1).isPrefixOf (text.drop start) ∧ write found.1 ≠ [] then
      some (found.1, start + (write found.1).length)
    else none

/-- Bracket the next expression after blanks; at the end, `l` becomes `r`. -/
def getNextExpr (text : Str) (l r : Nat) : Option (Int × Nat × Nat) :=
  let start := l + (blanksAt text l).length
  if r ≤ start then some (0, r, r) else Plain.getNextExpr text start r

end Spaced

/-- The plain notation with these readers. -/
def spaced : Sexpr where
  __ := plain
  getNextExpr := Spaced.getNextExpr
  decodeAtom := Spaced.reread Plain.decodeAtom Plain.encode
  decodeValue := Spaced.reread Plain.decodeValue Plain.encodeValue

namespace Spaced

/-- What the plain notation writes for an Atom. -/
def WritesAtom (expr : Str) (atom : spaced.Content) : Prop := expr = Plain.encode atom

/-- What the plain notation writes for a Value. -/
def WritesValue (expr : Str) (value : Option spaced.Value) : Prop :=
  expr = Plain.encodeValue value

theorem blank_blanksAt (text : Str) (pos : Nat) : Blank (blanksAt text pos) := by
  intro byte member
  simpa using List.mem_takeWhile_imp member

/-- The blanks before an expression. -/
theorem blanksAt_append {byte : UInt8} (visible : byte ∉ bytes " \n\t") {blanks : Str}
    (blank : Blank blanks) (front back : Str) :
    blanksAt (front ++ blanks ++ byte :: back) front.length = blanks := by
  unfold blanksAt
  rw [List.append_assoc, List.drop_left,
    List.takeWhile_append_of_pos fun byte member => by simpa using blank byte member]
  simp [visible]

/-- All the blanks that come next are passed over. -/
theorem length_le_blanksAt {blanks : Str} (blank : Blank blanks) (front back : Str) :
    blanks.length ≤ (blanksAt (front ++ blanks ++ back) front.length).length := by
  unfold blanksAt
  rw [List.append_assoc, List.drop_left,
    List.takeWhile_append_of_pos (fun byte member => by simpa using blank byte member),
    List.length_append]
  exact Nat.le_add_right _ _

theorem getNextExpr_blank {gap : Str} (blank : Blank gap) (front back : Str) :
    getNextExpr (front ++ gap ++ back) front.length (front ++ gap).length =
      some (0, (front ++ gap).length, (front ++ gap).length) := by
  have passed := length_le_blanksAt blank front back
  apply if_pos
  rw [List.length_append]
  omega

theorem getNextExpr_encode {gap : Str} (blank : Blank gap) (front : Str) (atom : Atom Plain.Kind)
    (tail back : Str) :
    getNextExpr (front ++ gap ++ Plain.encode atom ++ tail ++ back) front.length
        (front ++ gap ++ Plain.encode atom ++ tail).length =
      some (0, (front ++ gap).length, (front ++ gap ++ Plain.encode atom).length - 1) := by
  have skipped : blanksAt (front ++ gap ++ Plain.encode atom ++ tail ++ back) front.length = gap := by
    rw [Plain.encode_eq]
    simpa using blanksAt_append (by decide : (40 : UInt8) ∉ bytes " \n\t") blank front
      (Plain.body atom ++ 41 :: (tail ++ back))
  have long : 0 < (Plain.encode atom).length := by
    rw [Plain.encode_eq]
    exact Nat.succ_pos _
  have inside : (front ++ gap).length + (Plain.encode atom).length ≤
      (front ++ gap ++ Plain.encode atom ++ tail).length := by
    simp only [List.length_append]
    omega
  have bounds := Plain.getNextExpr_encode (front ++ gap) atom (tail ++ back) inside
  rw [← List.append_assoc, ← List.length_append] at bounds
  unfold getNextExpr
  rw [skipped, ← List.length_append]
  exact (if_neg (by omega)).trans bounds

variable {Item : Type} {read : Str → Nat → Option (Item × Nat)} {write : Item → Str}

/-- What was read stands in the text, after blanks. -/
theorem reread_eq_some {text : Str} {pos next : Nat} {item : Item}
    (found : reread read write text pos = some (item, next)) :
    ∃ blanks back, text.drop pos = blanks ++ write item ++ back ∧ Blank blanks ∧
      write item ≠ [] ∧ next = pos + blanks.length + (write item).length := by
  obtain ⟨⟨read, stop⟩, _, accepted⟩ := Option.bind_eq_some_iff.mp found
  dsimp only at accepted
  split at accepted
  · next conditions =>
      cases accepted
      obtain ⟨back, written⟩ := List.isPrefixOf_iff_prefix.mp conditions.1
      have split : text.drop pos = blanksAt text pos ++ text.drop (pos + (blanksAt text pos).length) := by
        rw [← List.drop_drop]
        exact (List.prefix_iff_eq_append.mp (List.takeWhile_prefix _)).symm
      refine ⟨blanksAt text pos, back, ?_, blank_blanksAt text pos, conditions.2, rfl⟩
      rw [split, ← written, List.append_assoc]
  · cases accepted

/-- What was read is a part of the text after the position. -/
theorem reread_advances {text : Str} {pos next : Nat} {item : Item}
    (found : reread read write text pos = some (item, next)) : pos < next ∧ next ≤ text.length := by
  obtain ⟨blanks, back, split, _, nonempty, rfl⟩ := reread_eq_some found
  have positive := List.length_pos_iff.mpr nonempty
  have lengths := congrArg List.length split
  simp only [List.length_drop, List.length_append] at lengths
  omega

/-- What is written is read. -/
theorem reread_write {item : Item} {front back : Str}
    (decoded : read (front ++ write item ++ back) front.length =
      some (item, front.length + (write item).length))
    {byte : UInt8} {rest : Str} (starts : write item = byte :: rest)
    (visible : byte ∉ bytes " \n\t") :
    reread read write (front ++ write item ++ back) front.length =
      some (item, front.length + (write item).length) := by
  have skipped : blanksAt (front ++ write item ++ back) front.length = [] := by
    rw [starts]
    simpa using blanksAt_append visible (by decide : Blank []) front (rest ++ back)
  unfold reread
  dsimp only
  rw [skipped, List.length_nil, Nat.add_zero, decoded, Option.bind_some, List.append_assoc,
    List.drop_left,
    if_pos ⟨List.isPrefixOf_iff_prefix.mpr (List.prefix_append _ _), by simp [starts]⟩]

end Spaced

end AtomSpaceCog
