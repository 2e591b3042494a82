import AtomSpaceCog.Foundation.Bytes
import Mathlib.Algebra.GroupWithZero.Nat

/-! # Searching in strings

The `std::string` operations that the decoders use. A search that fails gives `none`,
which is `npos`, the largest `size_t`; adding to it wraps (`past`).
-/

namespace AtomSpaceCog

/-- `std::string::npos` -/
def npos : Nat := 2 ^ 64 - 1

/-- The position `count` bytes past the one found. -/
def past (found : Option Nat) (count : Nat) : Nat :=
  match found with
  | some pos => pos + count
  | none => (npos + count) % 2 ^ 64

/-- The first position from `pos` on whose byte satisfies the test. -/
def findBy (text : Str) (test : UInt8 → Bool) (pos : Nat) : Option Nat :=
  ((text.drop pos).findIdx? test).map (pos + ·)

/-- `text.find(byte, pos)` -/
def find (text : Str) (byte : UInt8) (pos : Nat) : Option Nat := findBy text (· = byte) pos

/-- `text.find_first_not_of(blanks, pos)` -/
def findFirstNotOf (text blanks : Str) (pos : Nat) : Option Nat :=
  findBy text (fun byte => byte ∉ blanks) pos

/-- `text.rfind(byte)` -/
def rfind (text : Str) (byte : UInt8) : Option Nat :=
  (text.reverse.findIdx? (· = byte)).map (text.length - 1 - ·)

/-- The offset of the first occurrence of a part. -/
def offsetOf (part : Str) : Str → Option Nat
  | [] => if part = [] then some 0 else none
  | byte :: text =>
      if part.isPrefixOf (byte :: text) then some 0 else (offsetOf part text).map (· + 1)

/-- `text.find(part, pos)` for a part of several bytes -/
def findText (text part : Str) (pos : Nat) : Option Nat :=
  (offsetOf part (text.drop pos)).map (pos + ·)

/-- `text.substr(pos, count)` -/
def substr (text : Str) (pos count : Nat) : Str := (text.drop pos).take count

/-- Blanks, tabs and newlines. -/
def Blank (text : Str) : Prop := ∀ byte ∈ text, byte ∈ bytes " \n\t"

instance (text : Str) : Decidable (Blank text) :=
  List.decidableBAll (· ∈ bytes " \n\t") text

/-- A search goes forward, and stays inside of the text. -/
theorem findBy_bounds {text : Str} {test : UInt8 → Bool} {pos found : Nat}
    (here : findBy text test pos = some found) : pos ≤ found ∧ found < text.length := by
  obtain ⟨offset, index, rfl⟩ := Option.map_eq_some_iff.mp here
  obtain ⟨inside, _⟩ := List.findIdx?_eq_some_iff_getElem.mp index
  rw [List.length_drop] at inside
  omega

theorem findText_le {text part : Str} {pos found : Nat}
    (here : findText text part pos = some found) : pos ≤ found := by
  obtain ⟨offset, _, rfl⟩ := Option.map_eq_some_iff.mp here
  exact Nat.le_add_right pos offset

/-- A byte that comes next is found at once. -/
theorem findBy_append {test : UInt8 → Bool} {byte : UInt8} (passes : test byte = true)
    (front back : Str) : findBy (front ++ byte :: back) test front.length = some front.length := by
  simp [findBy, List.findIdx?_cons, passes]

/-- A part that comes next is found at once. -/
theorem findText_append (front part back : Str) :
    findText (front ++ part ++ back) part front.length = some front.length := by
  have starts : part.isPrefixOf (part ++ back) = true :=
    List.isPrefixOf_iff_prefix.mpr (List.prefix_append part back)
  have found : offsetOf part (part ++ back) = some 0 := by
    cases whole : part ++ back with
    | nil => simp [offsetOf, (List.append_eq_nil_iff.mp whole).1]
    | cons byte rest =>
        rw [whole] at starts
        simp [offsetOf, starts]
  simp [findText, List.append_assoc, found]

/-- A byte is not found after its last occurrence. -/
theorem find_none {byte : UInt8} (front : Str) {back : Str} (absent : byte ∉ back) :
    find (front ++ back) byte front.length = none := by
  simp only [find, findBy, List.drop_left, Option.map_eq_none_iff, List.findIdx?_eq_none_iff]
  intro other member
  simp only [decide_eq_false_iff_not]
  rintro rfl
  exact absent member

/-- Bytes that fail the test are passed over. -/
theorem findBy_skip {test : UInt8 → Bool} (front : Str) {middle : Str}
    (fails : ∀ byte ∈ middle, test byte = false) (back : Str) :
    findBy (front ++ middle ++ back) test front.length =
      findBy (front ++ middle ++ back) test (front ++ middle).length := by
  simp only [findBy, List.append_assoc, List.drop_left, List.length_append]
  rw [← List.append_assoc, ← List.length_append, List.drop_left, List.findIdx?_append,
    List.findIdx?_eq_none_iff.mpr fails]
  simp only [Option.none_or, Option.map_map, List.length_append]
  congr 1
  funext offset
  simp only [Function.comp]
  omega

/-- Bytes that are passed over do not change what is found. -/
theorem find_append {byte : UInt8} (front : Str) {middle : Str} (absent : byte ∉ middle)
    (back : Str) :
    find (front ++ middle ++ back) byte front.length =
      find (front ++ middle ++ back) byte (front ++ middle).length := by
  apply findBy_skip
  intro other member
  simp only [decide_eq_false_iff_not]
  rintro rfl
  exact absent member

/-- The first byte that is no blank. -/
theorem findFirstNotOf_append {blanks lead : Str} (blank : ∀ byte ∈ lead, byte ∈ blanks)
    {byte : UInt8} (visible : byte ∉ blanks) (back : Str) :
    findFirstNotOf (lead ++ byte :: back) blanks 0 = some lead.length := by
  have fails : ∀ other ∈ lead, (fun byte => decide (byte ∉ blanks)) other = false := by
    simpa using blank
  have skipped := findBy_skip [] fails (byte :: back)
  exact skipped.trans (findBy_append (by simpa using visible) lead back)

theorem findFirstNotOf_none {blanks text : Str} (blank : ∀ byte ∈ text, byte ∈ blanks) :
    findFirstNotOf text blanks 0 = none := by
  simpa [findFirstNotOf, findBy, List.findIdx?_eq_none_iff] using blank

/-- The last occurrence of a byte. -/
theorem rfind_append {byte : UInt8} (front : Str) {back : Str} (absent : byte ∉ back) :
    rfind (front ++ byte :: back) byte = some front.length := by
  have skipped : ∀ other ∈ back.reverse, decide (other = byte) = false := by
    intro other member
    simp only [decide_eq_false_iff_not]
    rintro rfl
    exact absent (List.mem_reverse.mp member)
  unfold rfind
  rw [List.reverse_append, List.reverse_cons, List.append_assoc, List.findIdx?_append,
    List.findIdx?_eq_none_iff.mpr skipped]
  simp [List.findIdx?_cons]

theorem substr_append (front part back : Str) :
    substr (front ++ part ++ back) front.length part.length = part := by
  simp [substr]

end AtomSpaceCog
