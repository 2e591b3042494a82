import AtomSpaceCog.Sexpr.Atomese
import AtomSpaceCog.Foundation.Text

/-! # A plain notation

A library of four types of Atoms and two kinds of Values, written and read as the
AtomSpace does: `(Concept "name")`, `(List (Concept "a")(Concept "b"))` and
`(StringValue "text")`, quotes and backslashes being escaped. Its readers undo its
writers (`plain_inverts`).
-/

namespace AtomSpaceCog

namespace Plain

/-- The types of the Atoms. -/
inductive Kind where
  | concept
  | predicate
  | list
  | edge
deriving DecidableEq

/-- The name of a type. -/
def Kind.name : Kind → Str
  | concept => bytes "Concept"
  | predicate => bytes "Predicate"
  | list => bytes "List"
  | edge => bytes "Edge"

/-- An Atom as a Value, or a string. -/
inductive Value where
  | atom (atom : Atom Kind)
  | string (text : Str)

/-- A name between its quotes. -/
def escape : Str → Str
  | [] => []
  | byte :: text =>
      if byte = 34 ∨ byte = 92 then 92 :: byte :: escape text else byte :: escape text

mutual

/-- Write an Atom. -/
def encode : Atom Kind → Str
  | .node type name => 40 :: type.name ++ 32 :: 34 :: escape name ++ [34, 41]
  | .link type outgoing => 40 :: type.name ++ 32 :: encodeList outgoing ++ [41]

/-- Write the Atoms of an outgoing set. -/
def encodeList : List (Atom Kind) → Str
  | [] => []
  | atom :: atoms => encode atom ++ encodeList atoms

end

/-- Write a Value. -/
def encodeValue : Option Value → Str
  | some (.atom atom) => encode atom
  | some (.string text) => bytes "(StringValue \"" ++ escape text ++ [34, 41]
  | none => bytes "#f"

/-- Write the keys and values on an Atom. -/
def encodePairs (pairs : List (Atom Kind × Value)) : Str :=
  40 :: pairs.flatMap (fun pair => 40 :: encode pair.1 ++ bytes " . " ++
    encodeValue (some pair.2) ++ [41]) ++ [41]

/-- The offset of the parenthesis that closes `depth` open ones. -/
def scan : Str → Nat → Bool → Option Nat
  | [], _, _ => none
  | 92 :: _ :: text, depth, true => (scan text depth true).map (· + 2)
  | 34 :: text, depth, quoted => (scan text depth (!quoted)).map (· + 1)
  | 40 :: text, depth, false => (scan text (depth + 1) false).map (· + 1)
  | 41 :: text, depth, false =>
      if depth ≤ 1 then some 0 else (scan text (depth - 1) false).map (· + 1)
  | _ :: text, depth, quoted => (scan text depth quoted).map (· + 1)

/-- Bracket the next expression; what is not closed is reported as open. -/
def getNextExpr (text : Str) (l r : Nat) : Option (Int × Nat × Nat) :=
  if l = r then some (0, l, r)
  else
    match text.drop l with
    | 40 :: rest =>
        match scan rest 1 false with
        | some offset => some (0, l, l + 1 + offset)
        | none => some (1, l, r)
    | _ => none

/-- Read a name up to the closing quote. -/
def readName : Str → Option (Str × Str)
  | [] => none
  | 34 :: rest => some ([], rest)
  | 92 :: byte :: rest => (readName rest).map fun read => (byte :: read.1, read.2)
  | byte :: rest => (readName rest).map fun read => (byte :: read.1, read.2)

/-- Read an opening parenthesis and the name of a type. -/
def readKind (text : Str) : Option (Kind × Str) :=
  ([.concept, .predicate, .list, .edge].find? fun type : Kind =>
    (40 :: type.name ++ [32]).isPrefixOf text).map
      fun type => (type, text.drop (type.name.length + 2))

mutual

/-- Read an Atom, and what follows it. -/
def parse : Nat → Str → Option (Atom Kind × Str)
  | 0, _ => none
  | fuel + 1, text =>
      match readKind text with
      | none => none
      | some (type, 34 :: rest) =>
          match readName rest with
          | some (name, 41 :: rest) => some (.node type name, rest)
          | _ => none
      | some (type, rest) =>
          match parseList fuel rest with
          | some (outgoing, 41 :: rest) => some (.link type outgoing, rest)
          | _ => none

/-- Read the Atoms of an outgoing set. -/
def parseList : Nat → Str → Option (List (Atom Kind) × Str)
  | 0, _ => none
  | fuel + 1, 40 :: text =>
      match parse fuel (40 :: text) with
      | none => none
      | some (atom, rest) =>
          (parseList fuel rest).map fun read => (atom :: read.1, read.2)
  | _ + 1, text => some ([], text)

end

/-- Read the Atom that starts at a position. -/
def decodeAtom (text : Str) (pos : Nat) : Option (Atom Kind × Nat) :=
  (parse (text.length + 1) (text.drop pos)).map fun read => (read.1, text.length - read.2.length)

/-- Read the Value that starts at a position. -/
def decodeValue (text : Str) (pos : Nat) : Option (Option Value × Nat) :=
  if (bytes "#f").isPrefixOf (text.drop pos) then some (none, pos + 2)
  else if (bytes "(StringValue \"").isPrefixOf (text.drop pos) then
    match readName (text.drop (pos + 14)) with
    | some (name, 41 :: rest) => some (some (.string name), text.length - rest.length)
    | _ => none
  else (decodeAtom text pos).map fun read => (some (.atom read.1), read.2)

end Plain

/-- The library with this notation. -/
def plain : Sexpr where
  AtomType := Plain.Kind
  Value := Plain.Value
  FidMap := Unit
  getTypeName := Plain.Kind.name
  encodeAtom := Plain.encode
  encodeValue := Plain.encodeValue
  encodeAtomValues := Plain.encodePairs
  getNextExpr := Plain.getNextExpr
  decodeAtomIn := fun fidMap text l r =>
    (Plain.decodeAtom (substr text l (r + 1 - l)) 0).map fun read => (read.1, fidMap)
  decodeAtom := Plain.decodeAtom
  decodeValue := Plain.decodeValue
  atomsIn
    | .atom atom => [atom]
    | .string _ => []

namespace Plain

/-- Bytes that open, close or quote nothing. -/
def Quiet (text : Str) : Prop := ∀ byte ∈ text, byte ≠ 34 ∧ byte ≠ 40 ∧ byte ≠ 41

instance (text : Str) : Decidable (Quiet text) :=
  List.decidableBAll (fun byte => byte ≠ 34 ∧ byte ≠ 40 ∧ byte ≠ 41) text

theorem Kind.name_quiet (type : Kind) : Quiet type.name := by
  cases type <;> decide

theorem map_add_add (offset : Option Nat) (first second : Nat) :
    (offset.map (· + first)).map (· + second) = offset.map (· + (first + second)) := by
  simp [Option.map_map, Function.comp_def, Nat.add_assoc]

theorem scan_other {byte : UInt8} (quiet : byte ≠ 34 ∧ byte ≠ 40 ∧ byte ≠ 41) (text : Str)
    (depth : Nat) : scan (byte :: text) depth false = (scan text depth false).map (· + 1) := by
  rw [scan.eq_def]
  split <;> simp_all

theorem scan_quoted {byte : UInt8} (ordinary : byte ≠ 34 ∧ byte ≠ 92) (text : Str)
    (depth : Nat) : scan (byte :: text) depth true = (scan text depth true).map (· + 1) := by
  rw [scan.eq_def]
  split <;> simp_all

theorem scan_blank (text : Str) (depth : Nat) :
    scan (32 :: text) depth false = (scan text depth false).map (· + 1) :=
  scan_other (by decide) text depth

theorem scan_quiet {text : Str} (quiet : Quiet text) (rest : Str) (depth : Nat) :
    scan (text ++ rest) depth false = (scan rest depth false).map (· + text.length) := by
  induction text with
  | nil => simp
  | cons byte text ih =>
      have later := ih fun other member => quiet other (List.mem_cons_of_mem _ member)
      rw [List.cons_append, scan_other (quiet byte List.mem_cons_self), later, map_add_add,
        List.length_cons]

/-- An escaped name is passed over up to its quote. -/
theorem scan_escape (name rest : Str) (depth : Nat) :
    scan (escape name ++ 34 :: rest) depth true =
      (scan rest depth false).map (· + ((escape name).length + 1)) := by
  induction name with
  | nil => simp [escape, scan]
  | cons byte name ih =>
      by_cases special : byte = 34 ∨ byte = 92
      · simp only [escape, if_pos special, List.cons_append, scan, ih, map_add_add,
          List.length_cons]
      · rw [escape, if_neg special, List.cons_append, scan_quoted (not_or.mp special), ih,
          map_add_add, List.length_cons]

/-- What stands between the parentheses of an Atom. -/
def body : Atom Kind → Str
  | .node type name => type.name ++ 32 :: 34 :: escape name ++ [34]
  | .link type outgoing => type.name ++ 32 :: encodeList outgoing

theorem encode_eq (atom : Atom Kind) : encode atom = 40 :: body atom ++ [41] := by
  cases atom <;> simp [encode, body]

mutual

/-- What stands between parentheses is passed over. -/
theorem scan_body (rest : Str) (depth : Nat) : (atom : Atom Kind) →
    scan (body atom ++ rest) (depth + 1) false =
      (scan rest (depth + 1) false).map (· + (body atom).length)
  | .node type name => by
      simp only [body, List.cons_append, List.append_assoc, List.nil_append]
      rw [scan_quiet type.name_quiet, scan_blank, scan, Bool.not_false, scan_escape, map_add_add,
        map_add_add, map_add_add]
      simp only [List.length_cons, List.length_append, List.length_nil]
      congr 2
      funext offset
      omega
  | .link type outgoing => by
      simp only [body, List.cons_append, List.append_assoc]
      rw [scan_quiet type.name_quiet, scan_blank, scan_encodeList rest depth outgoing, map_add_add,
        map_add_add]
      simp only [List.length_cons, List.length_append]
      congr 2
      funext offset
      omega

theorem scan_encodeList (rest : Str) (depth : Nat) : (atoms : List (Atom Kind)) →
    scan (encodeList atoms ++ rest) (depth + 1) false =
      (scan rest (depth + 1) false).map (· + (encodeList atoms).length)
  | [] => by simp [encodeList]
  | atom :: atoms => by
      simp only [encodeList, encode_eq, List.cons_append, List.append_assoc, List.nil_append]
      rw [scan, scan_body _ (depth + 1) atom, scan, if_neg (by omega), Nat.add_sub_cancel,
        scan_encodeList rest depth atoms, map_add_add, map_add_add, map_add_add]
      simp only [List.length_cons, List.length_append]
      congr 2
      funext offset
      omega

end

theorem getNextExpr_encode (front : Str) (atom : Atom Kind) (back : Str) {finish : Nat}
    (inside : front.length + (encode atom).length ≤ finish) :
    getNextExpr (front ++ encode atom ++ back) front.length finish =
      some (0, front.length, front.length + (encode atom).length - 1) := by
  have length : (encode atom).length = (body atom).length + 2 := by simp [encode_eq]
  have closed : scan (body atom ++ 41 :: back) 1 false = some (body atom).length := by
    rw [scan_body _ 0 atom]
    simp [scan]
  unfold getNextExpr
  rw [if_neg (by omega), List.append_assoc, List.drop_left]
  simp only [encode_eq, List.cons_append, List.append_assoc, List.nil_append, closed,
    Option.some.injEq, Prod.mk.injEq, true_and, List.length_cons, List.length_append,
    List.length_nil]
  omega

/-- A name is read up to its quote. -/
theorem readName_escape (name rest : Str) :
    readName (escape name ++ 34 :: rest) = some (name, rest) := by
  induction name with
  | nil => simp [escape, readName]
  | cons byte name ih =>
      by_cases special : byte = 34 ∨ byte = 92
      · simp only [escape, if_pos special, List.cons_append, readName, ih, Option.map_some]
      · rw [escape, if_neg special, List.cons_append, readName.eq_def]
        split <;> simp_all

theorem readKind_name (type : Kind) (rest : Str) :
    readKind (40 :: type.name ++ 32 :: rest) = some (type, rest) := by
  cases type <;> rfl

/-- The text of an outgoing set does not start as a name does. -/
theorem encodeList_head (atoms : List (Atom Kind)) (rest : Str) :
    ∃ byte tail, encodeList atoms ++ 41 :: rest = byte :: tail ∧ byte ≠ 34 := by
  cases atoms with
  | nil => exact ⟨41, rest, rfl, by decide⟩
  | cons atom atoms =>
      rw [encodeList, encode_eq]
      exact ⟨40, _, rfl, by decide⟩

mutual

/-- An Atom that was written is read. -/
theorem parse_encode (rest : Str) : (fuel : Nat) → (atom : Atom Kind) →
    (encode atom).length ≤ fuel → parse fuel (encode atom ++ rest) = some (atom, rest)
  | 0, atom, enough => by
      rw [encode_eq, List.cons_append, List.length_cons] at enough
      omega
  | fuel + 1, .node type name, _ => by
      have text : encode (.node type name) ++ rest =
          40 :: type.name ++ 32 :: 34 :: (escape name ++ 34 :: 41 :: rest) := by simp [encode]
      rw [text, parse, readKind_name]
      simp only [readName_escape]
  | fuel + 1, .link type outgoing, enough => by
      have text : encode (.link type outgoing) ++ rest =
          40 :: type.name ++ 32 :: (encodeList outgoing ++ 41 :: rest) := by simp [encode]
      have fits : (encodeList outgoing).length < fuel := by
        simp only [encode, List.cons_append, List.length_cons, List.length_append] at enough
        omega
      have inner := parseList_encodeList rest fuel outgoing fits
      obtain ⟨byte, tail, starts, other⟩ := encodeList_head outgoing rest
      rw [text, parse, readKind_name]
      rw [starts] at inner ⊢
      split
      · next same => cases same
      · next same =>
          cases same
          exact absurd rfl other
      · next same =>
          cases same
          simp only [inner]

theorem parseList_encodeList (rest : Str) : (fuel : Nat) → (atoms : List (Atom Kind)) →
    (encodeList atoms).length < fuel →
      parseList fuel (encodeList atoms ++ 41 :: rest) = some (atoms, 41 :: rest)
  | 0, _, enough => by omega
  | fuel + 1, [], _ => by simp [encodeList, parseList]
  | fuel + 1, atom :: atoms, enough => by
      rw [encodeList, List.length_append] at enough
      have positive : (encode atom).length = (body atom).length + 2 := by simp [encode_eq]
      have first := parse_encode (encodeList atoms ++ 41 :: rest) fuel atom (by omega)
      have others := parseList_encodeList rest fuel atoms (by omega)
      rw [encodeList, List.append_assoc]
      rw [encode_eq] at first ⊢
      simp only [List.cons_append, parseList] at first ⊢
      rw [first]
      simp only [others, Option.map_some]

end

theorem decodeAtom_encode (front : Str) (atom : Atom Kind) (back : Str) :
    decodeAtom (front ++ encode atom ++ back) front.length =
      some (atom, front.length + (encode atom).length) := by
  unfold decodeAtom
  rw [List.append_assoc, List.drop_left,
    parse_encode back _ atom (by simp only [List.length_append]; omega)]
  simp only [Option.map_some, Option.some.injEq, Prod.mk.injEq, true_and, List.length_append]
  omega

theorem decodeValue_encodeValue (front : Str) (value : Value) (back : Str) :
    decodeValue (front ++ encodeValue (some value) ++ back) front.length =
      some (some value, front.length + (encodeValue (some value)).length) := by
  unfold decodeValue
  cases value with
  | atom atom =>
      have notNull : (bytes "#f").isPrefixOf (encode atom ++ back) = false := by
        cases atom <;> rfl
      have notString : (bytes "(StringValue \"").isPrefixOf (encode atom ++ back) = false := by
        cases atom with
        | node type name => cases type <;> rfl
        | link type outgoing => cases type <;> rfl
      have decoded := decodeAtom_encode front atom back
      simp only [encodeValue, List.append_assoc] at decoded ⊢
      rw [List.drop_left, if_neg (by simp [notNull]), if_neg (by simp [notString]), decoded]
      rfl
  | string text =>
      have opens : (front ++ encodeValue (some (.string text)) ++ back).drop front.length =
          bytes "(StringValue \"" ++ (escape text ++ 34 :: 41 :: back) := by
        simp [encodeValue]
      have notNull : ∀ rest, (bytes "#f").isPrefixOf (bytes "(StringValue \"" ++ rest) = false :=
        fun _ => rfl
      have isString : ∀ rest,
          (bytes "(StringValue \"").isPrefixOf (bytes "(StringValue \"" ++ rest) = true :=
        fun rest => List.isPrefixOf_iff_prefix.mpr (List.prefix_append _ rest)
      have inner : (front ++ encodeValue (some (.string text)) ++ back).drop (front.length + 14) =
          escape text ++ 34 :: 41 :: back := by
        rw [← List.drop_drop, opens]
        rfl
      rw [opens, if_neg (by rw [notNull]; decide), if_pos (isString _), inner, readName_escape]
      simp only [Option.some.injEq, Prod.mk.injEq, true_and, List.length_append]
      simp only [encodeValue, List.length_append, List.length_cons, List.length_nil]
      omega

/-- A bracketed Atom is read. -/
theorem decodeAtom_substr (front : Str) (atom : Atom Kind) (back : Str) :
    decodeAtom (substr (front ++ encode atom ++ back) front.length
      (front.length + (encode atom).length - 1 + 1 - front.length)) 0 =
        some (atom, (encode atom).length) := by
  have length : front.length + (encode atom).length - 1 + 1 - front.length =
      (encode atom).length := by
    rw [encode_eq, List.length_append]
    simp only [List.length_cons]
    omega
  have decoded := decodeAtom_encode [] atom []
  simp only [List.nil_append, List.append_nil, List.length_nil, Nat.zero_add] at decoded
  rw [length, substr_append, decoded]

/-- The readers undo the writers. -/
theorem plain_inverts : plain.Inverts where
  opens atom := ⟨_, encode_eq atom⟩
  nextExpr front atom back _ inside := getNextExpr_encode front atom back inside
  nextExprEnd text pos := by simp [plain, getNextExpr]
  atomIn fidMap front atom back :=
    congrArg (Option.map fun read : Atom Kind × Nat => (read.1, fidMap))
      (decodeAtom_substr front atom back)
  atom := decodeAtom_encode
  value := decodeValue_encodeValue

end Plain

end AtomSpaceCog
