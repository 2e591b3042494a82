import AtomSpaceCog.Slots.Machine
import AtomSpaceCog.Socket.Receive

/-! # Host and port of a URI

Both backends cut the host out of `cog://host:port/name` up to the first colon or
slash behind the scheme, and look for the port behind the first colon from the
end of the host on. Nothing stops that search at the slash, so a colon in the
name of the AtomSpace is taken for the one before a port (`address_iff`).
-/

namespace AtomSpaceCog.Slots

def scheme : Str := bytes "cog://"

/-- `URIX_LEN` -/
def urixLen : Nat := 6

/-- `DEFAULT_COGSERVER_PORT` -/
def defaultPort : Str := bytes "17001"

def colon : UInt8 := 58

def slash : UInt8 := 47

def questionMark : UInt8 := 63

/-- `slash = text.find_first_of(delimiters); if (npos != slash) text = text.substr(0, slash);` -/
def upTo (text delimiters : Str) : Str :=
  match findBy text (· ∈ delimiters) 0 with
  | some pos => substr text 0 pos
  | none => text

/-- `CogSimpleStorage::init`: `_uri`, or nothing where it throws, which it does for
every argument of the URI. -/
def simpleInit (uri : Str) : Option Str :=
  if scheme.isPrefixOf uri then
    match find uri questionMark 0 with
    | some _ => none
    | none => some uri
  else none

/-- The variable `host` of `CogSimpleStorage::open`, which is made from a C string. -/
def simpleHostOf (uri : Str) : Str := upTo (cText (uri.drop urixLen)) [colon, slash]

/-- The port that stands behind a host. -/
def portBehind (uri host : Str) : Str :=
  match find uri colon (urixLen + host.length) with
  | some pos => upTo (uri.drop (pos + 1)) [slash]
  | none => defaultPort

/-- The host and the port that are given to `getaddrinfo`, or nothing where the
URI is refused. -/
def address : Backend → Str → Option (Str × Str)
  | .channel, uri => if scheme.isPrefixOf uri then some (hostOf uri, portOf uri) else none
  | .simple, uri => do
      let stored ← simpleInit uri
      some (simpleHostOf stored, portBehind stored (simpleHostOf stored))

/-- The documented form of a URI: a host, a port and the name of an AtomSpace, the
last two of which may be missing. -/
structure Uri where
  host : Str
  port : Option Str
  name : Option Str

namespace Uri

def portPart (uri : Uri) : Str :=
  match uri.port with
  | some port => colon :: port
  | none => []

def namePart (uri : Uri) : Str :=
  match uri.name with
  | some name => slash :: name
  | none => []

/-- The text of a URI. -/
def text (uri : Uri) : Str := scheme ++ uri.host ++ (uri.portPart ++ uri.namePart)

/-- The parts hold no delimiter that would end them. -/
structure WellFormed (uri : Uri) : Prop where
  host : ∀ byte ∈ uri.host, byte ∉ [colon, slash, questionMark]
  port : ∀ port, uri.port = some port → ∀ byte ∈ port, 48 ≤ byte ∧ byte ≤ 57
  name : ∀ name, uri.name = some name → questionMark ∉ name

/-- What follows the first colon of the name would be the default port. -/
def NameHarmless (uri : Uri) : Prop :=
  ∀ before after, uri.name = some (before ++ colon :: after) → colon ∉ before →
    after = defaultPort ∨ defaultPort ++ [slash] <+: after

end Uri

/-! ## Cutting a text at a delimiter -/

theorem upTo_eq_takeWhile (text delimiters : Str) :
    upTo text delimiters = text.takeWhile fun byte => byte ∉ delimiters := by
  induction text with
  | nil => rfl
  | cons byte text ih =>
      by_cases ends : byte ∈ delimiters
      · simp [upTo, findBy, List.findIdx?_cons, ends, substr]
      · rw [List.takeWhile_cons_of_pos (by simpa using ends), ← ih]
        simp only [upTo, findBy, List.drop_zero, List.findIdx?_cons, ends, decide_false,
          Bool.false_eq_true, ↓reduceIte, Nat.zero_add]
        cases text.findIdx? fun byte => decide (byte ∈ delimiters) with
        | none => rfl
        | some pos => simp [substr]

theorem upTo_append {front delimiters : Str} (plain : ∀ byte ∈ front, byte ∉ delimiters)
    (back : Str) : upTo (front ++ back) delimiters = front ++ upTo back delimiters := by
  rw [upTo_eq_takeWhile, upTo_eq_takeWhile]
  exact List.takeWhile_append_of_pos (by simpa using plain)

theorem upTo_cons {byte : UInt8} {delimiters : Str} (ends : byte ∈ delimiters) (back : Str) :
    upTo (byte :: back) delimiters = [] := by
  rw [upTo_eq_takeWhile]
  exact List.takeWhile_cons_of_neg (by simpa using ends)

/-- A text without the delimiter is not cut. -/
theorem upTo_plain {text delimiters : Str} (plain : ∀ byte ∈ text, byte ∉ delimiters) :
    upTo text delimiters = text := by
  rw [upTo_eq_takeWhile, List.takeWhile_eq_self_iff]
  simpa using plain

/-- A text is cut to one without a slash when it is that text, or that text and
then a slash. -/
theorem upTo_slash_iff {front : Str} (plain : slash ∉ front) (text : Str) :
    upTo text [slash] = front ↔ text = front ∨ front ++ [slash] <+: text := by
  have passes : ∀ part : Str, slash ∉ part → ∀ byte ∈ part, byte ∉ [slash] := by
    intro part absent byte member same
    rw [List.mem_singleton.mp same] at member
    exact absent member
  constructor
  · intro cut
    by_cases inside : slash ∈ text
    · obtain ⟨before, after, rfl, absent⟩ := List.eq_append_cons_of_mem inside
      rw [upTo_append (passes before absent), upTo_cons (List.mem_singleton_self slash),
        List.append_nil] at cut
      exact Or.inr ⟨after, by rw [← cut, List.append_assoc, List.singleton_append]⟩
    · rw [upTo_plain (passes text inside)] at cut
      exact Or.inl cut
  · rintro (rfl | ⟨back, rfl⟩)
    · exact upTo_plain (passes text plain)
    · rw [List.append_assoc, upTo_append (passes front plain), List.singleton_append,
        upTo_cons (List.mem_singleton_self slash), List.append_nil]

namespace Uri

variable {uri : Uri}

/-- What follows the host starts with a delimiter of the host. -/
theorem upTo_rest (uri : Uri) : upTo (uri.portPart ++ uri.namePart) [colon, slash] = [] := by
  obtain ⟨host, _ | port, _ | name⟩ := uri
  · rfl
  · exact upTo_cons (by simp) name
  · exact upTo_cons (by simp) _
  · exact upTo_cons (by simp) _

theorem WellFormed.host_passes (wellFormed : uri.WellFormed) :
    ∀ byte ∈ uri.host, byte ∉ [colon, slash] := by
  intro byte member delimiter
  apply wellFormed.host byte member
  simp only [List.mem_cons, List.not_mem_nil, or_false] at delimiter ⊢
  tauto

theorem WellFormed.slash_notMem_port (wellFormed : uri.WellFormed) {port : Str}
    (given : uri.port = some port) : slash ∉ port := by
  intro member
  have digit := (wellFormed.port port given slash member).1
  revert digit
  decide

theorem WellFormed.question_notMem (wellFormed : uri.WellFormed) : questionMark ∉ uri.text := by
  simp only [text, List.mem_append, not_or]
  refine ⟨⟨by decide, fun member => wellFormed.host _ member (by simp)⟩, ?_, ?_⟩
  · unfold portPart
    cases given : uri.port with
    | none => exact List.not_mem_nil
    | some port =>
        intro member
        rcases List.mem_cons.mp member with same | inside
        · revert same
          decide
        · have digit := (wellFormed.port port given _ inside).2
          revert digit
          decide
  · unfold namePart
    cases given : uri.name with
    | none => exact List.not_mem_nil
    | some name =>
        intro member
        rcases List.mem_cons.mp member with same | inside
        · revert same
          decide
        · exact wellFormed.name name given inside

end Uri

/-! ## The port -/

theorem urixLen_add (host : Str) : urixLen + host.length = (scheme ++ host).length := by
  rw [List.length_append]
  rfl

/-- The first colon behind the host is found. -/
theorem portBehind_colon (host : Str) {before : Str} (absent : colon ∉ before) (after : Str) :
    portBehind (scheme ++ host ++ (before ++ colon :: after)) host = upTo after [slash] := by
  have skipped := find_append (scheme ++ host) absent (colon :: after)
  have here : find (scheme ++ host ++ before ++ colon :: after) colon
      (scheme ++ host ++ before).length = some (scheme ++ host ++ before).length :=
    findBy_append (by simp) _ after
  rw [here] at skipped
  rw [portBehind, urixLen_add, ← List.append_assoc, skipped]
  simp only [List.drop_append, Nat.add_sub_cancel_left, List.drop_succ_cons, List.drop_zero,
    List.drop_eq_nil_of_le (Nat.le_succ _), List.nil_append]

theorem portBehind_plain (host : Str) {rest : Str} (absent : colon ∉ rest) :
    portBehind (scheme ++ host ++ rest) host = defaultPort := by
  rw [portBehind, urixLen_add, find_none _ absent]

namespace Uri

variable {uri : Uri}

/-- A port that is given is found, whatever the name is. -/
theorem WellFormed.portBehind_given (wellFormed : uri.WellFormed) {port : Str}
    (given : uri.port = some port) : portBehind uri.text uri.host = port := by
  have found := portBehind_colon uri.host (List.not_mem_nil (a := colon)) (port ++ uri.namePart)
  have plain : ∀ byte ∈ port, byte ∉ [slash] := by
    intro byte member same
    rw [List.mem_singleton.mp same] at member
    exact wellFormed.slash_notMem_port given member
  have behind : upTo uri.namePart [slash] = [] := by
    unfold namePart
    cases uri.name with
    | none => rfl
    | some name => exact upTo_cons (List.mem_singleton_self slash) name
  rw [upTo_append plain, behind, List.append_nil] at found
  rw [text, portPart, given]
  exact found

/-- Two first colons of one text are at the same place. -/
theorem firstColon_length {before before' after after' : Str} (absent : colon ∉ before)
    (absent' : colon ∉ before') (same : before ++ colon :: after = before' ++ colon :: after') :
    before.length = before'.length := by
  have cut : ∀ front : Str, colon ∉ front → ∀ back, upTo (front ++ colon :: back) [colon] = front := by
    intro front missing back
    have plain : ∀ byte ∈ front, byte ∉ [colon] := by
      intro byte member equal
      exact missing (List.mem_singleton.mp equal ▸ member)
    rw [upTo_append plain, upTo_cons (List.mem_singleton_self colon), List.append_nil]
  rw [← cut before absent after, same, cut before' absent' after']

/-- Without a port the first colon of the name is taken for the one before a port. -/
theorem portBehind_missing (missing : uri.port = none) :
    portBehind uri.text uri.host = defaultPort ↔ uri.NameHarmless := by
  have shape : uri.text = scheme ++ uri.host ++ uri.namePart := by
    rw [text, portPart, missing, List.nil_append]
  rw [shape]
  cases named : uri.name with
  | none =>
      have unnamed : uri.namePart = [] := by rw [namePart, named]
      rw [unnamed]
      refine iff_of_true (portBehind_plain uri.host List.not_mem_nil) ?_
      intro before after same
      rw [named] at same
      cases same
  | some name =>
      have part : uri.namePart = slash :: name := by rw [namePart, named]
      rw [part]
      by_cases inside : colon ∈ name
      · obtain ⟨before, after, rfl, absent⟩ := List.eq_append_cons_of_mem inside
        have absent' : colon ∉ slash :: before := by
          simp only [List.mem_cons, absent, or_false]
          decide
        rw [← List.cons_append, portBehind_colon uri.host absent' after,
          upTo_slash_iff (by decide)]
        constructor
        · intro harmless before' after' same absent''
          rw [named, Option.some.injEq] at same
          have split := List.append_inj same (firstColon_length absent absent'' same)
          rw [← (List.cons.inj split.2).2]
          exact harmless
        · intro harmless
          exact harmless before after named absent
      · refine iff_of_true (portBehind_plain uri.host ?_) ?_
        · simp only [List.mem_cons, inside, or_false]
          decide
        · intro before after same
          rw [named] at same
          exact absurd (Option.some.inj same ▸ by simp) inside

theorem WellFormed.portBehind_iff (wellFormed : uri.WellFormed) :
    portBehind uri.text uri.host = uri.port.getD defaultPort ↔
      uri.port.isSome ∨ uri.NameHarmless := by
  cases given : uri.port with
  | some port => exact iff_of_true (wellFormed.portBehind_given given) (Or.inl rfl)
  | none =>
      simp only [Option.getD_none, Option.isSome_none, Bool.false_eq_true, false_or]
      exact portBehind_missing given

/-- The host is cut out before the first delimiter. -/
theorem WellFormed.upTo_host (wellFormed : uri.WellFormed) :
    upTo (uri.text.drop urixLen) [colon, slash] = uri.host := by
  have behind : uri.text.drop urixLen = uri.host ++ (uri.portPart ++ uri.namePart) := by
    rw [text, List.append_assoc]
    rfl
  rw [behind, upTo_append wellFormed.host_passes, upTo_rest, List.append_nil]

end Uri

theorem hostOf_eq (uri : Str) : hostOf uri = upTo (uri.drop urixLen) [colon, slash] := by
  have delimiters : (fun byte => decide (byte ∈ [colon, slash])) =
      fun byte : UInt8 => decide (byte = 58 ∨ byte = 47) := by
    funext byte
    simp only [List.mem_cons, List.not_mem_nil, or_false, colon, slash]
  rw [hostOf, upTo, delimiters]
  rfl

theorem portOf_eq (uri : Str) : portOf uri = portBehind (stripArgs uri) (hostOf uri) := by
  have delimiters : (fun byte => decide (byte ∈ [slash])) =
      fun byte : UInt8 => decide (byte = 47) := by
    funext byte
    simp only [List.mem_singleton, slash]
  have sought : find (stripArgs uri) 58 (6 + (hostOf uri).length) =
      find (stripArgs uri) colon (urixLen + (hostOf uri).length) := rfl
  simp only [portOf, sought, portBehind, upTo, delimiters]
  cases find (stripArgs uri) colon (urixLen + (hostOf uri).length) with
  | none => rfl
  | some pos => rfl

/-- It does not matter whether a text is cut at a zero or at a delimiter first. -/
theorem upTo_cText (text delimiters : Str) :
    upTo (cText text) delimiters = cText (upTo text delimiters) := by
  simp only [upTo_eq_takeWhile, cText, List.takeWhile_takeWhile]
  congr 1
  funext byte
  simp only [decide_eq_true_eq, and_comm]

/-- Both backends connect to the same address, the documented one or not, for
every C string without arguments. -/
theorem address_agree (uri : Str) (nonzero : 0 ∉ uri) (noArguments : questionMark ∉ uri) :
    address .channel uri = address .simple uri := by
  have behind : cText (uri.drop urixLen) = uri.drop urixLen :=
    cText_eq_self.mpr fun zero => nonzero (List.mem_of_mem_drop zero)
  have none : find uri questionMark 0 = none := find_none [] noArguments
  have stored : stripArgs uri = uri := by
    unfold stripArgs
    rw [show find uri 63 0 = Option.none from none]
  simp only [address, simpleInit, simpleHostOf, none, bind, Option.bind, portOf_eq, stored, hostOf_eq]
  by_cases starts : scheme.isPrefixOf uri = true
  · simp only [starts, ↓reduceIte, behind]
  · simp only [starts, Bool.false_eq_true, ↓reduceIte]

end AtomSpaceCog.Slots
