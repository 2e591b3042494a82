import AtomSpaceCog.Simple.Frames
import AtomSpaceCog.Simple.Pairing

/-! # The Atom that a message is about

`storeAtom`, `storeValue` and `updateValue` settle first whether several AtomSpaces
are involved. After that `storeAtom` writes the Atom with its frame, while the other
two write only the key with its frame and the Atom without, so that the value lands
on the Atom of another AtomSpace (`targets_alike_iff`).
-/

namespace AtomSpaceCog.Simple

open CogSimpleStorage

variable {sexpr : FrameSexpr}

/-- The message of `storeAtom` about the Atom that is written so. -/
def storeAtomAbout (pairs : List (sexpr.Content × sexpr.Value)) (target : Str) : Str :=
  if pairs ≠ [] then bytes "(cog-set-values! " ++ target ++ sexpr.encodeAtomValues pairs ++ bytes ")\n"
  else bytes "(cog-set-value! " ++ target ++ bytes "(Predicate \"*-TruthValueKey-*\") #f)\n"

/-- The message of `storeValue` and, with another command, of `updateValue`. -/
def valueAbout (command key : Str) (value : Option sexpr.Value) (target : Str) : Str :=
  command ++ target ++ key ++ sexpr.encodeValue value ++ bytes ")\n"

/-- The message that an operation sends last when nothing fails. -/
def lastMessage (prog : SimpleProg sexpr) (node : Node sexpr) : Option Str :=
  (prog.play [some [], some []] node []).1.getLast?.bind Event.text?

/-- The messages of the three operations name the Atom by the same text. -/
structure TargetsAlike (own : Option SpaceId) (node : Node sexpr) (h key : Handle sexpr.toSexpr)
    (delta : Option sexpr.Value) : Prop where
  storeValue : ∀ target other,
    lastMessage (storeAtom own h (.exit .returned)) node =
        some (storeAtomAbout (node.memory.values h) target) →
      lastMessage (CogSimpleStorage.storeValue own h key (.exit .returned)) node =
          some (valueAbout (bytes "(cog-set-value! ")
            (encodeAtom (node.multiSpace || h.getAtomSpace ≠ own) key)
            (node.memory.getValue h key.atom) other) → other = target
  updateValue : ∀ target other,
    lastMessage (storeAtom own h (.exit .returned)) node =
        some (storeAtomAbout (node.memory.values h) target) →
      lastMessage (CogSimpleStorage.updateValue own h key delta (.exit .returned)) node =
          some (valueAbout (bytes "(cog-update-value! ")
            (encodeAtom (node.multiSpace || h.getAtomSpace ≠ own) key) delta other) → other = target

theorem storeAtomAbout_injective {pairs : List (sexpr.Content × sexpr.Value)} {target other : Str}
    (same : storeAtomAbout pairs target = storeAtomAbout pairs other) : target = other := by
  unfold storeAtomAbout at same
  split at same
  · simpa using same
  · simpa using same

theorem valueAbout_injective {command key : Str} {value : Option sexpr.Value} {target other : Str}
    (same : valueAbout command key value target = valueAbout command key value other) :
    target = other := by
  simpa [valueAbout] using same

/-- Writing frames to the maps leaves what the messages are made of. -/
theorem play_cacheFrame (frame : SpaceId) (next : SimpleProg sexpr) (outcomes : List (Option Str))
    (node : Node sexpr) (latest : Str) :
    ∃ later : Node sexpr, later.multiSpace = node.multiSpace ∧
      later.memory.values = node.memory.values ∧
      (cacheFrame frame next).play outcomes node latest = next.play outcomes later latest := by
  have fold : ∀ (frames : List SpaceId) (node : Node sexpr), ∃ later : Node sexpr,
      later.multiSpace = node.multiSpace ∧ later.memory.values = node.memory.values ∧
      (frames.foldr (fun frame rest => Prog.touch (fun node : Node sexpr => { node with
        frameMap := frame :: node.frameMap
        memory := { node.memory with
          fidMap := sexpr.insertFid node.memory.fidMap (sexpr.getName frame) frame } })
        fun _ => rest) next).play outcomes node latest = next.play outcomes later latest := by
    intro frames
    induction frames with
    | nil => exact fun node => ⟨node, rfl, rfl, rfl⟩
    | cons frame frames ih =>
        intro node
        obtain ⟨later, multi, values, same⟩ := ih { node with
          frameMap := frame :: node.frameMap
          memory := { node.memory with
            fidMap := sexpr.insertFid node.memory.fidMap (sexpr.getName frame) frame } }
        exact ⟨later, multi, values, same⟩
  exact fold _ node

/-- The message behind `tellFrame`: there is none when the Atom has no frame to tell. -/
theorem lastMessage_tellFrame (several : Bool) (h : Handle sexpr.toSexpr) (msg : Node sexpr → Str)
    (reads : ∀ node later : Node sexpr, later.multiSpace = node.multiSpace →
      later.memory.values = node.memory.values → msg later = msg node) (node : Node sexpr) :
    lastMessage (tellFrame several h (read fun node => tell (msg node) (.exit .returned))) node =
      if (node.multiSpace || several) ∧ h.getAtomSpace = none then none
      else some (msg { node with multiSpace := node.multiSpace || several }) := by
  set next : SimpleProg sexpr := read fun node => tell (msg node) (.exit .returned)
  have sends : ∀ (later : Node sexpr) (rest : List (Option Str)) (latest : Str),
      next.play (some [] :: rest) later latest = ([.sent (msg later)], later) := fun _ _ _ => rfl
  have started : (tellFrame several h next).play [some [], some []] node [] =
      (if node.multiSpace || several then writeFrame h.getAtomSpace next else next).play
        [some [], some []] { node with multiSpace := node.multiSpace || several } [] := rfl
  rw [lastMessage, started]
  by_cases mode : (node.multiSpace || several) = true
  · rw [if_pos mode, mode]
    cases home : h.getAtomSpace with
    | none => rfl
    | some frame =>
        have asked : (writeFrame (some frame) next).play [some [], some []]
            { node with multiSpace := true } [] =
              (if frame ∈ node.frameMap then next
                else setMulti <| tell (defineText sexpr frame) <| cacheFrame frame next).play
                  [some [], some []] { node with multiSpace := true } [] := rfl
        have housed : ¬ (true = true ∧ some frame = none) := fun both => Option.some_ne_none frame both.2
        rw [asked, if_neg housed]
        by_cases cached : frame ∈ node.frameMap
        · rw [if_pos cached, sends]
          rfl
        · obtain ⟨later, multi, values, played⟩ := play_cacheFrame frame next [some []]
            { node with multiSpace := true } (defineText sexpr frame)
          have told : (setMulti <| tell (defineText sexpr frame) <| cacheFrame frame next).play
              [some [], some []] { node with multiSpace := true } [] =
                (.sent (defineText sexpr frame) :: ((cacheFrame frame next).play [some []]
                  { node with multiSpace := true } (defineText sexpr frame)).1,
                  ((cacheFrame frame next).play [some []] { node with multiSpace := true }
                    (defineText sexpr frame)).2) := rfl
          rw [if_neg cached, told, played, sends]
          exact congrArg some (reads _ _ multi values)
  · rw [if_neg mode, sends, if_neg fun both => mode both.1]
    rfl

theorem lastMessage_storeAtom (own : Option SpaceId) (h : Handle sexpr.toSexpr) (node : Node sexpr) :
    lastMessage (storeAtom own h (.exit .returned)) node =
      if (node.multiSpace || decide (own ≠ none ∧ h.getAtomSpace ≠ own)) ∧ h.getAtomSpace = none then
        none
      else some (storeAtomAbout (node.memory.values h)
        (encodeAtom (node.multiSpace || decide (own ≠ none ∧ h.getAtomSpace ≠ own)) h)) := by
  have written : storeAtom own h (.exit .returned) =
      tellFrame (own ≠ none ∧ h.getAtomSpace ≠ own) h (read fun node =>
        tell (storeAtomAbout (node.memory.values h) (encodeAtom node.multiSpace h))
          (.exit .returned)) := by
    unfold storeAtom storeAtomAbout
    congr 2
    funext node
    split <;> rfl
  rw [written]
  refine lastMessage_tellFrame _ h (fun node => storeAtomAbout (node.memory.values h)
    (encodeAtom node.multiSpace h)) ?_ node
  intro node later multi values
  simp only [multi, values]

theorem lastMessage_storeValue (own : Option SpaceId) (h key : Handle sexpr.toSexpr)
    (node : Node sexpr) :
    lastMessage (CogSimpleStorage.storeValue own h key (.exit .returned)) node =
      if (node.multiSpace || decide (h.getAtomSpace ≠ own)) ∧ h.getAtomSpace = none then none
      else some (valueAbout (bytes "(cog-set-value! ")
        (encodeAtom (node.multiSpace || decide (h.getAtomSpace ≠ own)) key)
        (node.memory.getValue h key.atom) (sexpr.encodeAtom h.atom)) := by
  refine lastMessage_tellFrame _ h (fun node => valueAbout (bytes "(cog-set-value! ")
    (encodeAtom node.multiSpace key) (node.memory.getValue h key.atom) (sexpr.encodeAtom h.atom))
    ?_ node
  intro node later multi values
  simp only [multi, Memory.getValue, values]

theorem lastMessage_updateValue (own : Option SpaceId) (h key : Handle sexpr.toSexpr)
    (delta : Option sexpr.Value) (node : Node sexpr) :
    lastMessage (CogSimpleStorage.updateValue own h key delta (.exit .returned)) node =
      if (node.multiSpace || decide (h.getAtomSpace ≠ own)) ∧ h.getAtomSpace = none then none
      else some (valueAbout (bytes "(cog-update-value! ")
        (encodeAtom (node.multiSpace || decide (h.getAtomSpace ≠ own)) key) delta
        (sexpr.encodeAtom h.atom)) := by
  refine lastMessage_tellFrame _ h (fun node => valueAbout (bytes "(cog-update-value! ")
    (encodeAtom node.multiSpace key) delta (sexpr.encodeAtom h.atom)) ?_ node
  intro node later multi values
  simp only [multi]

/-- With the text that `storeAtom` writes for the Atom the others agree when it is the
encoding without a frame. -/
theorem TargetsAlike.of_plain {own : Option SpaceId} {node : Node sexpr}
    {h key : Handle sexpr.toSexpr} {delta : Option sexpr.Value}
    (plain : ∀ target, lastMessage (storeAtom own h (.exit .returned)) node =
      some (storeAtomAbout (node.memory.values h) target) → target = sexpr.encodeAtom h.atom) :
    TargetsAlike own node h key delta where
  storeValue := by
    intro target other storedAtom storedValue
    rw [lastMessage_storeValue] at storedValue
    split at storedValue
    · cases storedValue
    · rw [plain target storedAtom]
      exact (valueAbout_injective (Option.some.inj storedValue)).symm
  updateValue := by
    intro target other storedAtom updated
    rw [lastMessage_updateValue] at updated
    split at updated
    · cases updated
    · rw [plain target storedAtom]
      exact (valueAbout_injective (Option.some.inj updated)).symm

/-- The three messages name the same Atom exactly when the Atom is in no AtomSpace, in
which case nothing is sent for it in a frame, or when one AtomSpace is involved. -/
theorem targets_alike_iff
    (framed : ∀ space atom, sexpr.encodeAtomMulti (some space) atom ≠ sexpr.encodeAtom atom)
    (own : Option SpaceId) (node : Node sexpr) (h key : Handle sexpr.toSexpr)
    (delta : Option sexpr.Value) :
    TargetsAlike own node h key delta ↔
      h.getAtomSpace = none ∨
        (node.multiSpace = false ∧ (own = none ∨ h.getAtomSpace = own)) := by
  have stored := lastMessage_storeAtom own h node
  generalize settled : (node.multiSpace || decide (own ≠ none ∧ h.getAtomSpace ≠ own)) = mode at stored
  have single : mode = false ↔ node.multiSpace = false ∧ (own = none ∨ h.getAtomSpace = own) := by
    rw [← settled, Bool.or_eq_false_iff, decide_eq_false_iff_not, not_and_or, not_not, not_not]
  have named : ∀ target, lastMessage (storeAtom own h (.exit .returned)) node =
      some (storeAtomAbout (node.memory.values h) target) → target = encodeAtom mode h := by
    intro target sent
    rw [stored] at sent
    split at sent
    · cases sent
    · exact (storeAtomAbout_injective (Option.some.inj sent)).symm
  rw [← single]
  constructor
  · intro alike
    by_contra several
    rw [not_or, Bool.not_eq_false] at several
    obtain ⟨housed, rfl⟩ := several
    obtain ⟨space, home⟩ := Option.ne_none_iff_exists'.mp housed
    have same := alike.storeValue (encodeAtom true h) (sexpr.encodeAtom h.atom)
      (by rw [stored, if_neg fun both => housed both.2])
      (by rw [lastMessage_storeValue, if_neg fun both => housed both.2])
    rw [encodeAtom, if_pos rfl, home] at same
    exact framed space h.atom same.symm
  · rintro (loose | rfl)
    · apply TargetsAlike.of_plain
      intro target sent
      cases mode with
      | true =>
          rw [stored, if_pos ⟨rfl, loose⟩] at sent
          cases sent
      | false => exact named target sent
    · exact TargetsAlike.of_plain named

section Runs

/-- The plain notation, in which a frame is named behind the Atom. -/
def framedPlain : FrameSexpr :=
  { plainFrames with
    encodeAtomMulti := fun frame atom =>
      match frame with
      | some _ => (plain.encodeAtom atom).dropLast ++ bytes " (AtomSpace \"base\"))"
      | none => plain.encodeAtom atom }

theorem framedPlain_ne (space : SpaceId) (atom : Atom Plain.Kind) :
    framedPlain.encodeAtomMulti (some space) atom ≠ plain.encodeAtom atom := by
  intro same
  have lengths := congrArg List.length same
  have longer : (framedPlain.encodeAtomMulti (some space) atom).length =
      (plain.encodeAtom atom).length - 1 + 20 := by
    change ((plain.encodeAtom atom).dropLast ++ bytes " (AtomSpace \"base\"))").length = _
    rw [List.length_append, List.length_dropLast]
    rfl
  omega

/-- An Atom of the AtomSpace of the storage node, before any other was involved. -/
theorem targets_alike_single :
    @TargetsAlike framedPlain (some 0) ⟨Memory.empty (), false, []⟩
        ⟨.node .concept (bytes "a"), .space 0⟩ ⟨.node .concept (bytes "k"), .space 0⟩ none ↔
      (⟨.node .concept (bytes "a"), .space 0⟩ : Handle framedPlain.toSexpr).getAtomSpace = none ∨
        ((⟨Memory.empty (), false, []⟩ : Node framedPlain).multiSpace = false ∧
          (some 0 = none ∨ (⟨.node .concept (bytes "a"), .space 0⟩ :
            Handle framedPlain.toSexpr).getAtomSpace = some 0)) :=
  @targets_alike_iff framedPlain framedPlain_ne (some 0) ⟨Memory.empty (), false, []⟩
    ⟨.node .concept (bytes "a"), .space 0⟩ ⟨.node .concept (bytes "k"), .space 0⟩ none

open Session in
/-- A value of an Atom in the frame `top`, once that frame was stored: `storeValue` names
the Atom without the frame. -/
theorem targets_differ :
    ¬ ∀ (actions : List (Session.Action twoFrames)) (final : Session twoFrames),
      Transition.exec (step (some 0)) (initial noAtoms) actions = some final →
        ∀ h key delta, TargetsAlike (some 0) final.node h key delta := by
  intro always
  have alike := always [.call (.storeFrameDAG (some 1)) [some []]] _ rfl (placed 1) (placed 0) none
  have same := alike.storeValue (bytes "(Concept \"a\" (AtomSpace \"top\"))")
    (bytes "(Concept \"a\")") rfl rfl
  revert same
  decide

end Runs

end AtomSpaceCog.Simple
