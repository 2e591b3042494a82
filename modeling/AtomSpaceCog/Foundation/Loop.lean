import Mathlib.Logic.Relation

/-! # Loops

A loop is given by its round: at a state it throws (`none`), or it yields an item and
goes on to another state, or leaves the loop. A loop that is bounded to a number of
rounds tells whether it ended within them. It never ends exactly where an invariant
leads from each of its states to another (`not_endsWithin_of_stays`), and ends within as
many rounds as a measure allows (`endsWithin_of_shrinks`).
-/

namespace Loop

variable {State Item : Type*} (round : State → Option (Item × Option State))

/-- The items of the first rounds; at `none` the loop was left. -/
def items : Nat → Option State → List Item
  | 0, _ => []
  | _ + 1, none => []
  | fuel + 1, some state =>
      match round state with
      | none => []
      | some (item, next) => item :: items fuel next

/-- The loop is left, or throws, within a number of rounds. -/
def endsWithin : Nat → Option State → Bool
  | _, none => true
  | 0, some _ => false
  | fuel + 1, some state =>
      match round state with
      | none => true
      | some (_, next) => endsWithin fuel next

/-- The loop goes on from one state to another. -/
def Next (state next : State) : Prop := ∃ item, round state = some (item, some next)

variable {round}

@[simp] theorem endsWithin_none (fuel : Nat) : endsWithin round fuel none = true := by
  cases fuel <;> rfl

theorem endsWithin_of_throws {state : State} (throws : round state = none) (fuel : Nat) :
    endsWithin round (fuel + 1) (some state) = true := by
  simp only [endsWithin, throws]

theorem endsWithin_succ {state : State} {item : Item} {next : Option State}
    (goes : round state = some (item, next)) (fuel : Nat) :
    endsWithin round (fuel + 1) (some state) = endsWithin round fuel next := by
  simp only [endsWithin, goes]

/-- More rounds do no harm. -/
theorem endsWithin_mono {fuel more : Nat} {start : Option State}
    (ends : endsWithin round fuel start = true) (enough : fuel ≤ more) :
    endsWithin round more start = true := by
  induction fuel generalizing more start with
  | zero =>
      cases start with
      | none => exact endsWithin_none more
      | some state => exact absurd ends Bool.false_ne_true
  | succ fuel ih =>
      obtain ⟨more, rfl⟩ : ∃ rest, more = rest + 1 := ⟨more - 1, by omega⟩
      cases start with
      | none => exact endsWithin_none _
      | some state =>
          cases found : round state with
          | none => exact endsWithin_of_throws found more
          | some pair =>
              rw [endsWithin_succ found] at ends ⊢
              exact ih ends (by omega)

/-- A loop that always goes on to a state of a kind never ends. -/
theorem not_endsWithin_of_stays {Stays : State → Prop}
    (goes : ∀ {state}, Stays state → ∃ next, Next round state next ∧ Stays next)
    {state : State} (stays : Stays state) (fuel : Nat) :
    endsWithin round fuel (some state) = false := by
  induction fuel generalizing state with
  | zero => rfl
  | succ fuel ih =>
      obtain ⟨next, ⟨item, found⟩, later⟩ := goes stays
      rw [endsWithin_succ found]
      exact ih later

/-- A loop ends within as many rounds as a measure has left, if it leaves the states of a
kind only for states from which it ends. -/
theorem endsWithin_of_shrinks (Stays : State → Prop) (measure : State → Nat) (extra : Nat)
    (goes : ∀ {state next}, Stays state → Next round state next →
      Stays next ∧ measure next < measure state ∨ endsWithin round extra (some next) = true)
    {state : State} (stays : Stays state) {fuel : Nat} (enough : measure state < fuel) :
    endsWithin round (fuel + extra) (some state) = true := by
  induction fuel generalizing state with
  | zero => exact absurd enough (Nat.not_lt_zero _)
  | succ fuel ih =>
      rw [Nat.add_right_comm]
      cases found : round state with
      | none => exact endsWithin_of_throws found _
      | some pair =>
          obtain ⟨item, next⟩ := pair
          rw [endsWithin_succ found]
          cases next with
          | none => exact endsWithin_none _
          | some next =>
              rcases goes stays ⟨item, found⟩ with ⟨later, less⟩ | ends
              · exact ih later (by omega)
              · exact endsWithin_mono ends (by omega)

/-- What a round yields on the way is among the items. -/
theorem mem_items_of_reaches {start state : State}
    (reaches : Relation.ReflTransGen (Next round) start state) {item : Item}
    {next : Option State} (found : round state = some (item, next)) :
    ∃ fuel, item ∈ items round fuel (some start) := by
  induction reaches using Relation.ReflTransGen.head_induction_on with
  | refl => exact ⟨1, by simp [items, found]⟩
  | head goes _ ih =>
      obtain ⟨first, here⟩ := goes
      obtain ⟨fuel, member⟩ := ih
      exact ⟨fuel + 1, by simp [items, here, member]⟩

/-- Every item is yielded at a state that the loop reaches. -/
theorem reaches_of_mem_items {start : Option State} {item : Item} {fuel : Nat}
    (member : item ∈ items round fuel start) :
    ∃ first, start = some first ∧ ∃ state next,
      Relation.ReflTransGen (Next round) first state ∧ round state = some (item, next) := by
  induction fuel generalizing start with
  | zero => exact absurd member List.not_mem_nil
  | succ fuel ih =>
      cases start with
      | none => exact absurd member List.not_mem_nil
      | some state =>
          refine ⟨state, rfl, ?_⟩
          cases found : round state with
          | none => simp [items, found] at member
          | some pair =>
              obtain ⟨other, next⟩ := pair
              simp only [items, found, List.mem_cons] at member
              rcases member with rfl | member
              · exact ⟨state, next, .refl, found⟩
              · obtain ⟨first, rfl, last, after, path, yields⟩ := ih member
                exact ⟨last, after, .head ⟨other, found⟩ path, yields⟩

end Loop
