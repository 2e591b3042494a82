import Mathlib.Data.List.Basic
import Mathlib.Data.List.Nodup

/-! # Buffers that drop what they already hold

Elements carry the number of the offer that brought them. An offer is dropped when
an equivalent element is already held; the held element then stands for it.
-/

namespace Dedup

/-- An element with the number of the offer that brought it. -/
structure Tagged (α : Type*) where
  tag : Nat
  value : α
deriving DecidableEq

variable {α : Type*} (equiv : α → α → Prop) [DecidableRel equiv]

/-- The element that keeps an offer out. -/
def twin? (held : List (Tagged α)) (value : α) : Option (Tagged α) :=
  held.find? fun element => equiv value element.value

/-- The buffer after an offer. -/
def offer (held : List (Tagged α)) (tag : Nat) (value : α) : List (Tagged α) :=
  match twin? equiv held value with
  | some _ => held
  | none => held ++ [⟨tag, value⟩]

/-- The number of the element that stands for an offer. -/
def standsFor (held : List (Tagged α)) (tag : Nat) (value : α) : Nat :=
  match twin? equiv held value with
  | some twin => twin.tag
  | none => tag

variable {equiv} {held : List (Tagged α)} {tag : Nat} {value : α}

theorem twin?_eq_none :
    twin? equiv held value = none ↔ ∀ element ∈ held, ¬ equiv value element.value := by
  simp [twin?, List.find?_eq_none]

theorem twin?_eq_some {twin : Tagged α} (found : twin? equiv held value = some twin) :
    twin ∈ held ∧ equiv value twin.value :=
  ⟨List.mem_of_find?_eq_some found, by simpa using List.find?_some found⟩

/-- What an offer does, whichever way it goes. -/
theorem offer_cases (equiv : α → α → Prop) [DecidableRel equiv] (held : List (Tagged α))
    (tag : Nat) (value : α) :
    (∃ twin ∈ held, equiv value twin.value ∧ offer equiv held tag value = held ∧
        standsFor equiv held tag value = twin.tag) ∨
      ((∀ element ∈ held, ¬ equiv value element.value) ∧
        offer equiv held tag value = held ++ [⟨tag, value⟩] ∧
        standsFor equiv held tag value = tag) := by
  unfold offer standsFor
  cases found : twin? equiv held value with
  | some twin =>
      obtain ⟨member, same⟩ := twin?_eq_some found
      exact Or.inl ⟨twin, member, same, rfl, rfl⟩
  | none => exact Or.inr ⟨twin?_eq_none.mp found, rfl, rfl⟩

/-- Nothing held is lost by an offer. -/
theorem subset_offer : held ⊆ offer equiv held tag value := by
  rcases offer_cases equiv held tag value with ⟨_, _, _, same, _⟩ | ⟨_, added, _⟩
  · rw [same]
    exact List.Subset.refl _
  · rw [added]
    exact List.subset_append_left _ _

/-- An offer brings at most the element offered. -/
theorem mem_offer {element : Tagged α} (member : element ∈ offer equiv held tag value) :
    element ∈ held ∨ element = ⟨tag, value⟩ := by
  rcases offer_cases equiv held tag value with ⟨_, _, _, same, _⟩ | ⟨_, added, _⟩
  · exact Or.inl (same ▸ member)
  · rw [added] at member
    simpa using member

/-- Some held element stands for the offer, and it is the offer or equivalent to
it. -/
theorem exists_standsFor (equiv : α → α → Prop) [DecidableRel equiv] (held : List (Tagged α))
    (tag : Nat) (value : α) :
    ∃ element ∈ offer equiv held tag value,
      element.tag = standsFor equiv held tag value ∧
        (element = ⟨tag, value⟩ ∨ element ∈ held ∧ equiv value element.value) := by
  rcases offer_cases equiv held tag value with ⟨twin, member, same, kept, tagged⟩ | ⟨_, added, tagged⟩
  · exact ⟨twin, by rwa [kept], tagged.symm, Or.inr ⟨member, same⟩⟩
  · exact ⟨⟨tag, value⟩, by simp [added], tagged.symm, Or.inl rfl⟩

/-- Distinct numbers stay distinct when the offer's number is new. -/
theorem nodup_offer (distinct : (held.map Tagged.tag).Nodup)
    (fresh : ∀ element ∈ held, element.tag < tag) :
    ((offer equiv held tag value).map Tagged.tag).Nodup := by
  rcases offer_cases equiv held tag value with ⟨_, _, _, same, _⟩ | ⟨_, added, _⟩
  · rw [same]
    exact distinct
  · rw [added, List.map_append, List.map_singleton]
    refine List.Nodup.append distinct (List.nodup_singleton _) ?_
    intro number member single
    obtain ⟨element, inside, rfl⟩ := List.mem_map.mp member
    have below := fresh element inside
    simp only [List.mem_singleton] at single
    omega

end Dedup
