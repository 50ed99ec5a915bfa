import Mathlib.Logic.Function.Basic

/-!
# Assignments

A partial map from names to owners, where a name is granted to an owner or
released, as a system assigns process ids or handles. An assignment is
`Exclusive` if no owner has two names at the same time.
-/

namespace Framework

variable {α β : Type}

/-- The owner of each name that has one. -/
abbrev Assign (α β : Type) := α → Option β

namespace Assign

variable [DecidableEq α] {k : Assign α β} {a a' : α} {b b' : β}

/-- Name `a` is given to `b`. -/
def grant (k : Assign α β) (a : α) (b : β) : Assign α β := Function.update k a (some b)

/-- Name `a` has no owner any more. -/
def release (k : Assign α β) (a : α) : Assign α β := Function.update k a none

@[simp] theorem grant_same : k.grant a b a = some b := Function.update_self ..

theorem grant_ne (h : a' ≠ a) : k.grant a b a' = k a' := Function.update_of_ne h ..

@[simp] theorem release_same : k.release a a = none := Function.update_self ..

theorem release_ne (h : a' ≠ a) : k.release a a' = k a' := Function.update_of_ne h ..

theorem grant_eq_some : k.grant a b a' = some b' ↔ (a' = a ∧ b = b') ∨ (a' ≠ a ∧ k a' = some b') := by
  by_cases h : a' = a
  · subst h; simp
  · rw [grant_ne h]; simp [h]

theorem release_eq_some : k.release a a' = some b ↔ a' ≠ a ∧ k a' = some b := by
  by_cases h : a' = a
  · subst h; simp
  · rw [release_ne h]; simp [h]

/-- No owner has two names. -/
def Exclusive (k : Assign α β) : Prop := ∀ a a' b, k a = some b → k a' = some b → a = a'

/-- A name may be given to an owner that has none. -/
theorem Exclusive.grant (h : Exclusive k) (hb : ∀ a', k a' ≠ some b) (a : α) :
    Exclusive (k.grant a b) := by
  intro a₁ a₂ b' h₁ h₂
  rw [grant_eq_some] at h₁ h₂
  rcases h₁ with ⟨rfl, rfl⟩ | ⟨-, h₁⟩
  · rcases h₂ with ⟨rfl, -⟩ | ⟨-, h₂⟩
    · rfl
    · exact absurd h₂ (hb a₂)
  · rcases h₂ with ⟨-, rfl⟩ | ⟨-, h₂⟩
    · exact absurd h₁ (hb a₁)
    · exact h a₁ a₂ b' h₁ h₂

end Assign

end Framework
