import Mathlib.Order.CompletePartialOrder
import Mathlib.Data.Set.Pairwise.Lattice
import Mathlib.Logic.Pairwise

/-!
# Tenancies

Who holds what, when nothing may be held twice. A tenancy assigns to every tenant a set of things,
and carries the proof that no two tenants hold the same thing, so that a thing has at most one
holder. A tenant may give things back at any time, and may take a set of things once no other tenant
holds any of them.
-/

/-- What every tenant holds; nothing is held by two of them. -/
structure Tenancy (ρ α : Type*) where
  holds : ρ → Set α
  disjoint : Pairwise (Function.onFun Disjoint holds)

namespace Tenancy

variable {ρ α : Type*} (t : Tenancy ρ α)

theorem eq_of_mem {i j : ρ} {a : α} (hi : a ∈ t.holds i) (hj : a ∈ t.holds j) : i = j := by
  by_contra hne
  exact Set.disjoint_left.1 (t.disjoint hne) hi hj

/-- Tenants give back some of what they hold. -/
def giveBack (holds : ρ → Set α) (h : ∀ i, holds i ⊆ t.holds i) : Tenancy ρ α where
  holds := holds
  disjoint _ _ hne := (t.disjoint hne).mono (h _) (h _)

/-- A tenant holds `A` instead of what it held, when nobody else holds any of it. -/
def take [DecidableEq ρ] (i : ρ) (A : Set α) (h : ∀ j, j ≠ i → Disjoint (t.holds j) A) :
    Tenancy ρ α where
  holds := Function.update t.holds i A
  disjoint := by
    intro j k hne
    change Disjoint (Function.update t.holds i A j) (Function.update t.holds i A k)
    by_cases hj : j = i
    · subst hj
      rw [Function.update_self, Function.update_of_ne hne.symm]
      exact (h k hne.symm).symm
    · rw [Function.update_of_ne hj]
      by_cases hk : k = i
      · subst hk
        rw [Function.update_self]
        exact h j hj
      · rw [Function.update_of_ne hk]
        exact t.disjoint hne

section Take

variable [DecidableEq ρ] {t} {i j : ρ} {A : Set α} (h : ∀ j, j ≠ i → Disjoint (t.holds j) A)

@[simp]
theorem take_holds_self : (t.take i A h).holds i = A :=
  Function.update_self ..

@[simp]
theorem take_holds_of_ne (hj : j ≠ i) : (t.take i A h).holds j = t.holds j :=
  Function.update_of_ne hj ..

end Take

end Tenancy
