import Mathlib

/-! Rounding up to a grid: to the least point of the grid that is not below, or to its greatest one when all are
below. -/

namespace Grid

variable {α : Type*} [LinearOrder α] {grid : Set α} {x x' y y' : α}

/-- `x` is rounded up to `y`. -/
structure RoundsTo (grid : Set α) (x y : α) : Prop where
  least : (∃ g ∈ grid, x ≤ g) → IsLeast {g | g ∈ grid ∧ x ≤ g} y
  greatest : (∀ g ∈ grid, g < x) → IsGreatest grid y

namespace RoundsTo

theorem of_least (h : IsLeast {g | g ∈ grid ∧ x ≤ g} y) : RoundsTo grid x y :=
  ⟨fun _ => h, fun hbelow => absurd h.1.2 (not_le_of_gt (hbelow y h.1.1))⟩

theorem of_greatest (hbelow : ∀ g ∈ grid, g < x) (h : IsGreatest grid y) : RoundsTo grid x y :=
  ⟨fun ⟨g, hg, hle⟩ => absurd hle (not_le_of_gt (hbelow g hg)), fun _ => h⟩

theorem cases (h : RoundsTo grid x y) :
    IsLeast {g | g ∈ grid ∧ x ≤ g} y ∨ ((∀ g ∈ grid, g < x) ∧ IsGreatest grid y) := by
  by_cases hsome : ∃ g ∈ grid, x ≤ g
  · exact Or.inl (h.least hsome)
  · push Not at hsome
    exact Or.inr ⟨hsome, h.greatest hsome⟩

theorem mem (h : RoundsTo grid x y) : y ∈ grid := by
  rcases h.cases with hleast | ⟨-, hgreatest⟩
  · exact hleast.1.1
  · exact hgreatest.1

/-- A point of the grid stays where it is. -/
theorem self (hx : x ∈ grid) : RoundsTo grid x x := of_least ⟨⟨hx, le_rfl⟩, fun _ hg => hg.2⟩

theorem unique (h : RoundsTo grid x y) (h' : RoundsTo grid x y') : y = y' := by
  by_cases hsome : ∃ g ∈ grid, x ≤ g
  · exact (h.least hsome).unique (h'.least hsome)
  · push Not at hsome
    exact (h.greatest hsome).unique (h'.greatest hsome)

/-- Rounding twice is rounding once. -/
theorem eq_of_again (h : RoundsTo grid x y) (h' : RoundsTo grid y y') : y' = y := h'.unique (self h.mem)

theorem mono (h : RoundsTo grid x y) (h' : RoundsTo grid x' y') (hle : x ≤ x') : y ≤ y' := by
  rcases h'.cases with hleast | ⟨hbelow, hgreatest⟩
  · have hmem : y' ∈ {g | g ∈ grid ∧ x ≤ g} := ⟨hleast.1.1, hle.trans hleast.1.2⟩
    exact (h.least ⟨y', hmem⟩).2 hmem
  · exact hgreatest.2 h.mem

/-- A point below all others of the grid, and below what is rounded, does not matter. -/
theorem insert {first : α} (h : RoundsTo grid x y) (hfirst : first < x) (hbelow : ∀ g ∈ grid, first ≤ g) :
    RoundsTo (insert first grid) x y := by
  rcases h.cases with hleast | ⟨hall, hgreatest⟩
  · refine of_least ⟨⟨Or.inr hleast.1.1, hleast.1.2⟩, ?_⟩
    rintro g ⟨rfl | hg, hle⟩
    · exact absurd hle (not_le_of_gt hfirst)
    · exact hleast.2 ⟨hg, hle⟩
  · refine of_greatest ?_ ⟨Or.inr hgreatest.1, ?_⟩
    · rintro g (rfl | hg)
      · exact hfirst
      · exact hall g hg
    · rintro g (rfl | hg)
      · exact hbelow y hgreatest.1
      · exact hgreatest.2 hg

end RoundsTo

end Grid
