namespace SolidScript

structure Settings where
  /-- Segments of a cylinder that does not say. -/
  defaultSegments : Nat := 24
  /-- No cylinder has fewer segments. -/
  minSegments : Nat := 6
  /-- How far a loop may run past its end. -/
  loopTolerance : Float := 1e-9
  /-- The most rounds of one loop, if there is a limit. -/
  loopBudget : Option Nat := none
  three_le_default : 3 ≤ defaultSegments := by decide
  three_le_min : 3 ≤ minSegments := by decide
  tolerance_nonneg : 0 ≤ loopTolerance := by decide +kernel
  budget_pos : ∀ budget ∈ loopBudget, 0 < budget := by simp

def Settings.default : Settings := {}

end SolidScript
