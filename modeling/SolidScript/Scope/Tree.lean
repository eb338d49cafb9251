import SolidScript.Scope

/-!
# Scope trees

Frames that grow into a tree: each new frame names an older one as its parent, or it is a root. A
lookup walks up from a frame to its root, and it ends because parents are older.
-/

namespace SolidScript

/-- A frame in a tree, with the number of its parent. -/
structure Branch where
  frame : Frame
  parent : Option Nat

/-- Frames numbered from zero in the order in which they were made. -/
structure ScopeTree where
  branches : List Branch
  older : ∀ (i : Nat) (branch : Branch) (p : Nat),
    branches[i]? = some branch → branch.parent = some p → p < i

namespace ScopeTree

def root (frame : Frame) : ScopeTree where
  branches := [⟨frame, none⟩]
  older i branch p found parent := by
    cases i with
    | zero => simp at found; subst found; simp at parent
    | succ i => simp at found

/-- The frames from the one with number `i` up to its root. -/
def path (tree : ScopeTree) (i : Nat) : List Frame :=
  match _found : tree.branches[i]? with
  | none => []
  | some branch =>
    match _up : branch.parent with
    | none => [branch.frame]
    | some p => branch.frame :: tree.path p
termination_by i
decreasing_by exact tree.older i branch p _found _up

def get? (tree : ScopeTree) (i : Nat) (name : String) : Option Value :=
  Scope.lookup (tree.path i) name

def contains (tree : ScopeTree) (i : Nat) (name : String) : Bool :=
  (tree.path i).any (·.contains name)

def child (tree : ScopeTree) (parent : Nat) (frame : Frame)
    (present : parent < tree.branches.length) : ScopeTree where
  branches := tree.branches ++ [⟨frame, some parent⟩]
  older i branch p found up := by
    by_cases old : i < tree.branches.length
    · rw [List.getElem?_append_left old] at found
      exact tree.older i branch p found up
    · rw [List.getElem?_append_right (by omega)] at found
      cases k : i - tree.branches.length with
      | zero =>
        rw [k] at found
        simp only [List.getElem?_cons_zero, Option.some.injEq] at found
        subst found
        simp only [Option.some.injEq] at up
        omega
      | succ k => rw [‹i - _ = _›] at found; simp at found

def set (tree : ScopeTree) (i : Nat) (name : String) (value : Value) : ScopeTree where
  branches := tree.branches.modify i fun branch =>
    { branch with frame := branch.frame.set name value }
  older j branch p found up := by
    rw [List.getElem?_modify] at found
    cases at_j : tree.branches[j]? with
    | none => simp [at_j] at found
    | some old =>
      apply tree.older j old p at_j
      rw [at_j] at found
      split at found
      · simp only [Option.map_eq_map, Option.map_some, Option.some.injEq] at found
        subst found
        exact up
      · simp only [Option.map_eq_map, Option.map_some, Option.some.injEq] at found
        subst found
        exact up

end ScopeTree

end SolidScript
