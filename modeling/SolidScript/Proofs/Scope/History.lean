import Mathlib.Data.List.Basic
import SolidScript.Proofs.Bindings
import SolidScript.Scope.Tree

/-!
# Scope trees and their histories

How a tree of frames came about, and what can be told of a look-up from that alone: on the way from
a frame to the root, it gives the latest value in the nearest frame in which the name was ever
stored. The tree keeps only one value for each name in a frame; a history keeps all of them.
-/

namespace SolidScript

/-- The operations that made a tree of `n` frames. A frame can be named in them once it is made. -/
inductive History : Nat → Type where
  | root (init : Frame) : History 1
  | child {n : Nat} (before : History n) (parent : Fin n) (init : Frame) : History (n + 1)
  | set {n : Nat} (before : History n) (frame : Fin n) (name : String) (value : Value) : History n

namespace History

def build {n : Nat} : History n → { tree : ScopeTree // tree.branches.length = n }
  | .root init => ⟨.root init, rfl⟩
  | .child before parent init =>
    ⟨before.build.1.child parent init (by rw [before.build.2]; exact parent.isLt),
      by simp [ScopeTree.child, before.build.2]⟩
  | .set before frame name value =>
    ⟨before.build.1.set frame name value, by simp [ScopeTree.set, before.build.2]⟩

def tree {n : Nat} (history : History n) : ScopeTree := history.build.1

def parent? {n : Nat} : History n → Nat → Option Nat
  | .root _, _ => none
  | .child (n := n) before parent _, i => if i = n then some parent else before.parent? i
  | .set before .., i => before.parent? i

/-- All values that were stored under a name in a frame, the latest first. -/
def writes {n : Nat} : History n → Nat → String → List Value
  | .root init, i, name => if i = 0 then (init.get? name).toList else []
  | .child (n := n) before _ init, i, name =>
    if i = n then (init.get? name).toList else before.writes i name
  | .set before frame name value, i, other =>
    if i = frame ∧ other = name then value :: before.writes i other else before.writes i other

inductive IsPath {n : Nat} (history : History n) : Nat → List Nat → Prop where
  | root {i : Nat} (top : history.parent? i = none) : IsPath history i [i]
  | up {i p : Nat} {path : List Nat} (parent : history.parent? i = some p)
    (further : IsPath history p path) : IsPath history i (i :: path)

/-- The frame is on the path, and in no frame before it was the name ever stored. -/
def Reaches {n : Nat} (history : History n) (path : List Nat) (name : String) (frame : Nat) :
    Prop :=
  ∃ nearer further, path = nearer ++ frame :: further ∧ ∀ k ∈ nearer, history.writes k name = []

end History

namespace Proofs
open History

variable {n : Nat}

/-! ## Paths -/

theorem parent?_lt (history : History n) {i p : Nat} (parent : history.parent? i = some p) :
    p < i ∧ p < n := by
  induction history with
  | root init => cases parent
  | @child n before above init ih =>
    rw [parent?] at parent
    split at parent
    · cases parent
      have := above.isLt
      omega
    · have := ih parent
      omega
  | set before frame name value ih => exact ih parent

theorem exists_path (history : History n) (i : Nat) : ∃ path, history.IsPath i path := by
  -- Parents are older, so the way up comes to a frame without one.
  induction i using Nat.strongRecOn with
  | ind i ih =>
    cases parent : history.parent? i with
    | none => exact ⟨[i], .root parent⟩
    | some p =>
      obtain ⟨path, further⟩ := ih p (parent?_lt history parent).1
      exact ⟨i :: path, .up parent further⟩

theorem path_unique {history : History n} {i : Nat} {path path' : List Nat}
    (first : history.IsPath i path) (second : history.IsPath i path') : path = path' := by
  induction first generalizing path' with
  | root top =>
    cases second with
    | root => rfl
    | up parent => rw [top] at parent; cases parent
  | up parent _ ih =>
    cases second with
    | root top => rw [top] at parent; cases parent
    | up parent' further' =>
      obtain rfl := Option.some.inj (parent.symm.trans parent')
      rw [ih further']

theorem path_le {history : History n} {i : Nat} {path : List Nat} (way : history.IsPath i path)
    {k : Nat} (member : k ∈ path) : k ≤ i := by
  induction way with
  | root top => simpa using Nat.le_of_eq (List.mem_singleton.mp member)
  | up parent _ ih =>
    rcases List.mem_cons.mp member with rfl | later
    · exact Nat.le_refl _
    · exact Nat.le_of_lt (Nat.lt_of_le_of_lt (ih later) (parent?_lt history parent).1)

theorem path_decreases {history : History n} {i : Nat} {path : List Nat}
    (way : history.IsPath i path) : path.Pairwise (· > ·) := by
  induction way with
  | root top => exact List.pairwise_singleton _ _
  | up parent further ih =>
    refine List.pairwise_cons.mpr ⟨fun k member => ?_, ih⟩
    exact Nat.lt_of_le_of_lt (path_le further member) (parent?_lt history parent).1

theorem parent?_isSome (history : History n) {i : Nat} (present : i < n) (below : i ≠ 0) :
    history.parent? i ≠ none := by
  induction history with
  | root init => omega
  | child before above init ih =>
    rw [parent?]
    split
    · exact nofun
    · exact ih (by omega)
  | set before frame name value ih => exact ih present

theorem path_ends {history : History n} {i : Nat} {path : List Nat} (way : history.IsPath i path)
    (present : i < n) : path.getLast? = some 0 := by
  induction way with
  | root top =>
    by_contra below
    exact parent?_isSome history present (by simpa using below) top
  | @up i p path parent further ih =>
    have ends := ih (parent?_lt history parent).2
    cases path with
    | nil => cases ends
    | cons next rest => rwa [List.getLast?_cons_cons]

/-! ## Frames -/

theorem branch_of_history (history : History n) {i : Nat} (present : i < n) :
    ∃ frame : Frame, history.tree.branches[i]? = some ⟨frame, history.parent? i⟩ ∧
      ∀ name, frame.get? name = (history.writes i name).head? := by
  induction history with
  | root init =>
    obtain rfl : i = 0 := by omega
    exact ⟨init, rfl, fun name => by simp [writes]⟩
  | @child n before parent init ih =>
    have length : before.tree.branches.length = n := before.build.2
    change ∃ frame : Frame, (before.tree.branches ++ [⟨init, some parent.val⟩])[i]? = _ ∧ _
    by_cases new : i = n
    · subst new
      exact ⟨init, by simp [parent?, length], fun name => by simp [writes]⟩
    · have old : i < before.tree.branches.length := by omega
      obtain ⟨frame, found, stored⟩ := ih (by omega)
      refine ⟨frame, ?_, fun name => ?_⟩
      · rw [List.getElem?_append_left old, found, parent?, if_neg new]
      · rw [stored, writes, if_neg new]
  | set before target name value ih =>
    obtain ⟨frame, found, stored⟩ := ih present
    change ∃ frame : Frame, (before.tree.branches.modify target _)[i]? = _ ∧ _
    rw [List.getElem?_modify, found]
    by_cases here : target.val = i
    · refine ⟨frame.set name value, by simp [here, parent?], fun other => ?_⟩
      rw [Bindings.get?_set, writes, stored]
      by_cases same : other = name <;> simp [same, here]
    · refine ⟨frame, by simp [here, parent?], fun other => ?_⟩
      rw [stored, writes, if_neg fun both => here both.1.symm]

theorem path_of_branch {tree : ScopeTree} {i : Nat} {branch : Branch}
    (found : tree.branches[i]? = some branch) :
    tree.path i = branch.frame :: (branch.parent.map tree.path).getD [] := by
  rw [ScopeTree.path]
  split
  · rename_i missing
    rw [found] at missing
    cases missing
  · rename_i branch' found'
    obtain rfl := Option.some.inj (found.symm.trans found')
    split
    · rename_i top
      rw [top]
      rfl
    · rename_i p parent
      rw [parent]
      rfl

theorem walk_of_path {history : History n} {i : Nat} (present : i < n) {path : List Nat}
    (way : history.IsPath i path) (name : String) :
    (history.tree.path i).map (·.get? name) = path.map fun k => (history.writes k name).head? := by
  induction way with
  | @root i top =>
    obtain ⟨frame, found, stored⟩ := branch_of_history history present
    rw [path_of_branch found, top, List.map_singleton, ← stored]
    rfl
  | @up i p path parent further ih =>
    obtain ⟨frame, found, stored⟩ := branch_of_history history present
    rw [path_of_branch found, parent, List.map_cons, List.map_cons, stored,
      ← ih (parent?_lt history parent).2]
    rfl

/-! ## Look-ups -/

section
variable {history : History n} {i : Nat} (present : i < n) {path : List Nat}
  (way : history.IsPath i path)
include present way

theorem get?_eq_findSome? (name : String) : history.tree.get? i name =
    path.findSome? fun k => (history.writes k name).head? := by
  have walk := congrArg (List.findSome? id) (walk_of_path present way name)
  rw [List.findSome?_map, List.findSome?_map] at walk
  exact walk

theorem get?_eq_some_iff (name : String) (value : Value) :
    history.tree.get? i name = some value ↔
      ∃ frame, history.Reaches path name frame ∧ (history.writes frame name).head? = some value := by
  rw [get?_eq_findSome? present way, List.findSome?_eq_some_iff]
  simp only [List.head?_eq_none_iff]
  constructor
  · rintro ⟨nearer, frame, further, split, latest, never⟩
    exact ⟨frame, ⟨nearer, further, split, never⟩, latest⟩
  · rintro ⟨frame, ⟨nearer, further, split, never⟩, latest⟩
    exact ⟨nearer, frame, further, split, latest, never⟩

theorem get?_eq_none_iff (name : String) :
    history.tree.get? i name = none ↔ ∀ k ∈ path, history.writes k name = [] := by
  rw [get?_eq_findSome? present way, List.findSome?_eq_none_iff]
  simp only [List.head?_eq_none_iff]

end

theorem contains_eq (tree : ScopeTree) (i : Nat) (name : String) :
    tree.contains i name = (tree.get? i name).isSome := by
  unfold ScopeTree.contains ScopeTree.get? Scope.lookup
  induction tree.path i with
  | nil => rfl
  | cons frame frames ih =>
    rw [List.any_cons, List.findSome?_cons, ih, Bindings.contains]
    cases frame.get? name <;> rfl

/-! ## Bindings that are made later -/

theorem path_set {history : History n} {i : Nat} {path : List Nat} (way : history.IsPath i path)
    (frame : Fin n) (name : String) (value : Value) :
    (history.set frame name value).IsPath i path := by
  induction way with
  | root top => exact .root top
  | up parent _ ih => exact .up parent ih

section
variable {history : History n} {i : Nat} (present : i < n) {path : List Nat}
  (way : history.IsPath i path) (frame : Fin n) (name : String) (value : Value)
include present way

theorem get?_set_of_reaches (reaches : history.Reaches path name frame) :
    (history.set frame name value).tree.get? i name = some value := by
  obtain ⟨nearer, further, split, never⟩ := reaches
  rw [get?_eq_some_iff present (path_set way frame name value)]
  refine ⟨frame, ⟨nearer, further, split, fun k member => ?_⟩, ?_⟩
  · have decreases := path_decreases way
    rw [split, List.pairwise_append] at decreases
    have above : k > frame := decreases.2.2 k member frame List.mem_cons_self
    rw [writes, if_neg fun both => Nat.ne_of_gt above both.1]
    exact never k member
  · rw [writes, if_pos ⟨rfl, rfl⟩, List.head?_cons]

theorem get?_set_of_not_reaches {other : String}
    (apart : ¬ (other = name ∧ history.Reaches path name frame)) :
    (history.set frame name value).tree.get? i other = history.tree.get? i other := by
  apply Option.ext
  intro found
  rw [get?_eq_some_iff present (path_set way frame name value), get?_eq_some_iff present way]
  constructor
  · rintro ⟨k, ⟨nearer, further, split, never⟩, latest⟩
    have before : ∀ j ∈ nearer, history.writes j other = [] := by
      intro j member
      have still := never j member
      rw [writes] at still
      split at still
      · cases still
      · exact still
    have elsewhere : ¬ (k = frame ∧ other = name) := by
      rintro ⟨rfl, rfl⟩
      exact apart ⟨rfl, nearer, further, split, before⟩
    rw [writes, if_neg elsewhere] at latest
    exact ⟨k, ⟨nearer, further, split, before⟩, latest⟩
  · rintro ⟨k, ⟨nearer, further, split, never⟩, latest⟩
    have elsewhere : ¬ (k = frame ∧ other = name) := by
      rintro ⟨rfl, rfl⟩
      exact apart ⟨rfl, nearer, further, split, never⟩
    refine ⟨k, ⟨nearer, further, split, fun j member => ?_⟩, ?_⟩
    · rw [writes, if_neg]
      · exact never j member
      · rintro ⟨rfl, rfl⟩
        -- A frame before one that is reached is reached as well.
        obtain ⟨first, rest, rfl⟩ := List.append_of_mem member
        refine apart ⟨rfl, first, rest ++ k :: further, by simp [split], fun l early => ?_⟩
        exact never l (List.mem_append_left _ early)
    · rw [writes, if_neg elsewhere]
      exact latest

end

/-- From each frame one path leads up to the root, along which the walk goes. A look-up gives the
latest value in the nearest frame on it in which the name was ever stored, and nothing if there is
none. A binding that is made in a frame later on is seen from exactly those frames whose path
reaches it before it reaches another frame with the name, and it changes no other look-up. -/
theorem lookup_over_history {n : Nat} (history : History n) (i : Fin n) :
    ∃ path, (∀ path', history.IsPath i path' ↔ path' = path) ∧ path.Pairwise (· > ·) ∧
      path.getLast? = some 0 ∧ (history.tree.path i).length = path.length ∧
      (∀ name value, history.tree.get? i name = some value ↔
        ∃ frame, history.Reaches path name frame ∧
          (history.writes frame name).head? = some value) ∧
      (∀ name, history.tree.get? i name = none ↔ ∀ k ∈ path, history.writes k name = []) ∧
      (∀ name, history.tree.contains i name = true ↔ history.tree.get? i name ≠ none) ∧
      ∀ (frame : Fin n) name value other,
        (other = name ∧ history.Reaches path name frame →
          (history.set frame name value).tree.get? i other = some value) ∧
        (¬ (other = name ∧ history.Reaches path name frame) →
          (history.set frame name value).tree.get? i other = history.tree.get? i other) := by
  obtain ⟨path, way⟩ := exists_path history i
  refine ⟨path, fun path' => ⟨fun way' => path_unique way' way, fun same => same ▸ way⟩,
    path_decreases way, path_ends way i.isLt, ?_, get?_eq_some_iff i.isLt way,
    get?_eq_none_iff i.isLt way, fun name => ?_, fun frame name value other => ⟨?_, ?_⟩⟩
  · simpa using congrArg List.length (walk_of_path i.isLt way "")
  · rw [contains_eq, Option.isSome_iff_ne_none]
  · rintro ⟨rfl, reaches⟩
    exact get?_set_of_reaches i.isLt way frame other value reaches
  · exact get?_set_of_not_reaches i.isLt way frame name value

/-- What is bound in a parent after its child was made is seen by the child. -/
example : (History.set (.child (.root []) 0 []) 0 "w" (.number 2)).tree.get? 1 "w" =
    some (.number 2) := by
  cbv

end Proofs

end SolidScript
