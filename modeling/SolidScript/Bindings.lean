/-!
# Bindings

Names with values, in the order in which the names first came. Setting a name that is present
changes its value and keeps its place; a new name goes to the end.
-/

namespace SolidScript

abbrev Bindings (α : Type) := List (String × α)

namespace Bindings

variable {α : Type}

def get? : Bindings α → String → Option α
  | [], _ => none
  | (key, value) :: rest, name => if key = name then some value else get? rest name

def contains (b : Bindings α) (name : String) : Bool := (b.get? name).isSome

def set : Bindings α → String → α → Bindings α
  | [], name, value => [(name, value)]
  | (key, old) :: rest, name, value =>
    if key = name then (key, value) :: rest else (key, old) :: set rest name value

def keys (b : Bindings α) : List String := b.map Prod.fst

/-- Set each pair in turn, so the last value of a name wins. -/
def ofPairs (pairs : List (String × α)) : Bindings α :=
  pairs.foldl (fun b pair => b.set pair.1 pair.2) []

@[simp] theorem get?_nil (name : String) : get? ([] : Bindings α) name = none := rfl

theorem get?_set_self (b : Bindings α) (name : String) (value : α) :
    (b.set name value).get? name = some value := by
  induction b with
  | nil => simp [set, get?]
  | cons pair rest ih =>
    obtain ⟨key, old⟩ := pair
    by_cases h : key = name <;> simp [set, get?, h, ih]

theorem get?_set_of_ne (b : Bindings α) {name other : String} (value : α) (h : other ≠ name) :
    (b.set name value).get? other = b.get? other := by
  induction b with
  | nil => simp [set, get?, Ne.symm h]
  | cons pair rest ih =>
    obtain ⟨key, old⟩ := pair
    by_cases hk : key = name
    · subst hk; simp [set, get?, Ne.symm h]
    · simp [set, get?, hk, ih]

/-- A present name keeps its place, a new one goes to the end. -/
theorem keys_set (b : Bindings α) (name : String) (value : α) :
    (b.set name value).keys = if name ∈ b.keys then b.keys else b.keys ++ [name] := by
  induction b with
  | nil => simp [set, keys]
  | cons pair rest ih =>
    obtain ⟨key, old⟩ := pair
    by_cases h : key = name
    · simp [set, keys, h]
    · simp only [keys] at ih
      simp only [set, h, if_false, keys, List.map_cons, ih, List.mem_cons, Ne.symm h, false_or]
      by_cases present : name ∈ rest.map Prod.fst <;> simp [present]

theorem get?_isSome_iff (b : Bindings α) (name : String) :
    (b.get? name).isSome ↔ name ∈ b.keys := by
  induction b with
  | nil => simp [keys]
  | cons pair rest ih =>
    obtain ⟨key, old⟩ := pair
    by_cases h : key = name
    · simp [get?, keys, h]
    · simp only [keys] at ih
      simp [get?, keys, h, ih, Ne.symm h]

end Bindings

end SolidScript
