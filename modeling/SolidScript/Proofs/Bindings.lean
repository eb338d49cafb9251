import Mathlib.Data.List.Induction
import Mathlib.Data.List.Nodup
import SolidScript.Bindings

namespace SolidScript.Bindings

variable {α : Type}

theorem get?_set (b : Bindings α) (name other : String) (value : α) :
    (b.set name value).get? other = if other = name then some value else b.get? other := by
  by_cases same : other = name
  · subst same
    simp [get?_set_self]
  · simp [get?_set_of_ne b value same, same]

theorem nodup_keys_set {b : Bindings α} (distinct : b.keys.Nodup) (name : String) (value : α) :
    (b.set name value).keys.Nodup := by
  rw [keys_set]
  split
  · exact distinct
  · rename_i absent
    rw [List.nodup_append]
    refine ⟨distinct, List.nodup_singleton _, ?_⟩
    rintro key present other fresh rfl
    rw [List.mem_singleton] at fresh
    exact absent (fresh ▸ present)

theorem get?_eq_none_of_not_mem {b : Bindings α} {name : String} (absent : name ∉ b.keys) :
    b.get? name = none := by
  rw [← get?_isSome_iff] at absent
  simpa using absent

theorem eq_of_keys_of_get? {b c : Bindings α} (distinct : b.keys.Nodup) (keys : b.keys = c.keys)
    (values : ∀ name, b.get? name = c.get? name) : b = c := by
  induction b generalizing c with
  | nil => cases c with
    | nil => rfl
    | cons => simp [Bindings.keys] at keys
  | cons entry rest ih =>
    cases c with
    | nil => simp [Bindings.keys] at keys
    | cons other others =>
      obtain ⟨key, value⟩ := entry
      obtain ⟨key', value'⟩ := other
      simp only [Bindings.keys, List.map_cons, List.cons.injEq] at keys
      obtain ⟨rfl, tails⟩ := keys
      obtain ⟨fresh, distinct⟩ := List.nodup_cons.mp distinct
      have first : value = value' := by simpa [get?] using values key
      have others_eq : rest = others := by
        refine ih distinct tails fun name => ?_
        by_cases same : key = name
        · subst same
          rw [get?_eq_none_of_not_mem (b := rest) fresh,
            get?_eq_none_of_not_mem (b := others) (by rw [Bindings.keys, ← tails]; exact fresh)]
        · simpa [get?, same] using values name
      rw [first, others_eq]

theorem set_of_not_mem {b : Bindings α} {name : String} (absent : name ∉ b.keys) (value : α) :
    b.set name value = b ++ [(name, value)] := by
  induction b with
  | nil => rfl
  | cons entry rest ih =>
    obtain ⟨key, old⟩ := entry
    simp only [keys, List.map_cons, List.mem_cons, not_or] at absent
    simp only [set, Ne.symm absent.1, if_false, List.cons_append]
    rw [ih absent.2]

theorem set_append_of_not_mem {before rest : Bindings α} {name : String} {old value : α}
    (fresh : name ∉ before.keys) :
    Bindings.set (before ++ (name, old) :: rest) name value = before ++ (name, value) :: rest := by
  induction before with
  | nil => simp [set]
  | cons entry before ih =>
    obtain ⟨key, _⟩ := entry
    simp only [keys, List.map_cons, List.mem_cons, not_or] at fresh
    simp only [List.cons_append, set, Ne.symm fresh.1, if_false]
    rw [ih fresh.2]

theorem foldl_set_append {before old entries : Bindings α} (keys : old.keys = entries.keys)
    (distinct : (before ++ entries).keys.Nodup) :
    entries.foldl (fun b entry => Bindings.set b entry.1 entry.2) (before ++ old) =
      before ++ entries := by
  induction entries generalizing before old with
  | nil =>
    have none : old = [] := List.map_eq_nil_iff.mp keys
    rw [none, List.foldl_nil]
  | cons entry entries ih =>
    cases old with
    | nil => simp [Bindings.keys] at keys
    | cons first others =>
      obtain ⟨key, value⟩ := entry
      obtain ⟨key', former⟩ := first
      simp only [Bindings.keys, List.map_cons, List.cons.injEq] at keys
      obtain ⟨rfl, tails⟩ := keys
      have fresh : key' ∉ Bindings.keys before := by
        simp only [Bindings.keys, List.map_append, List.map_cons, List.nodup_append] at distinct
        exact fun member => distinct.2.2 _ member _ List.mem_cons_self rfl
      rw [List.foldl_cons, set_append_of_not_mem fresh, List.append_cons]
      rw [ih tails (by rwa [← List.append_cons]), ← List.append_cons]

theorem foldl_set_eq {old entries : Bindings α} (keys : old.keys = entries.keys)
    (distinct : entries.keys.Nodup) :
    entries.foldl (fun b entry => Bindings.set b entry.1 entry.2) old = entries :=
  @foldl_set_append _ [] old entries keys distinct

theorem keys_foldl_set_of_mem {b : Bindings α} {pairs : List (String × α)}
    (present : ∀ pair ∈ pairs, pair.1 ∈ b.keys) :
    (pairs.foldl (fun b pair => Bindings.set b pair.1 pair.2) b).keys = b.keys := by
  induction pairs generalizing b with
  | nil => rfl
  | cons pair pairs ih =>
    obtain ⟨first, others⟩ := List.forall_mem_cons.mp present
    have kept : (b.set pair.1 pair.2).keys = b.keys := by rw [keys_set, if_pos first]
    rw [List.foldl_cons, ih (by rwa [kept]), kept]

theorem ofPairs_append_singleton (pairs : List (String × α)) (pair : String × α) :
    ofPairs (pairs ++ [pair]) = (ofPairs pairs).set pair.1 pair.2 := by
  simp [ofPairs]

theorem keys_ofPairs (pairs : List (String × α)) :
    (ofPairs pairs).keys = (pairs.map Prod.fst).eraseDups := by
  induction pairs using List.reverseRecOn with
  | nil => rfl
  | append_singleton pairs pair ih =>
    rw [ofPairs_append_singleton, keys_set, ih, List.map_append, List.eraseDups_append]
    by_cases present : pair.1 ∈ pairs.map Prod.fst
    · simp [present, List.mem_eraseDups, List.removeAll]
    · simp [present, List.mem_eraseDups, List.removeAll, List.eraseDups_cons]

theorem nodup_keys_ofPairs (pairs : List (String × α)) : (ofPairs pairs).keys.Nodup := by
  induction pairs using List.reverseRecOn with
  | nil => exact List.nodup_nil
  | append_singleton pairs pair ih =>
    rw [ofPairs_append_singleton]
    exact nodup_keys_set ih _ _

theorem ofPairs_of_nodup {pairs : List (String × α)} (distinct : (pairs.map Prod.fst).Nodup) :
    ofPairs pairs = pairs := by
  induction pairs using List.reverseRecOn with
  | nil => rfl
  | append_singleton pairs pair ih =>
    rw [List.map_append, List.nodup_append] at distinct
    obtain ⟨shorter, _, apart⟩ := distinct
    have fresh : pair.1 ∉ keys pairs := fun member => apart _ member _ List.mem_cons_self rfl
    rw [ofPairs_append_singleton, ih shorter, set_of_not_mem fresh]

theorem get?_foldl_set (pairs : List (String × α)) (b : Bindings α) (name : String) :
    get? (pairs.foldl (fun b pair => b.set pair.1 pair.2) b) name =
      (pairs.reverse.lookup name).or (b.get? name) := by
  induction pairs using List.reverseRecOn with
  | nil => rfl
  | append_singleton pairs pair ih =>
    rw [List.foldl_append, List.foldl_cons, List.foldl_nil, get?_set, ih, List.reverse_append]
    obtain ⟨key, value⟩ := pair
    by_cases same : name = key
    · simp [same]
    · simp [same, List.lookup_cons, beq_eq_false_iff_ne.mpr same]

section
variable {pairs : List (String × α)} (b : Bindings α) {name : String}

theorem get?_foldl_set_of_mem (distinct : (pairs.map Prod.fst).Nodup) {value : α}
    (member : (name, value) ∈ pairs) :
    get? (pairs.foldl (fun b pair => b.set pair.1 pair.2) b) name = some value := by
  obtain ⟨before, after, rfl⟩ := List.append_of_mem member
  have last : (before ++ (name, value) :: after).reverse.lookup name = some value := by
    rw [List.lookup_eq_some_iff]
    refine ⟨after.reverse, before.reverse, by simp, fun pair later => ?_⟩
    rw [List.map_append, List.map_cons, List.nodup_append, List.nodup_cons] at distinct
    rw [bne_iff_ne]
    rintro rfl
    have repeated : pair.1 ∈ after.map Prod.fst :=
      List.mem_map_of_mem (List.mem_reverse.mp later)
    exact distinct.2.1.1 repeated
  rw [get?_foldl_set, last, Option.some_or]

theorem get?_foldl_set_of_not_mem (absent : name ∉ pairs.map Prod.fst) :
    get? (pairs.foldl (fun b pair => b.set pair.1 pair.2) b) name = b.get? name := by
  have none : pairs.reverse.lookup name = none := by
    rw [List.lookup_eq_none_iff]
    intro pair member
    rw [bne_iff_ne]
    rintro rfl
    exact absent (List.mem_map_of_mem (List.mem_reverse.mp member))
  rw [get?_foldl_set, none, Option.none_or]

end

theorem get?_ofPairs (pairs : List (String × α)) (name : String) :
    (ofPairs pairs).get? name = pairs.reverse.lookup name :=
  (get?_foldl_set pairs [] name).trans (Option.or_none ..)

end SolidScript.Bindings
