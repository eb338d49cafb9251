import Mathlib.Algebra.Ring.Nat
import Mathlib.Data.List.Infix
import SolidScript.Text.Line

namespace SolidScript

def Text.occurrences (word text : List Char) : Nat := text.tails.countP word.isPrefixOf

namespace Proofs
open Text

variable {separator : Char} {word piece rest : List Char}

theorem fields_append (separator : Char) (text later : List Char) :
    fields separator (text ++ separator :: later) =
      fields separator text ++ fields separator later := by
  induction text with
  | nil => simp [fields]
  | cons c cs ih =>
    by_cases ends : c = separator
    · simp [fields, ends, ih]
    · simp only [List.cons_append, fields, ends, if_false, ih]
      cases first : fields separator cs with
      | nil => exact absurd first (fields_ne_nil _ _)
      | cons field rest => rfl

theorem fields_of_not_mem (apart : separator ∉ piece) : fields separator piece = [piece] := by
  induction piece with
  | nil => rfl
  | cons c cs ih =>
    rw [List.mem_cons, not_or] at apart
    rw [fields, if_neg (Ne.symm apart.1), ih apart.2]

theorem fields_cons_piece (apart : separator ∉ piece) (rest : List Char) :
    fields separator (piece ++ separator :: rest) = piece :: fields separator rest := by
  rw [fields_append, fields_of_not_mem apart, List.singleton_append]

theorem fields_intercalate {pieces : List (List Char)} (some : pieces ≠ [])
    (apart : ∀ piece ∈ pieces, separator ∉ piece) :
    fields separator ([separator].intercalate pieces) = pieces := by
  induction pieces with
  | nil => exact absurd rfl some
  | cons piece pieces ih =>
    obtain ⟨first, others⟩ := List.forall_mem_cons.mp apart
    cases pieces with
    | nil => rw [List.intercalate_singleton, fields_of_not_mem first]
    | cons next pieces =>
      rw [List.intercalate_cons_cons, List.append_assoc, List.singleton_append,
        fields_cons_piece first, ih (List.cons_ne_nil _ _) others]

theorem intercalate_concat (separator : Char) (pieces : List (List Char)) (last : List Char) :
    [separator].intercalate (pieces ++ [last]) =
      pieces.flatMap (fun piece => piece ++ [separator]) ++ last := by
  induction pieces with
  | nil => simp
  | cons piece pieces ih =>
    cases pieces with
    | nil => simp [List.intercalate_cons_cons]
    | cons next pieces =>
      rw [List.cons_append, List.cons_append, List.intercalate_cons_cons, ← List.cons_append, ih]
      simp

theorem length_fields (separator : Char) (text : List Char) :
    (fields separator text).length = text.count separator + 1 := by
  induction text with
  | nil => rfl
  | cons c cs ih =>
    by_cases ends : c = separator
    · simp [fields, ends, ih]
    · rw [fields, if_neg ends, List.count_cons_of_ne ends, ← ih]
      cases first : fields separator cs with
      | nil => exact absurd first (fields_ne_nil _ _)
      | cons field rest => rfl

theorem occurrences_nil (some : word ≠ []) : occurrences word [] = 0 := by
  cases word with
  | nil => exact absurd rfl some
  | cons => rfl

theorem occurrences_cons (word : List Char) (c : Char) (cs : List Char) :
    occurrences word (c :: cs) =
      occurrences word cs + if word <+: c :: cs then 1 else 0 := by
  simp [occurrences, List.countP_cons]

theorem occurrences_of_not_mem {c : Char} {text : List Char} (used : c ∈ word)
    (absent : c ∉ text) : occurrences word text = 0 := by
  rw [occurrences, List.countP_eq_zero]
  intro later ending begins
  rw [List.isPrefixOf_iff_prefix] at begins
  exact absent (((List.mem_tails _ _).mp ending).subset (begins.subset used))

theorem prefix_piece_iff (apart : separator ∉ word) :
    word <+: piece ++ separator :: rest ↔ word <+: piece := by
  refine ⟨fun begins => ?_, fun begins => begins.trans (List.prefix_append _ _)⟩
  rcases List.prefix_or_prefix_of_prefix begins (List.prefix_append piece _) with short | long
  · exact short
  · obtain ⟨others, rfl⟩ := long
    rw [List.prefix_append_right_inj] at begins
    cases others with
    | nil => rw [List.append_nil]
    | cons c cs =>
      rw [List.cons_prefix_cons] at begins
      simp [begins.1] at apart

theorem occurrences_piece (some : word ≠ []) (apart : separator ∉ word)
    (piece rest : List Char) :
    occurrences word (piece ++ separator :: rest) =
      occurrences word piece + occurrences word rest := by
  induction piece with
  | nil =>
    have elsewhere : ¬ word <+: separator :: rest := by
      intro begins
      have empty := (@prefix_piece_iff separator word [] rest apart).mp begins
      exact some (List.prefix_nil.mp empty)
    rw [List.nil_append, occurrences_cons, if_neg elsewhere, occurrences_nil some]
    omega
  | cons c piece ih =>
    have same := @prefix_piece_iff separator word (c :: piece) rest apart
    rw [List.cons_append] at same ⊢
    rw [occurrences_cons, occurrences_cons, ih]
    simp only [same]
    omega

theorem occurrences_intercalate (some : word ≠ []) (apart : separator ∉ word)
    (pieces : List (List Char)) :
    occurrences word ([separator].intercalate pieces) =
      (pieces.map (occurrences word)).sum := by
  induction pieces with
  | nil => exact occurrences_nil some
  | cons piece pieces ih =>
    cases pieces with
    | nil => simp
    | cons next pieces =>
      rw [List.intercalate_cons_cons, List.append_assoc, List.singleton_append,
        occurrences_piece some apart, ih]
      rfl

section
variable {first second : List Char} (apart : separator ∉ first)
include apart

theorem prefix_two_parts_iff (whole : separator ∉ piece) :
    first ++ separator :: second <+: piece ++ separator :: rest ↔
      first = piece ∧ second <+: rest := by
  constructor
  · rintro ⟨others, same⟩
    have cut := congrArg (fields separator) same
    rw [List.append_assoc, List.cons_append, fields_cons_piece apart, fields_cons_piece whole,
      List.cons.injEq] at cut
    rw [cut.1, List.append_assoc, List.cons_append, List.append_cancel_left_eq,
      List.cons.injEq] at same
    exact ⟨cut.1, others, same.2⟩
  · rintro ⟨rfl, begins⟩
    rw [List.prefix_append_right_inj, List.cons_prefix_cons]
    exact ⟨rfl, begins⟩

theorem occurrences_two_parts (whole : separator ∉ piece) :
    occurrences (first ++ separator :: second) (piece ++ separator :: rest) =
      (if first <:+ piece ∧ second <+: rest then 1 else 0) +
        occurrences (first ++ separator :: second) rest := by
  induction piece with
  | nil =>
    have here := @prefix_two_parts_iff separator [] rest first second apart whole
    rw [List.nil_append] at here ⊢
    simp only [occurrences_cons, here, List.suffix_nil]
    omega
  | cons c piece ih =>
    have here := @prefix_two_parts_iff separator (c :: piece) rest first second apart whole
    have later := ih (fun member => whole (List.mem_cons_of_mem c member))
    rw [List.cons_append] at here ⊢
    rw [occurrences_cons, later]
    simp only [here, List.suffix_cons_iff]
    -- The first part ends the piece at one place at most.
    by_cases full : first = c :: piece
    · have longer : ¬ first <:+ piece := by
        intro ending
        have short := ending.length_le
        rw [full, List.length_cons] at short
        omega
      simp only [longer, false_and, if_false, or_false]
      omega
    · simp only [full, false_and, if_false, false_or]
      omega
end

end Proofs

end SolidScript
