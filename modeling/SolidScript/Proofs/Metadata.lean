import Mathlib.Data.List.Induction
import Mathlib.Data.List.TakeWhile
import SolidScript.Metadata
import SolidScript.Proofs.Results
import SolidScript.Proofs.Text.Pieces

namespace SolidScript

def Metadata.read (m : Metadata) (text : List Char) : Except MetadataError Metadata :=
  (Text.lines text).foldlM Metadata.readLine m

namespace Proofs
open Text

theorem trim_cons_blank {c : Char} (blank : isBlank c = true) (cs : List Char) :
    trim (c :: cs) = trim cs := by
  simp [trim, trimBy, blank]

theorem trim_append_blank {c : Char} (blank : isBlank c = true) (cs : List Char) :
    trim (cs ++ [c]) = trim cs := by
  simp only [trim, trimBy, List.dropWhile_append]
  split
  · rename_i allBlank
    rw [List.isEmpty_iff] at allBlank
    simp [allBlank, blank]
  · simp [blank]

theorem trim_cons_of_not_blank {c : Char} (noBlank : isBlank c = false) (cs : List Char) :
    ∃ rest, trim (c :: cs) = c :: rest := by
  have first : (c :: cs).dropWhile isBlank = c :: cs := by simp [noBlank]
  have last : [c].dropWhile isBlank = [c] := by simp [noBlank]
  rw [trim, trimBy, first, List.reverse_cons, List.dropWhile_append, last]
  split
  · exact ⟨[], rfl⟩
  · exact ⟨(cs.reverse.dropWhile isBlank).reverse, by simp⟩

theorem trim_split (cs : List Char) : ∃ lead trail, cs = lead ++ (trim cs ++ trail) ∧
    (∀ c ∈ lead, isBlank c = true) ∧ ∀ c ∈ trail, isBlank c = true := by
  refine ⟨cs.takeWhile isBlank, ((cs.dropWhile isBlank).reverse.takeWhile isBlank).reverse,
    ?_, fun _ => List.mem_takeWhile_imp, ?_⟩
  · rw [trim, trimBy, ← List.reverse_append, List.takeWhile_append_dropWhile, List.reverse_reverse,
      List.takeWhile_append_dropWhile]
  · intro c member
    exact List.mem_takeWhile_imp (List.mem_reverse.mp member)

theorem lines_newline (text later : List Char) :
    lines (text ++ '\n' :: later) = lines text ++ lines later := fields_append '\n' text later

theorem lines_of_one {line : List Char} (oneLine : '\n' ∉ line) : lines line = [line] :=
  fields_of_not_mem oneLine

theorem read_newline (m : Metadata) (text later : List Char) :
    m.read (text ++ '\n' :: later) = m.read text >>= fun m' => m'.read later := by
  rw [Metadata.read, lines_newline, List.foldlM_append]
  rfl

theorem read_of_one (m : Metadata) {line : List Char} (oneLine : '\n' ∉ line) :
    m.read line = m.readLine line := by
  rw [Metadata.read, lines_of_one oneLine, List.foldlM_cons]
  cases m.readLine line <;> rfl

theorem read_nil (m : Metadata) : m.read [] = .ok m := by
  rw [read_of_one m (by simp)]
  rfl

theorem readLine_congr (m : Metadata) {line line' : List Char} (same : trim line = trim line') :
    m.readLine line = m.readLine line' := by
  simp only [Metadata.readLine, Directive.ofLine, same]

theorem read_cons_blank (m : Metadata) {c : Char} (blank : isBlank c = true) (text : List Char) :
    m.read (c :: text) = m.read text := by
  by_cases newline : c = '\n'
  · subst newline
    have first := read_newline m [] text
    rwa [read_nil] at first
  · simp only [Metadata.read, lines, fields, newline, if_false]
    cases first : fields '\n' text with
    | nil => exact absurd first (fields_ne_nil _ _)
    | cons line rest =>
      rw [List.foldlM_cons, List.foldlM_cons, readLine_congr m (trim_cons_blank blank line)]

theorem read_append_blank (m : Metadata) {c : Char} (blank : isBlank c = true) (text : List Char) :
    m.read (text ++ [c]) = m.read text := by
  by_cases newline : c = '\n'
  · subst newline
    rw [read_newline]
    cases m.read text with
    | error e => rfl
    | ok m' => exact read_nil m'
  · -- Only the last line grows, so the text is cut at its first newline and the rest is shorter.
    by_cases several : '\n' ∈ text
    · obtain ⟨line, rest, whole⟩ := List.append_of_mem several
      have shorter : rest.length < text.length := by simp [whole]; omega
      rw [whole, List.append_assoc, List.cons_append, read_newline, read_newline]
      exact congrArg (m.read line >>= ·) (funext fun m' => read_append_blank m' blank rest)
    · have oneLine : '\n' ∉ text ++ [c] := by simp [several, Ne.symm newline]
      rw [read_of_one m several, read_of_one m oneLine]
      exact readLine_congr m (trim_append_blank blank text)
termination_by text.length
decreasing_by exact shorter

theorem read_trim (m : Metadata) (text : List Char) : m.read (trim text) = m.read text := by
  obtain ⟨lead, trail, whole, leadBlank, trailBlank⟩ := trim_split text
  have trailing : m.read (trim text ++ trail) = m.read (trim text) := by
    clear whole leadBlank
    induction trail using List.reverseRecOn with
    | nil => rw [List.append_nil]
    | append_singleton trail c ih =>
      rw [← List.append_assoc, read_append_blank m (trailBlank c (by simp))]
      exact ih fun d member => trailBlank d (by simp [member])
  have leading : m.read (lead ++ (trim text ++ trail)) = m.read (trim text ++ trail) := by
    clear whole trailing
    induction lead with
    | nil => rfl
    | cons c lead ih =>
      rw [List.forall_mem_cons] at leadBlank
      rw [List.cons_append, read_cons_blank m leadBlank.1, ih leadBlank.2]
  calc m.read (trim text) = m.read (trim text ++ trail) := trailing.symm
    _ = m.read (lead ++ (trim text ++ trail)) := leading.symm
    _ = m.read text := by rw [← whole]

theorem readLine_succeeds {m m' : Metadata} {line : List Char} (read : m.readLine line = .ok m')
    (other : Metadata) : ∃ other', other.readLine line = .ok other' := by
  obtain ⟨directive, found, _⟩ := bind_eq_ok.mp read
  unfold Metadata.readLine
  rw [found]
  cases directive with
  | none => exact ⟨other, rfl⟩
  | some directive => exact ⟨other.apply directive, rfl⟩

theorem read_succeeds {m m' : Metadata} {text : List Char} (read : m.read text = .ok m')
    (other : Metadata) : ∃ other', other.read text = .ok other' := by
  unfold Metadata.read at read ⊢
  generalize lines text = all at read ⊢
  induction all generalizing m other with
  | nil => exact ⟨other, rfl⟩
  | cons line rest ih =>
    rw [List.foldlM_cons] at read
    obtain ⟨next, first, later⟩ := bind_eq_ok.mp read
    obtain ⟨other', first'⟩ := readLine_succeeds first other
    rw [List.foldlM_cons, first']
    exact ih other' later

end Proofs

end SolidScript
