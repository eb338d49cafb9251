import SolidScript.Command.Session
import SolidScript.Proofs.Results

namespace SolidScript

namespace Arguments

variable {κ : Type} {c : Char}

structure Lacks (c : Char) (a : Arguments κ) : Prop where
  given : ∀ entry ∈ a.given, c ∉ entry.2.toList
  others : ∀ other ∈ a.others, c ∉ other.toList

theorem Lacks.prepend {a : Arguments κ} (lacks : Lacks c a) {given : List (κ × String)}
    (absent : ∀ entry ∈ given, c ∉ entry.2.toList) : Lacks c (a.prepend given) where
  given := List.forall_mem_append.mpr ⟨absent, lacks.given⟩
  others := lacks.others

theorem Lacks.value? [DecidableEq κ] {a : Arguments κ} (lacks : Lacks c a) {key : κ}
    {value : String} (found : a.value? key = some value) : c ∉ value.toList := by
  have member : value ∈ a.values key := List.mem_of_getLast? found
  obtain ⟨entry, among, chosen⟩ := List.mem_filterMap.mp member
  split at chosen
  · cases chosen
    exact lacks.given entry among
  · cases chosen

end Arguments

/-- Whatever is read from a command line is made of the characters of its arguments. -/
def Readers.Faithful (readers : Readers) : Prop :=
  ∀ rules mixed args a, readers.arguments rules mixed args = .ok a →
    ∀ c : Char, (∀ arg ∈ args, c ∉ arg.toList) → a.Lacks c

namespace Proofs
open Arguments

variable {κ : Type} {c : Char}

theorem not_mem_dropWhile {cs : List Char} {p : Char → Bool} (absent : c ∉ cs) :
    c ∉ cs.dropWhile p :=
  fun member => absent ((List.dropWhile_suffix p).subset member)

theorem splitEquals_lacks {cs : List Char} {name value : String} (absent : c ∉ cs)
    (split : Arguments.splitEquals cs = (name, some value)) : c ∉ value.toList := by
  have behind := not_mem_dropWhile (p := (· ≠ '=')) absent
  unfold Arguments.splitEquals at split
  split at split
  · cases split
  · rename_i found
    cases split
    rw [found] at behind
    simpa using fun member => behind (List.mem_cons_of_mem _ member)

theorem readLong_lacks {rule : OptionRule κ} {name : String} {value : Option String}
    {piece : Arguments.Piece κ} (absent : ∀ text ∈ value, c ∉ text.toList)
    (read : Arguments.readLong rule name value = .ok piece) :
    ∀ entry ∈ piece.given, c ∉ entry.2.toList := by
  unfold Arguments.readLong at read
  split at read <;> cases read <;> simp_all

theorem readLetters_lacks (rules : List (OptionRule κ)) {cs : List Char}
    {piece : Arguments.Piece κ} (absent : c ∉ cs)
    (read : Arguments.readLetters rules cs = .ok piece) :
    ∀ entry ∈ piece.given, c ∉ entry.2.toList := by
  induction cs generalizing piece with
  | nil =>
    cases read
    simp
  | cons d cs ih =>
    simp only [List.mem_cons, not_or] at absent
    rw [Arguments.readLetters] at read
    split at read
    · cases read
    · split at read
      · split at read <;> cases read <;> simp [absent.2]
      · obtain ⟨later, others, whole⟩ := bind_eq_ok.mp read
        cases whole
        rw [List.forall_mem_cons]
        exact ⟨by simp, ih absent.2 others⟩

theorem readOption_lacks (rules : List (OptionRule κ)) {cs : List Char}
    {piece : Arguments.Piece κ} (absent : c ∉ cs)
    (read : Arguments.readOption rules cs = .ok piece) :
    ∀ entry ∈ piece.given, c ∉ entry.2.toList := by
  unfold Arguments.readOption at read
  cases parts : Arguments.splitEquals cs with
  | mk name value =>
    rw [parts] at read
    dsimp only at read
    split at read
    · refine readLong_lacks ?_ read
      rintro text ⟨⟩
      exact splitEquals_lacks absent parts
    · split at read
      · cases read
      · exact readLetters_lacks rules (fun member => absent (List.mem_of_mem_drop member)) read

theorem read_lacks (rules : List (OptionRule κ)) (mixed : Bool) {args : List String}
    {a : Arguments κ} (absent : ∀ arg ∈ args, c ∉ arg.toList)
    (read : Arguments.read rules mixed args = .ok a) : Lacks c a := by
  fun_induction Arguments.read rules mixed args generalizing a with
  | case1 =>
    cases read
    exact ⟨by simp, by simp⟩
  | case2 rest =>
    cases read
    exact ⟨by simp, (List.forall_mem_cons.mp absent).2⟩
  | case3 => cases read
  | case4 arg rest _ _ given option ih =>
    obtain ⟨first, later⟩ := List.forall_mem_cons.mp absent
    obtain ⟨others, found, rfl⟩ := map_eq_ok.mp read
    exact (ih later found).prepend (readOption_lacks rules first option)
  | case5 => cases read
  | case6 arg _ _ given key name option value rest ih =>
    obtain ⟨first, later⟩ := List.forall_mem_cons.mp absent
    obtain ⟨second, later⟩ := List.forall_mem_cons.mp later
    obtain ⟨others, found, rfl⟩ := map_eq_ok.mp read
    refine (ih later found).prepend (List.forall_mem_append.mpr ⟨?_, by simpa using second⟩)
    exact readOption_lacks rules first option
  | case7 arg rest _ _ _ ih =>
    obtain ⟨first, later⟩ := List.forall_mem_cons.mp absent
    obtain ⟨others, found, rfl⟩ := map_eq_ok.mp read
    have lacks := ih later found
    exact ⟨lacks.given, List.forall_mem_cons.mpr ⟨first, lacks.others⟩⟩
  | case8 arg rest =>
    cases read
    exact ⟨by simp, absent⟩

theorem own_faithful : Readers.own.Faithful :=
  fun rules mixed _ _ read _ absent => read_lacks rules mixed absent read

section
variable {readers : Readers} {rules : List (OptionRule OptionKey)} {mixed : Bool}
  {args : List String} {a : Arguments OptionKey}

theorem mem_arg_of_value? (faithful : readers.Faithful)
    (read : readers.arguments rules mixed args = .ok a) {key : OptionKey} {value : String}
    (found : a.value? key = some value) (member : c ∈ value.toList) :
    ∃ arg ∈ args, c ∈ arg.toList := by
  refine Classical.byContradiction fun none => ?_
  simp only [not_exists, not_and] at none
  exact (faithful _ _ _ _ read c none).value? found member

theorem mem_arg_of_other (faithful : readers.Faithful)
    (read : readers.arguments rules mixed args = .ok a) {other : String}
    (among : other ∈ a.others) (member : c ∈ other.toList) : ∃ arg ∈ args, c ∈ arg.toList := by
  refine Classical.byContradiction fun none => ?_
  simp only [not_exists, not_and] at none
  exact (faithful _ _ _ _ read c none).others other among member

end

theorem fields_lack {separator : Char} {cs : List Char} (absent : c ∉ cs) :
    ∀ field ∈ Text.fields separator cs, c ∉ field := by
  induction cs with
  | nil => simp [Text.fields]
  | cons d cs ih =>
    simp only [List.mem_cons, not_or] at absent
    have later := ih absent.2
    rw [Text.fields]
    split
    · exact List.forall_mem_cons.mpr ⟨by simp, later⟩
    · split
      · simpa using absent.1
      · rename_i same
        rw [same] at later
        obtain ⟨first, rest⟩ := List.forall_mem_cons.mp later
        exact List.forall_mem_cons.mpr ⟨by simp [absent.1, first], rest⟩

theorem intercalate_lacks {separator : List Char} {pieces : List (List Char)}
    (between : c ∉ separator) (absent : ∀ piece ∈ pieces, c ∉ piece) :
    c ∉ separator.intercalate pieces := by
  induction pieces with
  | nil => simp
  | cons piece pieces ih =>
    obtain ⟨first, later⟩ := List.forall_mem_cons.mp absent
    cases pieces with
    | nil => simpa using first
    | cons next pieces =>
      rw [List.intercalate_cons_cons]
      simp [first, between, ih later]

theorem rootOf_lacks (slash : c ≠ '/') (cs : List Char) : c ∉ (Path.rootOf cs).toList := by
  unfold Path.rootOf
  split <;> simp [slash]

theorem text_lacks {path : String} (absent : c ∉ path.toList) (slash : c ≠ '/') (dot : c ≠ '.') :
    c ∉ (Path.ofText path).text.toList := by
  have parts : ∀ part ∈ ((Path.ofText path).parts.map String.toList), c ∉ part := by
    simp only [Path.ofText, Path.rawParts, List.mem_map, List.mem_filter, forall_exists_index,
      and_imp]
    rintro _ _ field member rfl - rfl
    simpa using fields_lack absent field member
  unfold Path.text
  dsimp only
  split
  · simpa using dot
  · rw [String.toList_append, String.toList_intercalate, List.mem_append, not_or]
    exact ⟨rootOf_lacks slash _, intercalate_lacks (by simpa using slash) parts⟩

end Proofs

end SolidScript
