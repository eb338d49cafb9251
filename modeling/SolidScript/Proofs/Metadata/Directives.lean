import Mathlib.Data.List.DropRight
import SolidScript.Proofs.Metadata

namespace SolidScript

def Text.Bare (cs : List Char) : Prop :=
  (∀ c ∈ cs.head?, isBlank c = false) ∧ ∀ c ∈ cs.getLast?, isBlank c = false

namespace Directive
open Text

def command? (line : List Char) : Option (List Char) := (dropStart? mark (trim line)).map trim

def body? (word : String) (line : List Char) : Option (List Char) :=
  (command? line).bind (dropStart? (word.toList ++ [' ']))

def value? (word : String) (line : List Char) : Option String :=
  (body? word line).map fun body => String.ofList (trim body)

def parameter? (line : List Char) : Option Parameter :=
  (body? "param" line).bind fun body => Parameter.ofFields? (paramFields body)

/-- A parameter with fewer than five bars. -/
def Faulty (line : List Char) : Prop :=
  ∃ command ∈ command? line, "param ".toList <+: command ∧ command.count '|' < 5

instance : DecidablePred Faulty := fun line =>
  inferInstanceAs (Decidable (∃ command ∈ command? line, _))

end Directive

namespace Metadata
open Text

def told (m : Metadata) (lines : List (List Char)) : Metadata where
  id := (lines.filterMap (Directive.value? "id")).getLast?.getD m.id
  name := (lines.filterMap (Directive.value? "name")).getLast?.getD m.name
  description := (lines.filterMap (Directive.value? "description")).getLast?.getD m.description
  params := m.params ++ lines.filterMap Directive.parameter?

/-- The text that the last line of a script with one gives for a word. -/
def lastValue? (word source : String) : Option String :=
  ((lines source.toList).filterMap (Directive.value? word)).getLast?

end Metadata

namespace Proofs
open Text Directive Metadata

/-! ## Words -/

theorem dropStart?_of_not_mem {c : Char} {start text : List Char} (used : c ∈ start)
    (absent : c ∉ text) : dropStart? start text = none := by
  rw [Option.eq_none_iff_forall_ne_some]
  intro rest found
  rw [dropStart?_eq_some_iff] at found
  rw [found] at absent
  exact absent (List.mem_append_left _ used)

theorem dropStart?_word {word piece : List Char} (one : ' ' ∉ word) (whole : ' ' ∉ piece)
    (rest : List Char) :
    dropStart? (word ++ [' ']) (piece ++ ' ' :: rest) =
      if piece = word then some rest else none := by
  split
  · rename_i same
    rw [dropStart?_eq_some_iff, same, List.append_cons]
  · rename_i differs
    rw [Option.eq_none_iff_forall_ne_some]
    intro other found
    rw [dropStart?_eq_some_iff, ← List.append_cons] at found
    have cut := congrArg (fields ' ') found
    rw [fields_cons_piece whole, fields_cons_piece one, List.cons.injEq] at cut
    exact differs cut.1

theorem body?_of_one_word {line command : List Char} (found : command? line = some command)
    (one : ' ' ∉ command) (word : String) : body? word line = none := by
  rw [body?, found]
  exact dropStart?_of_not_mem (by simp) one

theorem body?_of_words {line piece rest : List Char}
    (found : command? line = some (piece ++ ' ' :: rest)) (whole : ' ' ∉ piece) {word : String}
    (one : ' ' ∉ word.toList) :
    body? word line = if String.ofList piece = word then some rest else none := by
  have same : String.ofList piece = word ↔ piece = word.toList := by
    rw [← String.toList_inj, String.toList_ofList]
  rw [body?, found]
  simp only [same]
  exact dropStart?_word one whole rest

theorem ofCommand_of_one_word {line command : List Char} (one : ' ' ∉ command) :
    ofCommand line command = .ok none := by
  have nothing : command.dropWhile (· ≠ ' ') = [] := by
    rw [List.dropWhile_eq_nil_iff]
    intro c member
    rw [decide_eq_true_eq]
    rintro rfl
    exact one member
  rw [ofCommand, nothing]

theorem split_at_space {piece : List Char} (whole : ' ' ∉ piece) (rest : List Char) :
    (piece ++ ' ' :: rest).takeWhile (· ≠ ' ') = piece ∧
      (piece ++ ' ' :: rest).dropWhile (· ≠ ' ') = ' ' :: rest := by
  have letters : ∀ c ∈ piece, decide (c ≠ ' ') = true := by
    intro c member
    rw [decide_eq_true_eq]
    rintro rfl
    exact whole member
  rw [List.takeWhile_append_of_pos letters, List.dropWhile_append_of_pos letters]
  simp

/-! ## Faults -/

theorem ofFields?_eq_none_iff {fields : List (List Char)} :
    Parameter.ofFields? fields = none ↔ fields.length < 6 := by
  unfold Parameter.ofFields?
  split
  · simp
  · rename_i short
    refine iff_of_true rfl ?_
    match fields, short with
    | [], _ | [_], _ | [_, _], _ | [_, _, _], _ | [_, _, _, _], _ | [_, _, _, _, _], _ => simp
    | _ :: _ :: _ :: _ :: _ :: _ :: _, short => exact absurd rfl (short _ _ _ _ _ _ _)

theorem param_eq_none_iff (body : List Char) :
    Parameter.ofFields? (paramFields body) = none ↔ body.count '|' < 5 := by
  rw [ofFields?_eq_none_iff, paramFields, List.length_map, length_fields]
  omega

theorem faulty_iff {line : List Char} :
    Faulty line ↔ ∃ body, body? "param" line = some body ∧ body.count '|' < 5 := by
  have begins (command : List Char) : "param ".toList <+: command ∧ command.count '|' < 5 ↔
      ∃ body, dropStart? ("param".toList ++ [' ']) command = some body ∧
        body.count '|' < 5 := by
    simp only [dropStart?_eq_some_iff]
    constructor
    · rintro ⟨⟨body, rfl⟩, few⟩
      refine ⟨body, rfl, ?_⟩
      rw [List.count_append] at few
      omega
    · rintro ⟨body, rfl, few⟩
      refine ⟨⟨body, rfl⟩, ?_⟩
      rw [List.count_append]
      exact (Nat.zero_add _).trans_lt few
  unfold Faulty body?
  cases command? line with
  | none => simp
  | some command => simpa using begins command

/-! ## One line -/

theorem told_one (m : Metadata) (line : List Char) :
    m.told [line] =
      { id := (value? "id" line).getD m.id
        name := (value? "name" line).getD m.name
        description := (value? "description" line).getD m.description
        params := m.params ++ (parameter? line).toList } := by
  have last (word : String) : ([line].filterMap (value? word)).getLast? = value? word line := by
    cases value : value? word line <;> simp [value]
  have params : [line].filterMap parameter? = (parameter? line).toList := by
    cases parameter : parameter? line <;> simp [parameter]
  simp only [Metadata.told, last, params]

theorem readLine_of_silent {line : List Char} (silent : ∀ word, body? word line = none)
    {m : Metadata} (read : ofLine line = .ok none) :
    m.readLine line = if Faulty line then .error ⟨String.ofList (trim line)⟩
      else .ok (m.told [line]) := by
  have faultless : ¬ Faulty line := by
    simp [faulty_iff, silent]
  have same : m.told [line] = m := by
    simp [told_one, value?, parameter?, silent]
  rw [Metadata.readLine, read, if_neg faultless, same]
  rfl

theorem readLine_of_words {line piece rest : List Char} (whole : ' ' ∉ piece)
    (found : command? line = some (piece ++ ' ' :: rest)) {m : Metadata}
    (read : ofLine line = ofCommand (trim line) (piece ++ ' ' :: rest)) :
    m.readLine line = if Faulty line then .error ⟨String.ofList (trim line)⟩
      else .ok (m.told [line]) := by
  obtain ⟨first, others⟩ := split_at_space whole rest
  have body {word : String} := @body?_of_words line piece rest found whole word
  have ids := @body "id" (by decide)
  have names := @body "name" (by decide)
  have descriptions := @body "description" (by decide)
  have params := @body "param" (by decide)
  rw [Metadata.readLine, read, ofCommand, others]
  dsimp only
  rw [first]
  generalize String.ofList piece = word at ids names descriptions params
  simp only [told_one, value?, parameter?, faulty_iff, ids, names, descriptions, params]
  split
  · simp [Metadata.apply]
  · simp [Metadata.apply]
  · simp [Metadata.apply]
  · have faults := param_eq_none_iff rest
    cases parsed : Parameter.ofFields? (paramFields rest) with
    | none =>
      have few := faults.mp parsed
      simp [few]
      rfl
    | some parameter =>
      have enough : ¬ rest.count '|' < 5 := by
        rw [← faults, parsed]
        exact Option.some_ne_none parameter
      simp [enough, parsed, Metadata.apply]
  · rename_i noId noName noDescription noParam
    simp [if_neg noId, if_neg noName, if_neg noDescription, if_neg noParam]

theorem readLine_eq (m : Metadata) (line : List Char) :
    m.readLine line = if Faulty line then .error ⟨String.ofList (trim line)⟩
      else .ok (m.told [line]) := by
  cases marked : dropStart? mark (trim line) with
  | none =>
    have nothing : command? line = none := by rw [command?, marked]; rfl
    apply readLine_of_silent
    · intro word
      rw [body?, nothing]
      rfl
    · simp only [ofLine, marked]
  | some text =>
    have found : command? line = some (trim text) := by rw [command?, marked]; rfl
    have read : ofLine line = ofCommand (trim line) (trim text) := by simp only [ofLine, marked]
    by_cases one : ' ' ∈ trim text
    · obtain ⟨piece, rest, words, whole⟩ := List.eq_append_cons_of_mem one
      rw [words] at found read
      exact readLine_of_words whole found read
    · apply readLine_of_silent (body?_of_one_word found one)
      rw [read, ofCommand_of_one_word one]

/-! ## All lines -/

theorem told_append (m : Metadata) (upper lower : List (List Char)) :
    (m.told upper).told lower = m.told (upper ++ lower) := by
  simp only [Metadata.told, List.filterMap_append, List.getLast?_append, Option.getD_or,
    List.append_assoc]

theorem readLines_eq (m : Metadata) (all : List (List Char)) :
    all.foldlM Metadata.readLine m = match all.find? (Faulty ·) with
      | some line => .error ⟨String.ofList (trim line)⟩
      | none => .ok (m.told all) := by
  induction all generalizing m with
  | nil => simp [Metadata.told]
  | cons line rest ih =>
    rw [List.foldlM_cons, readLine_eq]
    by_cases faulty : Faulty line
    · simp only [if_pos faulty, List.find?_cons, decide_eq_true faulty]
      rfl
    · simp only [if_neg faulty, List.find?_cons, decide_eq_false faulty]
      rw [ok_bind, ih, told_append, List.singleton_append]

section
variable {source fallback : String}

theorem ofSource_eq_ok_iff {m : Metadata} :
    Metadata.ofSource source fallback = .ok m ↔
      (∀ line ∈ lines source.toList, ¬ Faulty line) ∧
        m = (Metadata.named fallback).told (lines source.toList) := by
  rw [Metadata.ofSource, readLines_eq]
  cases found : (lines source.toList).find? (Faulty ·) with
  | none =>
    have faultless : ∀ line ∈ lines source.toList, ¬ Faulty line := by simpa using found
    rw [Except.ok.injEq, eq_comm]
    exact (and_iff_right faultless).symm
  | some line =>
    have faulty : Faulty line := by simpa using List.find?_some found
    refine ⟨nofun, fun ⟨faultless, _⟩ => ?_⟩
    exact absurd faulty (faultless line (List.mem_of_find?_eq_some found))

theorem ofSource_eq_error_iff {e : MetadataError} :
    Metadata.ofSource source fallback = .error e ↔
      ∃ before line after, lines source.toList = before ++ line :: after ∧ Faulty line ∧
        (∀ other ∈ before, ¬ Faulty other) ∧ e.line = String.ofList (trim line) := by
  have first (line : List Char) : (lines source.toList).find? (Faulty ·) = some line ↔
      Faulty line ∧ ∃ before after, lines source.toList = before ++ line :: after ∧
        ∀ other ∈ before, ¬ Faulty other := by
    rw [List.find?_eq_some_iff_append]
    simp
  rw [Metadata.ofSource, readLines_eq]
  constructor
  · intro fails
    split at fails
    · rename_i line found
      obtain ⟨faulty, before, after, whole, faultless⟩ := (first line).mp found
      cases fails
      exact ⟨before, line, after, whole, faulty, faultless, rfl⟩
    · cases fails
  · rintro ⟨before, line, after, whole, faulty, faultless, told⟩
    rw [(first line).mpr ⟨faulty, before, after, whole, faultless⟩]
    exact congrArg (Except.error ∘ MetadataError.mk) told.symm

end

/-! ## Values -/

theorem bare_trim (cs : List Char) : Bare (trim cs) := by
  have first {d : List Char} : ∀ c ∈ (d.dropWhile isBlank).head?, isBlank c = false := by
    intro c head
    have noBlank := List.head?_dropWhile_not isBlank d
    rwa [head] at noBlank
  constructor
  · intro c head
    -- Cutting blanks off the end leaves a beginning of what was there.
    obtain ⟨blanks, whole⟩ : trim cs <+: cs.dropWhile isBlank := List.rdropWhile_prefix isBlank _
    apply @first cs
    rw [← whole, List.head?_append, head]
    rfl
  · rw [trim, trimBy, List.getLast?_reverse]
    exact first

theorem trim_ne_nil {c : Char} {cs : List Char} (member : c ∈ cs) (noBlank : isBlank c = false) :
    trim cs ≠ [] := by
  intro empty
  obtain ⟨lead, trail, whole, leadBlank, trailBlank⟩ := trim_split cs
  rw [empty, List.nil_append] at whole
  rw [whole, List.mem_append] at member
  have blank := member.elim (leadBlank c) (trailBlank c)
  rw [noBlank] at blank
  cases blank

theorem value?_spec {word : String} {line : List Char} {v : String}
    (given : value? word line = some v) : v ≠ "" ∧ Bare v.toList := by
  -- A directive ends with no blank, so more than the space follows the word.
  obtain ⟨body, found, rfl⟩ := Option.map_eq_some_iff.mp given
  obtain ⟨command, marked, same⟩ := Option.bind_eq_some_iff.mp found
  obtain ⟨text, -, rfl⟩ := Option.map_eq_some_iff.mp marked
  rw [dropStart?_eq_some_iff, List.append_assoc, List.singleton_append] at same
  have ended := (bare_trim text).2
  rw [same] at ended
  have last : ∃ c ∈ body, isBlank c = false := by
    cases body using List.reverseRecOn with
    | nil =>
      have space := ended ' ' (by simp)
      exact absurd space (by decide)
    | append_singleton front c =>
      exact ⟨c, by simp, ended c (by simp [List.getLast?_append, List.getLast?_cons])⟩
  obtain ⟨c, member, noBlank⟩ := last
  rw [String.toList_ofList]
  refine ⟨fun empty => trim_ne_nil member noBlank ?_, bare_trim body⟩
  have none := congrArg String.toList empty
  rwa [String.toList_ofList] at none

theorem lastValue?_spec {word source v : String} (given : lastValue? word source = some v) :
    v ≠ "" ∧ Bare v.toList := by
  have member := List.mem_of_getLast? given
  obtain ⟨line, -, given⟩ := List.mem_filterMap.mp member
  exact value?_spec given

/-! ## Scripts -/

/-- Metadata are read line by line. Of two scripts with metadata, one below the other, the
parameters follow each other, and the last text for a word counts. A script has no metadata exactly
if a line is faulty, and the first such line is told. Identifier and name are not empty, and have no
blanks around them if a line gives them. -/
theorem metadata_read_by_lines (a b fallback : String) :
    (∀ upper lower, Metadata.ofSource a fallback = .ok upper →
      Metadata.ofSource b fallback = .ok lower →
      Metadata.ofSource (a ++ "\n" ++ b) fallback = .ok
        { id := ((lastValue? "id" b).or (lastValue? "id" a)).getD fallback
          name := ((lastValue? "name" b).or (lastValue? "name" a)).getD fallback
          description :=
            ((lastValue? "description" b).or (lastValue? "description" a)).getD ""
          params := upper.params ++ lower.params }) ∧
    (∀ e, Metadata.ofSource a fallback = .error e ↔
      ∃ before line after, lines a.toList = before ++ line :: after ∧ Faulty line ∧
        (∀ other ∈ before, ¬ Faulty other) ∧ e.line = String.ofList (trim line)) ∧
    ∀ m, Metadata.ofSource a fallback = .ok m →
      (fallback ≠ "" → m.id ≠ "" ∧ m.name ≠ "") ∧
      (∀ v, lastValue? "id" a = some v → m.id = v ∧ Bare v.toList) ∧
      ∀ v, lastValue? "name" a = some v → m.name = v ∧ Bare v.toList := by
  refine ⟨?_, fun e => ofSource_eq_error_iff, ?_⟩
  · intro upper lower first second
    obtain ⟨faultless, rfl⟩ := ofSource_eq_ok_iff.mp first
    obtain ⟨faultless', rfl⟩ := ofSource_eq_ok_iff.mp second
    have below : lines (a ++ "\n" ++ b).toList = lines a.toList ++ lines b.toList := by
      rw [← lines_newline]
      simp
    rw [ofSource_eq_ok_iff, below, List.forall_mem_append]
    refine ⟨⟨faultless, faultless'⟩, ?_⟩
    simp [Metadata.told, lastValue?, Metadata.named]
  · intro m read
    obtain ⟨-, rfl⟩ := ofSource_eq_ok_iff.mp read
    have given {word v : String} (given : lastValue? word a = some v) :
        (lastValue? word a).getD fallback = v ∧ Bare v.toList :=
      ⟨by rw [given]; rfl, (lastValue?_spec given).2⟩
    have nonempty (some : fallback ≠ "") (word : String) :
        (lastValue? word a).getD fallback ≠ "" := by
      cases found : lastValue? word a with
      | none => exact some
      | some v => exact (lastValue?_spec found).1
    exact ⟨fun some => ⟨nonempty some "id", nonempty some "name"⟩, fun _ => given, fun _ => given⟩

def plateSource : String := "// @id  plate \r"

def widthSource : String := "// @id \n// @param w | Width | 0 | 9 | 1 | 4"

theorem plateSource_above_widthSource :
    ∃ upper lower, Metadata.ofSource plateSource "brick" = .ok upper ∧
      Metadata.ofSource widthSource "brick" = .ok lower ∧
      Metadata.ofSource (plateSource ++ "\n" ++ widthSource) "brick" = .ok
        { id := "plate", name := "brick", params := upper.params ++ lower.params } ∧
      upper.id = "plate" ∧ Bare upper.id.toList := by
  have first : Metadata.ofSource plateSource "brick" = .ok { id := "plate", name := "brick" } := rfl
  have second : Metadata.ofSource widthSource "brick" = .ok
      { Metadata.named "brick" with params := [⟨"w", "Width", 0, 9, 1, 4⟩] } := rfl
  obtain ⟨joined, -, values⟩ := metadata_read_by_lines plateSource widthSource "brick"
  have given : lastValue? "id" plateSource = some "plate" := rfl
  refine ⟨_, _, first, second, joined _ _ first second, ?_⟩
  exact (values _ first).2.1 "plate" given

end Proofs

end SolidScript
