import SolidScript.Proofs.Metadata
import SolidScript.Proofs.Scanning.Correspondence
import SolidScript.Template

namespace SolidScript

def Text.pairEndings (cs : List Char) : List Char :=
  cs.flatMap fun c => if c = '\n' then ['\r', '\n'] else [c]

def Text.withPairedEndings (s : String) : String := String.ofList (Text.pairEndings s.toList)

namespace Proofs
open Lexical Text

/-! ## Texts -/

@[simp] theorem pairEndings_newline (cs : List Char) :
    pairEndings ('\n' :: cs) = '\r' :: '\n' :: pairEndings cs := rfl

theorem pairEndings_cons {c : Char} (noNewline : c ≠ '\n') (cs : List Char) :
    pairEndings (c :: cs) = c :: pairEndings cs := by
  simp [pairEndings, noNewline]

theorem pairEndings_append (cs ds : List Char) :
    pairEndings (cs ++ ds) = pairEndings cs ++ pairEndings ds := List.flatMap_append

theorem pairEndings_of_one {cs : List Char} (oneLine : '\n' ∉ cs) : pairEndings cs = cs := by
  induction cs with
  | nil => rfl
  | cons c cs ih =>
    rw [List.mem_cons, not_or] at oneLine
    rw [pairEndings_cons (Ne.symm oneLine.1), ih oneLine.2]

theorem toList_withPairedEndings (s : String) :
    (withPairedEndings s).toList = pairEndings s.toList := String.toList_ofList

theorem after_pairEndings (p : Position) (cs : List Char) :
    p.after (pairEndings cs) = p.after cs := by
  induction cs generalizing p with
  | nil => rfl
  | cons c cs ih =>
    by_cases newline : c = '\n'
    · subst newline
      rw [pairEndings_newline, Position.after_cons, Position.after_cons, Position.after_cons, ih]
      rfl
    · rw [pairEndings_cons newline, Position.after_cons, Position.after_cons, ih]

theorem place_pairEndings (before : List Char) : place (pairEndings before) = place before := by
  have moved := place_append [] (pairEndings before)
  have unmoved := place_append [] before
  rw [List.nil_append] at moved unmoved
  rw [moved, unmoved, after_pairEndings]

theorem star_not_blank : isBlank '*' = false := by decide

theorem prefix_of_pairEndings {word text : List Char} (noBlank : ∀ c ∈ word, isBlank c = false)
    (found : word <+: pairEndings text) : word <+: text := by
  -- A word without blanks is not broken by a line ending.
  induction text generalizing word with
  | nil => exact found
  | cons c text ih =>
    cases word with
    | nil => exact List.nil_prefix
    | cons d word =>
      rw [List.forall_mem_cons] at noBlank
      by_cases newline : c = '\n'
      · subst newline
        rw [pairEndings_newline, List.cons_prefix_cons] at found
        rw [found.1] at noBlank
        exact absurd noBlank.1 (by decide)
      · rw [pairEndings_cons newline, List.cons_prefix_cons] at found
        exact List.cons_prefix_cons.mpr ⟨found.1, ih noBlank.2 found.2⟩

theorem endMark_infix_of_pairEndings {text : List Char} (found : endMark <:+: pairEndings text) :
    endMark <:+: text := by
  have noBlank : ∀ c ∈ endMark, isBlank c = false := by
    simp [endMark, star_not_blank, slash_not_blank]
  induction text with
  | nil => exact found
  | cons c text ih =>
    rw [List.infix_cons_iff]
    by_cases newline : c = '\n'
    · subst newline
      rw [pairEndings_newline, List.infix_cons_iff, List.infix_cons_iff] at found
      rcases found with here | here | there
      · exact absurd (List.cons_prefix_cons.mp here).1 (by decide)
      · exact absurd (List.cons_prefix_cons.mp here).1 (by decide)
      · exact .inr (ih there)
    · rw [pairEndings_cons newline, List.infix_cons_iff] at found
      rcases found with here | there
      · rw [← pairEndings_cons newline] at here
        exact .inl (prefix_of_pairEndings noBlank here)
      · exact .inr (ih there)

/-! ## Lexemes and gaps -/

theorem opensComment_of_pairEndings {text : List Char} (opens : OpensComment (pairEndings text)) :
    OpensComment text :=
  opens.imp (prefix_of_pairEndings (by simp [slash_not_blank]))
    (prefix_of_pairEndings (by simp [slash_not_blank, star_not_blank]))

theorem pairEndings_spelling {spelling : List Char} {l : Lexeme} (spells : Spells spelling l) :
    pairEndings spelling = spelling := by
  refine pairEndings_of_one fun member => ?_
  exact absurd (spells_not_blank spells _ member) (by decide)

theorem pairEndings_spelled {spelling : List Char} {l : Lexeme} (spells : Spells spelling l)
    (rest : List Char) : pairEndings (spelling ++ rest) = spelling ++ pairEndings rest := by
  rw [pairEndings_append, pairEndings_spelling spells]

theorem lexemeAt_pairEndings {spelling rest : List Char} {l : Lexeme}
    (read : LexemeAt spelling l rest) : LexemeAt spelling l (pairEndings rest) where
  spells := read.spells
  longest other l' spells found := by
    rw [← pairEndings_spelled read.spells] at found
    exact read.longest other l' spells (prefix_of_pairEndings (spells_not_blank spells) found)
  noComment opens := by
    rw [← pairEndings_spelled read.spells] at opens
    exact read.noComment (opensComment_of_pairEndings opens)

theorem gap_tail {c : Char} (blank : isBlank c = true) {gap rest : List Char}
    (skipped : Gap (c :: gap) rest) : Gap gap rest := by
  generalize whole : c :: gap = text at skipped
  cases skipped with
  | nil => cases whole
  | cons piece others =>
    cases piece with
    | blank =>
      obtain ⟨-, rfl⟩ := List.cons.inj whole
      exact others
    | line =>
      rw [(List.cons.inj whole).1, slash_not_blank] at blank
      cases blank
    | block =>
      rw [(List.cons.inj whole).1, slash_not_blank] at blank
      cases blank

theorem gap_pairEndings {gap rest : List Char} (skipped : Gap gap rest)
    (started : ∀ c ∈ rest.head?, c ≠ '\n') : Gap (pairEndings gap) (pairEndings rest) := by
  induction skipped with
  | nil => exact .nil _
  | @cons piece gap rest first others ih =>
    have others := ih started
    rw [pairEndings_append]
    cases first with
    | @blank c blank =>
      by_cases newline : c = '\n'
      · subst newline
        have carriage : isBlank '\r' = true := by decide
        have blanks : ∀ c ∈ ['\r', '\n'], isBlank c = true := by simp [carriage, blank]
        exact gap_append (gap_of_blanks blanks _) others
      · rw [pairEndings_cons newline]
        exact .cons (.blank blank _) others
    | @line body _ oneLine ended =>
      have slashes : '\n' ∉ '/' :: '/' :: body := by simp [oneLine]
      rw [pairEndings_of_one slashes]
      cases gap with
      | nil =>
        -- Nothing is left of the script, since a newline cannot begin the rest.
        have finished : rest = [] := by
          cases rest with
          | nil => rfl
          | cons c cs => exact absurd (ended c rfl) (started c rfl)
        subst finished
        exact .cons (.line oneLine nofun) others
      | cons c gap =>
        -- The carriage return belongs to the comment, and the newline after it still ends it.
        obtain rfl := ended c rfl
        rw [pairEndings_newline] at others ⊢
        have later := gap_tail (by decide) others
        have longer : '\n' ∉ body ++ ['\r'] := by simp [oneLine]
        rw [List.append_cons]
        refine .cons (.line longer fun d next => ?_) later
        cases next
        rfl
    | @block body first =>
      have marks : pairEndings ('/' :: '*' :: body ++ endMark) =
          '/' :: '*' :: pairEndings body ++ endMark := by
        rw [pairEndings_append, pairEndings_cons (by decide), pairEndings_cons (by decide)]
        rfl
      have first : ¬ endMark <:+: pairEndings body ++ ['*'] := by
        intro early
        refine first (endMark_infix_of_pairEndings ?_)
        rwa [pairEndings_append]
      rw [marks]
      exact .cons (.block first _) others

theorem head?_spelled {spelling : List Char} {l : Lexeme} (spells : Spells spelling l)
    (rest : List Char) : ∀ c ∈ (spelling ++ rest).head?, c ≠ '\n' := by
  cases spelling with
  | nil => exact absurd rfl (spells_ne_nil spells)
  | cons c cs =>
    rintro d next rfl
    cases next
    exact absurd (spells_not_blank spells _ List.mem_cons_self) (by decide)

/-! ## Scripts -/

theorem splits_pairEndings {before text : List Char} {stream : TokenStream}
    (splits : Splits before text stream) :
    Splits (pairEndings before) (pairEndings text) stream := by
  induction splits with
  | @finish before gap last =>
    have ended := @Splits.finish (pairEndings before) _ (gap_pairEndings last nofun)
    rwa [← pairEndings_append, place_pairEndings] at ended
  | @lexeme before gap spelling rest l stream skipped read others ih =>
    have gapped := gap_pairEndings skipped (head?_spelled read.spells rest)
    rw [pairEndings_spelled read.spells] at gapped
    rw [pairEndings_append, pairEndings_append, pairEndings_spelling read.spells] at ih
    have split := Splits.lexeme gapped (lexemeAt_pairEndings read) ih
    rwa [← pairEndings_append, place_pairEndings, ← pairEndings_spelled read.spells,
      ← pairEndings_append] at split

theorem fails_pairEndings {before text : List Char} {e : ScanError} (fails : Fails before text e) :
    Fails (pairEndings before) (pairEndings text) e := by
  induction fails with
  | @stray before gap rest c skipped noBlank noComment noLexeme =>
    have noNewline : c ≠ '\n' := by
      rintro rfl
      exact absurd noBlank (by decide)
    have gapped := gap_pairEndings skipped fun d next => by
      cases next
      exact noNewline
    rw [pairEndings_cons noNewline] at gapped
    rw [pairEndings_append, pairEndings_cons noNewline, ← place_pairEndings, pairEndings_append]
    refine .stray gapped noBlank (fun opens => noComment ?_) fun spelling l spells found => ?_
    · rw [← pairEndings_cons noNewline] at opens
      exact opensComment_of_pairEndings opens
    · rw [← pairEndings_cons noNewline] at found
      exact noLexeme spelling l spells (prefix_of_pairEndings (spells_not_blank spells) found)
  | @openComment before gap rest skipped unended =>
    have gapped := gap_pairEndings skipped fun d next => by
      cases next
      decide
    rw [pairEndings_cons (by decide), pairEndings_cons (by decide)] at gapped
    rw [pairEndings_append, pairEndings_cons (by decide), pairEndings_cons (by decide),
      ← place_pairEndings, pairEndings_append]
    exact .openComment gapped fun early => unended (endMark_infix_of_pairEndings early)
  | @lexeme before gap spelling rest l e skipped read others ih =>
    have gapped := gap_pairEndings skipped (head?_spelled read.spells rest)
    rw [pairEndings_spelled read.spells] at gapped
    rw [pairEndings_append, pairEndings_append, pairEndings_spelling read.spells] at ih
    rw [pairEndings_append, pairEndings_spelled read.spells]
    exact .lexeme gapped (lexemeAt_pairEndings read) ih

theorem scan_withPairedEndings (source : String) :
    scan (withPairedEndings source) = scan source := by
  rw [scan, toList_withPairedEndings]
  cases scanned : scan source with
  | ok stream =>
    have splits : Splits [] source.toList stream := scanFrom_eq_ok_iff.mp scanned
    exact splits_scanFrom (splits_pairEndings splits)
  | error e =>
    have fails : Fails [] source.toList e := scanFrom_eq_error_iff.mp scanned
    exact fails_scanFrom (fails_pairEndings fails)

/-! ## Metadata -/

theorem read_pairEndings (m : Metadata) (text : List Char) :
    m.read (pairEndings text) = m.read text := by
  by_cases several : '\n' ∈ text
  · -- A carriage return at the end of a line is trimmed; both parts of the text are shorter.
    obtain ⟨upper, lower, whole⟩ := List.append_of_mem several
    have upper_shorter : upper.length < text.length := by simp [whole]
    have lower_shorter : lower.length < text.length := by simp [whole]; omega
    have ended : pairEndings text = pairEndings upper ++ ['\r'] ++ '\n' :: pairEndings lower := by
      simp [whole, pairEndings_append]
    rw [ended, read_newline, read_append_blank m (by decide), read_pairEndings m upper, whole,
      read_newline]
    exact congrArg (m.read upper >>= ·) (funext fun m' => read_pairEndings m' lower)
  · rw [pairEndings_of_one several]
termination_by text.length

/-! ## Templates -/

/-- A template does not depend on its line endings: with a carriage return before every newline a
text has the same metadata and the same program, calls at the same places, or the same fault. -/
theorem template_ignores_line_endings (source fallback : String) :
    Template.ofSource (withPairedEndings source) fallback =
      (Template.ofSource source fallback).map fun t =>
        { t with source := withPairedEndings source } := by
  have metadata (id : String) :
      Metadata.ofSource (withPairedEndings source) id = Metadata.ofSource source id := by
    have same := read_pairEndings (.named id) source.toList
    rwa [← toList_withPairedEndings] at same
  have program : parseProgram (withPairedEndings source) = parseProgram source := by
    rw [parseProgram, parseProgram, scan_withPairedEndings]
  simp only [Template.ofSource, metadata, program]
  cases (Metadata.ofSource source _).mapError TemplateFault.metadata with
  | error e => rfl
  | ok m => cases (parseProgram source).mapError TemplateFault.source <;> rfl

end Proofs

end SolidScript
