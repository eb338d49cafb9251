import Mathlib.Data.List.TakeWhile
import SolidScript.Proofs.Scanning.Lexical

namespace SolidScript.Proofs
open Lexical Text

/-! ## Character classes -/

theorem slash_not_blank : isBlank '/' = false := by decide

theorem blank_code {c : Char} (blank : isBlank c = true) : c.toNat ≤ 0x20 ∨ 0x85 ≤ c.toNat := by
  simp only [isBlank, inRanges, blankRanges, List.any_cons, List.any_nil, Bool.or_eq_true,
    Bool.and_eq_true, decide_eq_true_eq, Bool.or_false] at blank
  omega

theorem digit_code {c : Char} (digit : c.isDigit = true) : 48 ≤ c.toNat ∧ c.toNat ≤ 57 :=
  Char.isDigit_iff_toNat.mp digit

theorem nameStart_code {c : Char} (start : isNameStart c = true) :
    c.toNat = 36 ∨ 65 ≤ c.toNat ∧ c.toNat ≤ 122 := by
  have letter : c.isAlpha = (c.isUpper || c.isLower) := rfl
  have upper : c.isUpper = decide (c.val ≥ 'A'.val ∧ c.val ≤ 'Z'.val) := rfl
  have lower : c.isLower = (decide (c.val ≥ 'a'.val) && decide (c.val ≤ 'z'.val)) := rfl
  simp only [isNameStart, letter, upper, lower, Bool.or_eq_true, Bool.and_eq_true,
    decide_eq_true_eq] at start
  rcases start with ((capital | small) | underscore) | dollar
  · have below := UInt32.le_iff_toNat_le.mp capital.1
    have above := UInt32.le_iff_toNat_le.mp capital.2
    exact .inr ⟨below, Nat.le_trans above (by decide)⟩
  · have below := UInt32.le_iff_toNat_le.mp small.1
    have above := UInt32.le_iff_toNat_le.mp small.2
    exact .inr ⟨Nat.le_trans (by decide) below, above⟩
  · subst underscore
    exact .inr (by decide)
  · subst dollar
    exact .inl rfl

theorem nameStart_not_digit {c : Char} (start : isNameStart c = true) : c.isDigit = false := by
  have name := nameStart_code start
  by_contra digit
  have bounds := digit_code (by simpa using digit)
  omega

theorem symbol_not_name (s : Symbol) : isNameStart s.char = false := by cases s <;> decide

theorem symbol_not_digit (s : Symbol) : s.char.isDigit = false := by cases s <;> decide

theorem not_blank_of_code {c : Char} (code : 0x20 < c.toNat ∧ c.toNat < 0x85) :
    isBlank c = false := by
  by_contra blank
  have outside := blank_code (by simpa using blank)
  omega

theorem nameChar_of_digit {c : Char} (digit : c.isDigit = true) : isNameChar c = true := by
  simp [isNameChar, digit]

theorem nameChar_not_blank {c : Char} (name : isNameChar c = true) : isBlank c = false := by
  simp only [isNameChar, Bool.or_eq_true] at name
  rcases name with start | digit
  · have code := nameStart_code start
    exact not_blank_of_code (by omega)
  · have code := digit_code digit
    exact not_blank_of_code (by omega)

/-! ## Spellings -/

theorem spells_ne_nil {spelling : List Char} {l : Lexeme} (spells : Spells spelling l) :
    spelling ≠ [] := by
  cases spells with
  | whole nonempty _ => exact nonempty
  | pointed nonempty _ _ => simp
  | fraction _ _ => simp
  | identifier _ _ => simp
  | symbol s => simp

theorem spells_chars {spelling : List Char} {l : Lexeme} (spells : Spells spelling l) :
    (∀ c ∈ spelling, isNameChar c = true ∨ c = '.') ∨ ∃ s : Symbol, spelling = [s.char] := by
  cases spells with
  | whole _ digits => exact .inl fun c member => .inl (nameChar_of_digit (digits c member))
  | pointed _ digits places =>
    refine .inl fun c member => ?_
    rcases List.mem_append.mp member with whole | rest
    · exact .inl (nameChar_of_digit (digits c whole))
    · rcases List.mem_cons.mp rest with point | decimal
      · exact .inr point
      · exact .inl (nameChar_of_digit (places c decimal))
  | fraction _ places =>
    refine .inl fun c member => ?_
    rcases List.mem_cons.mp member with point | decimal
    · exact .inr point
    · exact .inl (nameChar_of_digit (places c decimal))
  | identifier start name =>
    refine .inl fun c member => .inl ?_
    rcases List.mem_cons.mp member with rfl | later
    · simp [isNameChar, start]
    · exact name c later
  | symbol s => exact .inr ⟨s, rfl⟩

theorem spells_not_blank {spelling : List Char} {l : Lexeme} (spells : Spells spelling l) :
    ∀ c ∈ spelling, isBlank c = false := by
  intro c member
  rcases spells_chars spells with chars | ⟨s, rfl⟩
  · rcases chars c member with name | rfl
    · exact nameChar_not_blank name
    · decide
  · rw [List.mem_singleton.mp member]
    cases s <;> decide

def StartsNumber (c : Char) (cs : List Char) : Prop :=
  c.isDigit = true ∨ c = '.' ∧ ∃ d ∈ cs.head?, d.isDigit = true

theorem spells_cases {c : Char} {cs : List Char} {l : Lexeme} (spells : Spells (c :: cs) l) :
    (StartsNumber c cs ∧ l = .number (String.ofList (c :: cs))) ∨
    (isNameStart c = true ∧ (∀ d ∈ cs, isNameChar d = true) ∧
      l = .identifier (String.ofList (c :: cs))) ∨
    ∃ s : Symbol, c = s.char ∧ cs = [] ∧ l = .symbol s := by
  generalize whole : c :: cs = spelling at spells
  cases spells with
  | whole nonempty digits =>
    subst whole
    exact .inl ⟨.inl (digits c (by simp)), rfl⟩
  | @pointed ds fs nonempty digits places =>
    refine .inl ⟨.inl ?_, rfl⟩
    cases ds with
    | nil => exact absurd rfl nonempty
    | cons d ds =>
      rw [(List.cons.inj whole).1]
      exact digits d (by simp)
  | @fraction fs nonempty places =>
    obtain ⟨rfl, rfl⟩ := List.cons.inj whole
    refine .inl ⟨.inr ⟨rfl, ?_⟩, rfl⟩
    cases cs with
    | nil => exact absurd rfl nonempty
    | cons d ds => exact ⟨d, rfl, places d (by simp)⟩
  | identifier start name =>
    obtain ⟨rfl, rfl⟩ := List.cons.inj whole
    exact .inr (.inl ⟨start, name, rfl⟩)
  | symbol s =>
    obtain ⟨rfl, rfl⟩ := List.cons.inj whole
    exact .inr (.inr ⟨s, rfl, rfl, rfl⟩)

theorem startsNumber_iff {c : Char} {cs : List Char} :
    (c.isDigit || (c = '.' && (cs.head?.map Char.isDigit).getD false)) = true ↔
      StartsNumber c cs := by
  cases cs <;> simp [StartsNumber]

theorem startsNumber_not_name {c : Char} {cs : List Char} (number : StartsNumber c cs) :
    isNameStart c = false := by
  rcases number with digit | ⟨rfl, _⟩
  · by_contra start
    rw [nameStart_not_digit (by simpa using start)] at digit
    contradiction
  · decide

theorem startsNumber_not_symbol {s : Symbol} {cs : List Char} : ¬ StartsNumber s.char cs := by
  rintro (digit | ⟨point, _⟩)
  · rw [symbol_not_digit] at digit
    contradiction
  · cases s <;> contradiction

theorem symbol_char_injective {s s' : Symbol} (same : s.char = s'.char) : s = s' := by
  have read := s.ofChar?_char
  rw [same, s'.ofChar?_char] at read
  exact (Option.some.inj read).symm

theorem spells_functional {spelling : List Char} {l l' : Lexeme} (spells : Spells spelling l)
    (spells' : Spells spelling l') : l = l' := by
  cases spelling with
  | nil => exact absurd rfl (spells_ne_nil spells)
  | cons c cs =>
    rcases spells_cases spells with ⟨number, rfl⟩ | ⟨name, _, rfl⟩ | ⟨s, rfl, _, rfl⟩ <;>
    rcases spells_cases spells' with ⟨number', rfl⟩ | ⟨name', _, rfl⟩ | ⟨s', symbol', _, rfl⟩
    · rfl
    · rw [startsNumber_not_name number] at name'
      contradiction
    · subst symbol'
      exact absurd number startsNumber_not_symbol
    · rw [startsNumber_not_name number'] at name
      contradiction
    · rfl
    · rw [symbol', symbol_not_name] at name
      contradiction
    · exact absurd number' startsNumber_not_symbol
    · rw [symbol_not_name] at name'
      contradiction
    · rw [symbol_char_injective symbol']

/-! ## Numerals -/

theorem spanNumeral_of_point {cs rest : List Char}
    (point : cs.dropWhile Char.isDigit = '.' :: rest) :
    (spanNumeral cs).1 = cs.takeWhile Char.isDigit ++ '.' :: rest.takeWhile Char.isDigit := by
  simp [spanNumeral, point]

theorem spanNumeral_of_no_point {cs : List Char}
    (noPoint : ∀ rest, cs.dropWhile Char.isDigit ≠ '.' :: rest) :
    (spanNumeral cs).1 = cs.takeWhile Char.isDigit := by
  simp only [spanNumeral]

theorem spanNumeral_spells {c : Char} {cs : List Char} (number : StartsNumber c cs) :
    Spells (spanNumeral (c :: cs)).1 (.number (String.ofList (spanNumeral (c :: cs)).1)) := by
  by_cases point : ∃ rest, (c :: cs).dropWhile Char.isDigit = '.' :: rest
  · obtain ⟨rest, point⟩ := point
    rw [spanNumeral_of_point point]
    rcases number with digit | ⟨rfl, d, next, digit⟩
    · exact .pointed (by simp [digit]) (fun _ => List.mem_takeWhile_imp) fun _ => List.mem_takeWhile_imp
    · have noDigit : Char.isDigit '.' = false := by decide
      simp only [List.dropWhile_cons, noDigit, Bool.false_eq_true, if_false, List.cons.injEq,
        true_and] at point
      subst point
      cases cs with
      | nil => simp at next
      | cons e es =>
        cases next
        simp only [List.takeWhile_cons, noDigit, digit, if_true, Bool.false_eq_true, if_false,
          List.nil_append]
        refine .fraction (by simp) ?_
        intro e member
        rcases List.mem_cons.mp member with rfl | later
        · exact digit
        · exact List.mem_takeWhile_imp later
  · rw [spanNumeral_of_no_point (fun rest found => point ⟨rest, found⟩)]
    rcases number with digit | ⟨rfl, _⟩
    · exact .whole (by simp [digit]) fun _ => List.mem_takeWhile_imp
    · exact absurd ⟨cs, by simp [show Char.isDigit '.' = false by decide]⟩ point

theorem spanNumeral_pointed {ds fs : List Char} (digits : ∀ d ∈ ds, d.isDigit = true)
    (places : ∀ d ∈ fs, d.isDigit = true) (rest : List Char) :
    (ds ++ '.' :: fs).length ≤ (spanNumeral (ds ++ '.' :: fs ++ rest)).1.length := by
  have noDigit : Char.isDigit '.' = false := by decide
  have point : (ds ++ '.' :: fs ++ rest).dropWhile Char.isDigit = '.' :: (fs ++ rest) := by
    rw [List.append_assoc, List.dropWhile_append_of_pos digits]
    simp [noDigit]
  rw [spanNumeral_of_point point, List.append_assoc, List.takeWhile_append_of_pos digits,
    List.takeWhile_append_of_pos places]
  simp [noDigit]

theorem spanNumeral_longest {c : Char} {cs other rest : List Char} {l : Lexeme}
    (spells : Spells other l) (number : StartsNumber c cs) (found : c :: cs = other ++ rest) :
    other.length ≤ (spanNumeral (c :: cs)).1.length := by
  rw [found]
  cases spells with
  | whole _ digits =>
    by_cases point : ∃ after, (other ++ rest).dropWhile Char.isDigit = '.' :: after
    · obtain ⟨after, point⟩ := point
      rw [spanNumeral_of_point point, List.takeWhile_append_of_pos digits]
      simp
    · rw [spanNumeral_of_no_point (fun after found => point ⟨after, found⟩),
        List.takeWhile_append_of_pos digits]
      simp
  | pointed _ digits places => exact spanNumeral_pointed digits places rest
  | fraction _ places =>
    have noDigits : ∀ d ∈ ([] : List Char), d.isDigit = true := by simp
    exact spanNumeral_pointed noDigits places rest
  | identifier start name =>
    rw [← (List.cons.inj found).1, startsNumber_not_name number] at start
    contradiction
  | symbol s =>
    rw [(List.cons.inj found).1] at number
    exact absurd number startsNumber_not_symbol

/-! ## The longest lexeme -/

theorem startsNumber_append {c : Char} {cs : List Char} (number : StartsNumber c cs)
    (rest : List Char) : StartsNumber c (cs ++ rest) := by
  rcases number with digit | ⟨point, d, next, digit⟩
  · exact .inl digit
  · refine .inr ⟨point, d, ?_, digit⟩
    cases cs with
    | nil => simp at next
    | cons e es => exact next

theorem spells_reach {c : Char} {cs other : List Char} {l : Lexeme} (spells : Spells other l)
    (found : other <+: c :: cs) :
    StartsNumber c cs ∨
    (isNameStart c = true ∧ other.length ≤ (c :: cs.takeWhile isNameChar).length) ∨
    ∃ s : Symbol, c = s.char ∧ other.length = 1 := by
  obtain ⟨rest, whole⟩ := found
  cases other with
  | nil => exact absurd rfl (spells_ne_nil spells)
  | cons d ds =>
    rw [List.cons_append] at whole
    obtain ⟨rfl, rfl⟩ := List.cons.inj whole
    rcases spells_cases spells with ⟨number, _⟩ | ⟨start, name, _⟩ | ⟨s, symbol, rfl, _⟩
    · exact .inl (startsNumber_append number rest)
    · refine .inr (.inl ⟨start, ?_⟩)
      rw [List.takeWhile_append_of_pos name]
      simp
    · exact .inr (.inr ⟨s, symbol, rfl⟩)

theorem lexemeAt_numeral {c : Char} {cs : List Char} (number : StartsNumber c cs)
    (noComment : ¬ OpensComment (c :: cs)) :
    LexemeAt (spanNumeral (c :: cs)).1 (.number (String.ofList (spanNumeral (c :: cs)).1))
      (spanNumeral (c :: cs)).2 where
  spells := spanNumeral_spells number
  longest := by
    rintro other l spells ⟨rest, found⟩
    rw [spanNumeral_append] at found
    exact spanNumeral_longest spells number found.symm
  noComment := by rwa [spanNumeral_append]

theorem lexemeAt_identifier {c : Char} {cs : List Char} (start : isNameStart c = true)
    (noComment : ¬ OpensComment (c :: cs)) :
    LexemeAt (c :: cs.takeWhile isNameChar)
      (.identifier (String.ofList (c :: cs.takeWhile isNameChar))) (cs.dropWhile isNameChar) where
  spells := .identifier start fun _ => List.mem_takeWhile_imp
  longest := by
    intro other l spells found
    rw [List.cons_append, List.takeWhile_append_dropWhile] at found
    rcases spells_reach spells found with number | ⟨_, reach⟩ | ⟨s, _, single⟩
    · rw [startsNumber_not_name number] at start
      contradiction
    · exact reach
    · simp [single]
  noComment := by rwa [List.cons_append, List.takeWhile_append_dropWhile]

theorem lexemeAt_symbol {s : Symbol} {rest : List Char}
    (noComment : ¬ OpensComment (s.char :: rest)) : LexemeAt [s.char] (.symbol s) rest where
  spells := .symbol s
  longest := by
    intro other l spells found
    rcases spells_reach spells found with number | ⟨start, _⟩ | ⟨_, _, single⟩
    · exact absurd number startsNumber_not_symbol
    · rw [symbol_not_name] at start
      contradiction
    · exact single.le
  noComment := noComment

inductive Stands : List Char → Front → Prop where
  | gap {gap rest : List Char} (nonempty : gap ≠ []) (skipped : Gap gap rest) :
    Stands (gap ++ rest) (.gap gap rest)
  | lexeme {spelling rest : List Char} {l : Lexeme} (read : LexemeAt spelling l rest) :
    Stands (spelling ++ rest) (.lexeme l spelling rest)
  | openComment {rest : List Char} (unended : ¬ endMark <:+: rest) :
    Stands ('/' :: '*' :: rest) .openComment
  | stray {c : Char} {rest : List Char} (noBlank : isBlank c = false)
    (noComment : ¬ OpensComment (c :: rest))
    (noLexeme : ∀ spelling l, Spells spelling l → ¬ spelling <+: c :: rest) :
    Stands (c :: rest) .stray

theorem lexemeFront_stands {c : Char} {cs : List Char} (noBlank : isBlank c = false)
    (noComment : ¬ OpensComment (c :: cs)) : Stands (c :: cs) (lexemeFront c cs) := by
  unfold lexemeFront
  split
  · rename_i number
    have stands := Stands.lexeme (lexemeAt_numeral (startsNumber_iff.mp number) noComment)
    rwa [spanNumeral_append] at stands
  · rename_i noNumber
    split
    · rename_i start
      have stands := Stands.lexeme (lexemeAt_identifier start noComment)
      rwa [List.cons_append, List.takeWhile_append_dropWhile] at stands
    · rename_i noName
      split
      · rename_i s symbol
        obtain rfl := Symbol.char_of_ofChar? symbol
        exact .lexeme (lexemeAt_symbol noComment)
      · rename_i noSymbol
        refine .stray noBlank noComment fun spelling l spells found => ?_
        rcases spells_reach spells found with number | ⟨start, _⟩ | ⟨s, char, _⟩
        · exact noNumber (startsNumber_iff.mpr number)
        · exact noName start
        · rw [char, Symbol.ofChar?_char] at noSymbol
          contradiction

/-! ## Comments -/

theorem endMark_prefix_iff {cs : List Char} : endMark <+: cs ↔ ∃ rest, cs = '*' :: '/' :: rest := by
  constructor
  · rintro ⟨rest, rfl⟩
    exact ⟨rest, rfl⟩
  · rintro ⟨rest, rfl⟩
    exact ⟨rest, rfl⟩

theorem spanComment?_some {cs span rest : List Char} (found : spanComment? cs = some (span, rest)) :
    ∃ body, span = body ++ endMark ∧ ¬ endMark <:+: body ++ ['*'] := by
  fun_induction spanComment? cs generalizing span rest with
  | case1 => simp at found
  | case2 =>
    obtain ⟨rfl, _⟩ := Prod.mk.inj (Option.some.inj found)
    exact ⟨[], rfl, by decide⟩
  | case3 c inner noMark ih =>
    obtain ⟨⟨span', rest'⟩, later, same⟩ := Option.map_eq_some_iff.mp found
    obtain ⟨rfl, rfl⟩ := Prod.mk.inj same
    obtain ⟨body, rfl, first⟩ := ih later
    refine ⟨c :: body, rfl, ?_⟩
    rw [List.cons_append, List.infix_cons_iff]
    rintro (here | there)
    -- A mark that begins here would have ended the comment here.
    · obtain ⟨after, mark⟩ := endMark_prefix_iff.mp here
      obtain ⟨rfl, bodyHead⟩ := List.cons.inj mark
      have whole := spanComment?_append later
      cases body with
      | nil => simp at bodyHead
      | cons d ds =>
        obtain ⟨rfl, _⟩ := List.cons.inj bodyHead
        exact noMark _ rfl whole.symm
    · exact first there

theorem spanComment?_none {cs : List Char} (none : spanComment? cs = none) :
    ¬ endMark <:+: cs := by
  fun_induction spanComment? cs with
  | case1 => decide
  | case2 => simp at none
  | case3 c inner noMark ih =>
    rw [List.infix_cons_iff]
    rintro (here | there)
    · obtain ⟨after, mark⟩ := endMark_prefix_iff.mp here
      obtain ⟨rfl, rfl⟩ := List.cons.inj mark
      exact noMark after rfl rfl
    · exact ih (Option.map_eq_none_iff.mp none) there

theorem opensComment_iff {c : Char} {cs : List Char} :
    OpensComment (c :: cs) ↔ c = '/' ∧ ∃ d ∈ cs.head?, d = '/' ∨ d = '*' := by
  cases cs with
  | nil => simp [OpensComment]
  | cons d ds =>
    simp only [OpensComment, List.cons_prefix_cons, List.nil_prefix, and_true, List.head?_cons,
      Option.mem_def, Option.some.injEq, exists_eq_left', ← and_or_left]
    exact ⟨fun ⟨a, b⟩ => ⟨a.symm, b.imp .symm .symm⟩, fun ⟨a, b⟩ => ⟨a.symm, b.imp .symm .symm⟩⟩

/-! ## Gaps -/

theorem gap_append {gap gap' rest : List Char} (first : Gap gap (gap' ++ rest))
    (second : Gap gap' rest) : Gap (gap ++ gap') rest := by
  generalize whole : gap' ++ rest = text at first
  induction first with
  | nil => exact second
  | cons piece others ih =>
    subst whole
    rw [List.append_assoc]
    refine .cons ?_ (ih rfl)
    rwa [List.append_assoc]

theorem gap_of_piece {piece rest : List Char} (one : Piece piece rest) : Gap piece rest := by
  have gap : Gap (piece ++ []) rest := .cons one (.nil rest)
  rwa [List.append_nil] at gap

theorem gap_of_blanks {blanks : List Char} (blank : ∀ c ∈ blanks, isBlank c = true)
    (rest : List Char) : Gap blanks rest := by
  induction blanks with
  | nil => exact .nil rest
  | cons c cs ih =>
    rw [List.forall_mem_cons] at blank
    exact .cons (.blank blank.1 _) (ih blank.2)

theorem takeWhile_line {body rest : List Char} (oneLine : '\n' ∉ body)
    (ended : ∀ c ∈ rest.head?, c = '\n') :
    (body ++ rest).takeWhile (· ≠ '\n') = body ∧ (body ++ rest).dropWhile (· ≠ '\n') = rest := by
  have inside : ∀ c ∈ body, decide (c ≠ '\n') = true := by
    intro c member
    simp only [decide_eq_true_eq]
    rintro rfl
    exact oneLine member
  rw [List.takeWhile_append_of_pos inside, List.dropWhile_append_of_pos inside]
  cases rest with
  | nil => simp
  | cons d ds =>
    have newline := ended d rfl
    simp [newline]

theorem piece_lineComment (inner : List Char) :
    Piece ('/' :: '/' :: inner.takeWhile (· ≠ '\n')) (inner.dropWhile (· ≠ '\n')) := by
  refine .line ?_ ?_
  · intro member
    have inside := List.mem_takeWhile_imp member
    simp at inside
  · intro d next
    have outside := List.head?_dropWhile_not (· ≠ '\n') inner
    rw [Option.mem_def.mp next] at outside
    simpa using outside

theorem front_stands (c : Char) (cs : List Char) : Stands (c :: cs) (front c cs) := by
  unfold front
  split
  · rename_i blank
    have whole : c :: cs.takeWhile isBlank ++ cs.dropWhile isBlank = c :: cs := by simp
    have blanks : ∀ d ∈ c :: cs.takeWhile isBlank, isBlank d = true :=
      List.forall_mem_cons.mpr ⟨blank, fun _ => List.mem_takeWhile_imp⟩
    have stands := Stands.gap (by simp) (gap_of_blanks blanks (cs.dropWhile isBlank))
    rwa [whole] at stands
  · rename_i noBlank
    rw [Bool.not_eq_true] at noBlank
    split
    · rename_i slash
      subst slash
      split
      · rename_i inner
        have stands := Stands.gap (by simp) (gap_of_piece (piece_lineComment inner))
        simpa using stands
      · rename_i inner
        split
        · rename_i span rest found
          obtain ⟨body, rfl, first⟩ := spanComment?_some found
          have piece : Piece ('/' :: '*' :: body ++ endMark) rest := .block first rest
          have stands := Stands.gap (by simp) (gap_of_piece piece)
          rw [← spanComment?_append found]
          exact stands
        · rename_i none
          exact .openComment (spanComment?_none none)
      · rename_i noLine noBlock
        refine lexemeFront_stands noBlank ?_
        rw [opensComment_iff]
        rintro ⟨_, d, next, rfl | rfl⟩
        · obtain ⟨ds, rfl⟩ := List.head?_eq_some_iff.mp next
          exact noLine ds rfl
        · obtain ⟨ds, rfl⟩ := List.head?_eq_some_iff.mp next
          exact noBlock ds rfl
    · rename_i noSlash
      refine lexemeFront_stands noBlank ?_
      rw [opensComment_iff]
      exact fun opens => noSlash opens.1

/-! ## The answer to a known text -/

theorem gap_eq_nil {gap rest : List Char} {c : Char} {cs : List Char} (skipped : Gap gap rest)
    (text : gap ++ rest = c :: cs) (noBlank : isBlank c = false)
    (noComment : ¬ OpensComment (c :: cs)) : gap = [] := by
  rw [← text] at noComment
  cases skipped with
  | nil => rfl
  | cons piece others =>
    cases piece with
    | blank blank _ =>
      obtain ⟨rfl, _⟩ := List.cons.inj text
      rw [noBlank] at blank
      contradiction
    | line => exact absurd (.inl ⟨_, rfl⟩) noComment
    | block => exact absurd (.inr ⟨_, rfl⟩) noComment

theorem lexemeAt_unique {spelling spelling' rest rest' : List Char} {l l' : Lexeme}
    (read : LexemeAt spelling l rest) (read' : LexemeAt spelling' l' rest')
    (same : spelling ++ rest = spelling' ++ rest') :
    spelling = spelling' ∧ l = l' ∧ rest = rest' := by
  have upper := read'.longest spelling l read.spells (same ▸ List.prefix_append _ _)
  have lower := read.longest spelling' l' read'.spells (same ▸ List.prefix_append _ _)
  obtain ⟨rfl, rfl⟩ := List.append_inj same (by omega)
  exact ⟨rfl, spells_functional read.spells read'.spells, rfl⟩

theorem front_of_lexeme {c : Char} {cs spelling rest : List Char} {l : Lexeme}
    (read : LexemeAt spelling l rest) (text : spelling ++ rest = c :: cs) :
    front c cs = .lexeme l spelling rest := by
  have stands := front_stands c cs
  have noComment := read.noComment
  have noBlank : isBlank c = false := by
    refine spells_not_blank read.spells c ?_
    cases spelling with
    | nil => exact absurd rfl (spells_ne_nil read.spells)
    | cons d ds =>
      rw [List.cons_append] at text
      rw [(List.cons.inj text).1]
      exact List.mem_cons_self
  rw [text] at noComment
  -- Every other answer would say something about the text that the lexeme there rules out.
  generalize front c cs = answer at stands
  generalize whole : c :: cs = front at stands
  cases stands with
  | gap nonempty skipped =>
    exact absurd (gap_eq_nil skipped whole.symm noBlank noComment) nonempty
  | lexeme read' =>
    obtain ⟨rfl, rfl, rfl⟩ := lexemeAt_unique read read' (text.trans whole)
    rfl
  | openComment unended =>
    rw [whole] at noComment
    exact absurd (.inr ⟨_, rfl⟩) noComment
  | stray _ _ noLexeme =>
    rw [← whole, ← text] at noLexeme
    exact absurd (List.prefix_append _ _) (noLexeme spelling l read.spells)

theorem front_of_openComment {rest : List Char} (unended : ¬ endMark <:+: rest) :
    front '/' ('*' :: rest) = .openComment := by
  have none : spanComment? rest = none := by
    cases found : spanComment? rest with
    | none => rfl
    | some parts =>
      obtain ⟨body, span, _⟩ := spanComment?_some found
      refine absurd ?_ unended
      rw [← spanComment?_append found, span]
      exact ⟨body, parts.2, rfl⟩
  simp [front, none, slash_not_blank]

theorem front_of_stray {c : Char} {rest : List Char} (noBlank : isBlank c = false)
    (noComment : ¬ OpensComment (c :: rest))
    (noLexeme : ∀ spelling l, Spells spelling l → ¬ spelling <+: c :: rest) :
    front c rest = .stray := by
  have stands := front_stands c rest
  generalize front c rest = answer at stands
  generalize whole : c :: rest = text at stands
  cases stands with
  | gap nonempty skipped =>
    exact absurd (gap_eq_nil skipped whole.symm noBlank noComment) nonempty
  | lexeme read =>
    refine absurd ?_ (noLexeme _ _ read.spells)
    rw [whole]
    exact List.prefix_append _ _
  | openComment unended =>
    rw [whole] at noComment
    exact absurd (.inr ⟨_, rfl⟩) noComment
  | stray => rfl

theorem spanComment?_of_first {body : List Char} (first : ¬ endMark <:+: body ++ ['*'])
    (rest : List Char) : spanComment? (body ++ endMark ++ rest) = some (body ++ endMark, rest) := by
  induction body with
  | nil => rfl
  | cons c body ih =>
    rw [List.cons_append, List.infix_cons_iff, not_or] at first
    have noMark : ∀ after, c = '*' → body ++ endMark ++ rest = '/' :: after → False := by
      rintro after rfl slash
      refine first.1 (endMark_prefix_iff.mpr ?_)
      cases body with
      | nil => simp [endMark] at slash
      | cons d ds =>
        rw [List.cons_append, List.cons_append] at slash
        rw [(List.cons.inj slash).1]
        exact ⟨ds ++ ['*'], rfl⟩
    rw [List.cons_append, List.cons_append, spanComment?.eq_3 _ _ noMark, ih first.2]
    rfl

end SolidScript.Proofs
