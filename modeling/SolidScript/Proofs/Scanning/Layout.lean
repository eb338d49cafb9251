import Mathlib.Data.List.Basic
import SolidScript.Proofs.Results
import SolidScript.Proofs.Parsing.Relocation
import SolidScript.Proofs.Scanning.Correspondence

namespace SolidScript

def Position.carry (p q r : Position) : Position :=
  if r.line = p.line then ⟨q.line, r.column - p.column + q.column⟩
  else ⟨r.line - p.line + q.line, r.column⟩

def TokenStream.relocate (move : Position → Position) (stream : TokenStream) : TokenStream :=
  ⟨stream.tokens.map (Token.relocate move), move stream.finish⟩

def ScanError.relocate (move : Position → Position) : ScanError → ScanError
  | .strayCharacter c p => .strayCharacter c (move p)
  | .openComment p => .openComment (move p)

def TokenStream.prepend (tokens : List Token) (stream : TokenStream) : TokenStream :=
  { stream with tokens := tokens ++ stream.tokens }

namespace Proofs
open Lexical Text

/-! ## Moved texts -/

theorem after_cases (p q : Position) (cs : List Char) :
    ((p.after cs).line = p.line ∧ (q.after cs).line = q.line ∧
      ∃ k, (p.after cs).column = p.column + k ∧ (q.after cs).column = q.column + k) ∨
    ∃ k, (p.after cs).line = p.line + k + 1 ∧ (q.after cs).line = q.line + k + 1 ∧
      (p.after cs).column = (q.after cs).column := by
  induction cs using List.reverseRecOn with
  | nil => exact .inl ⟨rfl, rfl, 0, rfl, rfl⟩
  | append_singleton cs c ih =>
    simp only [Position.after_append, Position.after_cons, Position.after_nil, Position.next]
    by_cases newline : c = '\n'
    · simp only [newline, if_true]
      rcases ih with ⟨first, second, _⟩ | ⟨k, first, second, _⟩
      · exact .inr ⟨0, by omega, by omega, trivial⟩
      · exact .inr ⟨k + 1, by omega, by omega, trivial⟩
    · simp only [newline, if_false]
      rcases ih with ⟨first, second, k, column, column'⟩ | ⟨k, first, second, column⟩
      · exact .inl ⟨first, second, k + 1, by omega, by omega⟩
      · exact .inr ⟨k, first, second, by omega⟩

theorem carry_after (p q : Position) (cs : List Char) :
    p.carry q (p.after cs) = q.after cs := by
  unfold Position.carry
  rcases after_cases p q cs with ⟨first, second, k, column, column'⟩ | ⟨k, first, second, column⟩
  · rw [if_pos first, ← second, column, Nat.add_sub_cancel_left, Nat.add_comm, ← column']
  · rw [if_neg (by omega), column]
    have line : (p.after cs).line - p.line + q.line = (q.after cs).line := by omega
    rw [line]

theorem scanFrom_relocate {p q : Position} {move : Position → Position} (text : List Char)
    (moves : ∀ cs, move (p.after cs) = q.after cs) :
    scanFrom q text = ((scanFrom p text).map (.relocate move)).mapError (.relocate move) := by
  have here : move p = q := moves []
  fun_induction scanFrom p text generalizing q with
  | case1 p =>
    rw [scanFrom, ← here]
    rfl
  | case2 p c cs skipped rest answer ih =>
    have later_moves : ∀ ds, move ((p.after skipped).after ds) = (q.after skipped).after ds := by
      intro ds
      rw [← Position.after_append, moves, Position.after_append]
    rw [scanFrom_gap answer]
    exact ih later_moves (later_moves [])
  | case3 p c cs l spelling rest answer ih =>
    have later_moves : ∀ ds, move ((p.after spelling).after ds) = (q.after spelling).after ds := by
      intro ds
      rw [← Position.after_append, moves, Position.after_append]
    rw [scanFrom_word answer, ih later_moves (later_moves []), ← here]
    cases scanFrom (p.after spelling) rest <;> rfl
  | case4 p c cs answer =>
    rw [scanFrom_openComment answer, ← here]
    rfl
  | case5 p c cs answer =>
    rw [scanFrom_stray answer, ← here]
    rfl

theorem splits_relocate {before text : List Char} {stream : TokenStream}
    (splits : Splits before text stream) (before' : List Char) :
    ∃ move, Splits before' text (stream.relocate move) := by
  refine ⟨(place before).carry (place before'), ?_⟩
  rw [← scanFrom_eq_ok_iff, scanFrom_relocate text (carry_after _ _), splits_scanFrom splits]
  rfl

/-! ## Characters that end a lexeme -/

structure Breaks (w : Char) : Prop where
  single : ∀ spelling l, Spells spelling l → w ∈ spelling → spelling.length ≤ 1
  notSlash : w ≠ '/'
  notStar : w ≠ '*'

theorem breaks_of_blank {w : Char} (blank : isBlank w = true) : Breaks w where
  single spelling l spells member := by
    rw [spells_not_blank spells w member] at blank
    contradiction
  notSlash := by
    rintro rfl
    exact absurd blank (by decide)
  notStar := by
    rintro rfl
    exact absurd blank (by decide)

theorem breaks_semicolon : Breaks ';' where
  single spelling l spells member := by
    rcases spells_chars spells with chars | ⟨s, rfl⟩
    · exact absurd (chars _ member) (by decide)
    · exact Nat.le_refl 1
  notSlash := by decide
  notStar := by decide

theorem lexemeAt_append {spelling rest : List Char} {l : Lexeme} (read : LexemeAt spelling l rest)
    {w : Char} (breaks : Breaks w) (later : List Char) :
    LexemeAt spelling l (rest ++ w :: later) where
  spells := read.spells
  longest other l' spells found := by
    rw [← List.append_assoc] at found
    by_cases short : other.length ≤ (spelling ++ rest).length
    · refine read.longest other l' spells ?_
      exact List.prefix_of_prefix_length_le found (List.prefix_append _ _) short
    · have reaches : spelling ++ rest ++ [w] <+: other := by
        refine List.prefix_of_prefix_length_le ⟨later, ?_⟩ found ?_
        · rw [List.append_assoc (spelling ++ rest)]
          rfl
        · rw [List.length_append, List.length_singleton]
          omega
      have member : w ∈ other := reaches.subset (by simp)
      have single := breaks.single other l' spells member
      have nonempty := List.length_pos_iff.mpr (spells_ne_nil read.spells)
      omega
  noComment opens := by
    have noComment := read.noComment
    cases spelling with
    | nil => exact spells_ne_nil read.spells rfl
    | cons c cs =>
      rw [List.cons_append, opensComment_iff] at opens noComment
      obtain ⟨slash, d, next, second⟩ := opens
      rw [← List.append_assoc] at next
      cases inner : cs ++ rest with
      | nil =>
        rw [inner] at next
        cases next
        exact second.elim breaks.notSlash breaks.notStar
      | cons e es =>
        rw [inner] at next noComment
        exact noComment ⟨slash, d, next, second⟩

theorem lexemeAt_spelled {spelling : List Char} {l : Lexeme} (spells : Spells spelling l) :
    LexemeAt spelling l [] where
  spells := spells
  longest other l' _ found := by
    rw [List.append_nil] at found
    exact found.length_le
  noComment opens := by
    rw [List.append_nil] at opens
    cases spelling with
    | nil => exact spells_ne_nil spells rfl
    | cons c cs =>
      obtain ⟨rfl, d, next, _⟩ := opensComment_iff.mp opens
      rcases spells_chars spells with chars | ⟨s, only⟩
      · exact absurd (chars _ List.mem_cons_self) (by decide)
      · rw [(List.cons.inj only).2] at next
        cases next

theorem splits_spelled {spelling : List Char} {l : Lexeme} (spells : Spells spelling l)
    (before : List Char) :
    Splits before spelling ⟨[⟨l, place before⟩], place (before ++ spelling)⟩ := by
  have read := @Splits.lexeme before [] spelling [] l _ (.nil _) (lexemeAt_spelled spells)
    (.finish (.nil []))
  simpa using read

theorem lexemeAt_blank {spelling : List Char} {l : Lexeme} (spells : Spells spelling l) {w : Char}
    (blank : isBlank w = true) (later : List Char) : LexemeAt spelling l (w :: later) :=
  lexemeAt_append (lexemeAt_spelled spells) (breaks_of_blank blank) later

theorem lexemeAt_plainSymbol {s : Symbol} (noSlash : s ≠ .slash) (rest : List Char) :
    LexemeAt [s.char] (.symbol s) rest := by
  refine lexemeAt_symbol fun opens => ?_
  obtain ⟨slash, _⟩ := opensComment_iff.mp opens
  exact noSlash (@symbol_char_injective s .slash slash)

/-! ## Texts on lines of their own -/

theorem piece_newline {piece rest : List Char} (one : Piece piece rest) (later : List Char) :
    Piece piece (rest ++ '\n' :: later) := by
  cases one with
  | blank blank => exact .blank blank _
  | line oneLine ended =>
    refine .line oneLine fun c next => ?_
    cases rest with
    | nil =>
      cases next
      rfl
    | cons d ds => exact ended c next
  | block first => exact .block first _

theorem gap_newline {gap rest : List Char} (skipped : Gap gap rest) (later : List Char) :
    Gap gap (rest ++ '\n' :: later) := by
  induction skipped with
  | nil rest => exact .nil _
  | cons piece others ih =>
    have first := piece_newline piece later
    rw [List.append_assoc] at first
    exact .cons first ih

theorem prepend_map {result : Except ScanError TokenStream} (t : Token) (tokens : List Token) :
    (result.map (TokenStream.prepend tokens)).map
      (fun stream => { stream with tokens := t :: stream.tokens }) =
    result.map (TokenStream.prepend (t :: tokens)) := by
  cases result <;> rfl

theorem scanFrom_newline {before text : List Char} {stream : TokenStream}
    (splits : Splits before text stream) (later : List Char) :
    scanFrom (place before) (text ++ '\n' :: later) =
      (scanFrom (place (before ++ text ++ ['\n'])) later).map (.prepend stream.tokens) := by
  induction splits with
  | @finish before gap last =>
    have skipped := gap_newline last later
    rw [List.nil_append] at skipped
    rw [scanFrom_skip skipped, scanFrom_blank (by decide), ← place_append,
      ← place_append_singleton]
    cases scanFrom (place (before ++ gap ++ ['\n'])) later <;> rfl
  | @lexeme before gap spelling rest l stream skipped read others ih =>
    -- Neither the gap nor the lexeme reaches into the next line.
    have gap_skipped := gap_newline skipped later
    have word := lexemeAt_append read (breaks_of_blank (w := '\n') (by decide)) later
    rw [List.append_assoc] at gap_skipped
    rw [List.append_assoc, List.append_assoc, scanFrom_skip gap_skipped, ← place_append,
      scanFrom_lexeme word, ← place_append, ih, prepend_map]
    simp only [List.append_assoc]

/-! ## Texts without gaps -/

def Gapless (text : List Char) : Prop := ∀ c ∈ text, isBlank c = false ∧ c ≠ '/'

theorem gap_of_gapless {gap rest : List Char} (skipped : Gap gap rest) (gapless : Gapless gap) :
    gap = [] := by
  cases gap with
  | nil => rfl
  | cons c cs =>
    obtain ⟨noBlank, noSlash⟩ := gapless c List.mem_cons_self
    exact gap_eq_nil skipped rfl noBlank fun opens => noSlash (opensComment_iff.mp opens).1

theorem scanFrom_semicolon {before text : List Char} {stream : TokenStream}
    (splits : Splits before text stream) (gapless : Gapless text) (later : List Char) :
    scanFrom (place before) (text ++ ';' :: later) =
      (scanFrom (place (before ++ text ++ [';'])) later).map
        (.prepend (stream.tokens ++ [.symbol .semicolon stream.finish])) := by
  induction splits with
  | @finish before gap last =>
    have none := gap_of_gapless last gapless
    subst none
    have word := @lexemeAt_plainSymbol .semicolon (by decide) later
    rw [List.nil_append, List.append_nil, place_append]
    exact scanFrom_lexeme word
  | @lexeme before gap spelling rest l stream skipped read others ih =>
    have none := gap_of_gapless skipped fun c member => gapless c (by simp [member])
    subst none
    have word := lexemeAt_append read breaks_semicolon later
    rw [List.append_nil] at ih
    rw [List.nil_append, List.append_nil, List.append_assoc, scanFrom_lexeme word, ← place_append,
      ih fun c member => gapless c (by simp [member]), prepend_map, List.cons_append]
    simp only [List.append_assoc]

/-! ## Blanks at the end -/

theorem gap_shorten {gap rest later : List Char} (skipped : Gap gap (rest ++ later)) :
    Gap gap rest := by
  generalize whole : rest ++ later = text at skipped
  induction skipped with
  | nil => exact .nil rest
  | @cons piece gap text one others ih =>
    subst whole
    refine .cons ?_ (ih rfl)
    cases one with
    | blank blank => exact .blank blank _
    | block first => exact .block first _
    | line oneLine ended =>
      refine .line oneLine fun c next => ended c ?_
      rw [← List.append_assoc, List.head?_append, Option.mem_def.mp next]
      rfl

theorem lexemeAt_shorten {spelling rest later : List Char} {l : Lexeme}
    (read : LexemeAt spelling l (rest ++ later)) : LexemeAt spelling l rest where
  spells := read.spells
  longest other l' spells found := by
    refine read.longest other l' spells ?_
    rw [← List.append_assoc]
    exact found.trans (List.prefix_append _ _)
  noComment opens := by
    refine read.noComment ?_
    rw [← List.append_assoc]
    exact opens.imp (·.trans (List.prefix_append _ _)) (·.trans (List.prefix_append _ _))

theorem piece_dropBlank {text : List Char} {w : Char} (blank : isBlank w = true)
    (one : Piece (text ++ [w]) []) : Gap text [] := by
  generalize whole : text ++ [w] = piece at one
  cases one with
  | @blank c _ =>
    have whole : text ++ [w] = [] ++ [c] := whole
    obtain ⟨rfl, _⟩ := List.append_inj' whole rfl
    exact .nil []
  | @line body _ oneLine ended =>
    rcases List.eq_nil_or_concat' body with rfl | ⟨inner, d, rfl⟩
    · have whole : text ++ [w] = ['/'] ++ ['/'] := whole
      obtain ⟨_, same⟩ := List.append_inj' whole rfl
      obtain ⟨rfl, _⟩ := List.cons.inj same
      rw [slash_not_blank] at blank
      cases blank
    · have whole : text ++ [w] = '/' :: '/' :: inner ++ [d] := whole
      obtain ⟨rfl, _⟩ := List.append_inj' whole rfl
      exact gap_of_piece (.line (fun member => oneLine (by simp [member])) (by simp))
  | @block body first =>
    have whole : text ++ [w] = '/' :: '*' :: body ++ ['*'] ++ ['/'] := by
      simpa [endMark] using whole
    obtain ⟨_, same⟩ := List.append_inj' whole rfl
    obtain ⟨rfl, _⟩ := List.cons.inj same
    rw [slash_not_blank] at blank
    cases blank

theorem gap_dropBlank {text : List Char} {w : Char} (blank : isBlank w = true)
    (skipped : Gap (text ++ [w]) []) : Gap text [] := by
  generalize whole : text ++ [w] = gap at skipped
  generalize finished : ([] : List Char) = rest at skipped
  induction skipped generalizing text with
  | nil => simp at whole
  | @cons piece gap rest one others ih =>
    subst finished
    rcases List.eq_nil_or_concat' gap with rfl | ⟨inner, d, rfl⟩
    · rw [List.append_nil] at whole one
      subst whole
      exact piece_dropBlank blank one
    · rw [← List.append_assoc] at whole
      obtain ⟨rfl, same⟩ := List.append_inj' whole rfl
      have later := ih (by rw [same]) rfl
      have first := gap_of_piece one
      rw [List.append_nil] at first
      refine gap_append ?_ later
      rw [List.append_nil]
      exact gap_shorten first

theorem splits_dropBlank {before text : List Char} {w : Char} {stream : TokenStream}
    (blank : isBlank w = true) (splits : Splits before (text ++ [w]) stream) :
    ∃ finish, Splits before text ⟨stream.tokens, finish⟩ := by
  generalize whole : text ++ [w] = longer at splits
  induction splits generalizing text with
  | finish last =>
    subst whole
    exact ⟨_, .finish (gap_dropBlank blank last)⟩
  | @lexeme before gap spelling rest l stream skipped read others ih =>
    -- The last character is not in the lexeme, so it is the last one of what follows.
    rcases List.eq_nil_or_concat' rest with rfl | ⟨inner, d, rfl⟩
    · have member : w ∈ spelling := by
        obtain ⟨start, d, rfl⟩ :=
          (List.eq_nil_or_concat' spelling).resolve_left (spells_ne_nil read.spells)
        rw [List.append_nil, ← List.append_assoc] at whole
        obtain ⟨_, same⟩ := List.append_inj' whole rfl
        rw [(List.cons.inj same).1]
        simp
      rw [spells_not_blank read.spells w member] at blank
      contradiction
    · rw [← List.append_assoc, ← List.append_assoc] at whole
      obtain ⟨rfl, same⟩ := List.append_inj' whole rfl
      obtain ⟨finish, later⟩ := ih (by rw [same])
      rw [← List.append_assoc] at skipped
      rw [List.append_assoc]
      exact ⟨finish, .lexeme (gap_shorten skipped) (lexemeAt_shorten read) later⟩

theorem splits_dropBlanks {before text blanks : List Char} {stream : TokenStream}
    (blank : ∀ w ∈ blanks, isBlank w = true) (splits : Splits before (text ++ blanks) stream) :
    ∃ finish, Splits before text ⟨stream.tokens, finish⟩ := by
  induction blanks using List.reverseRecOn generalizing stream with
  | nil =>
    rw [List.append_nil] at splits
    exact ⟨_, splits⟩
  | append_singleton blanks w ih =>
    rw [← List.append_assoc] at splits
    obtain ⟨finish, shorter⟩ := splits_dropBlank (blank w (by simp)) splits
    exact @ih ⟨stream.tokens, finish⟩ (fun v member => blank v (by simp [member])) shorter

end Proofs

end SolidScript
