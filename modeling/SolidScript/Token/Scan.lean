import SolidScript.Text.Blank
import SolidScript.Text.Quoted
import SolidScript.Token

/-!
# Scanning

A script is gaps and lexemes in turn. A gap is blanks and comments; a lexeme is the longest number
or identifier at its place, or one symbol. `front` says what stands at the front of a text and
splits it there, `front_append` that nothing is lost, and `scan` repeats it to the end.
-/

namespace SolidScript

open Text

inductive ScanError where
  | strayCharacter (c : Char) (position : Position)
  | openComment (position : Position)
deriving DecidableEq, Repr

def ScanError.message : ScanError → String
  | .strayCharacter c p => placedMessage ("Invalid token " ++ quoted c.toString) p
  | .openComment p => placedMessage "Unterminated block comment" p

/-! ## Character classes -/

def isNameStart (c : Char) : Bool := c.isAlpha || c = '_' || c = '$'

def isNameChar (c : Char) : Bool := isNameStart c || c.isDigit

/-! ## The front of a text -/

/-- Digits with at most one point among them, as many as there are, and the rest. -/
def spanNumeral (cs : List Char) : List Char × List Char :=
  let whole := cs.takeWhile Char.isDigit
  match cs.dropWhile Char.isDigit with
  | '.' :: rest => (whole ++ '.' :: rest.takeWhile Char.isDigit, rest.dropWhile Char.isDigit)
  | rest => (whole, rest)

/-- The text up to the first end mark of a block comment, that mark included, and the rest. -/
def spanComment? : List Char → Option (List Char × List Char)
  | [] => none
  | '*' :: '/' :: rest => some (['*', '/'], rest)
  | c :: rest => (spanComment? rest).map fun (body, rest) => (c :: body, rest)

/-- What stands at the front of a text, and the text split after it. -/
inductive Front where
  | gap (skipped rest : List Char)
  | lexeme (lexeme : Lexeme) (spelling rest : List Char)
  | openComment
  | stray

/-- The lexeme that starts with the character `c`. -/
def lexemeFront (c : Char) (cs : List Char) : Front :=
  if c.isDigit || (c = '.' && (cs.head?.map Char.isDigit).getD false) then
    let (numeral, rest) := spanNumeral (c :: cs)
    .lexeme (.number (String.ofList numeral)) numeral rest
  else if isNameStart c then
    let name := c :: cs.takeWhile isNameChar
    .lexeme (.identifier (String.ofList name)) name (cs.dropWhile isNameChar)
  else match Symbol.ofChar? c with
    | some s => .lexeme (.symbol s) [c] cs
    | none => .stray

/-- A slash opens a comment if a second slash or a star follows it. -/
def front (c : Char) (cs : List Char) : Front :=
  if isBlank c then .gap (c :: cs.takeWhile isBlank) (cs.dropWhile isBlank)
  else if c = '/' then
    match cs with
    | '/' :: _ => .gap (c :: cs.takeWhile (· ≠ '\n')) (cs.dropWhile (· ≠ '\n'))
    | '*' :: inner =>
      match spanComment? inner with
      | some (body, rest) => .gap (c :: '*' :: body) rest
      | none => .openComment
    | _ => lexemeFront c cs
  else lexemeFront c cs

/-! ## Nothing is lost -/

theorem spanNumeral_append (cs : List Char) :
    (spanNumeral cs).1 ++ (spanNumeral cs).2 = cs := by
  have whole := List.takeWhile_append_dropWhile (p := Char.isDigit) (l := cs)
  simp only [spanNumeral]
  split
  · rename_i rest h
    rw [h] at whole
    simpa [List.takeWhile_append_dropWhile] using whole
  · exact whole

theorem spanComment?_append {cs body rest : List Char} (h : spanComment? cs = some (body, rest)) :
    body ++ rest = cs := by
  fun_induction spanComment? cs generalizing body rest with
  | case1 => simp at h
  | case2 => simp only [Option.some.injEq, Prod.mk.injEq] at h; simp [← h.1, ← h.2]
  | case3 c inner _ ih =>
    obtain ⟨⟨body', rest'⟩, found, same⟩ := Option.map_eq_some_iff.mp h
    simp only [Prod.mk.injEq] at same
    rw [← same.1, ← same.2, List.cons_append, ih found]

def Front.parts? : Front → Option (List Char × List Char)
  | .gap skipped rest => some (skipped, rest)
  | .lexeme _ spelling rest => some (spelling, rest)
  | .openComment => none
  | .stray => none

theorem lexemeFront_append {c : Char} {cs piece rest : List Char}
    (h : (lexemeFront c cs).parts? = some (piece, rest)) : piece ++ rest = c :: cs := by
  unfold lexemeFront at h
  split at h
  · simp only [Front.parts?, Option.some.injEq, Prod.mk.injEq] at h
    rw [← h.1, ← h.2]
    exact spanNumeral_append (c :: cs)
  · split at h
    · simp only [Front.parts?, Option.some.injEq, Prod.mk.injEq] at h
      rw [← h.1, ← h.2]
      simp
    · split at h
      · simp only [Front.parts?, Option.some.injEq, Prod.mk.injEq] at h
        simp [← h.1, ← h.2]
      · simp [Front.parts?] at h

theorem front_append {c : Char} {cs piece rest : List Char}
    (h : (front c cs).parts? = some (piece, rest)) : piece ++ rest = c :: cs := by
  unfold front at h
  split at h
  · simp only [Front.parts?, Option.some.injEq, Prod.mk.injEq] at h
    simp [← h.1, ← h.2]
  · split at h
    · split at h
      · simp only [Front.parts?, Option.some.injEq, Prod.mk.injEq] at h
        rw [← h.1, ← h.2]
        simp only [List.cons_append, List.takeWhile_append_dropWhile]
      · split at h
        · rename_i found
          simp only [Front.parts?, Option.some.injEq, Prod.mk.injEq] at h
          rw [← h.1, ← h.2]
          simp [spanComment?_append found]
        · simp [Front.parts?] at h
      · exact lexemeFront_append h
    · exact lexemeFront_append h

theorem spanNumeral_ne_nil {c : Char} {cs : List Char}
    (h : (c.isDigit || (c = '.' && (cs.head?.map Char.isDigit).getD false)) = true) :
    (spanNumeral (c :: cs)).1 ≠ [] := by
  simp only [spanNumeral]
  by_cases digit : c.isDigit = true
  · split <;> simp [digit]
  · simp only [digit, Bool.false_or, Bool.and_eq_true, decide_eq_true_eq] at h
    obtain ⟨rfl, _⟩ := h
    simp [show Char.isDigit '.' = false from rfl]

/-- What is taken off the front is never empty, so the rest is shorter. -/
theorem front_shorter {c : Char} {cs piece rest : List Char}
    (h : (front c cs).parts? = some (piece, rest)) : rest.length < (c :: cs).length := by
  have whole := front_append h
  have nonempty : piece ≠ [] := by
    rintro rfl
    have start (f : Front) (hf : f.parts? = some ([], rest))
        (hl : f = lexemeFront c cs) : False := by
      subst hl
      unfold lexemeFront at hf
      split at hf
      · rename_i numeral
        simp only [Front.parts?, Option.some.injEq, Prod.mk.injEq] at hf
        exact spanNumeral_ne_nil numeral hf.1
      · split at hf
        · simp [Front.parts?] at hf
        · split at hf <;> simp [Front.parts?] at hf
    unfold front at h
    split at h
    · simp [Front.parts?] at h
    · split at h
      · split at h
        · simp [Front.parts?] at h
        · split at h <;> simp [Front.parts?] at h
        · exact start _ h rfl
      · exact start _ h rfl
  rw [← whole]
  cases piece with
  | nil => exact absurd rfl nonempty
  | cons => simp only [List.length_append, List.length_cons]; omega

/-! ## The whole text -/

def scanFrom (p : Position) : List Char → Except ScanError TokenStream
  | [] => .ok ⟨[], p⟩
  | c :: cs =>
    match _taken : front c cs with
    | .gap skipped rest => scanFrom (p.after skipped) rest
    | .lexeme lexeme spelling rest =>
      (scanFrom (p.after spelling) rest).map fun stream =>
        { stream with tokens := ⟨lexeme, p⟩ :: stream.tokens }
    | .openComment => .error (.openComment p)
    | .stray => .error (.strayCharacter c p)
termination_by cs => cs.length
decreasing_by all_goals exact front_shorter (congrArg Front.parts? _taken)

def scan (source : String) : Except ScanError TokenStream := scanFrom .start source.toList

end SolidScript
