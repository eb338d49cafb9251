/-!
# Lines and fields

A text is cut at a separator into fields: there is always one field more than separators. A
document read from a file has its three line endings folded into one, a text to be printed only
the ending of two characters.
-/

namespace SolidScript.Text

def fields (separator : Char) : List Char → List (List Char)
  | [] => [[]]
  | c :: cs =>
    if c = separator then [] :: fields separator cs
    else match fields separator cs with
      | [] => [[c]]
      | field :: rest => (c :: field) :: rest

def lines (cs : List Char) : List (List Char) := fields '\n' cs

/-- Carriage return plus newline, and a carriage return alone, both become one newline. -/
def foldLineEndings : List Char → List Char
  | '\r' :: '\n' :: cs => '\n' :: foldLineEndings cs
  | '\r' :: cs => '\n' :: foldLineEndings cs
  | c :: cs => c :: foldLineEndings cs
  | [] => []

/-- Carriage return plus newline becomes one newline; a carriage return alone stays. -/
def foldPairedEndings : List Char → List Char
  | '\r' :: '\n' :: cs => '\n' :: foldPairedEndings cs
  | c :: cs => c :: foldPairedEndings cs
  | [] => []

def dropStart? : (start cs : List Char) → Option (List Char)
  | [], cs => some cs
  | _ :: _, [] => none
  | s :: start, c :: cs => if s = c then dropStart? start cs else none

theorem fields_ne_nil (separator : Char) (cs : List Char) : fields separator cs ≠ [] := by
  cases cs with
  | nil => simp [fields]
  | cons c cs =>
    simp only [fields]
    split
    · simp
    · split <;> simp

theorem dropStart?_eq_some_iff {start cs rest : List Char} :
    dropStart? start cs = some rest ↔ cs = start ++ rest := by
  induction start generalizing cs with
  | nil => simp [dropStart?, eq_comm]
  | cons s start ih =>
    cases cs with
    | nil => simp [dropStart?]
    | cons c cs =>
      by_cases h : s = c
      · subst h; simp [dropStart?, ih]
      · simp [dropStart?, h, Ne.symm h]

end SolidScript.Text
