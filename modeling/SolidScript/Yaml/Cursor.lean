/-!
# Cursors

A cursor walks over the text of a document and knows where it is. Five characters end a line, but
only the newline starts the next one: the others leave the line and the column as they are counted.
The text has its line endings folded, so the carriage return is not among them.
-/

namespace SolidScript.Yaml

/-! ## Characters -/

def isBreak (c : Char) : Bool :=
  c = '\n' || c.toNat = 0x85 || c.toNat = 0x2028 || c.toNat = 0x2029

/-- What a line end stands for in a scalar: the two separators stay, the others are newlines. -/
def breakText (c : Char) : Char := if c.toNat = 0x85 then '\n' else c

def isTabOrSpace (c : Char) : Bool := c = ' ' || c = '\t'

/-- The byte order mark, which takes no room on its line. -/
def byteOrderMark : Char := Char.ofNat 0xFEFF

def endsLine : List Char → Bool
  | [] => true
  | c :: _ => isBreak c

def endsWord : List Char → Bool
  | [] => true
  | c :: _ => isBreak c || isTabOrSpace c

def startsMark (mark : Char) (cs : List Char) : Bool :=
  cs.take 3 = [mark, mark, mark] && endsWord (cs.drop 3)

def startsDocumentMark (cs : List Char) : Bool := startsMark '-' cs || startsMark '.' cs

def startsAmong (set : String) : List Char → Bool
  | [] => false
  | c :: _ => set.toList.contains c

def isHexDigit (c : Char) : Bool :=
  c.isDigit || ('a' ≤ c && c ≤ 'f') || ('A' ≤ c && c ≤ 'F')

def ofBase (base : Nat) (cs : List Char) : Nat :=
  cs.foldl (fun n c =>
    let d := if c.isDigit then c.toNat - '0'.toNat else c.toLower.toNat - 'a'.toNat + 10
    base * n + d) 0

/-! ## Positions -/

/-- What is left of a text, how much of it was read, and the line and column. -/
structure Cursor where
  rest : List Char
  index : Nat := 0
  line : Nat := 0
  column : Nat := 0

namespace Cursor

def next (cur : Cursor) : Cursor :=
  match cur.rest with
  | [] => cur
  | c :: cs =>
    if c = '\n' then ⟨cs, cur.index + 1, cur.line + 1, 0⟩
    else if c = byteOrderMark then ⟨cs, cur.index + 1, cur.line, cur.column⟩
    else ⟨cs, cur.index + 1, cur.line, cur.column + 1⟩

def skip : Nat → Cursor → Cursor
  | 0, cur => cur
  | n + 1, cur => skip n cur.next

def skipWhile (p : Char → Bool) (cur : Cursor) : Cursor :=
  cur.skip (cur.rest.takeWhile p).length

end Cursor

end SolidScript.Yaml
