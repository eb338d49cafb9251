/-!
# Tokens

The words of a script: numbers, identifiers and fourteen symbols, each with the place where it
starts. A token stream also knows where the script ends, so an error at the end has a place too.
-/

namespace SolidScript

/-- A place in a text; lines and columns count from one, columns in characters. -/
structure Position where
  line : Nat
  column : Nat
deriving DecidableEq, Repr

namespace Position

def start : Position := ⟨1, 1⟩

/-- The place after one character. Only a newline starts a new line. -/
def next (p : Position) (c : Char) : Position :=
  if c = '\n' then ⟨p.line + 1, 1⟩ else ⟨p.line, p.column + 1⟩

def after (p : Position) (cs : List Char) : Position := cs.foldl next p

@[simp] theorem after_nil (p : Position) : p.after [] = p := rfl

@[simp] theorem after_cons (p : Position) (c : Char) (cs : List Char) :
    p.after (c :: cs) = (p.next c).after cs := rfl

theorem after_append (p : Position) (cs ds : List Char) :
    p.after (cs ++ ds) = (p.after cs).after ds := by
  simp [after]

end Position

def placedMessage (message : String) (p : Position) : String :=
  message ++ " (line " ++ toString p.line ++ ", col " ++ toString p.column ++ ")"

inductive Symbol where
  | leftParen | rightParen
  | leftBrace | rightBrace
  | leftBracket | rightBracket
  | comma | colon | semicolon | equals
  | plus | minus | star | slash
deriving DecidableEq, Repr

namespace Symbol

def char : Symbol → Char
  | leftParen => '('
  | rightParen => ')'
  | leftBrace => '\x7b'
  | rightBrace => '\x7d'
  | leftBracket => '['
  | rightBracket => ']'
  | comma => ','
  | colon => ':'
  | semicolon => ';'
  | equals => '='
  | plus => '+'
  | minus => '-'
  | star => '*'
  | slash => '/'

def ofChar? : Char → Option Symbol
  | '(' => some leftParen
  | ')' => some rightParen
  | '\x7b' => some leftBrace
  | '\x7d' => some rightBrace
  | '[' => some leftBracket
  | ']' => some rightBracket
  | ',' => some comma
  | ':' => some colon
  | ';' => some semicolon
  | '=' => some equals
  | '+' => some plus
  | '-' => some minus
  | '*' => some star
  | '/' => some slash
  | _ => none

theorem ofChar?_char (s : Symbol) : ofChar? s.char = some s := by
  cases s <;> rfl

theorem char_of_ofChar? {c : Char} {s : Symbol} (h : ofChar? c = some s) : s.char = c := by
  unfold ofChar? at h
  split at h <;> cases h <;> rfl

end Symbol

/-- One word of a script. A number keeps its spelling. -/
inductive Lexeme where
  | number (numeral : String)
  | identifier (name : String)
  | symbol (s : Symbol)
deriving DecidableEq, Repr

def Lexeme.text : Lexeme → String
  | .number numeral => numeral
  | .identifier name => name
  | .symbol s => s.char.toString

structure Token where
  lexeme : Lexeme
  position : Position
deriving DecidableEq, Repr

/-- The tokens of a script in order, and the place of its end. -/
structure TokenStream where
  tokens : List Token
  finish : Position
deriving DecidableEq, Repr

def endText : String := "<eof>"

end SolidScript
