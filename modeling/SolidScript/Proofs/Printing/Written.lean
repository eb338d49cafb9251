import SolidScript.Program.Parse
import SolidScript.Proofs.Scanning.Lexical

/-!
# Scripts as they are written

The trees of scripts before they are read: a number is still its numeral, and every name, numeral
and argument list carries the proof that it can be written down. `Stmt.treeAll` is the program that
such a script stands for, and `text` prints it with one space between words and no parentheses but
those that precedence asks for.
-/

namespace SolidScript.Written
open Lexical

structure Name where
  text : String
  spelled : Spells text.toList (.identifier text)

structure Numeral where
  text : String
  spelled : Spells text.toList (.number text)

structure Word where
  lexeme : Lexeme
  spelled : Spells lexeme.text.toList lexeme

namespace Word

def name (name : Name) : Word := ⟨.identifier name.text, name.spelled⟩

def numeral (numeral : Numeral) : Word := ⟨.number numeral.text, numeral.spelled⟩

def symbol (s : Symbol) : Word := ⟨.symbol s, by
  have chars : (Lexeme.symbol s).text.toList = [s.char] := by simp [Lexeme.text]
  rw [chars]
  exact .symbol s⟩

def truth : Word := ⟨.identifier "true", .identifier rfl (List.all_eq_true.mp rfl)⟩

def falsity : Word := ⟨.identifier "false", .identifier rfl (List.all_eq_true.mp rfl)⟩

def loop : Word := ⟨.identifier "for", .identifier rfl (List.all_eq_true.mp rfl)⟩

end Word

inductive Expr where
  | number (numeral : Numeral)
  | boolean (value : Bool)
  | var (name : Name) (noTruth : name.text ≠ "true") (noFalsity : name.text ≠ "false")
  | array (items : List Expr)
  | negate (operand : Expr)
  | binary (op : Operator) (left right : Expr)

/-- A call without its block. Its named arguments stand after the positional ones. -/
structure Head where
  name : Name
  plain : name.text ≠ "for"
  positional : List Expr
  named : List (Name × Expr)
  distinct : (named.map (·.1.text)).Nodup

inductive Stmt where
  | assign (name : Name) (plain : name.text ≠ "for") (value : Expr)
  | loop (counter : Name) (start : Expr) (step : Option Expr) (finish : Expr) (body : List Stmt)
  | call (head : Head) (block : Option (List Stmt))

mutual

def Expr.tree : Expr → SolidScript.Expr
  | .number numeral => .number (Number.ofNumeral numeral.text.toList)
  | .boolean value => .boolean value
  | .var name _ _ => .var name.text
  | .array items => .array (Expr.treeAll items)
  | .negate operand => .negate operand.tree
  | .binary op left right => .binary op left.tree right.tree

def Expr.treeAll : List Expr → List SolidScript.Expr
  | [] => []
  | e :: es => e.tree :: Expr.treeAll es

end

def Head.arguments (head : Head) : List Argument :=
  head.positional.map (fun e => .positional e.tree) ++
    head.named.map fun (key, value) => .named key.text value.tree

def Head.tree (head : Head) : SolidScript.Head where
  name := head.name.text
  positional := head.positional.map Expr.tree
  named := head.named.map fun (key, value) => (key.text, value.tree)
  position := .start

mutual

def Stmt.tree : Stmt → SolidScript.Stmt
  | .assign name _ value => .assign name.text value.tree
  | .loop counter start step finish body =>
    .loop counter.text start.tree (step.map Expr.tree) finish.tree (Stmt.treeAll body)
  | .call head none => .call head.tree none
  | .call head (some block) => .call head.tree (some (Stmt.treeAll block))

def Stmt.treeAll : List Stmt → Program
  | [] => []
  | s :: ss => s.tree :: Stmt.treeAll ss

end

def precedence : Operator → Nat
  | .add | .sub => 0
  | .mul | .div => 1

def Expr.level : Expr → Nat
  | .binary op _ _ => precedence op
  | _ => 2

/-- An operand in a place that takes expressions of some level and above. -/
def operand (least level : Nat) (words : List Word) : List Word :=
  if level < least then .symbol .leftParen :: words ++ [.symbol .rightParen] else words

def separated (phrases : List (List Word)) : List Word :=
  [Word.symbol .comma].intercalate phrases

mutual

def Expr.words : Expr → List Word
  | .number numeral => [.numeral numeral]
  | .boolean true => [.truth]
  | .boolean false => [.falsity]
  | .var name _ _ => [.name name]
  | .array items =>
    .symbol .leftBracket :: separated (Expr.wordsAll items) ++ [.symbol .rightBracket]
  | .negate e => .symbol .minus :: operand 2 e.level e.words
  -- Operators of one level group to the left, so only the right operand must bind more tightly.
  | .binary op l r =>
    operand (precedence op) l.level l.words ++
      .symbol op.symbol :: operand (precedence op + 1) r.level r.words

def Expr.wordsAll : List Expr → List (List Word)
  | [] => []
  | e :: es => e.words :: Expr.wordsAll es

end

def Head.words (head : Head) : List Word :=
  let positional := head.positional.map Expr.words
  let named := head.named.map fun (key, value) => .name key :: .symbol .equals :: value.words
  .name head.name :: .symbol .leftParen :: separated (positional ++ named) ++ [.symbol .rightParen]

def rangeWords (start : Expr) (step : Option Expr) (finish : Expr) : List Word :=
  match step with
  | none =>
    .symbol .leftBracket :: start.words ++ .symbol .colon :: finish.words ++ [.symbol .rightBracket]
  | some step =>
    .symbol .leftBracket :: start.words ++ .symbol .colon :: step.words ++
      .symbol .colon :: finish.words ++ [.symbol .rightBracket]

def braced (words : List Word) : List Word :=
  .symbol .leftBrace :: words ++ [.symbol .rightBrace]

mutual

def Stmt.words : Stmt → List Word
  | .assign name _ value =>
    .name name :: .symbol .equals :: value.words ++ [.symbol .semicolon]
  | .loop counter start step finish body =>
    .loop :: .symbol .leftParen :: .name counter :: .symbol .equals ::
      rangeWords start step finish ++ .symbol .rightParen :: braced (Stmt.wordsAll body)
  | .call head none => head.words ++ [.symbol .semicolon]
  | .call head (some block) => head.words ++ braced (Stmt.wordsAll block)

def Stmt.wordsAll : List Stmt → List Word
  | [] => []
  | s :: ss => s.words ++ Stmt.wordsAll ss

end

def text (script : List Stmt) : String :=
  String.intercalate " " ((Stmt.wordsAll script).map (·.lexeme.text))

end SolidScript.Written
