/-!
# Tokens of a document

A document is a row of tokens. Some stand in the text; others, which open and close blocks and mark
keys, follow from how the text is indented and where its colons are.
-/

namespace SolidScript.Yaml

/-- How a tag is written: a suffix, perhaps after a handle that stands for what comes before it. -/
structure TagName where
  handle : Option String
  suffix : String
deriving DecidableEq, Repr

inductive Directive where
  | version (major minor : Nat)
  | handle (name stands : String)
  | other
deriving DecidableEq, Repr

/-- How a scalar is written. A broken one has half of a surrogate pair, which is no character. -/
inductive Style where
  | plain
  | quoted
  | broken
deriving DecidableEq, Repr

inductive Token where
  | finish
  | directive (d : Directive)
  | documentStart
  | documentEnd
  | blockSequence
  | blockMapping
  | blockEnd
  | openBracket
  | closeBracket
  | openBrace
  | closeBrace
  | comma
  | entry
  | key
  | value
  | reference (name : String)
  | anchor (name : String)
  | tag (name : TagName)
  | scalar (style : Style) (text : String)
deriving DecidableEq, Repr

end SolidScript.Yaml
