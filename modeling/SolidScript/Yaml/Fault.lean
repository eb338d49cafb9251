import SolidScript.Text.Quoted

/-!
# Faults of a document

Why a document has no meaning. Most faults lie in the text or in how its nodes fit together, and
are not told apart; the others come from a single scalar, key or directive and say what is wrong
with it.
-/

namespace SolidScript.Yaml

inductive InstantPart where
  | year
  | month
  | day
  | hour
  | minute
  | second
deriving DecidableEq, Repr

def InstantPart.message : InstantPart → String
  | .year => "year 0 is out of range"
  | .month => "month must be in 1..12"
  | .day => "day is out of range for month"
  | .hour => "hour must be in 0..23"
  | .minute => "minute must be in 0..59"
  | .second => "second must be in 0..59"

/-- The kinds of collections that cannot be part of a key. -/
inductive Collection where
  | list
  | dict
  | set
deriving DecidableEq, Repr

def Collection.name : Collection → String
  | .list => "list"
  | .dict => "dict"
  | .set => "set"

inductive Fault where
  | malformed
  /-- An escape gives a code point beyond the last one. -/
  | noSuchPoint (n : Nat)
  | notAnInteger (base : Nat) (written : String)
  | tooManyDigits (count : Nat)
  | notAReal (written : String)
  /-- A real has more than one mark of an exponent. -/
  | manyExponents
  /-- A number is asked of an empty text. -/
  | emptyNumber
  | notABoolean (written : String)
  | noSuchInstant (part : InstantPart)
  | unhashable (part : Collection)
  /-- An entry of an ordered mapping comes twice. -/
  | repeatedEntry
  /-- The document asks for a version of the format that has no rules. -/
  | unknownVersion (minor : Nat)
deriving DecidableEq, Repr

/-- The most decimal digits of an integer. -/
def digitLimit : Nat := 4300

def Fault.message : Fault → String
  | .malformed => "not a document"
  | .noSuchPoint _ => "chr() arg not in range(0x110000)"
  | .notAnInteger base written =>
    "invalid literal for int() with base " ++ toString base ++ ": " ++
      String.ofList ((Text.quoted written).toList.take 200)
  | .tooManyDigits count =>
    "Exceeds the limit (" ++ toString digitLimit ++ " digits) for integer string conversion: " ++
      "value has " ++ toString count ++
      " digits; use sys.set_int_max_str_digits() to increase the limit"
  | .notAReal written => "could not convert string to float: " ++ Text.quoted written
  | .manyExponents => "too many values to unpack (expected 2)"
  | .emptyNumber => "string index out of range"
  | .notABoolean written => Text.quoted written
  | .noSuchInstant part => part.message
  | .unhashable part => "unhashable type: '" ++ part.name ++ "'"
  | .repeatedEntry => ""
  | .unknownVersion minor =>
    "version minor part can only be 2 or 1, got (1, " ++ toString minor ++ ")"

end SolidScript.Yaml
