/-!
# Blank characters

The characters that separate words in a script and that are cut from the ends of a metadata
field. The table lists them as closed ranges of code points, ascending and apart.
-/

namespace SolidScript.Text

/-- The blank code points: control separators, the spaces and the line and paragraph ends. -/
def blankRanges : List (Nat × Nat) :=
  [(0x09, 0x0D), (0x1C, 0x20), (0x85, 0x85), (0xA0, 0xA0), (0x1680, 0x1680), (0x2000, 0x200A),
   (0x2028, 0x2029), (0x202F, 0x202F), (0x205F, 0x205F), (0x3000, 0x3000)]

def inRanges (ranges : List (Nat × Nat)) (n : Nat) : Bool :=
  ranges.any fun range => range.1 ≤ n && n ≤ range.2

def isBlank (c : Char) : Bool := inRanges blankRanges c.toNat

/-! ## Trimming -/

def trimBy (p : Char → Bool) (cs : List Char) : List Char :=
  ((cs.dropWhile p).reverse.dropWhile p).reverse

def trim (cs : List Char) : List Char := trimBy isBlank cs

def trimText (s : String) : String := String.ofList (trim s.toList)

end SolidScript.Text
