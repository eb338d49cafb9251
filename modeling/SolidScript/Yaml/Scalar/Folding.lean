import SolidScript.Yaml.Cursor

/-!
# Folding

A scalar may go on over several lines. A single line end between two lines becomes a space; of more,
the first is dropped. Blanks around line ends do not count.
-/

namespace SolidScript.Yaml

def folded (first : Char) (more : List Char) : List Char :=
  if breakText first ≠ '\n' then breakText first :: more
  else if more.isEmpty then [' '] else more

/-- The line ends that follow one, with blanks in front of each. Nothing is given if a mark between
documents follows one of them. -/
def lineEnds (isBlank : Char → Bool) : (fuel : Nat) → Cursor → Option (List Char) × Cursor
  | 0, cur => (none, cur)
  | fuel + 1, cur =>
    if startsDocumentMark cur.rest then (none, cur)
    else
      let there := cur.skipWhile isBlank
      match there.rest with
      | [] => (some [], there)
      | c :: _ =>
        if isBreak c then
          let (more, after) := lineEnds isBlank fuel there.next
          (more.map (breakText c :: ·), after)
        else (some [], there)

end SolidScript.Yaml
