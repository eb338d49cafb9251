import SolidScript.Yaml.Scalar.Folding
import SolidScript.Yaml.Version

/-!
# Plain scalars

A scalar without quotes ends where something with a meaning of its own stands: a colon that ends a
word, a comment after a space, a bracket or comma inside brackets, or a line that is not indented
deep enough.
-/

namespace SolidScript.Yaml

/-- Where a scalar stands: whether inside brackets, and how far its lines must be indented. The
version of the format decides on the question mark. -/
structure Setting where
  flow : Bool
  indent : Int
  version : Version

def isFlowMark (c : Char) : Bool := c = ',' || c = '[' || c = ']' || c = '\x7b' || c = '\x7d'

def plainLength (setting : Setting) : List Char → Nat
  | [] => 0
  | c :: cs =>
    if c = ':' then if endsWord cs then 0 else plainLength setting cs + 1
    else if c = '?' && setting.version = .first && setting.flow then 0
    else if isBreak c || isTabOrSpace c || (setting.flow && isFlowMark c) then 0
    else plainLength setting cs + 1

/-- What stands between two words of a plain scalar, and whether it goes over a line end. Nothing is
given if the scalar ends here. -/
def plainGap (cur : Cursor) : Option (List Char) × Cursor × Bool :=
  let there := cur.skipWhile (· = ' ')
  match there.rest with
  | [] => (none, there, false)
  | c :: _ =>
    if isBreak c then
      let (more, after) := lineEnds (· = ' ') there.rest.length there.next
      (more.map (folded c), after, true)
    else
      let spaces := cur.rest.takeWhile (· = ' ')
      (if spaces.isEmpty then none else some spaces, there, false)

/-- The words of a plain scalar from here on, with what stands in front of each. The gap in front of
the first one is given, and whether it goes over a line end; it counts only if there is a word. The
last component tells whether the scalar ended with a line. -/
def plainWords (setting : Setting) :
    (fuel : Nat) → (gap : List Char) → (crossed : Bool) → Cursor → List Char × Cursor × Bool
  | 0, _, crossed, cur => ([], cur, crossed)
  | fuel + 1, gap, crossed, cur =>
    let length := plainLength setting cur.rest
    if cur.rest.head? = some '#' || length = 0 then ([], cur, crossed)
    else
      let word := gap ++ cur.rest.take length
      match plainGap (cur.skip length) with
      | (none, after, crossed) => (word, after, crossed)
      | (some gap, after, crossed) =>
        if !setting.flow && (after.column : Int) < setting.indent then (word, after, crossed)
        else
          let (more, after, crossed) := plainWords setting fuel gap crossed after
          (word ++ more, after, crossed)

def plainScalar (setting : Setting) (cur : Cursor) : List Char × Cursor × Bool :=
  plainWords setting cur.rest.length [] false cur

end SolidScript.Yaml
