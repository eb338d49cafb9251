import SolidScript.Yaml.Fault
import SolidScript.Yaml.Scalar.Folding

/-!
# Block scalars

A scalar that stands on the lines below its header, indented deeper than the block around it. In a
literal scalar the lines stay as they are; in a folded one a line end between two lines of text
becomes a space.
-/

namespace SolidScript.Yaml

/-! ## The header -/

/-- What becomes of the line ends after the text: all are dropped, one is kept, or all are. -/
inductive Chomping where
  | strip
  | clip
  | keep
deriving DecidableEq, Repr

structure BlockHeader where
  chomping : Chomping := .clip
  /-- How much deeper the text is indented, if the header says. -/
  increment : Option Nat := none

def readChomping (header : BlockHeader) (cur : Cursor) : BlockHeader × Cursor :=
  match cur.rest with
  | '+' :: _ => ({ header with chomping := .keep }, cur.next)
  | '-' :: _ => ({ header with chomping := .strip }, cur.next)
  | _ => (header, cur)

def readIncrement (header : BlockHeader) (cur : Cursor) : Except Fault (BlockHeader × Cursor) :=
  match cur.rest with
  | c :: _ =>
    if c = '0' then .error .malformed
    else if c.isDigit then .ok ({ header with increment := some (c.toNat - '0'.toNat) }, cur.next)
    else .ok (header, cur)
  | [] => .ok (header, cur)

def restOfLine (cur : Cursor) : Except Fault Cursor :=
  let there := cur.skipWhile (· = ' ')
  let there := if there.rest.head? = some '#' then there.skipWhile (!isBreak ·) else there
  if endsLine there.rest then .ok there.next else .error .malformed

/-- The marks after the first character of a block scalar: chomping and increment in any order. -/
def readHeader (cur : Cursor) : Except Fault (BlockHeader × Cursor) := do
  let (header, after) := readChomping {} cur
  let (header, after) ← readIncrement header after
  let (header, after) := if header.chomping = .clip then readChomping header after
    else (header, after)
  if endsLine after.rest || after.rest.head? = some ' ' then return (header, ← restOfLine after)
  else throw .malformed

/-! ## The lines -/

def skipIndent (indent : Nat) (cur : Cursor) : Cursor :=
  cur.skip ((cur.rest.take (indent - cur.column)).takeWhile (· = ' ')).length

def emptyLines (indent : Nat) : (fuel : Nat) → Cursor → List Char × Cursor
  | 0, cur => ([], cur)
  | fuel + 1, cur =>
    let there := skipIndent indent cur
    match there.rest with
    | [] => ([], there)
    | c :: _ =>
      if isBreak c then
        let (more, after) := emptyLines indent fuel there.next
        (breakText c :: more, after)
      else ([], there)

/-- The columns that lead to the text of a block scalar: the first one where a line ended, and the
deepest one that spaces reached. -/
structure Reach where
  first : Option Nat := none
  deepest : Nat := 0

def leadingLines : (fuel : Nat) → Reach → Cursor → List Char × Reach × Cursor
  | 0, reach, cur => ([], reach, cur)
  | fuel + 1, reach, cur =>
    match cur.rest with
    | [] => ([], reach, cur)
    | c :: _ =>
      if c = ' ' then
        let there := cur.next
        leadingLines fuel { reach with deepest := max reach.deepest there.column } there
      else if isBreak c then
        let reach := { reach with first := some (reach.first.getD cur.column) }
        let (more, reach, after) := leadingLines fuel reach cur.next
        (breakText c :: more, reach, after)
      else ([], reach, cur)

/-- The lines of a text, and what is left at their end: the last line end, the empty lines after it
and the place behind. -/
structure Lines where
  text : List Char
  lineEnd : List Char
  empty : List Char
  after : Cursor

/-- The lines from here on, after some empty ones. `top` tells that nothing is around the scalar, so
that a mark between documents may end it. -/
def textLines (isFolded top : Bool) (indent : Nat) :
    (fuel : Nat) → (empty : List Char) → Cursor → Lines
  | 0, empty, cur => ⟨[], [], empty, cur⟩
  | fuel + 1, empty, cur =>
    if cur.column ≠ indent || cur.rest.isEmpty then ⟨[], [], empty, cur⟩
    else
      let line := cur.rest.takeWhile (!isBreak ·)
      let there := cur.skip line.length
      let text := empty ++ line
      let lineEnd := (there.rest.take 1).map breakText
      let (empty, after) := emptyLines indent there.rest.length there.next
      let closed := top && after.column = 0 && startsDocumentMark after.rest
      if closed || after.column ≠ indent || after.rest.isEmpty then ⟨text, lineEnd, empty, after⟩
      else
        let starts (cs : List Char) : Bool := !(cs.head?.map isTabOrSpace).getD false
        let joins := isFolded && lineEnd = ['\n'] && starts line && starts after.rest
        let glue := if !joins then lineEnd else if empty.isEmpty then [' '] else []
        let lines := textLines isFolded top indent fuel empty after
        { lines with text := text ++ glue ++ lines.text }

def blockScalar (outer : Int) (cur : Cursor) : Except Fault (List Char × Cursor) := do
  let (header, start) ← readHeader cur.next
  let least := (outer + 1).toNat
  let fuel := cur.rest.length
  let (empty, indent, start) ← match header.increment with
    | some n =>
      let indent := max least 1 + n - 1
      let (empty, start) := emptyLines indent fuel start
      pure (empty, indent, start)
    | none =>
      let (empty, reach, start) := leadingLines fuel {} start
      let first := reach.first.getD 0
      if 0 < first && first < reach.deepest then throw .malformed
      pure (empty, max least reach.deepest, start)
  let top := least = 0 && header.increment.isNone
  let lines := textLines (cur.rest.head? = some '>') top indent fuel empty start
  let tail := match header.chomping with
    | .strip => []
    | .clip => lines.lineEnd
    | .keep => lines.lineEnd ++ lines.empty
  return (lines.text ++ tail, lines.after)

end SolidScript.Yaml
