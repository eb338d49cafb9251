import SolidScript.Yaml.Fault
import SolidScript.Yaml.Scalar.Folding

/-!
# Quoted scalars

In single quotes only the quote itself is written twice. In double quotes a backslash starts an
escape. Lines are folded in both, and no mark between documents may start one.
-/

namespace SolidScript.Yaml

def escape? : Char → Option Char
  | '0' => some (Char.ofNat 0)
  | 'a' => some (Char.ofNat 7)
  | 'b' => some (Char.ofNat 8)
  | 't' => some '\t'
  | '\t' => some '\t'
  | 'n' => some '\n'
  | 'v' => some (Char.ofNat 0x0B)
  | 'f' => some (Char.ofNat 0x0C)
  | 'r' => some '\r'
  | 'e' => some (Char.ofNat 0x1B)
  | ' ' => some ' '
  | '"' => some '"'
  | '/' => some '/'
  | '\\' => some '\\'
  | 'N' => some (Char.ofNat 0x85)
  | '_' => some (Char.ofNat 0xA0)
  | 'L' => some (Char.ofNat 0x2028)
  | 'P' => some (Char.ofNat 0x2029)
  | _ => none

def escapeWidth? : Char → Option Nat
  | 'x' => some 2
  | 'u' => some 4
  | 'U' => some 8
  | _ => none

structure Body where
  /-- The characters, the last one first. -/
  reversed : List Char := []
  /-- Whether every escape gave a character, and none half of a surrogate pair. -/
  whole : Bool := true

namespace Body

def push (body : Body) (cs : List Char) : Body :=
  { body with reversed := cs.reverse ++ body.reversed }

/-- Add a code point; half of a surrogate pair has a stand-in. -/
def pushPoint (body : Body) (n : Nat) : Except Fault Body :=
  if 0x110000 ≤ n then .error (.noSuchPoint n)
  else if 0xD800 ≤ n && n < 0xE000 then
    .ok { reversed := Char.ofNat 0xFFFD :: body.reversed, whole := false }
  else .ok (body.push [Char.ofNat n])

end Body

def quotedLineEnds (cur : Cursor) : Except Fault (List Char × Cursor) :=
  match lineEnds isTabOrSpace (cur.rest.length + 1) cur with
  | (some more, after) => .ok (more, after)
  | (none, _) => .error .malformed

def readEscape (body : Body) (cur : Cursor) : Except Fault (Body × Cursor) :=
  match cur.rest with
  | [] => .error .malformed
  | c :: cs =>
    match escape? c, escapeWidth? c with
    | some d, _ => .ok (body.push [d], cur.next)
    | none, some width => do
      let digits := cs.take width
      if digits.length < width || !digits.all isHexDigit then throw .malformed
      return (← body.pushPoint (ofBase 16 digits), cur.skip (width + 1))
    | none, none =>
      if isBreak c then do
        let (more, after) ← quotedLineEnds cur.next
        return (body.push more, after)
      else .error .malformed

/-- What comes next inside quotes; after the closing quote nothing does. -/
def quotedStep (double : Bool) (body : Body) (cur : Cursor) : Except Fault (Bool × Body × Cursor) :=
  match cur.rest with
  | [] => .error .malformed
  | c :: cs =>
    if c = '\'' && !double then
      if cs.head? = some '\'' then .ok (true, body.push ['\''], cur.skip 2)
      else .ok (false, body, cur.next)
    else if c = '"' && double then .ok (false, body, cur.next)
    else if c = '\\' && double then do
      let (body, after) ← readEscape body cur.next
      return (true, body, after)
    else if isTabOrSpace c || isBreak c then
      let there := cur.skipWhile isTabOrSpace
      match there.rest with
      | [] => .error .malformed
      | d :: _ =>
        if isBreak d then do
          let (more, after) ← quotedLineEnds there.next
          return (true, body.push (folded d more), after)
        else .ok (true, body.push (cur.rest.takeWhile isTabOrSpace), there)
    else .ok (true, body.push [c], cur.next)

def quotedBody (double : Bool) : (fuel : Nat) → Body → Cursor → Except Fault (Body × Cursor)
  | 0, _, _ => .error .malformed
  | fuel + 1, body, cur => do
    let (more, body, after) ← quotedStep double body cur
    if more then quotedBody double fuel body after else return (body, after)

def quotedScalar (cur : Cursor) : Except Fault (Body × Cursor) :=
  quotedBody (cur.rest.head? = some '"') cur.rest.length {} cur.next

end SolidScript.Yaml
