import SolidScript.Yaml.Scalar.Block
import SolidScript.Yaml.Token
import SolidScript.Yaml.Version

/-!
# Names, tags and directives

What stands in front of a node besides its content: a name for it, a reference to a name, or a tag;
and the directives in front of a document.
-/

namespace SolidScript.Yaml

def endsProperty (cs : List Char) : Bool := endsLine cs || cs.head? = some ' '

def isWordChar (c : Char) : Bool := c.isAlphanum || c = '-' || c = '_'

/-! ## Names of nodes -/

def isNameChar (c : Char) : Bool :=
  let n := c.toNat
  !("[],\x7b\x7d".toList.contains c) && c ≠ byteOrderMark &&
    ((0x21 ≤ n && n ≤ 0x7E) || (0xA0 ≤ n && n ≤ 0xFFFD) || 0x10000 ≤ n)

def readName (cur : Cursor) : Except Fault (String × Cursor) :=
  let name := cur.rest.takeWhile isNameChar
  let after := cur.skip name.length
  if !name.isEmpty && (endsWord after.rest || startsAmong "?:,[]\x7b\x7d%@\x60" after.rest) then
    .ok (String.ofList name, after)
  else .error .malformed

/-! ## Tags -/

/-- The bytes that percent signs with two hexadecimal digits each give. -/
def percentBytes : List Char → Option (List UInt8 × Nat)
  | '%' :: a :: b :: cs =>
    if isHexDigit a && isHexDigit b then
      (percentBytes cs).map fun (bytes, n) => ((ofBase 16 [a, b]).toUInt8 :: bytes, n + 3)
    else none
  | '%' :: _ => none
  | _ => some ([], 0)

def isUriChar (version : Version) (c : Char) : Bool :=
  c.isAlphanum || "-;/?:@&=+$,_.!~*'()[]".toList.contains c || (c = '#' && version ≠ .first)

def uriText (version : Version) : (fuel : Nat) → (text : List Char) → Cursor →
    Except Fault (List Char × Cursor)
  | 0, text, cur => .ok (text, cur)
  | fuel + 1, text, cur =>
    match cur.rest with
    | '%' :: _ =>
      match percentBytes cur.rest with
      | none => .error .malformed
      | some (bytes, n) =>
        match String.fromUTF8? ⟨bytes.toArray⟩ with
        | none => .error .malformed
        | some s => uriText version fuel (text ++ s.toList) (cur.skip n)
    | c :: _ =>
      if isUriChar version c then uriText version fuel (text ++ [c]) cur.next else .ok (text, cur)
    | [] => .ok (text, cur)

def readUri (version : Version) (cur : Cursor) : Except Fault (String × Cursor) := do
  let (text, after) ← uriText version (cur.rest.length + 1) [] cur
  if after.index = cur.index then throw .malformed
  return (String.ofList text, after)

/-- A handle: a word between exclamation marks, or a single mark in front of a space. -/
def readHandle (cur : Cursor) : Except Fault (String × Cursor) :=
  match cur.rest with
  | '!' :: ' ' :: _ => .ok ("!", cur.next)
  | '!' :: cs =>
    let word := cs.takeWhile isWordChar
    if cs[word.length]? = some '!' then
      .ok (String.ofList ('!' :: word ++ ['!']), cur.skip (word.length + 2))
    else .error .malformed
  | _ => .error .malformed

def readTag (version : Version) (cur : Cursor) : Except Fault (TagName × Cursor) := do
  let twice := (cur.rest.drop 1).head? = some '!'
  let cur := if twice then cur.next else cur
  let short := if twice then "!!" else "!"
  let inside := cur.rest.drop 1
  let (name, after) ←
    if inside.head? = some '<' then do
      let (suffix, after) ← readUri version (cur.skip 2)
      if after.rest.head? ≠ some '>' then throw Fault.malformed
      pure (TagName.mk none suffix, after.next)
    else if endsWord inside then pure (TagName.mk none short, cur.next)
    else if (inside.takeWhile fun c => !isBreak c && c ≠ ' ').contains '!' then do
      let (handle, after) ← readHandle cur
      let (suffix, after) ← readUri version after
      pure (TagName.mk (some handle) suffix, after)
    else do
      let (suffix, after) ← readUri version cur.next
      pure (TagName.mk (some short) suffix, after)
  if endsProperty after.rest then return (name, after) else throw .malformed

/-! ## Directives -/

def readNumber (cur : Cursor) : Except Fault (Nat × Cursor) :=
  let digits := cur.rest.takeWhile Char.isDigit
  if digits.isEmpty then .error .malformed
  else if digitLimit < digits.length then .error (.tooManyDigits digits.length)
  else .ok (ofBase 10 digits, cur.skip digits.length)

def readVersion (cur : Cursor) : Except Fault (Directive × Cursor) := do
  let (major, after) ← readNumber (cur.skipWhile (· = ' '))
  if after.rest.head? ≠ some '.' then throw .malformed
  let (minor, after) ← readNumber after.next
  if endsProperty after.rest then return (.version major minor, after) else throw .malformed

def readMeaning (version : Version) (cur : Cursor) : Except Fault (Directive × Cursor) := do
  let (handle, after) ← readHandle (cur.skipWhile (· = ' '))
  if after.rest.head? ≠ some ' ' then throw .malformed
  let (stands, after) ← readUri version (after.skipWhile (· = ' '))
  if endsProperty after.rest then return (.handle handle stands, after) else throw .malformed

def readDirective (version : Version) (cur : Cursor) : Except Fault (Directive × Cursor) := do
  let name := cur.next.rest.takeWhile fun c => isWordChar c || c = ':' || c = '.'
  let after := cur.skip (name.length + 1)
  if name.isEmpty || !endsProperty after.rest then throw .malformed
  let (directive, after) ←
    if name = "YAML".toList then readVersion after
    else if name = "TAG".toList then readMeaning version after
    else pure (Directive.other, after.skipWhile (!isBreak ·))
  return (directive, ← restOfLine after)

end SolidScript.Yaml
