import SolidScript.Yaml.Feed
import SolidScript.Yaml.Node

/-!
# Documents

A text holds at most one document, and the document one node. Nodes are read from the tokens by
recursive descent: each function reads what it is named for and leaves the token after it in the
feed.
-/

namespace SolidScript.Yaml

/-- A node under a name. Its number tells it from others of the same name. -/
structure Anchor where
  name : String
  number : Nat
  node : Node

structure Walk where
  feed : Feed
  /-- The named nodes, the latest first. -/
  anchors : List Anchor := []
  /-- What handles of tags stand for. -/
  handles : List (String × String) := []

abbrev Reader := StateT Walk (Except Fault)

namespace Reader

def peek : Reader Token := do
  let walk ← get
  let (token, feed) ← walk.feed.peek
  set { walk with feed }
  return token

def drop : Reader Unit := modify fun walk => { walk with feed := walk.feed.drop }

def version : Reader Version := return (← get).feed.version

def isAt (tokens : List Token) : Reader Bool := return tokens.contains (← peek)

/-! ## Names and tags -/

def register (anchor : Option String) (node : Node) : Reader (Option Nat) := do
  match anchor with
  | none => return none
  | some name =>
    let number := (← get).anchors.length
    modify fun walk => { walk with anchors := ⟨name, number, node⟩ :: walk.anchors }
    return some number

def replace (number : Option Nat) (node : Node) : Reader Node := do
  modify fun walk =>
    let update (a : Anchor) : Anchor := if some a.number = number then { a with node } else a
    if number.isSome then { walk with anchors := walk.anchors.map update } else walk
  return node

def referredTo (name : String) : Reader Node := do
  match (← get).anchors.find? fun a => a.name = name with
  | some a => return a.node
  | none => throw .malformed

def tagText (tag : TagName) : Reader String := do
  match tag.handle with
  | none => return tag.suffix
  | some handle =>
    match (← get).handles.lookup handle with
    | some start => return start ++ tag.suffix
    | none => throw .malformed

structure Properties where
  anchor : Option String := none
  tag : Option TagName := none

def anchorThenTag (name : String) : Reader Properties := do
  drop
  match ← peek with
  | .tag tag =>
    drop
    return { anchor := some name, tag := some tag }
  | _ => return { anchor := some name }

def tagThenAnchor (tag : TagName) : Reader Properties := do
  drop
  match ← peek with
  | .anchor name =>
    drop
    return { anchor := some name, tag := some tag }
  | _ => return { tag := some tag }

def properties : Reader Properties := do
  match ← peek with
  | .anchor name => anchorThenTag name
  | .tag tag => tagThenAnchor tag
  | _ => return {}

def givenTag? (tag : Option TagName) : Reader (Option String) := do
  match tag with
  | none => return none
  | some tag => return some (← tagText tag)

/-- The tag that is given, or else another one. A lone exclamation mark gives none. -/
def tagOr (given : Option String) (other : Tag) : Tag :=
  match given with
  | none => other
  | some uri => if uri = "!" then other else .ofUri uri

/-! ## Scalars -/

/-- A scalar. It has a tag by its form if it is plain, or if a lone exclamation mark says so. -/
def scalar (anchor given : Option String) (style : Style) (s : String) : Reader Node := do
  let version ← version
  let byForm := given = some "!" || (given = none && style = .plain)
  let tag := if byForm then .ofForm version s else tagOr given .text
  let node := Node.ofScalar version tag style s
  let _ ← register anchor node
  return node

def emptyNode : Reader Node := scalar none none .plain ""

/-! ## Collections -/

/-- An open collection stands for an empty one until it is closed. -/
def openSequence : Node := .ofItems .sequence []

def openMapping : Node := .ofEntries .mapping []

mutual

/-- A node. `block` tells whether a block may start here, and `bare` whether the entries of a
sequence may, without a block of their own. -/
def node : (fuel : Nat) → (block bare : Bool) → Reader Node
  | 0, _, _ => throw .malformed
  | fuel + 1, block, bare => do
    match ← peek with
    | .reference name =>
      drop
      referredTo name
    | _ =>
      let found ← properties
      let given ← givenTag? found.tag
      let sequence (items : Reader (List Node)) : Reader Node := do
        let number ← register found.anchor openSequence
        replace number (.ofItems (tagOr given .sequence) (← items))
      let mapping (entries : Reader (List (Node × Node))) : Reader Node := do
        let number ← register found.anchor openMapping
        replace number (.ofEntries (tagOr given .mapping) (← entries))
      let other : Reader Node :=
        if found.anchor.isSome || given.isSome then scalar found.anchor given .plain ""
        else throw .malformed
      match ← peek with
      | .entry => if bare then sequence (bareItems fuel) else other
      | .scalar style s =>
        drop
        scalar found.anchor given style s
      | .openBracket => do
        drop
        sequence (flowItems fuel true)
      | .openBrace => do
        drop
        mapping (flowEntries fuel true)
      | .blockSequence =>
        if block then do
          drop
          sequence (blockItems fuel)
        else other
      | .blockMapping =>
        if block then do
          drop
          mapping (blockEntries fuel)
        else other
      | _ => other

def nodeUnless : (fuel : Nat) → (block bare : Bool) → List Token → Reader Node
  | 0, _, _, _ => throw .malformed
  | fuel + 1, block, bare, ends => do
    if ← isAt ends then emptyNode else node fuel block bare

def valueUnless : (fuel : Nat) → (block : Bool) → List Token → Reader Node
  | 0, _, _ => throw .malformed
  | fuel + 1, block, ends => do
    if ← isAt [.value] then
      drop
      nodeUnless fuel block block ends
    else emptyNode

def blockItems : (fuel : Nat) → Reader (List Node)
  | 0 => throw .malformed
  | fuel + 1 => do
    match ← peek with
    | .entry =>
      drop
      let item ← nodeUnless fuel true false [.entry, .blockEnd]
      return item :: (← blockItems fuel)
    | .blockEnd =>
      drop
      return []
    | _ => throw .malformed

/-- The items of a sequence at the column of the key it belongs to. -/
def bareItems : (fuel : Nat) → Reader (List Node)
  | 0 => throw .malformed
  | fuel + 1 => do
    match ← peek with
    | .entry =>
      drop
      let item ← nodeUnless fuel true false [.entry, .key, .value, .blockEnd]
      return item :: (← bareItems fuel)
    | _ => return []

/-- The entries of a block mapping and its end. Since the second version of the format a key may be
left out. -/
def blockEntries : (fuel : Nat) → Reader (List (Node × Node))
  | 0 => throw .malformed
  | fuel + 1 => do
    let ends := [Token.key, .value, .blockEnd]
    match ← peek with
    | .key =>
      drop
      let key ← nodeUnless fuel true true ends
      let value ← valueUnless fuel true ends
      return (key, value) :: (← blockEntries fuel)
    | .value =>
      if (← version) = .second then
        let key ← emptyNode
        let value ← valueUnless fuel true ends
        return (key, value) :: (← blockEntries fuel)
      else throw .malformed
    | .blockEnd =>
      drop
      return []
    | _ => throw .malformed

/-- The items of a sequence in brackets and the closing bracket. A key makes an item a mapping of
one entry. -/
def flowItems : (fuel : Nat) → (first : Bool) → Reader (List Node)
  | 0, _ => throw .malformed
  | fuel + 1, first => do
    if !first && !(← isAt [.comma, .closeBracket]) then throw .malformed
    if !first && (← isAt [.comma]) then drop
    match ← peek with
    | .closeBracket =>
      drop
      return []
    | .key =>
      drop
      let key ← nodeUnless fuel false false [.value, .comma, .closeBracket]
      let value ← valueUnless fuel false [.comma, .closeBracket]
      return .ofEntries .mapping [(key, value)] :: (← flowItems fuel false)
    | _ =>
      let item ← node fuel false false
      return item :: (← flowItems fuel false)

/-- The entries of a mapping in braces and the closing brace. -/
def flowEntries : (fuel : Nat) → (first : Bool) → Reader (List (Node × Node))
  | 0, _ => throw .malformed
  | fuel + 1, first => do
    if !first && !(← isAt [.comma, .closeBrace]) then throw .malformed
    if !first && (← isAt [.comma]) then drop
    match ← peek with
    | .closeBrace =>
      drop
      return []
    | .key =>
      drop
      let key ← nodeUnless fuel false false [.value, .comma, .closeBrace]
      let value ← valueUnless fuel false [.comma, .closeBrace]
      return (key, value) :: (← flowEntries fuel false)
    | token =>
      if token = .value && (← version) = .second then
        let key ← emptyNode
        let value ← valueUnless fuel false [.comma, .closeBrace]
        return (key, value) :: (← flowEntries fuel false)
      else
        let key ← node fuel false false
        let value ← emptyNode
        return (key, value) :: (← flowEntries fuel false)

end

/-! ## The document -/

def commonHandles : List (String × String) := [("!", "!"), ("!!", tagStart)]

/-- The handles that the directives in front of a document give. Each of them, and the version, may
come once. Whether the version has rules is asked when all of them are read. -/
def directives : (fuel : Nat) → (asked : Option Nat) → (handles : List (String × String)) →
    Reader (List (String × String))
  | 0, _, _ => throw .malformed
  | fuel + 1, asked, handles => do
    match ← peek with
    | .directive (.version major minor) =>
      drop
      if asked.isSome || major ≠ 1 then throw .malformed
      directives fuel (some minor) handles
    | .directive (.handle name stands) =>
      drop
      if (handles.lookup name).isSome then throw .malformed
      directives fuel asked ((name, stands) :: handles)
    | .directive .other =>
      drop
      directives fuel asked handles
    | _ =>
      let _ ← liftM (asked.mapM Version.ofMinor)
      return handles

def start (fuel : Nat) : Reader Unit := do
  let handles ← directives fuel none []
  modify fun walk => { walk with handles := handles ++ commonHandles }
  if ← isAt [.documentStart] then drop else throw .malformed

/-- A second document is one too many, but its directives are still read. -/
def surplus (fuel : Nat) : Reader Unit := do
  let _ ← directives fuel none []
  throw .malformed

/-- After the document only its end mark may come. The first version of the format has it several
times. -/
def closing : (fuel : Nat) → Reader Unit
  | 0 => throw .malformed
  | fuel + 1 => do
    match ← peek with
    | .finish => return
    | .documentEnd =>
      drop
      if (← version) = .first then closing fuel
      else if !(← isAt [.finish]) then surplus fuel
    | _ => surplus fuel

def document (fuel : Nat) : Reader (Option Node) := do
  match ← peek with
  | .finish => return none
  | .directive _ | .documentStart =>
    start fuel
    let found ← match ← peek with
      | .directive _ | .documentStart | .documentEnd | .finish => emptyNode
      | _ => node fuel true false
    closing fuel
    return some found
  | _ =>
    modify fun walk => { walk with handles := commonHandles }
    let found ← node fuel true false
    closing fuel
    return some found

end Reader

def isAllowed (c : Char) : Bool :=
  let n := c.toNat
  n = 0x09 || n = 0x0A || n = 0x0D || (0x20 ≤ n && n ≤ 0x7E) || n = 0x85 ||
    (0xA0 ≤ n && n ≤ 0xFFFD) || 0x10000 ≤ n

def datumOf (source : String) : Except Fault Datum := do
  let cs := source.toList
  if !cs.all isAllowed then throw .malformed
  let walk : Walk := { feed := .ofText cs }
  match ← (Reader.document (16 * cs.length + 16)).run' walk with
  | none => return .null
  | some node => node.reading.mapError Prod.snd

end SolidScript.Yaml
