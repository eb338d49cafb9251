import SolidScript.Yaml.Property
import SolidScript.Yaml.Scalar.Plain
import SolidScript.Yaml.Scalar.Quoted

/-!
# Token feeds

Tokens are read on demand. A feed holds those that were read and not yet taken. A token that may
turn out to be a key is not handed out before it is known whether a colon follows: then the token
that marks a key is put in front of it. A key has to be short and to stand on one line.
-/

namespace SolidScript.Yaml

inductive Bracket where
  | square
  | curly
deriving DecidableEq, Repr

structure Candidate where
  /-- How many brackets are open around it. -/
  level : Nat
  /-- How many tokens come before it in the document. -/
  number : Nat
  /-- Whether nothing but a key can stand there. -/
  required : Bool
  index : Nat
  line : Nat
  column : Nat

/-- The most characters between a key and its colon. -/
def keyReach : Nat := 1024

structure Feed where
  cursor : Cursor
  /-- The tokens that were read and not taken. -/
  queue : List Token := []
  /-- How many tokens were taken. -/
  taken : Nat := 0
  /-- The column of the innermost block, negative outside of all. -/
  indent : Int := -1
  /-- The columns of the blocks around it. -/
  outer : List Int := []
  /-- The open brackets, the innermost first. -/
  brackets : List Bracket := []
  keyAllowed : Bool := true
  /-- At most one candidate for each number of open brackets. -/
  candidates : List Candidate := []
  /-- Whether the end of the text was reached. -/
  done : Bool := false
  version : Version := .second

namespace Feed

def inFlow (feed : Feed) : Bool := !feed.brackets.isEmpty

def level (feed : Feed) : Nat := feed.brackets.length

def push (feed : Feed) (token : Token) : Feed := { feed with queue := feed.queue ++ [token] }

def moveTo (feed : Feed) (cursor : Cursor) : Feed := { feed with cursor }

def rest (feed : Feed) : List Char := feed.cursor.rest

def after (feed : Feed) : List Char := feed.rest.drop 1

def allowKey (feed : Feed) (allowed : Bool) : Feed := { feed with keyAllowed := allowed }

/-! ## Candidates for keys -/

/-- A candidate is out of reach once the line has changed or the text went on too far. -/
def isStale (feed : Feed) (c : Candidate) : Bool :=
  c.line ≠ feed.cursor.line || keyReach < feed.cursor.index - c.index

def dropStale (feed : Feed) : Except Fault Feed :=
  if feed.candidates.any fun c => feed.isStale c && c.required then .error .malformed
  else .ok { feed with candidates := feed.candidates.filter fun c => !feed.isStale c }

def candidate? (feed : Feed) : Option Candidate :=
  feed.candidates.find? fun c => c.level = feed.level

def eraseCandidate (feed : Feed) : Feed :=
  { feed with candidates := feed.candidates.filter fun c => c.level ≠ feed.level }

def dropCandidate (feed : Feed) : Except Fault Feed :=
  match feed.candidate? with
  | some c => if c.required then .error .malformed else .ok feed.eraseCandidate
  | none => .ok feed

def addCandidate (feed : Feed) : Except Fault Feed :=
  if feed.keyAllowed then do
    let feed ← feed.dropCandidate
    let c : Candidate := {
      level := feed.level
      number := feed.taken + feed.queue.length
      required := !feed.inFlow && feed.indent = feed.cursor.column
      index := feed.cursor.index
      line := feed.cursor.line
      column := feed.cursor.column }
    return { feed with candidates := c :: feed.candidates }
  else .ok feed

/-! ## Blocks -/

def closeBlocks (column : Int) : List Int → Feed → Feed
  | [], feed => feed
  | around :: outer, feed =>
    if column < feed.indent then
      closeBlocks column outer { feed.push .blockEnd with indent := around, outer }
    else feed

/-- Outside of brackets a smaller column ends blocks. -/
def unwind (feed : Feed) (column : Int) : Feed :=
  if feed.inFlow then feed else closeBlocks column feed.outer feed

def isDeeper (feed : Feed) (column : Nat) : Bool := feed.indent < column

def openBlock (feed : Feed) (column : Nat) : Feed :=
  { feed with indent := column, outer := feed.indent :: feed.outer }

def startBlock (feed : Feed) (token : Token) : Feed :=
  if feed.isDeeper feed.cursor.column then (feed.openBlock feed.cursor.column).push token
  else feed

/-! ## Reading one token -/

/-- The length of what does not count: spaces, comments and line ends. Tabs count as spaces only
inside brackets. -/
def gapLength (flow : Bool) : (comment : Bool) → List Char → Nat
  | _, [] => 0
  | comment, c :: cs =>
    if isBreak c then gapLength flow false cs + 1
    else if comment then gapLength flow true cs + 1
    else if c = ' ' || (flow && c = '\t') then gapLength flow false cs + 1
    else if c = '#' then gapLength flow true cs + 1
    else 0

def skipGap (feed : Feed) : Feed :=
  let cur := feed.cursor
  let cur := if cur.index = 0 && cur.rest.head? = some byteOrderMark then cur.next else cur
  let length := gapLength feed.inFlow false cur.rest
  let crossed := (cur.rest.take length).any isBreak
  { feed with
    cursor := cur.skip length
    keyAllowed := feed.keyAllowed || (crossed && !feed.inFlow) }

def readMark (feed : Feed) (token : Token) : Feed :=
  (feed.moveTo feed.cursor.next).push token

def leaveBlocks (feed : Feed) : Except Fault Feed := do
  return (← (feed.unwind (-1)).dropCandidate).allowKey false

def readFinish (feed : Feed) : Except Fault Feed := do
  return { (← feed.leaveBlocks).push .finish with candidates := [], done := true }

def readDocumentMark (feed : Feed) (token : Token) : Except Fault Feed := do
  let feed ← feed.leaveBlocks
  return (feed.moveTo (feed.cursor.skip 3)).push token

/-- The version that a directive asks for counts at once, if it has rules. -/
def readDirectiveLine (feed : Feed) : Except Fault Feed := do
  let feed ← feed.leaveBlocks
  let (directive, cursor) ← readDirective feed.version feed.cursor
  let version := match directive with
    | .version _ minor => (Version.ofMinor minor).toOption.getD feed.version
    | _ => feed.version
  return { (feed.moveTo cursor).push (.directive directive) with version }

def readOpening (feed : Feed) (bracket : Bracket) (token : Token) : Except Fault Feed := do
  let feed ← feed.addCandidate
  return { feed.readMark token with brackets := bracket :: feed.brackets, keyAllowed := true }

def readClosing (feed : Feed) (token : Token) : Except Fault Feed := do
  let feed ← feed.dropCandidate
  return { feed.readMark token with brackets := feed.brackets.drop 1, keyAllowed := false }

def readComma (feed : Feed) : Except Fault Feed := do
  return (← (feed.allowKey true).dropCandidate).readMark .comma

/-- A dash or question mark that starts an entry; `start` opens its block. -/
def readEntry (feed : Feed) (start token : Token) (keyAfter : Bool) : Except Fault Feed := do
  if !feed.inFlow && !feed.keyAllowed then throw .malformed
  let feed := if feed.inFlow then feed else feed.startBlock start
  return (← (feed.allowKey keyAfter).dropCandidate).readMark token

/-- A colon. If a candidate stands in front of it, that is a key, and may start a mapping. -/
def readValue (feed : Feed) : Except Fault Feed :=
  match feed.candidate? with
  | some c =>
    let feed := (feed.eraseCandidate).allowKey false
    let place := c.number - feed.taken
    let starts := !feed.inFlow && feed.isDeeper c.column
    let marks := if starts then [Token.blockMapping, Token.key] else [Token.key]
    let feed := { feed with queue := feed.queue.take place ++ marks ++ feed.queue.drop place }
    let feed := if starts then feed.openBlock c.column else feed
    .ok (feed.readMark .value)
  | none => feed.readEntry .blockMapping .value (!feed.inFlow)

def readKeyLike (feed : Feed) (read : Cursor → Except Fault (Token × Cursor)) :
    Except Fault Feed := do
  let feed ← feed.addCandidate
  let (token, cursor) ← read feed.cursor
  return ((feed.allowKey false).moveTo cursor).push token

def readPlain (feed : Feed) : Except Fault Feed := do
  let feed ← feed.addCandidate
  let setting : Setting := ⟨feed.inFlow, feed.indent + 1, feed.version⟩
  let (text, cursor, crossed) := plainScalar setting feed.cursor
  return ((feed.allowKey crossed).moveTo cursor).push (.scalar .plain (String.ofList text))

def readBlockScalar (feed : Feed) : Except Fault Feed := do
  let feed ← (feed.allowKey true).dropCandidate
  let (text, cursor) ← blockScalar feed.indent feed.cursor
  return (feed.moveTo cursor).push (.scalar .quoted (String.ofList text))

/-- Whether the colon here is one of a value. Inside brackets it need not end a word, except in a
sequence or right after another colon. -/
def isValueMark (feed : Feed) : Bool :=
  if feed.version = .first && feed.inFlow then true
  else
    match feed.brackets with
    | .square :: _ => endsWord feed.after
    | .curly :: _ => feed.queue.getLast? ≠ some .value || endsWord feed.after
    | [] => endsWord feed.after

def isIndicator (c : Char) : Bool := "-?:,[]\x7b\x7d#&*!|>'\"%@\x60".toList.contains c

def startsPlain (feed : Feed) (c : Char) : Bool :=
  if c = '-' then !endsWord feed.after
  else if c = '?' then !feed.inFlow && !endsWord feed.after
  else if c = ':' then
    if !feed.inFlow then !endsWord feed.after
    else feed.version = .second && !(feed.after.head?.map isTabOrSpace).getD false
  else !isIndicator c && !isBreak c && !isTabOrSpace c

def readToken (feed : Feed) (c : Char) : Except Fault Feed :=
  let firstColumn := feed.cursor.column = 0
  if c = '%' && firstColumn then feed.readDirectiveLine
  else if firstColumn && startsMark '-' feed.rest then feed.readDocumentMark .documentStart
  else if firstColumn && startsMark '.' feed.rest then feed.readDocumentMark .documentEnd
  else if c = '[' then feed.readOpening .square .openBracket
  else if c = '\x7b' then feed.readOpening .curly .openBrace
  else if c = ']' then feed.readClosing .closeBracket
  else if c = '\x7d' then feed.readClosing .closeBrace
  else if c = ',' then feed.readComma
  else if c = '-' && endsWord feed.after then feed.readEntry .blockSequence .entry true
  else if c = '?' && (feed.inFlow || endsWord feed.after) then
    feed.readEntry .blockMapping .key (!feed.inFlow)
  else if c = ':' && feed.isValueMark then feed.readValue
  else if c = '*' then
    feed.readKeyLike fun cur => (readName cur.next).map fun (name, cur) => (.reference name, cur)
  else if c = '&' then
    feed.readKeyLike fun cur => (readName cur.next).map fun (name, cur) => (.anchor name, cur)
  else if c = '!' then
    feed.readKeyLike fun cur => (readTag feed.version cur).map fun (name, cur) => (.tag name, cur)
  else if (c = '|' || c = '>') && !feed.inFlow then feed.readBlockScalar
  else if c = '\'' || c = '"' then
    feed.readKeyLike fun cur => (quotedScalar cur).map fun (body, cur) =>
      let style := if body.whole then Style.quoted else Style.broken
      (.scalar style (String.ofList body.reversed.reverse), cur)
  else if feed.startsPlain c then feed.readPlain
  else .error .malformed

def readMore (feed : Feed) : Except Fault Feed := do
  let feed ← feed.skipGap.dropStale
  let feed := feed.unwind feed.cursor.column
  match feed.rest with
  | [] => feed.readFinish
  | c :: _ => feed.readToken c

/-! ## Taking tokens -/

def fill : (fuel : Nat) → Feed → Except Fault Feed
  | 0, feed => .ok feed
  | fuel + 1, feed => do
    if feed.done then return feed
    if feed.queue.isEmpty then fill fuel (← feed.readMore)
    else
      let feed ← feed.dropStale
      if feed.candidates.any fun c => c.number = feed.taken then fill fuel (← feed.readMore)
      else return feed

def peek (feed : Feed) : Except Fault (Token × Feed) := do
  let feed ← feed.fill (feed.rest.length + 2)
  return (feed.queue.head?.getD .finish, feed)

def drop (feed : Feed) : Feed := { feed with queue := feed.queue.drop 1, taken := feed.taken + 1 }

def ofText (cs : List Char) : Feed := { cursor := { rest := cs } }

end Feed

end SolidScript.Yaml
