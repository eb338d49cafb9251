import SolidScript.Yaml.Value

/-!
# Nodes

A document is a tree of nodes. A node is kept together with what it stands for, so that one with a
name is worked out once, however often it is referred to.
-/

namespace SolidScript.Yaml

/-- What a node stands for, or a fault. A fault of the node itself has depth zero, one found in
what a collection holds has depth one, and so on: a shallower fault is told before a deeper one. -/
abbrev Reading := Except (Nat × Fault) Datum

inductive Node where
  | scalar (tag : Tag) (reading : Reading)
  | sequence (items : List Node) (reading : Reading)
  /-- The entries are those after merging; there are none if that failed. -/
  | mapping (entries : Option (List (Node × Node))) (reading : Reading)

namespace Node

def reading : Node → Reading
  | .scalar _ reading => reading
  | .sequence _ reading => reading
  | .mapping _ reading => reading

def isTagged (tag : Tag) : Node → Bool
  | .scalar given _ => given = tag
  | _ => false

/-- A scalar with its value. Under the tag of a collection the fault comes to light only when what
it holds is asked for. -/
def ofScalar (version : Version) (tag : Tag) (style : Style) (s : String) : Node :=
  let depth := if [Tag.sequence, .mapping, .set, .orderedMapping, .pairs].contains tag then 1 else 0
  .scalar tag ((scalarValue version tag style s).mapError fun fault => (depth, fault))

end Node

/-! ## Keys -/

/-- Numbers of all kinds are the same key if they are equal. -/
def plainNumber : Datum → Datum
  | .boolean b => .integer (if b then 1 else 0)
  | .real x =>
    match Number.integer? x with
    | some n => .integer n
    | none => .real x
  | d => d

def sameScalar (a b : Datum) : Bool :=
  match plainNumber a, plainNumber b with
  | .null, .null => true
  | .integer m, .integer n => m = n
  | .real x, .real y => x == y || (x.isNaN && y.isNaN)
  | .text s, .text t => s = t
  | .broken s, .broken t => s = t
  | .bytes s, .bytes t => s = t
  | .instant s, .instant t => s = t
  | _, _ => false

def sameItems : List Datum → List Datum → Bool
  | [], [] => true
  | a :: as, b :: bs => sameScalar a b && sameItems as bs
  | _, _ => false

def sameKey (a b : Datum) : Bool :=
  match a, b with
  | .sequence as, .sequence bs => sameItems as bs
  | _, _ => sameScalar a b

def collection? : Datum → Option Collection
  | .sequence _ => some .list
  | .mapping _ => some .dict
  | .set _ => some .set
  | _ => none

def canBeKey : Datum → Bool
  | .mapping _ => false
  | .set _ => false
  | _ => true

/-- A sequence is a key only if it holds no collection. -/
def checkItems : Datum → Except Fault Unit
  | .sequence items =>
    match items.findSome? collection? with
    | some kind => .error (.unhashable kind)
    | none => .ok ()
  | _ => .ok ()

/-! ## Collections -/

structure Assembly where
  entries : List (Datum × Datum) := []
  /-- The shallowest fault below. -/
  below : Option (Nat × Fault) := none

namespace Assembly

def has (a : Assembly) (key : Datum) : Bool := a.entries.any fun entry => sameKey entry.1 key

def put (a : Assembly) (key value : Datum) : Assembly :=
  if a.has key then
    let entries := a.entries.map fun entry =>
      if sameKey entry.1 key then (entry.1, value) else entry
    { a with entries }
  else { a with entries := a.entries ++ [(key, value)] }

/-- A fault found below, unless one as shallow came before. -/
def note (a : Assembly) (depth : Nat) (fault : Fault) : Assembly :=
  match a.below with
  | some (least, _) => if depth < least then { a with below := some (depth, fault) } else a
  | none => { a with below := some (depth, fault) }

/-- The value of a part. A fault of the part itself is one of what the collection holds. -/
def part (a : Assembly) (node : Node) : Except Fault (Datum × Assembly) :=
  match node.reading with
  | .ok value => .ok (value, a)
  | .error (0, fault) => .error fault
  | .error (depth + 1, fault) => .ok (.null, a.note (depth + 2) fault)

/-- Add an entry. Keys are worked out to the bottom at once. Unless entries were merged, no key may
come twice. -/
def addEntry (merged : Bool) (a : Assembly) (entry : Node × Node) : Except Fault Assembly := do
  let key ← entry.1.reading.mapError Prod.snd
  if !canBeKey key then throw .malformed
  let (value, a) ← a.part entry.2
  checkItems key
  if !merged && a.has key then throw .malformed
  return a.put key value

def addItem (a : Assembly) (item : Node) : Except Fault Assembly := do
  let (value, a) ← a.part item
  return { a with entries := a.entries ++ [(.null, value)] }

def addPair (ordered : Bool) (a : Assembly) (item : Node) : Except Fault Assembly :=
  match item with
  | .mapping (some [entry]) _ => do
    let (key, a) ← a.part entry.1
    if ordered then
      match collection? key with
      | some kind => throw (.unhashable kind)
      | none => pure ()
      if a.has key then throw .repeatedEntry
    let (value, a) ← a.part entry.2
    return { a with entries := a.entries ++ [(key, value)] }
  | _ => .error .malformed

def ofParts {α : Type} (add : Assembly → α → Except Fault Assembly) (parts : List α)
    (build : List (Datum × Datum) → Datum) : Reading :=
  match parts.foldlM add {} with
  | .error fault => .error (1, fault)
  | .ok a =>
    match a.below with
    | some fault => .error fault
    | none => .ok (build a.entries)

end Assembly

/-! ## Merging -/

/-- The entries that a value of a merging key brings in: those of a mapping, or of several, of which
the first wins. -/
def broughtIn? : Node → Option (List (Node × Node))
  | .mapping entries _ => entries
  | .sequence items _ =>
    items.reverse.foldlM (fun all item =>
      match item with
      | .mapping (some entries) _ => some (all ++ entries)
      | _ => none) []
  | .scalar .. => none

/-- The entries that are brought in, and those of the mapping itself. -/
def split? : List (Node × Node) → (brought own : List (Node × Node)) →
    Option (List (Node × Node) × List (Node × Node))
  | [], brought, own => some (brought, own)
  | (key, value) :: rest, brought, own =>
    if key.isTagged .merge then
      if brought.isEmpty then
        match broughtIn? value with
        | some entries => split? rest entries own
        | none => none
      else none
    else if key.isTagged .value then
      split? rest brought (own ++ [(.scalar .text (.ok (.text "=")), value)])
    else split? rest brought (own ++ [(key, value)])

namespace Node

/-- Only the tags of collections fit a collection. -/
def misfit (tag : Tag) : Reading :=
  .error (if [Tag.sequence, .mapping, .set, .orderedMapping, .pairs].contains tag then 1 else 0,
    .malformed)

def ofItems (tag : Tag) (items : List Node) : Node :=
  .sequence items <|
    match tag with
    | .sequence =>
      Assembly.ofParts Assembly.addItem items fun entries => .sequence (entries.map Prod.snd)
    | .orderedMapping => Assembly.ofParts (Assembly.addPair true) items .mapping
    | .pairs =>
      Assembly.ofParts (Assembly.addPair false) items fun entries =>
        .sequence (entries.map fun entry => .sequence [entry.1, entry.2])
    | _ => misfit tag

def ofEntries (tag : Tag) (entries : List (Node × Node)) : Node :=
  let parts := split? entries [] []
  let assembled (build : List (Datum × Datum) → Datum) : Reading :=
    match parts with
    | none => .error (1, .malformed)
    | some (brought, own) =>
      Assembly.ofParts (Assembly.addEntry !brought.isEmpty) (brought ++ own) build
  .mapping (parts.map fun (brought, own) => brought ++ own) <|
    match tag with
    | .mapping => assembled .mapping
    | .set => assembled fun entries => .set (entries.map Prod.fst)
    | _ => misfit tag

end Node

end SolidScript.Yaml
