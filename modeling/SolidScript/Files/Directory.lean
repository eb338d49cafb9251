import SolidScript.Files.System

/-!
# Directories

A working directory held as data: a tree of directories and files, and a place in it. A path is
followed part by part, from the working directory or from the root.
-/

namespace SolidScript

/-- A place in a file tree: the names that lead to it from the root. -/
abbrev Place := List String

structure FileTree where
  folders : List Place := []
  /-- The files with their texts; a file whose bytes are no text has none. -/
  files : List (Place × Option String) := []
  /-- The places where no file can be written, and why. -/
  closed : List (Place × PathFault) := []
deriving Repr

namespace FileTree

def isFolder (tree : FileTree) (place : Place) : Bool :=
  place.isEmpty || tree.folders.contains place

def file? (tree : FileTree) (place : Place) : Option (Option String) := tree.files.lookup place

/-! ## Following a path -/

/-- Where a path leads: to a directory, to a file, or to a free place in a directory. -/
inductive Target where
  | folder (place : Place)
  | file (place : Place) (text : Option String)
  | free (place : Place)
deriving DecidableEq, Repr

def Target.filePlace? : Target → Option Place
  | .folder _ => none
  | .file place _ => some place
  | .free place => some place

/-- Follow parts from a directory at `place`. The root is above itself. -/
def follow (tree : FileTree) (place : Place) : List String → Except PathFault Target
  | [] => .ok (.folder place)
  | part :: rest =>
    if part = "" || part = "." then follow tree place rest
    else if part = ".." then follow tree place.dropLast rest
    else if Path.nameLimit < part.utf8ByteSize then .error .nameTooLong
    else
      let there := place ++ [part]
      if tree.isFolder there then follow tree there rest
      else
        match tree.file? there, rest with
        | some text, [] => .ok (.file there text)
        | some _, _ :: _ => .error .notADirectory
        | none, [] => .ok (.free there)
        | none, _ :: _ => .error .noEntry

/-- Where the text of a path leads from a working directory. An empty text leads nowhere. -/
def find (tree : FileTree) (home : Place) (path : String) : Except PathFault Target :=
  if path = "" then .error .noEntry
  else if Path.textLimit < path.utf8ByteSize then .error .nameTooLong
  else tree.follow (if (Path.ofText path).root = "" then home else []) (Path.rawParts path)

def names (tree : FileTree) (place : Place) : List String :=
  (tree.folders ++ tree.files.map Prod.fst).filterMap fun there =>
    if !there.isEmpty && there.dropLast = place then there.getLast? else none

def put (tree : FileTree) (place : Place) (text : String) : FileTree :=
  { tree with files := (place, some text) :: tree.files.filter fun entry => entry.1 ≠ place }

def addFolder (tree : FileTree) (place : Place) : FileTree :=
  let onTheWay := (List.range place.length).map fun n => place.take (n + 1)
  { tree with folders := tree.folders ++ onTheWay.filter fun there => !tree.isFolder there }

end FileTree

structure Directory where
  tree : FileTree := {}
  home : Place := []
deriving Repr

namespace Directory

/-! ## Looking and writing -/

def entry? (dir : Directory) (place : Place) : Option Entry :=
  if dir.tree.isFolder place then some .folder else (dir.tree.file? place).map .file

/-- Where a path leads, if a file stands there or may be put there. -/
def place? (dir : Directory) (path : String) : Option Place :=
  match dir.tree.find dir.home path with
  | .ok target => target.filePlace?
  | .error _ => none

def sight (dir : Directory) (path : String) : Sight :=
  if path.toList.contains Path.terminator then .noPath
  else
    match dir.tree.find dir.home path with
    | .error fault => .absent fault
    | .ok (.free _) => .absent .noEntry
    | .ok (.folder place) => .directory (dir.tree.names place)
    | .ok (.file _ text) => .file text

/-- Write a whole file, unless its place is closed. -/
def write (dir : Directory) (path text : String) : Except PathFault Unit × Directory :=
  if path.toList.contains Path.terminator then (.error .invalid, dir)
  else
    match dir.tree.find dir.home path with
    | .error fault => (.error fault, dir)
    | .ok target =>
      match target.filePlace? with
      | none => (.error .isADirectory, dir)
      | some place =>
        match dir.tree.closed.lookup place with
        | some fault => (.error fault, dir)
        | none => (.ok (), { dir with tree := dir.tree.put place text })

def fileSystem : FileSystem where
  State := Directory
  Place := Place
  entry? := entry?
  place? := place?
  sight := sight
  write := write

/-! ## Entries

The places of a directory's own entries are told from there on. -/

def files (dir : Directory) : List (Place × Option String) :=
  dir.tree.files.filterMap fun entry =>
    if dir.home.isPrefixOf entry.1 then some (entry.1.drop dir.home.length, entry.2) else none

def file? (dir : Directory) (place : Place) : Option (Option String) :=
  dir.tree.file? (dir.home ++ place)

/-- A directory below the root with some directories and files and what is needed to hold them. -/
def ofEntries (folders : List Place) (files : List (Place × Option String)) : Directory :=
  let home := ["work"]
  let places := [] :: (folders ++ files.map fun entry => entry.1.dropLast)
  let tree := (places.map (home ++ ·)).foldl FileTree.addFolder {}
  { tree := { tree with files := files.map fun entry => (home ++ entry.1, entry.2) }, home }

end Directory

end SolidScript
