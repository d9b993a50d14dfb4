import VoltageCapture.Reader
import VoltageCapture.Text.Pieces
import VoltageCapture.Text.Utf8

/-!
# File trees

Captures and headers are files in a tree of folders.  A path leads to a place in the
tree, from the root if it starts with a slash and from the home folder otherwise:
names are separated by slashes, empty names and `.` stay where they are, `..` goes up,
and everything ahead of the last name must be a folder.

Opening a path gives what it leads to; a folder can be opened too, but reading from it
fails.  Creating a path finds the place of a file, which may exist already.
-/

namespace VoltageCapture

/-- What stands at a place in a file tree. -/
inductive Entry where
  | file (content : Bytes)
  | folder
deriving DecidableEq, Repr

/-- A reader of an entry.  Reading from a folder fails. -/
def Entry.reader : Entry → Reader
  | .file content => .ofBytes content
  | .folder => .broken (.system .isADirectory)

/-- The bytes of an entry, none of a folder. -/
def Entry.content : Entry → Bytes
  | .file content => content
  | .folder => []

/-- A place in a file tree: the names that lead to it from the root. -/
abbrev Location := List String

/-- A tree of folders and files. -/
structure FileTree where
  /-- The folder where paths start that do not start at the root. -/
  home : Location
  /-- What stands in the tree, the folders on the way to the home folder apart. -/
  entries : List (Location × Entry) := []
deriving DecidableEq, Repr

namespace FileTree

/-- What stands at a location. -/
def entry? (tree : FileTree) (location : Location) : Option Entry :=
  if location.isPrefixOf tree.home then some .folder
  else (tree.entries.find? (·.1 == location)).map (·.2)

/-- Puts an entry at a location, in place of what stood there. -/
def put (tree : FileTree) (location : Location) (entry : Entry) : FileTree :=
  { tree with entries := (location, entry) :: tree.entries.filter (·.1 != location) }

/-! ### Walking along a path -/

/-- The longest name, in bytes. -/
def maxNameLength : Nat := 255

/-- The longest path, in bytes. -/
def maxPathLength : Nat := 4095

/-- The location that a name leads to from a folder.  The root is its own parent. -/
def step (location : Location) (name : String) : Except IoCause Location :=
  if name = "" ∨ name = "." then .ok location
  else if name = ".." then .ok location.dropLast
  else if maxNameLength < (Utf8.bytes name).length then .error (.system .nameTooLong)
  else .ok (location ++ [name])

/-- Walks along names from a location; all but the last place must be folders. -/
def walk (tree : FileTree) (location : Location) : List String → Except IoCause Location
  | [] => .ok location
  | name :: names =>
    match tree.entry? location with
    | none => .error (.system .notFound)
    | some (.file _) => .error (.system .notADirectory)
    | some .folder => do
      let next ← step location name
      tree.walk next names

/-- The names along a path. -/
def names (path : List Char) : Except IoCause (List String) :=
  if '\x00' ∈ path then
    .error (.other "file name contained an unexpected NUL byte")
  else if maxPathLength < (Utf8.encode path).length then
    .error (.system .nameTooLong)
  else if path = [] then
    .error (.system .notFound)
  else
    .ok ((Text.pieces '/' path).map String.ofList)

/-- Where a path starts. -/
def startOf (tree : FileTree) (path : List Char) : Location :=
  if path.head? = some '/' then [] else tree.home

/-- The location that a path leads to. -/
def locate (tree : FileTree) (path : List Char) : Except IoCause Location := do
  tree.walk (tree.startOf path) (← names path)

/-! ### Opening and creating -/

/-- What a path leads to. -/
def openEntry (tree : FileTree) (path : String) : Except IoCause Entry := do
  let location ← tree.locate path.toList
  match tree.entry? location with
  | some entry => .ok entry
  | none => .error (.system .notFound)

/-- The content of the file that a path leads to. -/
def read (tree : FileTree) (path : String) : Except IoCause Bytes := do
  match ← tree.openEntry path with
  | .file content => .ok content
  | .folder => .error (.system .isADirectory)

/-- The names that lead to the folder of what a path with these names creates. -/
def parentNames (names : List String) : List String :=
  ((names.reverse.dropWhile (· == "")).drop 1).reverse ++ ["."]

/-- The location of the file that is made, or replaced, when a path is created.  A path
that ends with a slash can only be that of a folder, whatever its last name is. -/
def locateNew (tree : FileTree) (path : String) : Except IoCause Location := do
  let start := tree.startOf path.toList
  let names ← names path.toList
  if names.getLast? = some "" then
    let _ ← tree.walk start (parentNames names)
    .error (.system .isADirectory)
  else
    let location ← tree.walk start names
    if tree.entry? location = some .folder then .error (.system .isADirectory)
    else .ok location

end FileTree

end VoltageCapture
