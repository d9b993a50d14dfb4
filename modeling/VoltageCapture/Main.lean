import VoltageCapture.Command.Run

/-!
# The program

The outer layer of the command line.  It looks up the paths that the arguments name,
puts what it finds into a file tree, carries out the task on that tree, writes the file
that the task has made and prints the outcome.
-/

namespace VoltageCapture.Main

/-- The folder where the program runs, as it is called in the file tree. -/
def home : Location := ["work"]

/-- What stands at a path.  A folder is told by the dot name in it. -/
def probe (path : String) : IO (Option Entry) := do
  try
    let _ ← IO.FS.Handle.mk (path ++ "/.") IO.FS.Mode.read
    return some .folder
  catch _ =>
    try
      let content ← IO.FS.readBinFile path
      return some (.file content.toList)
    catch _ => return none

/-- Puts what stands at a path into a file tree. -/
def lookUp (tree : FileTree) (path : String) : IO FileTree := do
  match tree.locate path.toList, ← probe path with
  | .ok location, some entry =>
    return if tree.entry? location = some .folder then tree else tree.put location entry
  | _, _ => return tree

/-- The paths on the way to a path, the path itself last. -/
def waypoints (path : String) : List String :=
  let names := Text.pieces '/' path.toList
  (List.range names.length).map fun index =>
    String.ofList (['/'].intercalate (names.take (index + 1)))

/-- A file tree with what stands at some paths and on the way to them. -/
def gather (paths : List String) : IO FileTree :=
  (paths.flatMap waypoints).foldlM lookUp ⟨home, []⟩

/-- Writes the files of the given paths that differ between two file trees. -/
def writeBack (before after : FileTree) (paths : List String) : IO Unit :=
  paths.forM fun path => do
    if let .ok content := after.read path then
      if (before.read path).toOption ≠ some content then
        IO.FS.writeBinFile path ⟨content.toArray⟩

end VoltageCapture.Main

open VoltageCapture in
/-- Carries out the task that the arguments name. -/
def main (arguments : List String) : IO UInt32 := do
  let paths := ((Invocation.ofArguments arguments).map Invocation.paths).getD []
  let before ← Main.gather paths
  let (outcome, after) := Command.run before arguments
  Main.writeBack before after paths
  IO.print outcome.stdout
  IO.eprint outcome.stderr
  return UInt32.ofNat outcome.code
