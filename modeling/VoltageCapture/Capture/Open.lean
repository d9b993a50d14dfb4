import VoltageCapture.Capture.FileTree
import VoltageCapture.Header.Parser

/-!
# Opening files

Captures and headers are opened by path.  A failure names the path as it was given.
-/

namespace VoltageCapture.FileTree

/-- Opens the capture that a path leads to.  An empty file is no capture. -/
def openCapture (tree : FileTree) (path : String) : Except Error Entry :=
  match tree.openEntry path with
  | .error cause => .error (.atPath "Failed to open" path cause)
  | .ok (.file []) => .error (.io s!"{path} is empty" none)
  | .ok entry => .ok entry

/-- Reads the header that a file consists of. -/
def loadHeader (tree : FileTree) (path : String) : Except Error Header :=
  match tree.read path with
  | .error cause => .error (.atPath "Failed to read header" path cause)
  | .ok content => Header.ofBytes content

end VoltageCapture.FileTree
