import VoltageCapture.Capture.FileTree
import VoltageCapture.Header.Basic

/-!
# Writing captures

A capture file is written from front to back: the header block, padded to the size that
the header declares, and then the payload, block by block.  Creating the writer empties
a file that is there already, but only when everything that the header block needs is
in order.  The bytes are in the file once the writer is finished.
-/

namespace VoltageCapture

/-- A capture file that is being written. -/
structure CaptureWriter where
  /-- The path as it was given. -/
  path : String
  /-- Where the file stands. -/
  location : Location
  /-- What has been written. -/
  content : Bytes
  /-- The number of payload bytes among them. -/
  payloadWritten : Nat := 0
deriving DecidableEq, Repr

namespace CaptureWriter

/-- Creates a capture file and writes its header block. -/
def create (tree : FileTree) (path : String) (header : Header) :
    Except Error (CaptureWriter × FileTree) := do
  let content ← header.toBlock
  match tree.locateNew path with
  | .error cause => .error (.atPath "Failed to create" path cause)
  | .ok location => return ({ path, location, content }, tree.put location (.file []))

/-- Appends payload bytes. -/
def write (writer : CaptureWriter) (bytes : Bytes) : CaptureWriter :=
  { writer with
    content := writer.content ++ bytes
    payloadWritten := writer.payloadWritten + bytes.length }

/-- Closes the file; gives the number of payload bytes in it. -/
def finish (writer : CaptureWriter) (tree : FileTree) : Nat × FileTree :=
  (writer.payloadWritten, tree.put writer.location (.file writer.content))

end CaptureWriter

end VoltageCapture
