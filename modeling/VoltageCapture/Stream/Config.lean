import VoltageCapture.Header.Basic

/-!
# Opening a capture

A capture is opened with a path and two sizes: the greatest length of a block, and
the number of bytes that are read before the size of the header is known.
-/

namespace VoltageCapture

/-- The size of a header block where nothing else is asked for. -/
def Header.defaultSize : Nat := 4096

/-- How a capture is to be opened. -/
structure StreamConfig where
  /-- The path of the capture. -/
  path : String := ""
  /-- The greatest length of a block. -/
  blockSize : Nat := 1048576
  /-- The bytes to read before the size of the header is known. -/
  headerSizeHint : Nat := Header.defaultSize
deriving DecidableEq, Repr

namespace StreamConfig

/-- The greatest length of a block where nothing else is asked for. -/
def defaultBlockSize : Nat := ({} : StreamConfig).blockSize

/-- Opens a path with default sizes. -/
def ofPath (path : String) : StreamConfig :=
  { path }

/-- The refusal of a block size of zero. -/
def zeroBlockSize : Error :=
  .validation "block_size" "Block size must be greater than 0"

/-- Checks that there is a path and that no size is zero. -/
def validate (config : StreamConfig) : Except Error Unit := do
  require (config.path ≠ "") (.validation "path" "Stream path cannot be empty")
  require (config.blockSize ≠ 0) zeroBlockSize
  require (config.headerSizeHint ≠ 0)
    (.validation "header_size_hint" "Header size hint must be greater than 0")

end StreamConfig

end VoltageCapture
