import VoltageCapture.Header.Parser
import VoltageCapture.Reader

/-!
# The header at the start of a stream

A captured stream opens with a header block whose size only the header itself tells.
It is therefore read in two steps.  The first reads as many bytes as a hint says and
looks for the field `HDR_SIZE` among them, line by line, without reading the other
fields.  The second reads what is still missing of the block.  Bytes that the first
step read past the block belong to the payload and are handed on with the header.
-/

namespace VoltageCapture.Header

/-! ### Finding the size -/

/-- The size that a line declares: `none` if the line is no declaration, and an
error if the value is not a positive number below 2^64. -/
def sizeOfLine? (line : List Char) : Option (Except Error Nat) :=
  match Text.words line with
  | [] => none
  | key :: values =>
    if String.ofList key = Key.headerSize then
      let value := String.ofList (values.headD [])
      match Text.unsigned64? value with
      | some 0 => some (.error (.validation Key.headerSize "header size must be non-zero"))
      | some size => some (.ok size)
      | none =>
        some (.error (.validation Key.headerSize s!"invalid unsigned integer '{value}'"))
    else
      none

/-- The size that the first declaration among some lines gives.  The search ends at a
line that is not text. -/
def sizeOfLines : List Bytes → Except Error Nat
  | [] => .error (.validation Key.headerSize "missing header field")
  | line :: lines =>
    match Utf8.decode line with
    | .error _ => .error (.validation Key.headerSize "missing header field")
    | .ok text => (sizeOfLine? text).getD (sizeOfLines lines)

/-- The byte that ends a line. -/
def lineFeed : UInt8 := 0x0A

/-- The size of the header block that starts with the bytes `leading`. -/
def scanSize (leading : Bytes) : Except Error Nat :=
  sizeOfLines (Text.pieces lineFeed leading.untilNul)

/-! ### Reading the block -/

/-- Reads on until the bytes `leading`, already read, are at least `size` bytes. -/
def extendTo (size : Nat) (leading : Bytes) (reader : Reader) : Except Error Bytes × Reader :=
  if size ≤ leading.length then
    (.ok leading, reader)
  else if Bytes.maxLength < size then
    (.error (.allocation size), reader)
  else
    match reader.readFull (size - leading.length) with
    | (.error cause, reader) => (.error (.ofCause cause "Failed to read header"), reader)
    | (.ok more, reader) =>
      let available := leading.length + more.length
      if available < size then
        (.error (.io
          s!"header truncated: HDR_SIZE is {size} but only {available} bytes available" none),
          reader)
      else
        (.ok (leading ++ more), reader)

/-- The header in the first `size` bytes, and the bytes after them. -/
def splitAtSize (size : Nat) (bytes : Bytes) : Except Error (Header × Bytes) := do
  let header ← ofBytes (bytes.take size)
  return (header, bytes.drop size)

/-- Reads the header block at the start of a stream, beginning with `hint` bytes.
Gives the header and the payload bytes that were read along with it. -/
def readPrefixed (reader : Reader) (hint : Nat) : Except Error (Header × Bytes) × Reader :=
  let first := max hint 1
  if Bytes.maxLength < first then
    (.error (.allocation first), reader)
  else
    match reader.readFull first with
    | (.error cause, reader) => (.error (.ofCause cause "Failed to read header"), reader)
    | (.ok [], reader) => (.error (.io "stream is empty" none), reader)
    | (.ok leading, reader) =>
      match scanSize leading with
      | .error error => (.error error, reader)
      | .ok size =>
        match extendTo size leading reader with
        | (.error error, reader) => (.error error, reader)
        | (.ok bytes, reader) => (splitAtSize size bytes, reader)

end VoltageCapture.Header
