import VoltageCapture.Error
import VoltageCapture.Header.Key
import VoltageCapture.Text.Decimal
import VoltageCapture.Text.Utf8

/-!
# Headers

A header describes one captured stream by fields, each a key and a value.  Fields
keep the order in which their keys first arrived: `Header.set` gives a known key
its new value in place and appends an unknown one.

`Header.render` writes one line per field, the key and the value with a space
between them.  Two headers are equal (`==`) when these texts are.  A capture file
starts with the text in UTF-8, padded with zero bytes to the size that the field
`HDR_SIZE` declares; that block is `Header.toBlock`.
-/

namespace VoltageCapture

/-- One line of a header. -/
structure Field where
  key : String
  value : String
deriving DecidableEq, Repr

/-- The line that a field is written as, with its line feed. -/
def Field.line (field : Field) : List Char :=
  field.key.toList ++ ' ' :: field.value.toList ++ ['\n']

/-- The fields that describe a captured stream, in order. -/
structure Header where
  fields : List Field := []
deriving Repr

namespace Header

/-- The header without fields. -/
def empty : Header := ⟨[]⟩

/-! ### Reading fields -/

/-- The value of a field, if the header has it. -/
def value? (header : Header) (key : String) : Option String :=
  (header.fields.find? (·.key == key)).map (·.value)

/-- Whether the header has a field of this key. -/
def contains (header : Header) (key : String) : Bool :=
  header.fields.any (·.key == key)

/-- The keys of the fields, in order. -/
def keys (header : Header) : List String :=
  header.fields.map (·.key)

/-- The number of fields. -/
def size (header : Header) : Nat :=
  header.fields.length

/-- The value of a field that the header must have. -/
def value (header : Header) (key : String) : Except Error String :=
  match header.value? key with
  | some value => .ok value
  | none => .error (.validation key "missing header field")

/-- The value of a field that must denote a `kind`, as `parse` reads it. -/
def parsed {α : Type} (header : Header) (key kind : String) (parse : String → Option α) :
    Except Error α := do
  let value ← header.value key
  match parse value with
  | some result => .ok result
  | none => .error (.validation key s!"invalid {kind} '{value}'")

/-- The value of a field that must be an unsigned integer of 32 bits. -/
def unsigned32 (header : Header) (key : String) : Except Error Nat :=
  header.parsed key "unsigned 32-bit integer" Text.unsigned32?

/-- The value of a field that must be an unsigned integer of 64 bits. -/
def unsigned64 (header : Header) (key : String) : Except Error Nat :=
  header.parsed key "unsigned 64-bit integer" Text.unsigned64?

/-- The value of a field that must be a floating point number. -/
def float (header : Header) (key : String) : Except Error Float :=
  header.parsed key "floating point number" Text.float?

/-- Checks that a field has the expected value. -/
def checkValue (header : Header) (key : String) (expected : Nat) : Except Error Unit := do
  let found ← header.unsigned32 key
  require (found = expected) (.validation key s!"expected {expected}, found {found}")

/-! ### Changing fields -/

/-- The fields in which `key` has the value `value`: in its place if it is there
already, at the end otherwise. -/
def setField (key value : String) : List Field → List Field
  | [] => [⟨key, value⟩]
  | field :: fields =>
    if field.key = key then ⟨key, value⟩ :: fields else field :: setField key value fields

/-- Gives a field a value, in its place if the header has the field already. -/
def set (header : Header) (key value : String) : Header :=
  ⟨setField key value header.fields⟩

/-- Removes a field. -/
def erase (header : Header) (key : String) : Header :=
  ⟨header.fields.filter (·.key != key)⟩

/-! ### Writing the header -/

/-- The header text: one line per field. -/
def render (header : Header) : String :=
  String.ofList (header.fields.flatMap Field.line)

/-- Headers are compared by their text. -/
instance : BEq Header where
  beq first second := first.render == second.render

/-- The size in bytes that the header declares for its block. -/
def declaredSize (header : Header) : Except Error Nat :=
  header.unsigned64 Key.headerSize

/-- The block that opens a capture file: the header text and zero bytes, together
as many bytes as the header declares. -/
def toBlock (header : Header) : Except Error Bytes := do
  let size ← header.declaredSize
  let text := Utf8.bytes header.render
  require (text.length ≤ size) (.validation Key.headerSize
    s!"header text of {text.length} bytes does not fit in {size} bytes")
  requireAllocatable size
  return text.padTo size

end Header

end VoltageCapture
