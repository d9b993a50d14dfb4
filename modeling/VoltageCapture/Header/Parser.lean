import VoltageCapture.Header.Basic
import VoltageCapture.Text.Pieces

/-!
# Reading header text

A text is read line by line.  A line that is blank, or whose first character after
blanks is `#`, holds no field.  Every other line holds one: the key is what stands
ahead of its first blank, the value is the rest without the blanks around it.  Keys
must be ASCII.  Where a key is repeated, its first line fixes the place of the field
and its last line the value.

Bytes are read as text up to their first zero byte.
-/

namespace VoltageCapture

/-- The key and the value on a line, if the line holds a field. -/
def Field.ofLine? (line : List Char) : Option (List Char × List Char) :=
  match Text.trim line with
  | [] => none
  | '#' :: _ => none
  | c :: rest =>
    some (Text.firstWord (c :: rest), Text.trim (Text.afterFirstWord (c :: rest)))

namespace Header

/-- The keys and values on the lines of a text, in order. -/
def fieldLines (text : List Char) : List (List Char × List Char) :=
  (Text.pieces '\n' text).filterMap Field.ofLine?

/-- Whether a text is ASCII. -/
def isAscii (text : List Char) : Bool :=
  text.all (·.toNat < 128)

/-- Adds the field of one line to a header. -/
def addLine (header : Header) (line : List Char × List Char) : Except Error Header :=
  let key := String.ofList line.1
  if isAscii line.1 then
    .ok (header.set key (String.ofList line.2))
  else
    .error (.validation key "header keys must be ASCII")

/-- Reads header text. -/
def parse (text : String) : Except Error Header :=
  (fieldLines text.toList).foldlM addLine empty

/-- Reads header text from the bytes ahead of the first zero byte. -/
def ofBytes (bytes : Bytes) : Except Error Header :=
  match Utf8.decode bytes.untilNul with
  | .ok text => parse (String.ofList text)
  | .error error =>
    .error (.validation "header" s!"header text is not valid UTF-8: {error.message}")

end Header

end VoltageCapture
