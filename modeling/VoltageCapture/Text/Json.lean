/-!
# JSON objects of numbers

Layouts are reported as JSON objects whose values are natural numbers or such
objects again.  Members keep their order.  The compact form has no blanks; the
indented form puts each member on a line of its own, two spaces deeper than the
object it belongs to.
-/

namespace VoltageCapture.Text

/-- A JSON value made of numbers and objects. -/
inductive Json where
  | number (n : Nat)
  | object (members : List (String × Json))

namespace Json

/-- A brace that opens an object. -/
def openBrace : String := "\x7b"

/-- A brace that closes an object. -/
def closeBrace : String := "\x7d"

/-- A member name in quotes.  Names are plain words and need no escapes. -/
def quoteName (name : String) : String :=
  "\"" ++ name ++ "\""

mutual

/-- The text of a value without blanks. -/
def compact : Json → String
  | number n => toString n
  | object members => openBrace ++ ",".intercalate (compactMembers members) ++ closeBrace

/-- The texts of the members of an object without blanks. -/
def compactMembers : List (String × Json) → List String
  | [] => []
  | (name, value) :: members =>
    (quoteName name ++ ":" ++ compact value) :: compactMembers members

end

mutual

/-- The text of a value over several lines; `margin` stands ahead of the line on
which an object ends. -/
def indented (margin : String) : Json → String
  | number n => toString n
  | object [] => openBrace ++ closeBrace
  | object (member :: members) =>
    openBrace ++ "\n"
      ++ ",\n".intercalate (indentedMembers (margin ++ "  ") (member :: members))
      ++ "\n" ++ margin ++ closeBrace

/-- The lines of the members of an object; `margin` stands ahead of each. -/
def indentedMembers (margin : String) : List (String × Json) → List String
  | [] => []
  | (name, value) :: members =>
    (margin ++ quoteName name ++ ": " ++ indented margin value) :: indentedMembers margin members

end

end Json

end VoltageCapture.Text
