import VoltageCapture.Text.Shown

/-!
# Quoted text

Text in a report stands between quotation marks.  A quotation mark and a backslash in
it have a backslash ahead of them; tab, line feed, carriage return and the zero
character are written with a letter or a digit, and all other characters that cannot be
shown with their code point in hexadecimal.
-/

namespace VoltageCapture.Text

/-- A code point in hexadecimal between braces, behind a backslash and a `u`. -/
def escapeCode (code : Nat) : List Char :=
  '\\' :: 'u' :: '\x7b' :: Nat.toDigits 16 code ++ ['\x7d']

/-- How a character is written between quotation marks. -/
def quoteChar (c : Char) : List Char :=
  if c = '"' ∨ c = '\\' then ['\\', c]
  else if c = '\t' then ['\\', 't']
  else if c = '\n' then ['\\', 'n']
  else if c = '\r' then ['\\', 'r']
  else if c = '\x00' then ['\\', '0']
  else if isShown c then [c]
  else escapeCode c.toNat

/-- A text between quotation marks. -/
def quote (text : String) : String :=
  String.ofList ('"' :: text.toList.flatMap quoteChar ++ ['"'])

end VoltageCapture.Text
