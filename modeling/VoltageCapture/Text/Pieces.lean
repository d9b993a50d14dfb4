import VoltageCapture.Text.Blank

/-!
# Lines and words

Header text is read line by line, and a line word by word.  `pieces` cuts any
list at a separator, so that the same rule serves text cut at line feeds and
bytes cut at the byte of a line feed; `trim` removes blanks at both ends, and
`words` gives the blank-separated parts of a line.
-/

namespace VoltageCapture.Text

/-- The parts of a list before, between and after the occurrences of a separator.
There is one part more than there are separators, and parts may be empty. -/
def pieces {α : Type} [DecidableEq α] (separator : α) (items : List α) : List (List α) :=
  match _h : items.dropWhile (· != separator) with
  | [] => [items]
  | _ :: rest => items.takeWhile (· != separator) :: pieces separator rest
termination_by items.length
decreasing_by
  have hle := (List.dropWhile_suffix (l := items) (· != separator)).length_le
  rw [_h] at hle
  exact hle

/-- The text without the blanks at its start. -/
def trimStart (text : List Char) : List Char :=
  text.dropWhile isBlank

/-- The text without the blanks at its end. -/
def trimEnd (text : List Char) : List Char :=
  (text.reverse.dropWhile isBlank).reverse

/-- The text without the blanks at its start and its end. -/
def trim (text : List Char) : List Char :=
  trimEnd (trimStart text)

/-- The text up to its first blank. -/
def firstWord (text : List Char) : List Char :=
  text.takeWhile (!isBlank ·)

/-- The text from its first blank on. -/
def afterFirstWord (text : List Char) : List Char :=
  text.dropWhile (!isBlank ·)

/-- The longest parts of a text that are free of blanks. -/
def words (text : List Char) : List (List Char) :=
  match _h : trimStart text with
  | [] => []
  | c :: rest => firstWord (c :: rest) :: words (afterFirstWord rest)
termination_by text.length
decreasing_by
  have hstart := (List.dropWhile_suffix (l := text) isBlank).length_le
  have hrest := (List.dropWhile_suffix (l := rest) (!isBlank ·)).length_le
  rw [trimStart] at _h
  rw [_h] at hstart
  simp only [List.length_cons] at hstart
  simp only [afterFirstWord]
  omega

end VoltageCapture.Text
