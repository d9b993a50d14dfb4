/-!
# Unsigned decimal numerals

Header values and arguments hold unsigned integers as decimal numerals: an
optional plus sign, then ASCII digits and nothing else.  Leading zeros are
allowed; a minus sign, blanks and digit separators are not.  A numeral whose value
does not fit the asked-for range is refused like one that is malformed.
-/

namespace VoltageCapture.Text

/-- Whether a character is one of the ten ASCII digits. -/
def isDecimalDigit (c : Char) : Bool :=
  '0' ≤ c && c ≤ '9'

/-- The value of an ASCII digit. -/
def digitValue (c : Char) : Nat :=
  c.toNat - '0'.toNat

/-- The value of a string of digits, read in base ten. -/
def digitsValue (digits : List Char) : Nat :=
  digits.foldl (fun value digit => 10 * value + digitValue digit) 0

/-- The value of a string of digits, if it lies below `bound`.  Reading stops at the digit
that takes it past the bound. -/
def digitsValueBelow? (bound : Nat) (digits : List Char) : Option Nat :=
  digits.foldlM (fun value digit =>
    if 10 * value + digitValue digit < bound then some (10 * value + digitValue digit)
    else none) 0

theorem le_foldl_digits (digits : List Char) (value : Nat) :
    value ≤ digits.foldl (fun value digit => 10 * value + digitValue digit) value := by
  induction digits generalizing value with
  | nil => exact Nat.le_refl value
  | cons digit digits ih =>
    have hnext := ih (10 * value + digitValue digit)
    rw [List.foldl_cons]
    omega

private theorem foldlM_digits (bound : Nat) (digits : List Char) (value : Nat)
    (hvalue : value < bound) :
    digits.foldlM (fun value digit =>
        if 10 * value + digitValue digit < bound then some (10 * value + digitValue digit)
        else none) value =
      if digits.foldl (fun value digit => 10 * value + digitValue digit) value < bound then
        some (digits.foldl (fun value digit => 10 * value + digitValue digit) value)
      else none := by
  induction digits generalizing value with
  | nil => simp [hvalue]
  | cons digit digits ih =>
    rw [List.foldlM_cons, List.foldl_cons]
    by_cases hnext : 10 * value + digitValue digit < bound
    · rw [if_pos hnext]
      exact ih _ hnext
    · have hle := le_foldl_digits digits (10 * value + digitValue digit)
      rw [if_neg hnext, if_neg (by omega)]
      rfl

/-- Stopping early changes nothing: the value is found exactly if it lies below the bound. -/
theorem digitsValueBelow?_eq {bound : Nat} (hbound : 0 < bound) (digits : List Char) :
    digitsValueBelow? bound digits =
      if digitsValue digits < bound then some (digitsValue digits) else none :=
  foldlM_digits bound digits 0 hbound

/-- The text without one leading plus sign. -/
def dropPlus : List Char → List Char
  | '+' :: rest => rest
  | text => text

/-- The number below `bound` that a text denotes, if it denotes one. -/
def natBelow? (bound : Nat) (text : String) : Option Nat :=
  let digits := dropPlus text.toList
  if digits ≠ [] ∧ digits.all isDecimalDigit then digitsValueBelow? bound digits else none

/-- Reads an unsigned integer of 32 bits. -/
def unsigned32? (text : String) : Option Nat :=
  natBelow? 0x100000000 text

/-- Reads an unsigned integer of 64 bits. -/
def unsigned64? (text : String) : Option Nat :=
  natBelow? 0x10000000000000000 text

end VoltageCapture.Text
