/-!
# Byte strings

Captured streams, header blocks, packets and hash inputs are all lists of bytes.
This file fixes that type, the two ways a buffer is cut and patched, and the
digits of an integer in base 256.

A buffer is addressed by offset and length.  `slice` reads such a range and
`overwrite` replaces one, so a region of a packet can be filled without touching
a byte outside it.
-/

namespace VoltageCapture

/-- A string of bytes. -/
abbrev Bytes := List UInt8

namespace Bytes

/-- The length of the longest buffer that can be allocated, one less than 2^63. -/
def maxLength : Nat := 0x7FFFFFFFFFFFFFFF

/-- The `length` bytes from `offset` on, or those of them that exist. -/
def slice (buffer : Bytes) (offset length : Nat) : Bytes :=
  (buffer.drop offset).take length

/-- The buffer in which `bytes` stand from `offset` on, in place of as many bytes
of `buffer`. -/
def overwrite (buffer : Bytes) (offset : Nat) (bytes : Bytes) : Bytes :=
  buffer.take offset ++ bytes ++ buffer.drop (offset + bytes.length)

/-- The bytes ahead of the first zero byte, all of them if there is none. -/
def untilNul (bytes : Bytes) : Bytes :=
  bytes.takeWhile (· != 0)

/-- `bytes` followed by as many zero bytes as it lacks to `length`. -/
def padTo (bytes : Bytes) (length : Nat) : Bytes :=
  bytes ++ List.replicate (length - bytes.length) 0

/-! ### Integers as bytes -/

/-- The `width` lowest digits of `n` in base 256, least significant first. -/
def littleEndian : Nat → Nat → Bytes
  | 0, _ => []
  | width + 1, n => UInt8.ofNat (n % 256) :: littleEndian width (n / 256)

/-- The number whose base-256 digits, least significant first, are `bytes`. -/
def ofLittleEndian : Bytes → Nat
  | [] => 0
  | b :: bs => b.toNat + 256 * ofLittleEndian bs

/-- The `width` lowest digits of `n` in base 256, most significant first. -/
def bigEndian (width n : Nat) : Bytes :=
  (littleEndian width n).reverse

/-- The number whose base-256 digits, most significant first, are `bytes`. -/
def ofBigEndian (bytes : Bytes) : Nat :=
  ofLittleEndian bytes.reverse

@[simp] theorem length_littleEndian (width n : Nat) : (littleEndian width n).length = width := by
  induction width generalizing n with
  | zero => rfl
  | succ width ih => simp [littleEndian, ih]

@[simp] theorem length_bigEndian (width n : Nat) : (bigEndian width n).length = width := by
  simp [bigEndian]

end Bytes

end VoltageCapture
