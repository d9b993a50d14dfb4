import VoltageCapture.Error

/-!
# Wire order

Integers travel most significant byte first.  A buffer that is too short for the
integer is a fault: regions are sized from the packet layout, so callers rule it
out.
-/

namespace VoltageCapture.Wire

/-- The widths of the unsigned integers that travel on the wire. -/
inductive Width where
  | two
  | four
  | eight
deriving DecidableEq, Repr

/-- The number of bytes of an integer. -/
def Width.bytes : Width → Nat
  | .two => 2
  | .four => 4
  | .eight => 8

/-- The integers of a width lie below this bound. -/
def Width.bound : Width → Nat
  | .two => 0x10000
  | .four => 0x100000000
  | .eight => 0x10000000000000000

/-- The integer that keeps its lowest `width` bytes in the opposite order.  It turns
an integer of a host that stores the lowest byte first into the integer whose bytes
in memory are in wire order, and back. -/
def swap (width : Width) (n : Nat) : Nat :=
  Bytes.ofBigEndian (Bytes.littleEndian width.bytes n)

/-- The integer at the start of a buffer. -/
def read (width : Width) (buffer : Bytes) : Except Error Nat :=
  if buffer.length < width.bytes then
    .error (.fault (.shortBuffer width.bytes buffer.length))
  else
    .ok (Bytes.ofBigEndian (buffer.take width.bytes))

/-- The buffer with an integer written at its start. -/
def write (width : Width) (n : Nat) (buffer : Bytes) : Except Error Bytes :=
  if buffer.length < width.bytes then
    .error (.fault (.shortBuffer width.bytes buffer.length))
  else
    .ok (buffer.overwrite 0 (Bytes.bigEndian width.bytes n))

end VoltageCapture.Wire
