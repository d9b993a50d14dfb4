import VoltageCapture.Signal.Model

/-!
# Sine signals

The data of a packet is a complex tone: a cosine in the first dimension and a sine in
the second, the same in both polarisations and in all channels.  Values are ordered
by channel, sample, polarisation and dimension and written as signed big-endian
integers.  The time of a sample runs on from one packet to the next, so the tone does
not depend on how it is cut into packets.  Scale factors are one, weights are full.

A buffer that does not hold a whole number of values keeps its last bytes when it is
filled and never passes a test.
-/

namespace VoltageCapture

/-! ### Sample values -/

/-- The widths that a sample value may have. -/
inductive SampleWidth where
  | bits8
  | bits16
  | bits32
deriving DecidableEq, Repr

namespace SampleWidth

/-- The width of the given number of bits. -/
def ofBits? : Nat → Option SampleWidth
  | 8 => some .bits8
  | 16 => some .bits16
  | 32 => some .bits32
  | _ => none

/-- The number of bits of a value. -/
def bits : SampleWidth → Nat
  | .bits8 => 8
  | .bits16 => 16
  | .bits32 => 32

/-- The number of bytes of a value. -/
def bytes : SampleWidth → Nat
  | .bits8 => 1
  | .bits16 => 2
  | .bits32 => 4

/-- The number of values of the width. -/
def codes : SampleWidth → Nat
  | .bits8 => 0x100
  | .bits16 => 0x10000
  | .bits32 => 0x100000000

/-- The bytes of a value, as a signed big-endian integer in two's complement. -/
def encode (width : SampleWidth) (value : Int) : Bytes :=
  Bytes.bigEndian width.bytes (value % width.codes).toNat

/-- The value in some bytes. -/
def decode (width : SampleWidth) (bytes : Bytes) : Int :=
  let code := Bytes.ofBigEndian bytes
  if code < width.codes / 2 then code else code - width.codes

@[simp] theorem length_encode (width : SampleWidth) (value : Int) :
    (width.encode value).length = width.bytes := by
  simp [encode]

end SampleWidth

/-! ### The tone -/

/-- A full turn, in radians. -/
def turn : Float := 6.28318530717958647692528676655900577

/-- The model that fills packets with a complex tone. -/
structure SineSignal where
  width : SampleWidth
  /-- Samples per turn. -/
  period : Nat
  /-- Samples in a packet. -/
  samples : Nat
  period_pos : 0 < period
  samples_pos : 0 < samples

namespace SineSignal

/-- The samples per turn where the header does not say. -/
def defaultPeriod : Nat := 64

/-- The model before it is configured. -/
def standard : SineSignal :=
  ⟨.bits8, defaultPeriod, 1, by decide, by decide⟩

/-- The samples per turn that a header asks for. -/
def periodOf (header : Header) : Except Error Nat :=
  if header.contains Key.sinePeriod then header.unsigned32 Key.sinePeriod else .ok defaultPeriod

/-- The model for streams with the given header and packet layout. -/
def ofHeader (header : Header) (layout : PacketLayout) : Except Error SineSignal := do
  let bits ← header.unsigned32 Key.bits
  match SampleWidth.ofBits? bits with
  | none => .error (.validation Key.bits s!"unsupported NBIT {bits}")
  | some width =>
    let period ← periodOf header
    if hperiod : period = 0 then
      .error (.validation Key.sinePeriod "must be non-zero")
    else if hsamples : layout.samples = 0 then
      .error (.validation Key.packetSamples "must be non-zero")
    else
      .ok ⟨width, period, layout.samples, Nat.pos_of_ne_zero hperiod, Nat.pos_of_ne_zero hsamples⟩

/-- The largest value of the tone: half of what the width can hold. -/
def amplitude (width : SampleWidth) : Float :=
  (width.codes / 2 - 1).toFloat / 2.0

/-- The value of the tone at a sample time, in the first or the second dimension. -/
def tone (width : SampleWidth) (period time dimension : Nat) : Int :=
  let phase := turn * (time % period).toFloat / period.toFloat
  let component := if dimension = 0 then phase.cos else phase.sin
  (amplitude width * component).round.toInt64.toInt

/-- The value at an index of a packet's data. -/
def value (signal : SineSignal) (packet index : Nat) : Int :=
  let time := packet * signal.samples + index / 4 % signal.samples
  tone signal.width signal.period time (index % 2)

/-! ### Filling and testing -/

/-- The bytes of a scale factor of one, as a floating point number of 32 bits. -/
def unitScale : Bytes := [0x3F, 0x80, 0x00, 0x00]

/-- The byte of a full weight. -/
def fullWeight : UInt8 := 0xFF

/-- Writes values of `width` bytes over as much of a buffer as whole values fill. -/
def fillWhole (width : Nat) (valueBytes : Nat → Bytes) (buffer : Bytes) : Bytes :=
  let count := buffer.length / width
  (List.range count).flatMap valueBytes ++ buffer.drop (width * count)

/-- Whether each of `count` values of `width` bytes, numbered from `index` on, passes
a check. -/
def allValues (width : Nat) (check : Nat → Bytes → Bool) : (count index : Nat) → Bytes → Bool
  | 0, _, _ => true
  | count + 1, index, buffer =>
    check index (buffer.take width) && allValues width check count (index + 1) (buffer.drop width)

/-- Whether a buffer holds whole values of `width` bytes only, and each of them passes
a check. -/
def testWhole (width : Nat) (check : Nat → Bytes → Bool) (buffer : Bytes) : Bool :=
  buffer.length % width == 0 && allValues width check (buffer.length / width) 0 buffer

/-- The content of a region of a packet, written over a buffer. -/
def filled (signal : SineSignal) (region : Region) (packet : Nat) (buffer : Bytes) : Bytes :=
  match region with
  | .scales => fillWhole 4 (fun _ => unitScale) buffer
  | .weights => List.replicate buffer.length fullWeight
  | .data =>
    fillWhole signal.width.bytes (fun index => signal.width.encode (signal.value packet index))
      buffer

/-- Whether a buffer holds the content of a region of a packet. -/
def passes (signal : SineSignal) (region : Region) (packet : Nat) (buffer : Bytes) : Bool :=
  match region with
  | .scales => testWhole 4 (fun _ bytes => bytes == unitScale) buffer
  | .weights => buffer.all (· == fullWeight)
  | .data =>
    testWhole signal.width.bytes
      (fun index bytes => signal.width.decode bytes == signal.value packet index) buffer

theorem length_fillWhole {width : Nat} {valueBytes : Nat → Bytes}
    (hvalue : ∀ index, (valueBytes index).length = width) (buffer : Bytes) :
    (fillWhole width valueBytes buffer).length = buffer.length := by
  have hsum : ∀ count, ((List.range count).flatMap valueBytes).length = width * count := by
    intro count
    induction count with
    | zero => rfl
    | succ count ih => simp [List.range_succ, ih, hvalue, Nat.mul_succ]
  have hle := Nat.mul_div_le buffer.length width
  simp only [fillWhole, List.length_append, List.length_drop, hsum]
  omega

theorem length_filled (signal : SineSignal) (region : Region) (packet : Nat) (buffer : Bytes) :
    (signal.filled region packet buffer).length = buffer.length := by
  cases region with
  | scales => exact length_fillWhole (fun _ => rfl) buffer
  | weights => simp [filled]
  | data => exact length_fillWhole (fun _ => signal.width.length_encode _) buffer

instance : SignalModel SineSignal where
  name _ := "sine"
  configure signal header layout :=
    match ofHeader header layout with
    | .ok configured => (.ok (), configured)
    | .error error => (.error error, signal)
  fill signal region packet buffer := (signal.filled region packet buffer, signal)
  test signal region packet buffer := (signal.passes region packet buffer, signal)
  length_fill := length_filled

end SineSignal

end VoltageCapture
