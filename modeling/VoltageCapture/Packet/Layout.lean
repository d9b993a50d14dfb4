import VoltageCapture.Error
import VoltageCapture.Text.Json

/-!
# Packet layouts

A packet carries three regions: the scale factors, the weights and the sample data.
A `PacketLayout` says where in the packet each of them lies, and how many channels
and samples the packet stands for.

The packets of the digitiser are described by `UdpPacketLayout`: an optional fixed
header, then one scale factor, the weights and the data without gaps.  Its sizes
follow from the numbers of channels and samples and from the widths of a sample and
of a weight.  `UdpPacketLayout.make` refuses widths that do not fill whole bytes
and sizes that do not fit in 64 bits.
-/

namespace VoltageCapture

/-- The parts of a packet, in the order in which they are filled and checked. -/
inductive Region where
  | scales
  | weights
  | data
deriving DecidableEq, Repr

/-- A range of bytes within a packet. -/
structure Extent where
  offset : Nat
  size : Nat
deriving DecidableEq, Repr

/-- The offset just past an extent. -/
def Extent.limit (extent : Extent) : Nat :=
  extent.offset + extent.size

/-- The bytes of an extent. -/
def Extent.of (extent : Extent) (buffer : Bytes) : Bytes :=
  buffer.slice extent.offset extent.size

/-- Where the regions of a packet lie, and what the packet stands for. -/
structure PacketLayout where
  /-- Frequency channels in a packet. -/
  channels : Nat
  /-- Time samples in a packet. -/
  samples : Nat
  /-- Time samples that share one weight. -/
  samplesPerWeight : Nat
  scales : Extent
  weights : Extent
  data : Extent
deriving DecidableEq, Repr

namespace PacketLayout

/-- Where a region lies. -/
def extent (layout : PacketLayout) : Region → Extent
  | .scales => layout.scales
  | .weights => layout.weights
  | .data => layout.data

/-- The size of a packet: no region reaches beyond it. -/
def packetSize (layout : PacketLayout) : Nat :=
  max layout.scales.limit (max layout.weights.limit layout.data.limit)

end PacketLayout

/-! ### Sizes that fit in 64 bits -/

/-- Sizes and their products have to lie below this bound, which is 2^64. -/
def sizeBound : Nat := 0x10000000000000000

/-- Multiplies a running product by further factors as long as it stays below
`sizeBound`. -/
def boundedProduct? (product : Nat) : List Nat → Option Nat
  | [] => some product
  | factor :: factors =>
    if product * factor < sizeBound then boundedProduct? (product * factor) factors else none

/-- A list of numbers as it stands in messages. -/
def renderNumbers (numbers : List Nat) : String :=
  "[" ++ ", ".intercalate (numbers.map toString) ++ "]"

/-- The product of some factors taken from header fields.  If it does not fit in 64
bits, the failure names `field`. -/
def sizeProduct (field : String) (factors : List Nat) : Except Error Nat :=
  match boundedProduct? 1 factors with
  | some product => .ok product
  | none => .error (.validation field s!"size of {renderNumbers factors} overflows")

/-! ### Packets of the digitiser -/

/-- The size in bytes of a scale factor, a floating point number of 32 bits. -/
def scaleSize : Nat := 4

/-- The widths in bits that samples may have. -/
def supportedBits : List Nat := [8, 16, 32]

/-- The layout of a packet of the digitiser. -/
structure UdpPacketLayout where
  /-- Bytes ahead of the scale factor. -/
  headerSize : Nat
  /-- Frequency channels in a packet. -/
  channels : Nat
  /-- Time samples in a packet. -/
  samples : Nat
  /-- Time samples that share one weight. -/
  samplesPerWeight : Nat
  scalesSize : Nat
  weightsSize : Nat
  dataSize : Nat
deriving DecidableEq, Repr

namespace UdpPacketLayout

/-- The layout of packets with the given numbers of channels and samples.  A sample
has two polarisations and is complex, so it consists of four values of `dataBits`
bits; there is one weight of `weightBits` bits for each channel and each
`samplesPerWeight` samples. -/
def make (headerSize channels samples samplesPerWeight dataBits weightBits : Nat) :
    Except Error UdpPacketLayout := do
  require (channels ≠ 0)
    (.validation "UDP_NCHAN" "channels per packet must be non-zero")
  require (samples ≠ 0)
    (.validation "UDP_NSAMP" "samples per packet must be non-zero")
  require (samplesPerWeight ≠ 0 ∧ samples % samplesPerWeight = 0) (.validation "WT_NSAMP"
    s!"{samplesPerWeight} samples per weight does not divide {samples} samples per packet")
  let dataTotal ← sizeProduct "UDP_NSAMP" [samples, channels, 2, 2, dataBits]
  require (dataBits ≠ 0 ∧ dataTotal % 8 = 0)
    (.validation "NBIT" s!"unsupported data NBIT {dataBits}")
  let weightsTotal ← sizeProduct "UDP_NCHAN" [samples / samplesPerWeight, channels, weightBits]
  require (weightBits ≠ 0 ∧ weightsTotal % 8 = 0)
    (.validation "NBIT" s!"weights of {weightBits} bits do not fill whole bytes")
  return {
    headerSize, channels, samples, samplesPerWeight
    scalesSize := scaleSize
    weightsSize := weightsTotal / 8
    dataSize := dataTotal / 8 }

/-- The number of weights in a packet. -/
def weightCount (layout : UdpPacketLayout) : Nat :=
  layout.samples / layout.samplesPerWeight * layout.channels

/-- The regions follow each other without gaps: scales, weights, data. -/
def toPacketLayout (layout : UdpPacketLayout) : PacketLayout where
  channels := layout.channels
  samples := layout.samples
  samplesPerWeight := layout.samplesPerWeight
  scales := ⟨layout.headerSize, layout.scalesSize⟩
  weights := ⟨layout.headerSize + layout.scalesSize, layout.weightsSize⟩
  data := ⟨layout.headerSize + layout.scalesSize + layout.weightsSize, layout.dataSize⟩

/-- The layout as a JSON object. -/
def toJson (layout : UdpPacketLayout) : Text.Json :=
  .object [
    ("header_size", .number layout.headerSize),
    ("nchan", .number layout.channels),
    ("nsamp", .number layout.samples),
    ("nsamp_per_weight", .number layout.samplesPerWeight),
    ("scales_size", .number layout.scalesSize),
    ("weights_size", .number layout.weightsSize),
    ("data_size", .number layout.dataSize)]

end UdpPacketLayout

end VoltageCapture
