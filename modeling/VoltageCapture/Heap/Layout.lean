import VoltageCapture.Header.Basic
import VoltageCapture.Packet.Layout

/-!
# Heap layouts

A heap holds every channel for the time samples of one packet, so it consists of as
many packets as it takes to cover the channels.  It is captured as two streams.  The
data stream holds the sample data of the packets back to back; the weights stream
holds, for each packet, the scale factor and then the weights.  The distance from one
packet to the next is its stride.

Each stream has a header of its own.  `HeapLayout.configure` checks the two headers
against each other and computes the strides; it fails with a validation error that
names the field at fault.
-/

namespace VoltageCapture

/-- The strides of packets and heaps in a data stream and its weights stream. -/
structure HeapLayout where
  /-- Frequency channels in the stream. -/
  channels : Nat
  /-- Bits per real sample value. -/
  dataBits : Nat
  /-- Bits per weight. -/
  weightBits : Nat
  packetsPerHeap : Nat
  packet : UdpPacketLayout
  /-- Bytes of a packet in the data stream. -/
  dataPacketStride : Nat
  /-- Bytes of a packet in the weights stream. -/
  weightsPacketStride : Nat
  /-- Bytes of a heap in the data stream. -/
  dataHeapStride : Nat
  /-- Bytes of a heap in the weights stream. -/
  weightsHeapStride : Nat
deriving DecidableEq, Repr

namespace HeapLayout

/-! ### Checks on the headers -/

/-- The fields that must be the same in the data header and the weights header. -/
def sharedFields : List String :=
  [Key.channels, Key.packetSamples, Key.packetChannels, Key.weightSamples]

/-- Checks that a field has the same value in both headers. -/
def checkShared (data weights : Header) (field : String) : Except Error Unit := do
  let dataValue ← data.unsigned32 field
  let weightsValue ← weights.unsigned32 field
  require (dataValue = weightsValue) (.inconsistent field)

/-- The value of a field that must not be zero. -/
def positive (header : Header) (field : String) : Except Error Nat := do
  let value ← header.unsigned32 field
  require (value ≠ 0) (.validation field "must be non-zero")
  return value

/-- The width of a sample value, one of the supported ones. -/
def sampleBits (header : Header) : Except Error Nat := do
  let bits ← header.unsigned32 Key.bits
  require (bits ∈ supportedBits) (.validation Key.bits
    s!"data NBIT {bits} not one of {renderNumbers supportedBits}")
  return bits

/-! ### Computing the layout -/

/-- The layout of heaps of `channels` channels in packets of the given layout. -/
def ofPacket (channels dataBits weightBits : Nat) (packet : UdpPacketLayout) :
    Except Error HeapLayout := do
  let packetsPerHeap := channels / packet.channels
  let dataPacketStride := packet.dataSize
  let weightsPacketStride := packet.scalesSize + packet.weightsSize
  let dataHeapStride ← sizeProduct Key.channels [packetsPerHeap, dataPacketStride]
  let weightsHeapStride ← sizeProduct Key.channels [packetsPerHeap, weightsPacketStride]
  return {
    channels, dataBits, weightBits, packetsPerHeap, packet, dataPacketStride
    weightsPacketStride, dataHeapStride, weightsHeapStride }

/-- The heap layout that a data header and a weights header describe. -/
def configure (data weights : Header) : Except Error HeapLayout := do
  sharedFields.forM (checkShared data weights)
  data.checkValue Key.dimensions 2
  data.checkValue Key.polarisations 2
  let dataBits ← sampleBits data
  let channels ← positive data Key.channels
  let samples ← positive data Key.packetSamples
  let packetChannels ← positive data Key.packetChannels
  let samplesPerWeight ← positive data Key.weightSamples
  require (channels % packetChannels = 0) (.validation Key.channels
    s!"NCHAN {channels} is not a multiple of UDP_NCHAN {packetChannels}")
  require (samples % samplesPerWeight = 0) (.validation Key.packetSamples
    s!"UDP_NSAMP {samples} is not a multiple of WT_NSAMP {samplesPerWeight}")
  weights.checkValue Key.dimensions 1
  weights.checkValue Key.polarisations 1
  let weightBits ← positive weights Key.bits
  let packet ← UdpPacketLayout.make 0 packetChannels samples samplesPerWeight dataBits weightBits
  ofPacket channels dataBits weightBits packet

/-! ### Places within a heap -/

/-- Where the scale factor lies in a packet of the weights stream. -/
def packetScales (layout : HeapLayout) : Extent :=
  ⟨0, layout.packet.scalesSize⟩

/-- Where the weights lie in a packet of the weights stream. -/
def packetWeights (layout : HeapLayout) : Extent :=
  ⟨layout.packet.scalesSize, layout.packet.weightsSize⟩

/-- Where the samples lie in a packet of the data stream. -/
def packetData (layout : HeapLayout) : Extent :=
  ⟨0, layout.packet.dataSize⟩

/-- The offset of a packet within a heap of the data stream. -/
def dataPacketOffset (layout : HeapLayout) (index : Nat) : Nat :=
  index * layout.dataPacketStride

/-- The offset of a packet within a heap of the weights stream. -/
def weightsPacketOffset (layout : HeapLayout) (index : Nat) : Nat :=
  index * layout.weightsPacketStride

/-- The number of heaps in `dataLength` bytes of data and `weightsLength` bytes of
weights, which must be whole heaps and the same number of them. -/
def heapsIn (layout : HeapLayout) (dataLength weightsLength : Nat) : Except Error Nat := do
  require (dataLength % layout.dataHeapStride = 0) (.validation "data"
    s!"{dataLength} bytes is not a whole number of {layout.dataHeapStride} byte heaps")
  require (weightsLength % layout.weightsHeapStride = 0) (.validation "weights"
    s!"{weightsLength} bytes is not a whole number of {layout.weightsHeapStride} byte heaps")
  let dataHeaps := dataLength / layout.dataHeapStride
  let weightsHeaps := weightsLength / layout.weightsHeapStride
  require (dataHeaps = weightsHeaps) (.validation "stream length"
    s!"data holds {dataHeaps} heaps but weights hold {weightsHeaps}")
  return dataHeaps

/-- The layout as a JSON object. -/
def toJson (layout : HeapLayout) : Text.Json :=
  .object [
    ("nchan", .number layout.channels),
    ("nbit", .number layout.dataBits),
    ("weights_nbit", .number layout.weightBits),
    ("packets_per_heap", .number layout.packetsPerHeap),
    ("packet", layout.packet.toJson),
    ("data_packet_stride", .number layout.dataPacketStride),
    ("weights_packet_stride", .number layout.weightsPacketStride),
    ("data_heap_stride", .number layout.dataHeapStride),
    ("weights_heap_stride", .number layout.weightsHeapStride)]

end HeapLayout

end VoltageCapture
