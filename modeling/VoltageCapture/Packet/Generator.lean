import VoltageCapture.Signal.Model

/-!
# Packet generators

A packet generator fills and tests synthetic packets.  It knows where each region
lies; what a region holds is up to its signal model.  A packet comes in one of two
forms: whole, as the layout describes it, or split, the data in one buffer and the
scale factors and weights in another, as they are kept in a pair of captured streams.
A heap is a number of split packets, back to back in each of the two buffers.

Regions are always handled in the order scales, weights, data, and a test stops at the
first region that fails.  Two cursors count the packets filled and the packets tested.

A generator has to be configured from a header before it is used, and again after its
model has been replaced.  An operation that fails leaves the geometry and the cursors
as they were.
-/

namespace VoltageCapture

/-! ### Packets split into two buffers -/

/-- Where the regions of a split packet lie, and how many packets make a heap. -/
structure SplitGeometry where
  packetsPerHeap : Nat
  /-- The scale factors, within the weights buffer. -/
  scales : Extent
  /-- The weights, within the weights buffer. -/
  weights : Extent
  /-- The samples, within the data buffer. -/
  data : Extent
deriving DecidableEq, Repr

namespace SplitGeometry

/-- The geometry of packets of the given layout: the weights follow the scale factors
without a gap, and the data stand alone. -/
def ofLayout (layout : PacketLayout) (packetsPerHeap : Nat) : SplitGeometry where
  packetsPerHeap
  scales := ⟨0, layout.scales.size⟩
  weights := ⟨layout.scales.size, layout.weights.size⟩
  data := ⟨0, layout.data.size⟩

/-- Bytes of a packet in the weights buffer. -/
def weightsStride (geometry : SplitGeometry) : Nat :=
  geometry.weights.limit

/-- Bytes of a packet in the data buffer. -/
def dataStride (geometry : SplitGeometry) : Nat :=
  geometry.data.limit

end SplitGeometry

/-! ### Filling and testing by a model -/

section Regions

variable {M : Type} [SignalModel M]

/-- Fills one region of a packet within a buffer. -/
def fillRegion (model : M) (region : Region) (extent : Extent) (packet : Nat) (buffer : Bytes) :
    Bytes × M :=
  let (content, model) :=
    SignalModel.fill model region packet (extent.of buffer)
  (buffer.overwrite extent.offset content, model)

/-- Fills the regions of a whole packet. -/
def fillWholePacket (model : M) (layout : PacketLayout) (packet : Nat) (buffer : Bytes) :
    Bytes × M :=
  let (buffer, model) := fillRegion model .scales layout.scales packet buffer
  let (buffer, model) := fillRegion model .weights layout.weights packet buffer
  fillRegion model .data layout.data packet buffer

/-- Fills the regions of a split packet; gives the data buffer and the weights
buffer. -/
def fillSplitPacket (model : M) (geometry : SplitGeometry) (packet : Nat)
    (data weights : Bytes) : (Bytes × Bytes) × M :=
  let (weights, model) := fillRegion model .scales geometry.scales packet weights
  let (weights, model) := fillRegion model .weights geometry.weights packet weights
  let (data, model) := fillRegion model .data geometry.data packet data
  ((data, weights), model)

/-- Fills `count` split packets back to back, numbered from `packet` on. -/
def fillSplitPackets (model : M) (geometry : SplitGeometry) :
    (count packet : Nat) → (data weights : Bytes) → (Bytes × Bytes) × M
  | 0, _, data, weights => ((data, weights), model)
  | count + 1, packet, data, weights =>
    let ((firstData, firstWeights), model) := fillSplitPacket model geometry packet
      (data.take geometry.dataStride) (weights.take geometry.weightsStride)
    let ((restData, restWeights), model) := fillSplitPackets model geometry count (packet + 1)
      (data.drop geometry.dataStride) (weights.drop geometry.weightsStride)
    ((firstData ++ restData, firstWeights ++ restWeights), model)

/-- Tests regions of a packet in turn, until one fails. -/
def testRegions (model : M) (packet : Nat) : List (Region × Bytes) → Bool × M
  | [] => (true, model)
  | (region, content) :: rest =>
    match SignalModel.test model region packet content with
    | (true, model) => testRegions model packet rest
    | (false, model) => (false, model)

/-- Tests the regions of a whole packet. -/
def testWholePacket (model : M) (layout : PacketLayout) (packet : Nat) (buffer : Bytes) :
    Bool × M :=
  testRegions model packet
    [(.scales, layout.scales.of buffer), (.weights, layout.weights.of buffer),
      (.data, layout.data.of buffer)]

/-- Tests the regions of a split packet. -/
def testSplitPacket (model : M) (geometry : SplitGeometry) (packet : Nat)
    (data weights : Bytes) : Bool × M :=
  testRegions model packet
    [(.scales, geometry.scales.of weights), (.weights, geometry.weights.of weights),
      (.data, geometry.data.of data)]

/-- Tests `count` split packets back to back, numbered from `packet` on, until one
fails. -/
def testSplitPackets (model : M) (geometry : SplitGeometry) :
    (count packet : Nat) → (data weights : Bytes) → Bool × M
  | 0, _, _, _ => (true, model)
  | count + 1, packet, data, weights =>
    match testSplitPacket model geometry packet
        (data.take geometry.dataStride) (weights.take geometry.weightsStride) with
    | (true, model) =>
      testSplitPackets model geometry count (packet + 1)
        (data.drop geometry.dataStride) (weights.drop geometry.weightsStride)
    | (false, model) => (false, model)

end Regions

/-! ### The generator -/

/-- Checks that a buffer is as long as what it is to hold. -/
def checkLength (name : String) (actual required : Nat) : Except Error Unit :=
  require (required ≤ actual)
    (.validation name s!"buffer of {actual} bytes is smaller than the {required} byte region")

/-- A generator of packets of one layout, with a model of type `M`. -/
structure PacketGenerator (M : Type) where
  layout : PacketLayout
  model : M
  /-- The geometry of split packets, once the generator is configured. -/
  geometry? : Option SplitGeometry := none
  /-- The number of the next packet to fill. -/
  filled : Nat := 0
  /-- The number of the next packet to test. -/
  tested : Nat := 0

namespace PacketGenerator

variable {M : Type}

/-- A generator that is not configured. -/
def make (layout : PacketLayout) (model : M) : PacketGenerator M :=
  { layout, model }

/-- Whether the generator is configured. -/
def isConfigured (generator : PacketGenerator M) : Bool :=
  generator.geometry?.isSome

/-- The geometry of a generator that must be configured. -/
def geometry (generator : PacketGenerator M) : Except Error SplitGeometry :=
  match generator.geometry? with
  | some geometry => .ok geometry
  | none => .error (.state "packet generator used before configure")

/-- Moves both cursors to a packet. -/
def seek (generator : PacketGenerator M) (packet : Nat) : PacketGenerator M :=
  { generator with filled := packet, tested := packet }

/-- Moves both cursors to the first packet. -/
def reset (generator : PacketGenerator M) : PacketGenerator M :=
  generator.seek 0

/-- Replaces the model.  The generator has to be configured again. -/
def setModel (generator : PacketGenerator M) (model : M) : PacketGenerator M :=
  { generator with model, geometry? := none }

/-- The number of packets that hold the channels of a stream. -/
def packetsFor (layout : PacketLayout) (header : Header) : Except Error Nat := do
  header.checkValue Key.dimensions 2
  header.checkValue Key.polarisations 2
  let channels ← header.unsigned32 Key.channels
  require (channels ≠ 0 ∧ layout.channels ≠ 0 ∧ channels % layout.channels = 0)
    (.validation Key.channels
      s!"NCHAN {channels} is not a multiple of {layout.channels} channels per packet")
  return channels / layout.channels

/-! ### Checks ahead of an operation -/

/-- What a whole packet needs: a configured generator and a buffer for the packet. -/
def checkPacket (generator : PacketGenerator M) (buffer : Bytes) : Except Error Unit := do
  let _ ← generator.geometry
  checkLength "packet" buffer.length generator.layout.packetSize

/-- What some split packets need: a configured generator and buffers for `count` of
them. -/
def checkBuffers (count : Nat) (geometry : SplitGeometry) (data weights : Bytes) :
    Except Error Unit := do
  checkLength "data" data.length (count * geometry.dataStride)
  checkLength "weights" weights.length (count * geometry.weightsStride)

/-- What a split packet needs. -/
def checkSplit (generator : PacketGenerator M) (data weights : Bytes) :
    Except Error SplitGeometry := do
  let geometry ← generator.geometry
  checkBuffers 1 geometry data weights
  return geometry

/-- What a heap needs.  Buffers cannot be cut into packets that hold no bytes. -/
def checkHeap (generator : PacketGenerator M) (data weights : Bytes) :
    Except Error SplitGeometry := do
  let geometry ← generator.geometry
  checkBuffers geometry.packetsPerHeap geometry data weights
  require (geometry.dataStride ≠ 0 ∧ geometry.weightsStride ≠ 0) (.fault .emptyPacket)
  return geometry

/-! ### Operations -/

section Operations

variable [SignalModel M]

/-- Prepares the generator and its model for the stream that a header describes, and
moves both cursors to the first packet. -/
def configure (generator : PacketGenerator M) (header : Header) :
    Except Error Unit × PacketGenerator M :=
  match packetsFor generator.layout header with
  | .error error => (.error error, generator)
  | .ok packetsPerHeap =>
    match SignalModel.configure generator.model header generator.layout with
    | (.error error, model) => (.error error, { generator with model })
    | (.ok (), model) =>
      let geometry? := some (.ofLayout generator.layout packetsPerHeap)
      (.ok (), { generator with model, geometry? }.reset)

/-- Fills a whole packet; gives the new content of the buffer. -/
def fillPacket (generator : PacketGenerator M) (buffer : Bytes) :
    Except Error Bytes × PacketGenerator M :=
  match generator.checkPacket buffer with
  | .error error => (.error error, generator)
  | .ok () =>
    let (buffer, model) :=
      fillWholePacket generator.model generator.layout generator.filled buffer
    (.ok buffer, { generator with model, filled := generator.filled + 1 })

/-- Tests a whole packet. -/
def testPacket (generator : PacketGenerator M) (buffer : Bytes) :
    Except Error Bool × PacketGenerator M :=
  match generator.checkPacket buffer with
  | .error error => (.error error, generator)
  | .ok () =>
    let (passed, model) :=
      testWholePacket generator.model generator.layout generator.tested buffer
    (.ok passed, { generator with model, tested := generator.tested + 1 })

/-- Fills a split packet; gives the new contents of the two buffers. -/
def fillSplit (generator : PacketGenerator M) (data weights : Bytes) :
    Except Error (Bytes × Bytes) × PacketGenerator M :=
  match generator.checkSplit data weights with
  | .error error => (.error error, generator)
  | .ok geometry =>
    let (buffers, model) :=
      fillSplitPacket generator.model geometry generator.filled data weights
    (.ok buffers, { generator with model, filled := generator.filled + 1 })

/-- Tests a split packet. -/
def testSplit (generator : PacketGenerator M) (data weights : Bytes) :
    Except Error Bool × PacketGenerator M :=
  match generator.checkSplit data weights with
  | .error error => (.error error, generator)
  | .ok geometry =>
    let (passed, model) :=
      testSplitPacket generator.model geometry generator.tested data weights
    (.ok passed, { generator with model, tested := generator.tested + 1 })

/-- Fills every packet of a heap; gives the new contents of the two buffers. -/
def fillHeap (generator : PacketGenerator M) (data weights : Bytes) :
    Except Error (Bytes × Bytes) × PacketGenerator M :=
  match generator.checkHeap data weights with
  | .error error => (.error error, generator)
  | .ok geometry =>
    let (buffers, model) := fillSplitPackets generator.model geometry geometry.packetsPerHeap
      generator.filled data weights
    (.ok buffers, { generator with model, filled := generator.filled + geometry.packetsPerHeap })

/-- Tests the packets of a heap until one fails.  The cursor moves by a whole heap
either way. -/
def testHeap (generator : PacketGenerator M) (data weights : Bytes) :
    Except Error Bool × PacketGenerator M :=
  match generator.checkHeap data weights with
  | .error error => (.error error, generator)
  | .ok geometry =>
    let (passed, model) := testSplitPackets generator.model geometry geometry.packetsPerHeap
      generator.tested data weights
    (.ok passed, { generator with model, tested := generator.tested + geometry.packetsPerHeap })

end Operations

end PacketGenerator

end VoltageCapture
