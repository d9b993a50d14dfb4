import VoltageCapture.Proofs.Packet.Operations

/-!
# Accesses within bounds

An extent that reaches beyond a buffer is cut short there when it is read.  The definitions here
are stricter: each of them does what the one without a question mark does, and gives nothing if
an extent or a piece of a buffer is out of range on the way.  None ever is, once a call has passed
its checks (`work?_eq`), wherever the regions of the layout lie.
-/

namespace VoltageCapture

/-- The bytes of an extent, if the buffer reaches up to its end. -/
def Extent.of? (extent : Extent) (buffer : Bytes) : Option Bytes :=
  if extent.limit ≤ buffer.length then some (extent.of buffer) else none

theorem Extent.of?_eq_some {extent : Extent} {buffer : Bytes}
    (hfits : extent.limit ≤ buffer.length) : extent.of? buffer = some (extent.of buffer) :=
  if_pos hfits

theorem Extent.of?_zero {size : Nat} {buffer : Bytes} (hfits : size ≤ buffer.length) :
    (Extent.mk 0 size).of? buffer = some (buffer.take size) :=
  Extent.of?_eq_some (by simpa only [Extent.limit, Nat.zero_add] using hfits)

section Strict

variable {M : Type} [SignalModel M]

/-! ## Filling -/

def fillRegion? (model : M) (region : Region) (extent : Extent) (packet : Nat) (buffer : Bytes) :
    Option (Bytes × M) := do
  let held ← extent.of? buffer
  let (content, model) := SignalModel.fill model region packet held
  return (buffer.overwrite extent.offset content, model)

def fillWholePacket? (model : M) (layout : PacketLayout) (packet : Nat) (buffer : Bytes) :
    Option (Bytes × M) := do
  let (buffer, model) ← fillRegion? model .scales layout.scales packet buffer
  let (buffer, model) ← fillRegion? model .weights layout.weights packet buffer
  fillRegion? model .data layout.data packet buffer

def fillSplitPacket? (model : M) (geometry : SplitGeometry) (packet : Nat)
    (data weights : Bytes) : Option ((Bytes × Bytes) × M) := do
  let (weights, model) ← fillRegion? model .scales geometry.scales packet weights
  let (weights, model) ← fillRegion? model .weights geometry.weights packet weights
  let (data, model) ← fillRegion? model .data geometry.data packet data
  return ((data, weights), model)

/-- Each packet is handed a piece of either buffer that is as long as a packet. -/
def fillSplitPackets? (model : M) (geometry : SplitGeometry) :
    (count packet : Nat) → (data weights : Bytes) → Option ((Bytes × Bytes) × M)
  | 0, _, data, weights => some ((data, weights), model)
  | count + 1, packet, data, weights => do
    let firstData ← Extent.of? ⟨0, geometry.dataStride⟩ data
    let firstWeights ← Extent.of? ⟨0, geometry.weightsStride⟩ weights
    let ((firstData, firstWeights), model) ←
      fillSplitPacket? model geometry packet firstData firstWeights
    let ((restData, restWeights), model) ← fillSplitPackets? model geometry count (packet + 1)
      (data.drop geometry.dataStride) (weights.drop geometry.weightsStride)
    return ((firstData ++ restData, firstWeights ++ restWeights), model)

variable {layout : PacketLayout} {packetsPerHeap count : Nat} {buffer data weights : Bytes}

theorem fillRegion?_eq {extent : Extent} (hfits : extent.limit ≤ buffer.length) (model : M)
    (region : Region) (packet : Nat) :
    fillRegion? model region extent packet buffer =
      some (fillRegion model region extent packet buffer) := by
  simp only [fillRegion?, Extent.of?_eq_some hfits]
  rfl

/-- The regions of a whole packet lie within its bytes, in whatever order and however they
overlap. -/
theorem limits_le_of_packetSize_le (hfits : layout.packetSize ≤ buffer.length) :
    layout.scales.limit ≤ buffer.length ∧ layout.weights.limit ≤ buffer.length ∧
      layout.data.limit ≤ buffer.length :=
  ⟨Nat.le_trans (layout.limit_le_packetSize .scales) hfits,
    Nat.le_trans (layout.limit_le_packetSize .weights) hfits,
    Nat.le_trans (layout.limit_le_packetSize .data) hfits⟩

theorem fillWholePacket?_eq (hfits : layout.packetSize ≤ buffer.length) (model : M)
    (packet : Nat) :
    fillWholePacket? model layout packet buffer =
      some (fillWholePacket model layout packet buffer) := by
  obtain ⟨hscales, hweights, hdata⟩ := limits_le_of_packetSize_le hfits
  -- filling a region leaves the buffer as long as it was
  rw [← length_fillRegion model .scales packet hscales] at hweights hdata
  rw [← length_fillRegion (fillRegion model .scales layout.scales packet buffer).2 .weights packet
    hweights] at hdata
  refine Option.bind_eq_some_iff.mpr ⟨_, fillRegion?_eq hscales model .scales packet, ?_⟩
  refine Option.bind_eq_some_iff.mpr ⟨_, fillRegion?_eq hweights _ .weights packet, ?_⟩
  exact fillRegion?_eq hdata _ .data packet

theorem fillSplitPacket?_eq
    (hroom : (SplitGeometry.ofLayout layout packetsPerHeap).HasRoom 1 data weights) (model : M)
    (packet : Nat) :
    fillSplitPacket? model (.ofLayout layout packetsPerHeap) packet data weights =
      some (fillSplitPacket model (.ofLayout layout packetsPerHeap) packet data weights) := by
  obtain ⟨hscales, hweights, hdata⟩ := hroom.limits_le
  rw [← length_fillRegion model .scales packet hscales] at hweights
  refine Option.bind_eq_some_iff.mpr ⟨_, fillRegion?_eq hscales model .scales packet, ?_⟩
  refine Option.bind_eq_some_iff.mpr ⟨_, fillRegion?_eq hweights _ .weights packet, ?_⟩
  exact Option.bind_eq_some_iff.mpr ⟨_, fillRegion?_eq hdata _ .data packet, rfl⟩

/-- Each packet finds pieces of its own size, as the buffers have room for all. -/
theorem fillSplitPackets?_eq
    (hroom : (SplitGeometry.ofLayout layout packetsPerHeap).HasRoom count data weights) (model : M)
    (packet : Nat) :
    fillSplitPackets? model (.ofLayout layout packetsPerHeap) count packet data weights =
      some (fillSplitPackets model (.ofLayout layout packetsPerHeap) count packet data weights) := by
  induction count generalizing model packet data weights with
  | zero => rfl
  | succ count ih =>
      obtain ⟨hdata, hweights⟩ := hroom.pieces
      refine Option.bind_eq_some_iff.mpr ⟨_, Extent.of?_zero hdata, ?_⟩
      refine Option.bind_eq_some_iff.mpr ⟨_, Extent.of?_zero hweights, ?_⟩
      refine Option.bind_eq_some_iff.mpr ⟨_, fillSplitPacket?_eq hroom.first model packet, ?_⟩
      exact Option.bind_eq_some_iff.mpr ⟨_, ih hroom.rest _ (packet + 1), rfl⟩

/-! ## Testing -/

/-- A region is looked at only if those ahead of it pass. -/
def testRegions? (model : M) (packet : Nat) : List (Region × Option Bytes) → Option (Bool × M)
  | [] => some (true, model)
  | (region, content?) :: rest => do
    let content ← content?
    match SignalModel.test model region packet content with
    | (true, model) => testRegions? model packet rest
    | (false, model) => return (false, model)

def testWholePacket? (model : M) (layout : PacketLayout) (packet : Nat) (buffer : Bytes) :
    Option (Bool × M) :=
  testRegions? model packet
    [(.scales, layout.scales.of? buffer), (.weights, layout.weights.of? buffer),
      (.data, layout.data.of? buffer)]

def testSplitPacket? (model : M) (geometry : SplitGeometry) (packet : Nat)
    (data weights : Bytes) : Option (Bool × M) :=
  testRegions? model packet
    [(.scales, geometry.scales.of? weights), (.weights, geometry.weights.of? weights),
      (.data, geometry.data.of? data)]

def testSplitPackets? (model : M) (geometry : SplitGeometry) :
    (count packet : Nat) → (data weights : Bytes) → Option (Bool × M)
  | 0, _, _, _ => some (true, model)
  | count + 1, packet, data, weights => do
    let firstData ← Extent.of? ⟨0, geometry.dataStride⟩ data
    let firstWeights ← Extent.of? ⟨0, geometry.weightsStride⟩ weights
    match ← testSplitPacket? model geometry packet firstData firstWeights with
    | (true, model) =>
      testSplitPackets? model geometry count (packet + 1)
        (data.drop geometry.dataStride) (weights.drop geometry.weightsStride)
    | (false, model) => return (false, model)

theorem testRegions?_eq (model : M) (packet : Nat) (parts : List (Region × Bytes)) :
    testRegions? model packet (parts.map fun part => (part.1, some part.2)) =
      some (testRegions model packet parts) := by
  induction parts generalizing model with
  | nil => rfl
  | cons part parts ih =>
      simp only [List.map_cons, testRegions?, testRegions, Option.bind_eq_bind, Option.bind_some]
      cases SignalModel.test model part.1 packet part.2 with
      | mk passed model =>
          cases passed with
          | true => exact ih model
          | false => rfl

theorem testWholePacket?_eq (hfits : layout.packetSize ≤ buffer.length) (model : M)
    (packet : Nat) :
    testWholePacket? model layout packet buffer =
      some (testWholePacket model layout packet buffer) := by
  obtain ⟨hscales, hweights, hdata⟩ := limits_le_of_packetSize_le hfits
  rw [testWholePacket?, Extent.of?_eq_some hscales, Extent.of?_eq_some hweights,
    Extent.of?_eq_some hdata]
  exact testRegions?_eq model packet [(.scales, layout.scales.of buffer),
    (.weights, layout.weights.of buffer), (.data, layout.data.of buffer)]

theorem testSplitPacket?_eq
    (hroom : (SplitGeometry.ofLayout layout packetsPerHeap).HasRoom 1 data weights) (model : M)
    (packet : Nat) :
    testSplitPacket? model (.ofLayout layout packetsPerHeap) packet data weights =
      some (testSplitPacket model (.ofLayout layout packetsPerHeap) packet data weights) := by
  obtain ⟨hscales, hweights, hdata⟩ := hroom.limits_le
  rw [testSplitPacket?, Extent.of?_eq_some hscales, Extent.of?_eq_some hweights,
    Extent.of?_eq_some hdata]
  exact testRegions?_eq model packet [(.scales, (SplitGeometry.ofLayout layout _).scales.of weights),
    (.weights, (SplitGeometry.ofLayout layout _).weights.of weights),
    (.data, (SplitGeometry.ofLayout layout packetsPerHeap).data.of data)]

theorem testSplitPackets?_eq
    (hroom : (SplitGeometry.ofLayout layout packetsPerHeap).HasRoom count data weights) (model : M)
    (packet : Nat) :
    testSplitPackets? model (.ofLayout layout packetsPerHeap) count packet data weights =
      some (testSplitPackets model (.ofLayout layout packetsPerHeap) count packet data weights) := by
  induction count generalizing model packet data weights with
  | zero => rfl
  | succ count ih =>
      obtain ⟨hdata, hweights⟩ := hroom.pieces
      refine Option.bind_eq_some_iff.mpr ⟨_, Extent.of?_zero hdata, ?_⟩
      refine Option.bind_eq_some_iff.mpr ⟨_, Extent.of?_zero hweights, ?_⟩
      refine Option.bind_eq_some_iff.mpr ⟨_, testSplitPacket?_eq hroom.first model packet, ?_⟩
      rw [testSplitPackets]
      cases testSplitPacket model (.ofLayout layout packetsPerHeap) packet
          (data.take (SplitGeometry.ofLayout layout packetsPerHeap).dataStride)
          (weights.take (SplitGeometry.ofLayout layout packetsPerHeap).weightsStride) with
      | mk passed model =>
          cases passed with
          | true => exact ih hroom.rest model (packet + 1)
          | false => rfl

/-! ## Whole calls -/

namespace PacketGenerator

/-- The work of a call, if no access is out of range. -/
def work? (generator : PacketGenerator M) (geometry : SplitGeometry) :
    Purpose → Buffers → Option (Reply × M)
  | .fill, .packet buffer => do
    let (filled, model) ←
      fillWholePacket? generator.model generator.layout generator.filled buffer
    return (⟨.ok none, [filled]⟩, model)
  | .test, .packet buffer => do
    let (passed, model) ←
      testWholePacket? generator.model generator.layout generator.tested buffer
    return (⟨.ok (some passed), [buffer]⟩, model)
  | .fill, .split data weights => do
    let (filled, model) ← fillSplitPacket? generator.model geometry generator.filled data weights
    return (⟨.ok none, bothBuffers filled⟩, model)
  | .test, .split data weights => do
    let (passed, model) ← testSplitPacket? generator.model geometry generator.tested data weights
    return (⟨.ok (some passed), [data, weights]⟩, model)
  | .fill, .heap data weights => do
    let (filled, model) ← fillSplitPackets? generator.model geometry geometry.packetsPerHeap
      generator.filled data weights
    return (⟨.ok none, bothBuffers filled⟩, model)
  | .test, .heap data weights => do
    let (passed, model) ← testSplitPackets? generator.model geometry geometry.packetsPerHeap
      generator.tested data weights
    return (⟨.ok (some passed), [data, weights]⟩, model)

/-- No access is out of range if no buffer is too short. -/
theorem work?_eq {generator : PacketGenerator M} {buffers : Buffers}
    (hfit : buffers.Fit generator.layout (.ofLayout generator.layout packetsPerHeap))
    (purpose : Purpose) :
    generator.work? (.ofLayout generator.layout packetsPerHeap) purpose buffers =
      some (generator.work (.ofLayout generator.layout packetsPerHeap) purpose buffers) := by
  cases buffers with
  | packet buffer =>
      have hfits := hfit _ List.mem_cons_self
      cases purpose with
      | fill =>
          exact Option.bind_eq_some_iff.mpr
            ⟨_, fillWholePacket?_eq hfits generator.model generator.filled, rfl⟩
      | test =>
          exact Option.bind_eq_some_iff.mpr
            ⟨_, testWholePacket?_eq hfits generator.model generator.tested, rfl⟩
  | split data weights =>
      have hroom := Buffers.holdSplit_met_iff.mp hfit
      cases purpose with
      | fill =>
          exact Option.bind_eq_some_iff.mpr
            ⟨_, fillSplitPacket?_eq hroom generator.model generator.filled, rfl⟩
      | test =>
          exact Option.bind_eq_some_iff.mpr
            ⟨_, testSplitPacket?_eq hroom generator.model generator.tested, rfl⟩
  | heap data weights =>
      have hroom := Buffers.holdSplit_met_iff.mp hfit
      cases purpose with
      | fill =>
          exact Option.bind_eq_some_iff.mpr
            ⟨_, fillSplitPackets?_eq hroom generator.model generator.filled, rfl⟩
      | test =>
          exact Option.bind_eq_some_iff.mpr
            ⟨_, testSplitPackets?_eq hroom generator.model generator.tested, rfl⟩

end PacketGenerator

end Strict

end VoltageCapture
