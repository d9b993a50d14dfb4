import VoltageCapture.Proofs.Packet.Calls

/-!
# Heaps of split packets

A heap is filled and tested packet after packet, from two buffers that are cut into pieces of
one packet each.  If the model determines its packets, what is filled in is known in advance:
`PacketLayout.splitPackets` joins the packets in each of the two buffers.  A packet at a time,
and then by induction on the number of packets, `fillSplitPackets_eq` finds exactly that in
buffers of exactly that size, and `testSplitPackets_iff` finds that nothing else passes.

Heap after heap, the cursor takes the generator from one heap to the next (`fillHeaps_eq`,
`testHeaps_eq`).
-/

namespace VoltageCapture

/-! ## Packets back to back -/

namespace PacketLayout

variable {layout : PacketLayout} {content : Region → Nat → Nat → Bytes} {count : Nat}
  {data weights : Bytes}

/-- What the data buffer and the weights buffer of a split packet hold. -/
def splitPacket (layout : PacketLayout) (content : Region → Nat → Nat → Bytes) (packet : Nat) :
    Bytes × Bytes :=
  (content .data packet layout.data.size,
    content .scales packet layout.scales.size ++ content .weights packet layout.weights.size)

/-- What the two buffers of `count` split packets hold, numbered from `packet` on. -/
def splitPackets (layout : PacketLayout) (content : Region → Nat → Nat → Bytes)
    (packet count : Nat) : Bytes × Bytes :=
  ((List.range' packet count).flatMap fun number => (layout.splitPacket content number).1,
    (List.range' packet count).flatMap fun number => (layout.splitPacket content number).2)

theorem splitPackets_succ (packet count : Nat) :
    layout.splitPackets content packet (count + 1) =
      ((layout.splitPacket content packet).1 ++ (layout.splitPackets content (packet + 1) count).1,
        (layout.splitPacket content packet).2 ++
          (layout.splitPackets content (packet + 1) count).2) := rfl

/-- Two buffers have the size of `count` split packets. -/
structure SizedFor (layout : PacketLayout) (count : Nat) (data weights : Bytes) : Prop where
  data_eq : data.length = count * layout.data.size
  weights_eq : weights.length = count * (layout.scales.size + layout.weights.size)

theorem SizedFor.first (hsized : layout.SizedFor (count + 1) data weights) :
    layout.SizedFor 1 (data.take layout.data.size)
      (weights.take (layout.scales.size + layout.weights.size)) := by
  obtain ⟨hdata, hweights⟩ := hsized
  rw [Nat.succ_mul] at hdata hweights
  constructor <;> rw [List.length_take] <;> omega

theorem SizedFor.rest (hsized : layout.SizedFor (count + 1) data weights) :
    layout.SizedFor count (data.drop layout.data.size)
      (weights.drop (layout.scales.size + layout.weights.size)) := by
  obtain ⟨hdata, hweights⟩ := hsized
  rw [Nat.succ_mul] at hdata hweights
  constructor <;> rw [List.length_drop] <;> omega

end PacketLayout

section Determines

variable {M : Type} [SignalModel M] {inv : M → Prop} {content : Region → Nat → Nat → Bytes}
  {model : M} {layout : PacketLayout} {count : Nat} {data weights : Bytes}
  (hdetermines : SignalModel.Determines inv content)

include hdetermines

theorem length_splitPacket (layout : PacketLayout) (packet : Nat) :
    (layout.splitPacket content packet).1.length = layout.data.size ∧
      (layout.splitPacket content packet).2.length = layout.scales.size + layout.weights.size := by
  simp only [PacketLayout.splitPacket, List.length_append, hdetermines.length_content, and_self]

theorem of_fillRegion {region : Region} {offset size packet : Nat} {buffer filled : Bytes}
    {after : M} (hfill : fillRegion model region ⟨offset, size⟩ packet buffer = (filled, after))
    (hmodel : inv model) (hfits : offset + size ≤ buffer.length) :
    filled = buffer.overwrite offset (content region packet size) ∧
      filled.length = buffer.length ∧ inv after := by
  have hlimit : (Extent.mk offset size).limit ≤ buffer.length := hfits
  have hfilled := fillRegion_of_determines hdetermines region packet hmodel hlimit
  have hafter := hdetermines.fillRegion region ⟨offset, size⟩ packet buffer hmodel
  rw [hfill] at hfilled hafter
  refine ⟨hfilled, ?_, hafter⟩
  calc filled.length
      = (buffer.overwrite offset (content region packet size)).length := congrArg _ hfilled
    _ = buffer.length :=
        Extent.length_overwrite hlimit (hdetermines.length_content region packet size)

/-- In the weights buffer the weights are written behind the scale factors that are there
already. -/
theorem fillSplitPacket_eq (packetsPerHeap packet : Nat) (hmodel : inv model)
    (hsized : layout.SizedFor 1 data weights) :
    (fillSplitPacket model (.ofLayout layout packetsPerHeap) packet data weights).1 =
      layout.splitPacket content packet := by
  obtain ⟨hdata, hweights⟩ := hsized
  rw [Nat.one_mul] at hdata hweights
  have hlength := hdetermines.length_content
  simp only [fillSplitPacket, SplitGeometry.ofLayout]
  cases hscales : fillRegion model .scales ⟨0, layout.scales.size⟩ packet weights with
  | mk scaled model =>
      obtain ⟨hscaled, hscaledLength, hmodel⟩ := of_fillRegion hdetermines hscales hmodel (by omega)
      cases hbehind : fillRegion model .weights ⟨layout.scales.size, layout.weights.size⟩ packet
          scaled with
      | mk filled model =>
          obtain ⟨hfilled, -, hmodel⟩ := of_fillRegion hdetermines hbehind hmodel (by omega)
          cases hwhole : fillRegion model .data ⟨0, layout.data.size⟩ packet data with
          | mk whole model =>
              obtain ⟨hwhole, -, -⟩ := of_fillRegion hdetermines hwhole hmodel (by omega)
              have hdataEnd : data.length ≤ 0 + (content .data packet layout.data.size).length := by
                rw [hlength]
                omega
              have hweightsEnd : scaled.length ≤ layout.scales.size +
                  (content .weights packet layout.weights.size).length := by
                rw [hlength]
                omega
              -- the data and the weights fill their buffers to the end, which leaves nothing of
              -- what was there but the scale factors
              rw [Bytes.overwrite_of_reaches_end hdataEnd] at hwhole
              rw [Bytes.overwrite_of_reaches_end hweightsEnd, hscaled,
                Bytes.take_overwrite_zero (hlength _ _ _)] at hfilled
              rw [hwhole, hfilled]
              rfl

theorem fillSplitPackets_eq (packetsPerHeap packet : Nat) (hmodel : inv model)
    (hsized : layout.SizedFor count data weights) :
    (fillSplitPackets model (.ofLayout layout packetsPerHeap) count packet data weights).1 =
      layout.splitPackets content packet count := by
  induction count generalizing model packet data weights with
  | zero =>
      obtain ⟨hdata, hweights⟩ := hsized
      rw [Nat.zero_mul, List.length_eq_zero_iff] at hdata hweights
      rw [hdata, hweights]
      rfl
  | succ count ih =>
      have hfirst := fillSplitPacket_eq hdetermines packetsPerHeap packet hmodel hsized.first
      have hrest := ih (packet + 1) (hdetermines.fillSplitPacket
        (.ofLayout layout packetsPerHeap) packet (data.take layout.data.size)
        (weights.take (layout.scales.size + layout.weights.size)) hmodel) hsized.rest
      rw [PacketLayout.splitPackets_succ, ← hfirst, ← hrest, fillSplitPackets,
        SplitGeometry.dataStride_ofLayout, SplitGeometry.weightsStride_ofLayout]

theorem testSplitPacket_iff (packetsPerHeap packet : Nat) (hmodel : inv model)
    (hsized : layout.SizedFor 1 data weights) :
    (testSplitPacket model (.ofLayout layout packetsPerHeap) packet data weights).1 = true ↔
      (data, weights) = layout.splitPacket content packet := by
  obtain ⟨hdata, hweights⟩ := hsized
  rw [Nat.one_mul] at hdata hweights
  have hscales : (SplitGeometry.ofLayout layout packetsPerHeap).scales.of weights =
      weights.take layout.scales.size := rfl
  have hrest : (SplitGeometry.ofLayout layout packetsPerHeap).weights.of weights =
      weights.drop layout.scales.size := by
    apply List.take_of_length_le
    rw [List.length_drop, hweights]
    exact Nat.sub_le_iff_le_add'.mpr (Nat.le_refl _)
  have hwhole : (SplitGeometry.ofLayout layout packetsPerHeap).data.of data = data :=
    List.take_of_length_le (Nat.le_of_eq hdata)
  have htake : (weights.take layout.scales.size).length = layout.scales.size := by
    rw [List.length_take, hweights]
    omega
  have hdrop : (weights.drop layout.scales.size).length = layout.weights.size := by
    rw [List.length_drop, hweights]
    omega
  rw [testSplitPacket, testRegions_iff hdetermines packet _ hmodel, hscales, hrest, hwhole]
  simp only [List.forall_mem_cons, List.not_mem_nil, false_implies, implies_true, and_true, htake,
    hdrop, hdata, PacketLayout.splitPacket, Prod.mk.injEq,
    Bytes.eq_append_iff (hdetermines.length_content .scales packet layout.scales.size)]
  constructor
  · rintro ⟨hs, hw, hd⟩
    exact ⟨hd, hs, hw⟩
  · rintro ⟨hd, hs, hw⟩
    exact ⟨hs, hw, hd⟩

theorem testSplitPackets_iff (packetsPerHeap packet : Nat) (hmodel : inv model)
    (hsized : layout.SizedFor count data weights) :
    (testSplitPackets model (.ofLayout layout packetsPerHeap) count packet data weights).1 = true ↔
      (data, weights) = layout.splitPackets content packet count := by
  induction count generalizing model packet data weights with
  | zero =>
      obtain ⟨hdata, hweights⟩ := hsized
      rw [Nat.zero_mul, List.length_eq_zero_iff] at hdata hweights
      rw [hdata, hweights]
      exact ⟨fun _ => rfl, fun _ => rfl⟩
  | succ count ih =>
      have hfirst := testSplitPacket_iff hdetermines packetsPerHeap packet hmodel hsized.first
      have htested := hdetermines.testSplitPacket (.ofLayout layout packetsPerHeap) packet
        (data.take layout.data.size) (weights.take (layout.scales.size + layout.weights.size))
        hmodel
      have hlength := length_splitPacket hdetermines layout packet
      have hsplit : (data, weights) = layout.splitPackets content packet (count + 1) ↔
          (data.take layout.data.size, weights.take (layout.scales.size + layout.weights.size)) =
              layout.splitPacket content packet ∧
            (data.drop layout.data.size, weights.drop (layout.scales.size + layout.weights.size)) =
              layout.splitPackets content (packet + 1) count := by
        rw [PacketLayout.splitPackets_succ, Prod.mk.injEq, Bytes.eq_append_iff hlength.1,
          Bytes.eq_append_iff hlength.2, Prod.ext_iff, Prod.ext_iff]
        exact and_and_and_comm
      rw [hsplit, testSplitPackets, SplitGeometry.dataStride_ofLayout,
        SplitGeometry.weightsStride_ofLayout, ← hfirst]
      split
      · next htest =>
        rw [htest] at htested
        rw [ih (packet + 1) htested hsized.rest, htest]
        exact ⟨fun hrest => ⟨rfl, hrest⟩, And.right⟩
      · next htest =>
        rw [htest]
        exact ⟨Bool.noConfusion, fun hboth => absurd hboth.1 Bool.false_ne_true⟩

end Determines

/-! ## Heap after heap -/

namespace PacketGenerator

variable {M : Type} {layout : PacketLayout} {packetsPerHeap : Nat} {generator : PacketGenerator M}
  {data weights : Bytes}

theorem checkHeap_eq_ok
    (hgeometry : generator.geometry? = some (.ofLayout layout packetsPerHeap))
    (hsized : layout.SizedFor packetsPerHeap data weights) (hdata : 0 < layout.data.size)
    (hweights : 0 < layout.scales.size + layout.weights.size) :
    generator.checkHeap data weights = .ok (.ofLayout layout packetsPerHeap) := by
  have hbuffers : checkBuffers packetsPerHeap (.ofLayout layout packetsPerHeap) data weights =
      .ok () := by
    simp only [checkBuffers, checkLength, bind_eq_ok, require_eq_ok,
      SplitGeometry.dataStride_ofLayout, SplitGeometry.weightsStride_ofLayout]
    exact ⟨(), Nat.le_of_eq hsized.data_eq.symm,
      require_eq_ok.mpr (Nat.le_of_eq hsized.weights_eq.symm)⟩
  simp only [checkHeap, PacketGenerator.geometry, hgeometry, bind_eq_ok, require_eq_ok, pure_eq_ok]
  refine ⟨_, rfl, (), hbuffers, (), ?_, rfl⟩
  rw [SplitGeometry.dataStride_ofLayout, SplitGeometry.weightsStride_ofLayout]
  exact ⟨Nat.ne_of_gt hdata, Nat.ne_of_gt hweights⟩

variable [SignalModel M]

/-- The outcomes of filling heaps in turn, each in two buffers of its own. -/
def fillHeaps (generator : PacketGenerator M) :
    List (Bytes × Bytes) → List (Except Error (Bytes × Bytes))
  | [] => []
  | (data, weights) :: rest =>
    (generator.fillHeap data weights).1 :: (generator.fillHeap data weights).2.fillHeaps rest

/-- The outcomes of testing heaps in turn. -/
def testHeaps (generator : PacketGenerator M) : List (Bytes × Bytes) → List (Except Error Bool)
  | [] => []
  | (data, weights) :: rest =>
    (generator.testHeap data weights).1 :: (generator.testHeap data weights).2.testHeaps rest

variable {inv : M → Prop} {content : Region → Nat → Nat → Bytes} {heaps : List (Bytes × Bytes)}
  (hdetermines : SignalModel.Determines inv content)
  (htracks : generator.Tracks inv layout (.ofLayout layout packetsPerHeap))
  (hdata : 0 < layout.data.size) (hweights : 0 < layout.scales.size + layout.weights.size)

include hdetermines htracks hdata hweights

theorem fillHeap_eq (hsized : layout.SizedFor packetsPerHeap data weights) :
    (generator.fillHeap data weights).1 =
        .ok (layout.splitPackets content generator.filled packetsPerHeap) ∧
      (generator.fillHeap data weights).2.filled = generator.filled + packetsPerHeap := by
  have hcheck := checkHeap_eq_ok htracks.geometry_eq hsized hdata hweights
  have hfill := fillSplitPackets_eq hdetermines packetsPerHeap generator.filled htracks.model hsized
  simp only [fillHeap, hcheck]
  exact ⟨congrArg Except.ok hfill, rfl⟩

theorem testHeap_eq (hsized : layout.SizedFor packetsPerHeap data weights) :
    (generator.testHeap data weights).1 = .ok (decide ((data, weights) =
        layout.splitPackets content generator.tested packetsPerHeap)) ∧
      (generator.testHeap data weights).2.tested = generator.tested + packetsPerHeap := by
  have hcheck := checkHeap_eq_ok htracks.geometry_eq hsized hdata hweights
  have htest := testSplitPackets_iff hdetermines packetsPerHeap generator.tested htracks.model
    hsized
  simp only [testHeap, hcheck]
  exact ⟨congrArg Except.ok (Bool.eq_iff_iff.mpr (htest.trans decide_eq_true_iff.symm)), rfl⟩

/-- The heaps that are filled are those from the cursor on. -/
theorem fillHeaps_eq
    (hsized : ∀ heap ∈ heaps, layout.SizedFor packetsPerHeap heap.1 heap.2) :
    generator.fillHeaps heaps = heaps.mapIdx fun index _ => .ok (layout.splitPackets content
      (generator.filled + index * packetsPerHeap) packetsPerHeap) := by
  induction heaps generalizing generator with
  | nil => rfl
  | cons heap heaps ih =>
      obtain ⟨hheap, hrest⟩ := List.forall_mem_cons.mp hsized
      obtain ⟨hfill, hcursor⟩ := fillHeap_eq hdetermines htracks hdata hweights hheap
      have htracks := tracks_afterCall hdetermines.toKeeps htracks (.fillHeap heap.1 heap.2)
      have hlater := ih htracks hrest
      simp only [afterCall, hcursor, Nat.add_assoc] at hlater
      simp only [fillHeaps, List.mapIdx_cons, Nat.zero_mul, Nat.add_zero, hfill, hlater,
        Nat.succ_mul, Nat.add_comm packetsPerHeap]

/-- A heap passes exactly if it is the one from the cursor on. -/
theorem testHeaps_eq
    (hsized : ∀ heap ∈ heaps, layout.SizedFor packetsPerHeap heap.1 heap.2) :
    generator.testHeaps heaps = heaps.mapIdx fun index heap => .ok (decide (heap =
      layout.splitPackets content (generator.tested + index * packetsPerHeap) packetsPerHeap)) := by
  induction heaps generalizing generator with
  | nil => rfl
  | cons heap heaps ih =>
      obtain ⟨hheap, hrest⟩ := List.forall_mem_cons.mp hsized
      obtain ⟨htest, hcursor⟩ := testHeap_eq hdetermines htracks hdata hweights hheap
      have htracks := tracks_afterCall hdetermines.toKeeps htracks (.testHeap heap.1 heap.2)
      have hlater := ih htracks hrest
      simp only [afterCall, hcursor, Nat.add_assoc] at hlater
      simp only [testHeaps, List.mapIdx_cons, Nat.zero_mul, Nat.add_zero, htest, hlater,
        Nat.succ_mul, Nat.add_comm packetsPerHeap]

end PacketGenerator

end VoltageCapture
