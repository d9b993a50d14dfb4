import VoltageCapture.Proofs.Heap.Layout
import VoltageCapture.Proofs.Packet.Heaps
import VoltageCapture.Proofs.Packet.Random

/-!
# Heaps of random packets

The size of a heap is computed twice: by the heap layout, from a pair of headers, and by a
packet generator, from the data header and the layout of its packets.  Here it is shown that
the two agree for all headers that have a heap layout (`HeapLayout.packetsFor_eq_ok`), so a
generator fills heaps of exactly the size that the layout gives.

In the data stream the heaps are one stretch of the data sequence, because each packet starts
where the one ahead of it ended; in the weights stream each packet holds a stretch of the
scales and behind it one of the weights.
-/

namespace VoltageCapture

open RandomSequence (bytesAt streamKey)

namespace HeapLayout

variable {data weights : Header} {layout : HeapLayout} {seed : Nat}
  {generator : PacketGenerator RandomSignal}

/-- Two buffers have the size of one heap each. -/
structure IsHeap (layout : HeapLayout) (heap : Bytes × Bytes) : Prop where
  data_length : heap.1.length = layout.dataHeapStride
  weights_length : heap.2.length = layout.weightsHeapStride

/-- The packets of a layout fill its strides, and each of them holds bytes in both streams. -/
structure Packed (layout : HeapLayout) : Prop where
  data_eq : layout.packet.dataSize = layout.dataPacketStride
  weights_eq : layout.packet.scalesSize + layout.packet.weightsSize = layout.weightsPacketStride
  dataHeap_eq : layout.dataHeapStride = layout.packetsPerHeap * layout.dataPacketStride
  weightsHeap_eq : layout.weightsHeapStride = layout.packetsPerHeap * layout.weightsPacketStride
  data_pos : 0 < layout.dataPacketStride
  weights_pos : 0 < layout.weightsPacketStride

theorem packed_of_configure (hlayout : configure data weights = .ok layout) : layout.Packed := by
  obtain ⟨hdata, hweights⟩ := strides_pos_of_configure hlayout
  obtain ⟨-, rfl⟩ := of_configure hlayout
  exact ⟨rfl, rfl, rfl, rfl, Nat.pos_of_mul_pos_left hdata, Nat.pos_of_mul_pos_left hweights⟩

/-- A generator counts the same packets in a heap as the layout. -/
theorem packetsFor_eq_ok (hlayout : configure data weights = .ok layout) :
    PacketGenerator.packetsFor layout.packet.toPacketLayout data = .ok layout.packetsPerHeap := by
  obtain ⟨hmet, rfl⟩ := of_configure hlayout
  simp only [requirements, List.forall_mem_append, List.forall_mem_cons] at hmet
  obtain ⟨_, hdimensions, hpolarisations, _, hchannels, _, hpacketChannels, _, hdvd, _⟩ := hmet
  obtain ⟨_, hdimensions⟩ := (data.decides_checkValue Key.dimensions 2).exists_ok_iff.mpr
    (List.forall_mem_singleton.mpr hdimensions)
  obtain ⟨_, hpolarisations⟩ := (data.decides_checkValue Key.polarisations 2).exists_ok_iff.mpr
    (List.forall_mem_singleton.mpr hpolarisations)
  -- a number that is missing counts as zero, which the requirements exclude
  have hnumber : data.number? Key.channels =
      some (HeapNumbers.ofHeaders data weights).channels := by
    cases hnumber : data.number? Key.channels with
    | none => exact absurd (by rw [HeapNumbers.ofHeaders, hnumber, Option.getD_none]) hchannels
    | some channels => rw [HeapNumbers.ofHeaders, hnumber, Option.getD_some]
  simp only [PacketGenerator.packetsFor, bind_eq_ok, require_eq_ok, pure_eq_ok]
  exact ⟨_, hdimensions, _, hpolarisations, _, Header.unsigned32_of_number? hnumber, (),
    ⟨hchannels, hpacketChannels, Nat.mod_eq_zero_of_dvd hdvd⟩, rfl⟩

/-- A generator over the packets of a heap layout is configured by the data header. -/
theorem configure_generator (hlayout : configure data weights = .ok layout)
    (hseed : data.sequenceSeed = .ok seed)
    (hgenerator : generator.layout = layout.packet.toPacketLayout) :
    (generator.configure data).1 = .ok () ∧ ∀ calls,
      ((generator.configure data).2.afterCalls calls).Tracks (RandomSignal.Draws seed)
        layout.packet.toPacketLayout
        (.ofLayout layout.packet.toPacketLayout layout.packetsPerHeap) := by
  have hpackets := packetsFor_eq_ok hlayout
  rw [← hgenerator] at hpackets ⊢
  have hconfigure : (generator.configure data).1 = .ok () := by
    simp only [PacketGenerator.configure, hpackets, SignalModel.configure, RandomSignal.ofHeader,
      hseed]
    rfl
  refine ⟨hconfigure, ?_⟩
  obtain ⟨packetsPerHeap, used, hfound, hused, htracks⟩ :=
    PacketGenerator.tracks_of_configure hconfigure
  obtain rfl := Except.ok.inj (hpackets.symm.trans hfound)
  obtain rfl := Except.ok.inj (hseed.symm.trans hused)
  exact htracks

/-! ## Heaps as stretches -/

/-- The packets of a heap join to one stretch of the data sequence. -/
theorem splitPackets_data (packets : PacketLayout) (seed first count : Nat) :
    (packets.splitPackets (regionBytes seed) first count).1 =
      bytesAt (streamKey seed Region.data.streamName) (first * packets.data.size)
        (count * packets.data.size) := by
  simp only [PacketLayout.splitPackets, PacketLayout.splitPacket, regionBytes_eq_bytesAt]
  exact RandomSequence.flatMap_bytesAt _ _ _ _

/-- The heaps that a generator makes of an accepted layout, from packet zero on. -/
def heapAt (layout : HeapLayout) (seed index : Nat) : Bytes × Bytes :=
  layout.packet.toPacketLayout.splitPackets (regionBytes seed) (index * layout.packetsPerHeap)
    layout.packetsPerHeap

/-- Heap by heap, the data go through the data sequence without a gap. -/
theorem flatMap_heapAt_data (hpacked : layout.Packed) (seed count : Nat) :
    (List.range' 0 count).flatMap (fun index => (layout.heapAt seed index).1) =
      ((RandomSequence.ofSeedAndStream seed "data").generate
        (count * layout.dataHeapStride)).1 := by
  have hpiece : ∀ index, (layout.heapAt seed index).1 = bytesAt (streamKey seed "data")
      (index * layout.dataHeapStride) layout.dataHeapStride := by
    intro index
    rw [heapAt, splitPackets_data, Nat.mul_assoc, hpacked.dataHeap_eq, ← hpacked.data_eq]
    rfl
  calc (List.range' 0 count).flatMap (fun index => (layout.heapAt seed index).1)
      = (List.range' 0 count).flatMap fun index => bytesAt (streamKey seed "data")
          (index * layout.dataHeapStride) layout.dataHeapStride := by simp only [hpiece]
    _ = bytesAt (streamKey seed "data") (0 * layout.dataHeapStride)
          (count * layout.dataHeapStride) := RandomSequence.flatMap_bytesAt _ _ _ _
    _ = bytesAt (streamKey seed "data") 0 (count * layout.dataHeapStride) := by rw [Nat.zero_mul]

/-- In the weights each packet has its place, and holds its scale factor and its weights. -/
theorem slice_heapAt_weights (hpacked : layout.Packed) (seed heap : Nat)
    {index : Nat} (hindex : index < layout.packetsPerHeap) :
    Bytes.slice (layout.heapAt seed heap).2 (layout.weightsPacketOffset index)
        layout.weightsPacketStride =
      regionBytes seed .scales (heap * layout.packetsPerHeap + index) layout.packet.scalesSize ++
        regionBytes seed .weights (heap * layout.packetsPerHeap + index)
          layout.packet.weightsSize := by
  have hpiece : ∀ number, (layout.packet.toPacketLayout.splitPacket (regionBytes seed)
      number).2.length = layout.weightsPacketStride := by
    intro number
    rw [← hpacked.weights_eq]
    exact (length_splitPacket (RandomSignal.determines seed) _ number).2
  exact Bytes.slice_flatMap_range' hpiece _ hindex

theorem heapAt_isHeap (hpacked : layout.Packed) (seed index : Nat) :
    layout.IsHeap (layout.heapAt seed index) := by
  have hpacket := length_splitPacket (RandomSignal.determines seed) layout.packet.toPacketLayout
  constructor
  · calc (layout.heapAt seed index).1.length
        = layout.packetsPerHeap * layout.packet.dataSize :=
          Bytes.length_flatMap_range' (fun number => (hpacket number).1) _ _
      _ = layout.dataHeapStride := by rw [hpacked.data_eq, hpacked.dataHeap_eq]
  · calc (layout.heapAt seed index).2.length
        = layout.packetsPerHeap * (layout.packet.scalesSize + layout.packet.weightsSize) :=
          Bytes.length_flatMap_range' (fun number => (hpacket number).2) _ _
      _ = layout.weightsHeapStride := by rw [hpacked.weights_eq, hpacked.weightsHeap_eq]

/-! ## Filling and testing -/

section Calls

variable {used : PacketGenerator RandomSignal} {heaps : List (Bytes × Bytes)}
  (hpacked : layout.Packed)
  (htracks : used.Tracks (RandomSignal.Draws seed) layout.packet.toPacketLayout
    (.ofLayout layout.packet.toPacketLayout layout.packetsPerHeap))
  (hheaps : ∀ heap ∈ heaps, layout.IsHeap heap)

include hpacked

theorem IsHeap.sizedFor {heap : Bytes × Bytes} (hheap : layout.IsHeap heap) :
    layout.packet.toPacketLayout.SizedFor layout.packetsPerHeap heap.1 heap.2 := by
  constructor
  · calc heap.1.length = layout.dataHeapStride := hheap.data_length
      _ = layout.packetsPerHeap * layout.packet.dataSize := by
          rw [hpacked.dataHeap_eq, hpacked.data_eq]
  · calc heap.2.length = layout.weightsHeapStride := hheap.weights_length
      _ = layout.packetsPerHeap * (layout.packet.scalesSize + layout.packet.weightsSize) := by
          rw [hpacked.weightsHeap_eq, hpacked.weights_eq]

include htracks hheaps

theorem fillHeaps_of_packed (hstart : used.filled = 0) :
    used.fillHeaps heaps =
      ((List.range' 0 heaps.length).map (layout.heapAt seed)).map .ok := by
  rw [PacketGenerator.fillHeaps_eq (RandomSignal.determines seed) htracks
    (Nat.lt_of_lt_of_eq hpacked.data_pos hpacked.data_eq.symm)
    (Nat.lt_of_lt_of_eq hpacked.weights_pos hpacked.weights_eq.symm)
    fun heap hmem => (hheaps heap hmem).sizedFor hpacked]
  apply List.ext_getElem
  · simp only [List.length_mapIdx, List.length_map, List.length_range']
  · intro index _ _
    simp only [List.getElem_mapIdx, List.getElem_map, List.getElem_range', hstart, Nat.zero_add,
      Nat.one_mul, heapAt]

theorem testHeaps_of_packed (hstart : used.tested = 0) {index : Nat}
    (hindex : index < heaps.length) :
    (used.testHeaps heaps)[index]? =
      some (.ok (decide (heaps[index]? = some (layout.heapAt seed index)))) := by
  rw [PacketGenerator.testHeaps_eq (RandomSignal.determines seed) htracks
    (Nat.lt_of_lt_of_eq hpacked.data_pos hpacked.data_eq.symm)
    (Nat.lt_of_lt_of_eq hpacked.weights_pos hpacked.weights_eq.symm)
    fun heap hmem => (hheaps heap hmem).sizedFor hpacked]
  simp only [List.getElem?_mapIdx, List.getElem?_eq_getElem hindex, Option.map_some, hstart,
    Nat.zero_add, Option.some.injEq, heapAt]

end Calls

/-- **Layout and generator describe the same heaps.**  A generator over the packets of an
accepted layout is configured by the data header and has the strides of the layout.  The
heaps that it fills from packet zero on join to the data sequence, and hold scales and weights
packet by packet; another generator finds for each heap whether it is the one filled. -/
theorem generator_agrees (data weights : Header) (layout : HeapLayout) (seed : Nat)
    (generator other : PacketGenerator RandomSignal)
    (hlayout : configure data weights = .ok layout) (hseed : data.sequenceSeed = .ok seed)
    (hgenerator : generator.layout = layout.packet.toPacketLayout)
    (hother : other.layout = layout.packet.toPacketLayout) :
    (generator.configure data).1 = .ok () ∧ (other.configure data).1 = .ok () ∧
    (∃ geometry, (generator.configure data).2.geometry = .ok geometry ∧
      geometry.packetsPerHeap = layout.packetsPerHeap ∧
      geometry.dataStride = layout.dataPacketStride ∧
      geometry.weightsStride = layout.weightsPacketStride) ∧
    ∀ (calls otherCalls : List PacketGenerator.Call) (used tester : PacketGenerator RandomSignal),
      used = (generator.configure data).2.afterCalls calls → used.filled = 0 →
      tester = (other.configure data).2.afterCalls otherCalls → tester.tested = 0 →
      ∀ buffers : List (Bytes × Bytes), (∀ heap ∈ buffers, layout.IsHeap heap) →
        ∃ heaps : List (Bytes × Bytes),
          used.fillHeaps buffers = heaps.map .ok ∧ heaps.length = buffers.length ∧
          heaps.flatMap Prod.fst = ((RandomSequence.ofSeedAndStream seed "data").generate
            (buffers.length * layout.dataHeapStride)).1 ∧
          (∀ j heap, heaps[j]? = some heap → layout.IsHeap heap ∧
            ∀ i < layout.packetsPerHeap,
              heap.2.slice (layout.weightsPacketOffset i) layout.weightsPacketStride =
                regionBytes seed .scales (j * layout.packetsPerHeap + i) layout.packet.scalesSize ++
                  regionBytes seed .weights (j * layout.packetsPerHeap + i)
                    layout.packet.weightsSize) ∧
          ∀ shown : List (Bytes × Bytes), shown.length = heaps.length →
            (∀ heap ∈ shown, layout.IsHeap heap) → ∀ j < shown.length,
              (tester.testHeaps shown)[j]? = some (.ok (decide (shown[j]? = heaps[j]?))) := by
  have hpacked := packed_of_configure hlayout
  obtain ⟨hconfigure, htracks⟩ := configure_generator hlayout hseed hgenerator
  obtain ⟨hconfigureOther, htracksOther⟩ := configure_generator hlayout hseed hother
  refine ⟨hconfigure, hconfigureOther,
    ⟨.ofLayout layout.packet.toPacketLayout layout.packetsPerHeap, ?_, rfl, ?_, ?_⟩, ?_⟩
  · have hgeometry : PacketGenerator.geometry? (generator.configure data).2 = some (.ofLayout
        layout.packet.toPacketLayout layout.packetsPerHeap) := (htracks []).geometry_eq
    simp only [PacketGenerator.geometry, hgeometry]
  · rw [SplitGeometry.dataStride_ofLayout]
    exact hpacked.data_eq
  · rw [SplitGeometry.weightsStride_ofLayout]
    exact hpacked.weights_eq
  rintro calls otherCalls used tester rfl hfilled rfl htested buffers hbuffers
  have hget : ∀ j < buffers.length,
      ((List.range' 0 buffers.length).map (layout.heapAt seed))[j]? =
        some (layout.heapAt seed j) := by
    intro j hj
    simp only [List.getElem?_map, List.getElem?_range' hj, Option.map_some, Nat.zero_add,
      Nat.one_mul]
  refine ⟨(List.range' 0 buffers.length).map (layout.heapAt seed),
    fillHeaps_of_packed hpacked (htracks calls) hbuffers hfilled, ?_, ?_, ?_, ?_⟩
  · rw [List.length_map, List.length_range']
  · rw [List.flatMap_map]
    exact flatMap_heapAt_data hpacked seed buffers.length
  · intro j heap hheap
    by_cases hj : j < buffers.length
    · rw [hget j hj, Option.some.injEq] at hheap
      subst hheap
      exact ⟨heapAt_isHeap hpacked seed j, fun i hi => slice_heapAt_weights hpacked seed j hi⟩
    · rw [List.getElem?_eq_none (by simpa using hj)] at hheap
      simp at hheap
  · intro shown hshown hheaps j hj
    rw [List.length_map, List.length_range'] at hshown
    rw [testHeaps_of_packed hpacked (htracksOther otherCalls) hheaps htested hj,
      hget j (hshown ▸ hj)]

/-- Of two heaps, the second passes behind the first but not in its place. -/
theorem generator_agrees_streamHeader :
    let data : Header := ⟨⟨"SEED", "7"⟩ :: (streamHeader "8" "4" "2" "16").fields⟩
    let layout := HeapNumbers.layout ⟨8, 32, 4, 8, 16, 16⟩
    let used := ((PacketGenerator.make layout.packet.toPacketLayout
      RandomSignal.unconfigured).configure data).2
    ∃ first second : Bytes × Bytes,
      used.fillHeaps (List.replicate 2 (List.replicate 2048 0, List.replicate 72 0)) =
        [.ok first, .ok second] ∧
      first.1 ++ second.1 = ((RandomSequence.ofSeedAndStream 7 "data").generate 4096).1 ∧
      (used.testHeaps [first, second])[1]? = some (.ok true) ∧
      (used.testHeaps [second, first])[0]? = some (.ok (decide (second = first))) := by
  intro data layout used
  obtain ⟨hconfigure, -, -, hagrees⟩ := generator_agrees data
    (streamHeader "8" "4" "1" "16") layout 7
    (.make layout.packet.toPacketLayout .unconfigured)
    (.make layout.packet.toPacketLayout .unconfigured) rfl rfl rfl rfl
  obtain ⟨hfilled, htested⟩ := PacketGenerator.cursors_of_configure hconfigure
  obtain ⟨heaps, hfill, hlength, hdata, hheaps, htest⟩ := hagrees [] [] used used rfl hfilled rfl
    htested
    (List.replicate 2 (List.replicate 2048 0, List.replicate 72 0)) (by
      intro heap hmem
      rw [List.eq_of_mem_replicate hmem]
      exact ⟨List.length_replicate, List.length_replicate⟩)
  obtain ⟨first, second, rfl⟩ : ∃ first second, heaps = [first, second] := by
    match heaps, hlength with
    | [first, second], _ => exact ⟨first, second, rfl⟩
  have hfirst := (hheaps 0 first rfl).1
  have hsecond := (hheaps 1 second rfl).1
  refine ⟨first, second, hfill, ?_, ?_, ?_⟩
  · rw [← List.append_nil second.1]
    exact hdata
  · rw [htest [first, second] rfl (by simp [hfirst, hsecond]) 1 (by simp), decide_eq_true rfl]
  · rw [htest [second, first] rfl (by simp [hfirst, hsecond]) 0 (by simp)]
    simp

end HeapLayout

end VoltageCapture
