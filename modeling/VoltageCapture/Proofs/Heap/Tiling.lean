import Mathlib
import VoltageCapture.Proofs.Heap.Packets

/-!
# Packets tile their heaps

`ExtentsTile members extent size` says that some extents share out the first `size` bytes of a
buffer: each of these bytes lies in the extent of exactly one member, and none of them reaches
further.

Pieces of one stride tile a heap (`extentsTile_multiples`), regions that follow each other tile a
packet (`ExtentsTile.insert`, one region after the other), and if each piece of a tiling is tiled in
turn, the small pieces tile the whole (`ExtentsTile.compose`).  For the layout of two headers this
gives both streams, heap by heap, and the whole packet in which the two are joined
(`HeapLayout.tiled_of_configure`).
-/

namespace VoltageCapture

/-- The place of an extent in a buffer that holds, from `start` on, the one it belongs to. -/
def Extent.shifted (extent : Extent) (start : Nat) : Extent :=
  ⟨start + extent.offset, extent.size⟩

namespace Extent

variable {extent : Extent} {start index : Nat}

theorem limit_shifted (extent : Extent) (start : Nat) :
    (extent.shifted start).limit = start + extent.limit :=
  Nat.add_assoc start extent.offset extent.size

theorem holds_shifted : (extent.shifted start).Holds index ↔
    start ≤ index ∧ extent.Holds (index - start) := by
  rw [Holds, Holds, limit_shifted]
  show start + extent.offset ≤ index ∧ _ ↔ _
  omega

end Extent

/-! ## Tilings -/

/-- Each of the first `size` bytes lies in the extent of exactly one member, and no member
reaches beyond them. -/
structure ExtentsTile {ι : Type} (members : Set ι) (extent : ι → Extent) (size : Nat) : Prop where
  limit_le : ∀ part ∈ members, (extent part).limit ≤ size
  existsUnique : ∀ index < size, ∃! part, part ∈ members ∧ (extent part).Holds index

theorem extentsTile_empty {ι : Type} (extent : ι → Extent) : ExtentsTile ∅ extent 0 where
  limit_le := by
    intro part hpart
    exact absurd hpart (Set.notMem_empty part)
  existsUnique := by
    intro index hindex
    exact absurd hindex (Nat.not_lt_zero index)

theorem extentsTile_multiples (count stride : Nat) :
    ExtentsTile (Set.Iio count) (fun number => ⟨number * stride, stride⟩) (count * stride) where
  limit_le := by
    intro number hnumber
    calc number * stride + stride = (number + 1) * stride := (Nat.succ_mul number stride).symm
      _ ≤ count * stride := Nat.mul_le_mul_right stride hnumber
  existsUnique := by
    intro index hindex
    have hstride : 0 < stride := Nat.pos_of_mul_pos_left (Nat.zero_lt_of_lt hindex)
    refine ⟨index / stride, ⟨(Nat.div_lt_iff_lt_mul hstride).mpr hindex,
      Nat.div_mul_le_self index stride, Nat.lt_div_mul_add hstride⟩, ?_⟩
    rintro number ⟨-, hlow, hhigh⟩
    exact (Nat.div_eq_of_lt_le hlow ((Nat.succ_mul number stride).symm ▸ hhigh)).symm

namespace ExtentsTile

variable {ι κ : Type} {members : Set ι} {inner : Set κ} {extent : ι → Extent}
  {place : κ → Extent} {size : Nat}

/-- One more piece, right behind those that are there. -/
theorem insert (htiles : ExtentsTile members extent size) (part : ι)
    (hoffset : (extent part).offset = size) :
    ExtentsTile (insert part members) extent (extent part).limit where
  limit_le := by
    rintro other (rfl | hother)
    · exact Nat.le_refl _
    · calc (extent other).limit ≤ size := htiles.limit_le other hother
        _ ≤ (extent part).limit := hoffset ▸ Nat.le_add_right _ _
  existsUnique := by
    intro index hindex
    rcases Nat.lt_or_ge index size with hlt | hge
    · obtain ⟨found, ⟨hfound, hholds⟩, hunique⟩ := htiles.existsUnique index hlt
      refine ⟨found, ⟨Set.mem_insert_of_mem part hfound, hholds⟩, ?_⟩
      rintro other ⟨rfl | hother, hotherHolds⟩
      · exact absurd hotherHolds.1 (by omega)
      · exact hunique other ⟨hother, hotherHolds⟩
    · refine ⟨part, ⟨Set.mem_insert part members, hoffset ▸ hge, hindex⟩, ?_⟩
      rintro other ⟨rfl | hother, hotherHolds⟩
      · rfl
      · have hlimit := Nat.lt_of_lt_of_le hotherHolds.2 (htiles.limit_le other hother)
        exact absurd hlimit (Nat.not_lt.mpr hge)

/-- The pieces of the pieces are a tiling again. -/
theorem compose (houter : ExtentsTile members extent size)
    (hinner : ∀ part ∈ members, ExtentsTile inner place (extent part).size) :
    ExtentsTile (members ×ˢ inner)
      (fun piece => (place piece.2).shifted (extent piece.1).offset) size where
  limit_le := by
    rintro ⟨part, piece⟩ ⟨hpart, hpiece⟩
    calc ((place piece).shifted (extent part).offset).limit
        = (extent part).offset + (place piece).limit := Extent.limit_shifted _ _
      _ ≤ (extent part).limit :=
          Nat.add_le_add_left ((hinner part hpart).limit_le piece hpiece) _
      _ ≤ size := houter.limit_le part hpart
  existsUnique := by
    intro index hindex
    obtain ⟨part, ⟨hpart, hlow, hhigh⟩, hunique⟩ := houter.existsUnique index hindex
    obtain ⟨piece, ⟨hpiece, hholds⟩, huniquePiece⟩ :=
      (hinner part hpart).existsUnique (index - (extent part).offset)
        (Nat.sub_lt_left_of_lt_add hlow hhigh)
    refine ⟨(part, piece), ⟨⟨hpart, hpiece⟩, Extent.holds_shifted.mpr ⟨hlow, hholds⟩⟩, ?_⟩
    rintro ⟨other, otherPiece⟩ ⟨⟨hother, hotherPiece⟩, hotherHolds⟩
    obtain ⟨hstart, hwithin⟩ := Extent.holds_shifted.mp hotherHolds
    -- a byte of a small piece is one of the large piece around it, and there is only one
    have hlimit : index - (extent other).offset < (extent other).size :=
      Nat.lt_of_lt_of_le hwithin.2 ((hinner other hother).limit_le otherPiece hotherPiece)
    obtain rfl : other = part :=
      hunique other ⟨hother, hstart, (Nat.sub_lt_iff_lt_add' hstart).mp hlimit⟩
    obtain rfl : otherPiece = piece := huniquePiece otherPiece ⟨hotherPiece, hwithin⟩
    rfl

end ExtentsTile

/-! ## Regions of a packet -/

/-- The regions of a packet follow each other from its first byte on, without gaps, and none of
them is empty. -/
structure PacketLayout.Adjoining (packets : PacketLayout) : Prop where
  size_pos : ∀ region, 0 < (packets.extent region).size
  scales_offset : packets.scales.offset = 0
  weights_offset : packets.weights.offset = packets.scales.limit
  data_offset : packets.data.offset = packets.weights.limit

namespace PacketLayout.Adjoining

variable {packets : PacketLayout} (hadjoining : packets.Adjoining)

include hadjoining

theorem packetSize_eq_limit : packets.packetSize = packets.data.limit := by
  have hweights : packets.scales.limit ≤ packets.weights.limit :=
    hadjoining.weights_offset ▸ Nat.le_add_right _ _
  have hdata : packets.weights.limit ≤ packets.data.limit :=
    hadjoining.data_offset ▸ Nat.le_add_right _ _
  rw [packetSize, Nat.max_eq_right hdata, Nat.max_eq_right (Nat.le_trans hweights hdata)]

theorem tiles_regions : ExtentsTile Set.univ packets.extent packets.packetSize := by
  have hscales := (extentsTile_empty packets.extent).insert .scales hadjoining.scales_offset
  have hweights := hscales.insert .weights hadjoining.weights_offset
  have hdata := hweights.insert .data hadjoining.data_offset
  have hall : insert Region.data (insert Region.weights (insert Region.scales ∅)) = Set.univ := by
    apply Set.eq_univ_of_forall
    intro region
    cases region <;> simp
  rw [hadjoining.packetSize_eq_limit, ← hall]
  exact hdata

end PacketLayout.Adjoining

/-- Nothing stands ahead of the regions, and none of them is empty. -/
theorem UdpPacketLayout.adjoining {packet : UdpPacketLayout} (hheader : packet.headerSize = 0)
    (hscales : 0 < packet.scalesSize) (hweights : 0 < packet.weightsSize)
    (hdata : 0 < packet.dataSize) : packet.toPacketLayout.Adjoining where
  size_pos := by
    intro region
    cases region with
    | scales => exact hscales
    | weights => exact hweights
    | data => exact hdata
  scales_offset := hheader
  weights_offset := rfl
  data_offset := rfl

/-! ## Heaps -/

namespace HeapLayout

variable {data weights : Header} {layout : HeapLayout}

/-- Where a region lies in a packet of the stream that holds it. -/
def packetExtent (layout : HeapLayout) : Region → Extent
  | .scales => layout.packetScales
  | .weights => layout.packetWeights
  | .data => layout.packetData

theorem Packed.tiles_data (hpacked : layout.Packed) :
    ExtentsTile (Set.Iio layout.packetsPerHeap)
      (fun index => (layout.packetExtent .data).shifted (layout.dataPacketOffset index))
      layout.dataHeapStride := by
  have hplace : (fun index => (layout.packetExtent .data).shifted (layout.dataPacketOffset index)) =
      fun index => ⟨index * layout.dataPacketStride, layout.dataPacketStride⟩ := by
    funext index
    exact congrArg (Extent.mk (index * layout.dataPacketStride)) hpacked.data_eq
  rw [hplace, hpacked.dataHeap_eq]
  exact extentsTile_multiples layout.packetsPerHeap layout.dataPacketStride

theorem Packed.tiles_weights (hpacked : layout.Packed) :
    ExtentsTile (Set.Iio layout.packetsPerHeap ×ˢ {.scales, .weights})
      (fun piece => (layout.packetExtent piece.2).shifted (layout.weightsPacketOffset piece.1))
      layout.weightsHeapStride := by
  have hscales := (extentsTile_empty layout.packetExtent).insert .scales rfl
  have hboth := hscales.insert .weights (Nat.zero_add layout.packet.scalesSize).symm
  have hpacket :
      ExtentsTile {.scales, .weights} layout.packetExtent layout.weightsPacketStride := by
    rw [Set.pair_comm, ← hpacked.weights_eq, ← insert_empty_eq]
    exact hboth
  rw [hpacked.weightsHeap_eq]
  exact (extentsTile_multiples layout.packetsPerHeap layout.weightsPacketStride).compose
    fun _ _ => hpacket

/-- The whole packet has the bytes of the packet in both streams. -/
theorem Packed.packetSize_eq (hpacked : layout.Packed)
    (hadjoining : layout.packet.toPacketLayout.Adjoining) :
    layout.packet.toPacketLayout.packetSize =
      layout.weightsPacketStride + layout.dataPacketStride := by
  have hheader : layout.packet.headerSize = 0 := hadjoining.scales_offset
  rw [UdpPacketLayout.packetSize_eq, hheader, Nat.zero_add, hpacked.weights_eq, hpacked.data_eq]

/-- The packets of a layout share out the heaps of both streams, and their regions the whole
packet in which the two streams are joined.  All ends of regions, and so all offsets, fit in 64
bits, as the ends of the heaps do. -/
structure Tiled (layout : HeapLayout) : Prop where
  data_tiles : ExtentsTile (Set.Iio layout.packetsPerHeap)
    (fun index => (layout.packetExtent .data).shifted (layout.dataPacketOffset index))
    layout.dataHeapStride
  weights_tiles : ExtentsTile (Set.Iio layout.packetsPerHeap ×ˢ {.scales, .weights})
    (fun piece => (layout.packetExtent piece.2).shifted (layout.weightsPacketOffset piece.1))
    layout.weightsHeapStride
  dataHeapStride_lt : layout.dataHeapStride < sizeBound
  weightsHeapStride_lt : layout.weightsHeapStride < sizeBound
  adjoining : layout.packet.toPacketLayout.Adjoining
  regions_tile : ExtentsTile Set.univ layout.packet.toPacketLayout.extent
    layout.packet.toPacketLayout.packetSize
  packetSize_eq : layout.packet.toPacketLayout.packetSize =
    layout.weightsPacketStride + layout.dataPacketStride
  packetSize_lt : layout.packet.toPacketLayout.packetSize < sizeBound

/-- The packet of an accepted layout holds bytes in each region, and starts with the scales. -/
theorem adjoining_of_configure (hlayout : configure data weights = .ok layout) :
    layout.packet.toPacketLayout.Adjoining := by
  have hpacked := packed_of_configure hlayout
  obtain ⟨hmet, rfl⟩ := of_configure hlayout
  simp only [requirements, List.forall_mem_append, List.forall_mem_cons] at hmet
  obtain ⟨_, _, _, _, _, hsamples, hpacketChannels, hgroup, _, hgroups, _, _, hweight, _, _,
    hwhole, _⟩ := hmet
  have hgroupCount := Nat.div_pos (Nat.le_of_dvd (Nat.pos_of_ne_zero hsamples) hgroups)
    (Nat.pos_of_ne_zero hgroup)
  have hbits : 0 < (HeapNumbers.ofHeaders data weights).weightsTotal :=
    Nat.mul_pos (Nat.mul_pos hgroupCount (Nat.pos_of_ne_zero hpacketChannels))
      (Nat.pos_of_ne_zero hweight)
  refine UdpPacketLayout.adjoining rfl (show 0 < 4 by decide) ?_ hpacked.data_pos
  exact Nat.div_pos (Nat.le_of_dvd hbits hwhole) (by decide)

/-- A packet has fewer than 2^61 bytes of weights and as many of samples, since their bits are
counted in 64 bits. -/
theorem strides_lt_of_configure (hlayout : configure data weights = .ok layout) :
    layout.weightsPacketStride + layout.dataPacketStride < sizeBound := by
  obtain ⟨hmet, rfl⟩ := of_configure hlayout
  simp only [requirements, List.forall_mem_append, List.forall_mem_cons] at hmet
  obtain ⟨_, _, _, _, _, _, _, _, _, _, _, _, _, hdata, hweights, _⟩ := hmet
  show 4 + (HeapNumbers.ofHeaders data weights).weightsTotal / 8 +
    (HeapNumbers.ofHeaders data weights).dataTotal / 8 < sizeBound
  rw [sizeBound] at hdata hweights ⊢
  omega

/-- **Packets tile their heaps.**  Each byte of a heap of the data stream lies in the data of
exactly one packet, and each byte of a heap of the weights stream in either the scales or the
weights of exactly one packet.  In the whole packet the three regions follow each other and make
up all of it, as many bytes as the packet has in both streams. -/
theorem tiled_of_configure (data weights : Header) (layout : HeapLayout)
    (hlayout : configure data weights = .ok layout) : layout.Tiled := by
  have hpacked := packed_of_configure hlayout
  have hadjoining := adjoining_of_configure hlayout
  have hdescribes : layout.Describes (HeapNumbers.ofHeaders data weights) := by
    obtain ⟨hmet, rfl⟩ := of_configure hlayout
    exact describes_of_requirements hmet
  have hsize := hpacked.packetSize_eq hadjoining
  exact {
    data_tiles := hpacked.tiles_data
    weights_tiles := hpacked.tiles_weights
    dataHeapStride_lt := hdescribes.dataHeapStride_lt
    weightsHeapStride_lt := hdescribes.weightsHeapStride_lt
    adjoining := hadjoining
    regions_tile := hadjoining.tiles_regions
    packetSize_eq := hsize
    packetSize_lt := hsize ▸ strides_lt_of_configure hlayout }

/-- Packets of 1024 bytes in the data stream and 36 in the weights stream: byte 1500 of a data heap
belongs to the second packet, and so does byte 40 of a weights heap, as the first of its
weights. -/
theorem tiled_of_configure_streamHeader :
    let layout := HeapNumbers.layout ⟨8, 32, 4, 8, 16, 16⟩
    layout.packet.toPacketLayout.packetSize = 1060 ∧
      (∃! index, index ∈ Set.Iio layout.packetsPerHeap ∧
        ((layout.packetExtent .data).shifted (layout.dataPacketOffset index)).Holds 1500) ∧
      ∃! piece : Nat × Region, piece ∈ Set.Iio layout.packetsPerHeap ×ˢ {.scales, .weights} ∧
        ((layout.packetExtent piece.2).shifted (layout.weightsPacketOffset piece.1)).Holds 40 := by
  intro layout
  have htiled := tiled_of_configure (streamHeader "8" "4" "2" "16") (streamHeader "8" "4" "1" "16")
    layout rfl
  exact ⟨htiled.packetSize_eq, htiled.data_tiles.existsUnique 1500 (by decide),
    htiled.weights_tiles.existsUnique 40 (by decide)⟩

end HeapLayout

end VoltageCapture
