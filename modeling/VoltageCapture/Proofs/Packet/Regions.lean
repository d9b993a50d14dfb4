import VoltageCapture.Packet.Generator
import VoltageCapture.Proofs.Packet.Extent

/-!
# Models that determine their packets

A signal model fills the regions of a packet one after the other, and may keep a state between
them.  As the regions are apart, it finds each of them as it was at first: `contentOf` names
what it leaves there, and `fillWholePacket_contentOf` finds that in a filled packet, with all
other bytes untouched.

What a model puts into a region could depend on all that it did before.
`SignalModel.Determines inv content` says that it does not: as long as `inv` holds of the model,
which every call keeps, a region of a packet is filled with the bytes that `content` names, and
passes the test exactly if it holds these bytes.  From this follow the whole packet that is
filled (`fillWholePacket_filled`) and the test (`testWholePacket_iff`), which looks at the three
regions and at nothing else.
-/

namespace VoltageCapture

/-- No call to a model makes it lose a property. -/
structure SignalModel.Keeps {M : Type} [SignalModel M] (inv : M → Prop) : Prop where
  fill : ∀ {model : M} (region : Region) (packet : Nat) (buffer : Bytes), inv model →
    inv (SignalModel.fill model region packet buffer).2
  test : ∀ {model : M} (region : Region) (packet : Nat) (buffer : Bytes), inv model →
    inv (SignalModel.test model region packet buffer).2

/-- While `inv` holds of a model, `content` names the bytes of a region of a packet by the
region, the number of the packet and the length of the region. -/
structure SignalModel.Determines {M : Type} [SignalModel M] (inv : M → Prop)
    (content : Region → Nat → Nat → Bytes) : Prop extends SignalModel.Keeps inv where
  length_content : ∀ region packet length, (content region packet length).length = length
  fill_eq : ∀ {model : M} (region : Region) (packet : Nat) (buffer : Bytes), inv model →
    (SignalModel.fill model region packet buffer).1 = content region packet buffer.length
  test_iff : ∀ {model : M} (region : Region) (packet : Nat) (buffer : Bytes), inv model →
    ((SignalModel.test model region packet buffer).1 = true ↔
      buffer = content region packet buffer.length)

/-- What each region of a packet holds. -/
def PacketLayout.parts (layout : PacketLayout) (buffer : Bytes) (region : Region) : Bytes :=
  (layout.extent region).of buffer

theorem PacketLayout.length_parts {layout : PacketLayout} {buffer : Bytes}
    (hfits : layout.packetSize ≤ buffer.length) (region : Region) :
    (layout.parts buffer region).length = (layout.extent region).size :=
  Extent.length_of (Nat.le_trans (layout.limit_le_packetSize region) hfits)

/-- Regions of a packet have been filled: each of them holds its content, and the bytes
outside them are what they were. -/
structure PacketLayout.Filled (layout : PacketLayout) (regions : List Region)
    (content : Region → Bytes) (before after : Bytes) : Prop where
  length_eq : after.length = before.length
  region_eq : ∀ region ∈ regions, (layout.extent region).of after = content region
  outside_eq : ∀ index, (∀ region ∈ regions, ¬(layout.extent region).Holds index) →
    after[index]? = before[index]?

namespace SplitGeometry

@[simp] theorem dataStride_ofLayout (layout : PacketLayout) (packetsPerHeap : Nat) :
    (ofLayout layout packetsPerHeap).dataStride = layout.data.size :=
  Nat.zero_add _

@[simp] theorem weightsStride_ofLayout (layout : PacketLayout) (packetsPerHeap : Nat) :
    (ofLayout layout packetsPerHeap).weightsStride = layout.scales.size + layout.weights.size :=
  rfl

end SplitGeometry

variable {M : Type} [SignalModel M] {inv : M → Prop} {content : Region → Nat → Nat → Bytes}
  {model : M} {layout : PacketLayout}

namespace SignalModel

/-- The model when it comes to a region of a packet: it has filled the regions ahead, which
held what `held` names. -/
def modelAt (model : M) (packet : Nat) (held : Region → Bytes) : Region → M
  | .scales => model
  | .weights => (fill model .scales packet (held .scales)).2
  | .data => (fill (fill model .scales packet (held .scales)).2 .weights packet (held .weights)).2

/-- What the model leaves in a region, if it fills the regions of a packet in their order. -/
def contentOf (model : M) (packet : Nat) (held : Region → Bytes) (region : Region) : Bytes :=
  (fill (modelAt model packet held region) region packet (held region)).1

end SignalModel

/-! ## What is kept -/

namespace SignalModel.Keeps

variable (hkeeps : SignalModel.Keeps inv)

include hkeeps

theorem modelAt (packet : Nat) (held : Region → Bytes) (hmodel : inv model) (region : Region) :
    inv (modelAt model packet held region) := by
  cases region with
  | scales => exact hmodel
  | weights => exact hkeeps.fill _ _ _ hmodel
  | data => exact hkeeps.fill _ _ _ (hkeeps.fill _ _ _ hmodel)

theorem fillRegion (region : Region) (extent : Extent) (packet : Nat) (buffer : Bytes)
    (hmodel : inv model) : inv (fillRegion model region extent packet buffer).2 :=
  hkeeps.fill region packet (extent.of buffer) hmodel

theorem fillWholePacket (layout : PacketLayout) (packet : Nat) (buffer : Bytes)
    (hmodel : inv model) : inv (fillWholePacket model layout packet buffer).2 := by
  apply hkeeps.fillRegion .data
  apply hkeeps.fillRegion .weights
  exact hkeeps.fillRegion .scales layout.scales packet buffer hmodel

theorem fillSplitPacket (geometry : SplitGeometry) (packet : Nat) (data weights : Bytes)
    (hmodel : inv model) : inv (fillSplitPacket model geometry packet data weights).2 := by
  apply hkeeps.fillRegion .data
  apply hkeeps.fillRegion .weights
  exact hkeeps.fillRegion .scales geometry.scales packet weights hmodel

theorem fillSplitPackets (geometry : SplitGeometry) (count packet : Nat) (data weights : Bytes)
    (hmodel : inv model) : inv (fillSplitPackets model geometry count packet data weights).2 := by
  induction count generalizing model packet data weights with
  | zero => exact hmodel
  | succ count ih => exact ih _ _ _ (hkeeps.fillSplitPacket geometry packet _ _ hmodel)

theorem testRegions (packet : Nat) (parts : List (Region × Bytes)) (hmodel : inv model) :
    inv (testRegions model packet parts).2 := by
  induction parts generalizing model with
  | nil => exact hmodel
  | cons part parts ih =>
      have htested := hkeeps.test part.1 packet part.2 hmodel
      rw [VoltageCapture.testRegions]
      split
      · next htest =>
        rw [htest] at htested
        exact ih htested
      · next htest =>
        rw [htest] at htested
        exact htested

theorem testSplitPacket (geometry : SplitGeometry) (packet : Nat) (data weights : Bytes)
    (hmodel : inv model) : inv (testSplitPacket model geometry packet data weights).2 :=
  hkeeps.testRegions packet _ hmodel

theorem testSplitPackets (geometry : SplitGeometry) (count packet : Nat) (data weights : Bytes)
    (hmodel : inv model) : inv (testSplitPackets model geometry count packet data weights).2 := by
  induction count generalizing model packet data weights with
  | zero => exact hmodel
  | succ count ih =>
      have htested := hkeeps.testSplitPacket geometry packet (data.take geometry.dataStride)
        (weights.take geometry.weightsStride) hmodel
      rw [VoltageCapture.testSplitPackets]
      split
      · next htest =>
        rw [htest] at htested
        exact ih _ _ _ htested
      · next htest =>
        rw [htest] at htested
        exact htested

end SignalModel.Keeps

/-! ## Filling -/

theorem length_fillRegion (model : M) (region : Region) {extent : Extent} (packet : Nat)
    {buffer : Bytes} (hfits : extent.limit ≤ buffer.length) :
    (fillRegion model region extent packet buffer).1.length = buffer.length := by
  have hcontent : (SignalModel.fill model region packet (extent.of buffer)).1.length =
      extent.size := by
    rw [SignalModel.length_fill, Extent.length_of hfits]
  exact Extent.length_overwrite hfits hcontent

theorem PacketLayout.Filled.nil (layout : PacketLayout) (content : Region → Bytes)
    (buffer : Bytes) : layout.Filled [] content buffer buffer :=
  ⟨rfl, fun _ hmem => absurd hmem List.not_mem_nil, fun _ _ => rfl⟩

/-- Filling one more region leaves the regions apart from it as they are. -/
theorem PacketLayout.Filled.overwrite {regions : List Region} {region : Region}
    {before after : Bytes} {content : Region → Bytes}
    (hfilled : layout.Filled regions content before after)
    (hapart : ∀ other ∈ regions, (layout.extent region).Apart (layout.extent other))
    (hfits : (layout.extent region).limit ≤ before.length)
    (hlength : (content region).length = (layout.extent region).size) :
    layout.Filled (region :: regions) content before
      (after.overwrite (layout.extent region).offset (content region)) := by
  rw [← hfilled.length_eq] at hfits
  refine ⟨?_, ?_, ?_⟩
  · rw [Extent.length_overwrite hfits hlength, hfilled.length_eq]
  · intro other hother
    rcases List.mem_cons.mp hother with rfl | hother
    · exact Extent.of_overwrite_self hfits hlength
    · rw [Extent.of_overwrite_of_apart hfits hlength (hapart other hother)]
      exact hfilled.region_eq other hother
  · intro index houtside
    rw [Extent.getElem?_overwrite_of_not_holds hfits hlength
      (houtside region List.mem_cons_self)]
    exact hfilled.outside_eq index fun other hother =>
      houtside other (List.mem_cons_of_mem _ hother)

/-- A region apart from those that have been filled is what it was. -/
theorem PacketLayout.Filled.of_eq_of_apart {regions : List Region} {region : Region}
    {before after : Bytes} {content : Region → Bytes}
    (hfilled : layout.Filled regions content before after)
    (hapart : ∀ other ∈ regions, (layout.extent region).Apart (layout.extent other)) :
    (layout.extent region).of after = (layout.extent region).of before := by
  apply Extent.of_congr
  intro index hholds
  exact hfilled.outside_eq index fun other hother => (hapart other hother).not_holds hholds

/-- One more region is filled by a model, out of what the region held at first. -/
theorem PacketLayout.Filled.fillRegion {regions : List Region} {before after : Bytes}
    {packet : Nat} {content : Region → Bytes} (model : M) (region : Region)
    (hfilled : layout.Filled regions content before after)
    (hapart : ∀ other ∈ regions, (layout.extent region).Apart (layout.extent other))
    (hfits : layout.packetSize ≤ before.length)
    (hcontent : content region =
      (SignalModel.fill model region packet (layout.parts before region)).1) :
    layout.Filled (region :: regions) content before
      (fillRegion model region (layout.extent region) packet after).1 := by
  have hlength : (content region).length = (layout.extent region).size := by
    rw [hcontent, SignalModel.length_fill, PacketLayout.length_parts hfits]
  have hwritten : (VoltageCapture.fillRegion model region (layout.extent region) packet after).1 =
      after.overwrite (layout.extent region).offset (content region) := by
    rw [hcontent, PacketLayout.parts, ← hfilled.of_eq_of_apart hapart]
    rfl
  rw [hwritten]
  exact hfilled.overwrite hapart (Nat.le_trans (layout.limit_le_packetSize region) hfits) hlength

/-- Filling a whole packet hands the model its regions in turn, each as it was at first, and
changes nothing else. -/
theorem fillWholePacket_contentOf (model : M) (packet : Nat) {buffer : Bytes}
    (hapart : ∀ {region other}, region ≠ other →
      (layout.extent region).Apart (layout.extent other))
    (hfits : layout.packetSize ≤ buffer.length) :
    layout.Filled [.data, .weights, .scales]
      (SignalModel.contentOf model packet (layout.parts buffer)) buffer
      (fillWholePacket model layout packet buffer).1 := by
  have hstart := PacketLayout.Filled.nil layout
    (SignalModel.contentOf model packet (layout.parts buffer)) buffer
  have hscales := hstart.fillRegion model .scales
    (fun _ hmem => absurd hmem List.not_mem_nil) hfits rfl
  have hbehind : ∀ other ∈ [Region.scales],
      (layout.extent .weights).Apart (layout.extent other) :=
    List.forall_mem_singleton.mpr (hapart (by decide))
  have hweights := hscales.fillRegion
    (fillRegion model .scales (layout.extent .scales) packet buffer).2 .weights hbehind hfits rfl
  have hdata := hweights.fillRegion
    (SignalModel.modelAt model packet (layout.parts buffer) .data) .data
    (List.forall_mem_cons.mpr ⟨hapart (by decide), List.forall_mem_singleton.mpr
      (hapart (by decide))⟩) hfits rfl
  -- the model has found the weights as they were, though the scale factors stand there by now
  have hmodel : SignalModel.modelAt model packet (layout.parts buffer) .data =
      (fillRegion (fillRegion model .scales (layout.extent .scales) packet buffer).2 .weights
        (layout.extent .weights) packet
        (fillRegion model .scales (layout.extent .scales) packet buffer).1).2 := by
    show _ = (SignalModel.fill _ .weights packet ((layout.extent .weights).of _)).2
    rw [hscales.of_eq_of_apart hbehind]
    rfl
  rw [hmodel] at hdata
  exact hdata

section Determines

variable (hdetermines : SignalModel.Determines inv content)

include hdetermines

theorem fillRegion_of_determines (region : Region) (packet : Nat) {extent : Extent} {buffer : Bytes}
    (hmodel : inv model) (hfits : extent.limit ≤ buffer.length) :
    (fillRegion model region extent packet buffer).1 =
      buffer.overwrite extent.offset (content region packet extent.size) := by
  show buffer.overwrite extent.offset
    (SignalModel.fill model region packet (extent.of buffer)).1 = _
  rw [hdetermines.fill_eq region packet _ hmodel, Extent.length_of hfits]

/-- Filling a whole packet puts its content into each region and changes nothing else. -/
theorem fillWholePacket_filled (packet : Nat) {buffer : Bytes} (hmodel : inv model)
    (hapart : ∀ {region other}, region ≠ other →
      (layout.extent region).Apart (layout.extent other))
    (hfits : layout.packetSize ≤ buffer.length) :
    layout.Filled [.data, .weights, .scales]
      (fun region => content region packet (layout.extent region).size) buffer
      (fillWholePacket model layout packet buffer).1 := by
  have hfilled := fillWholePacket_contentOf model packet hapart hfits
  refine ⟨hfilled.length_eq, ?_, hfilled.outside_eq⟩
  intro region hregion
  rw [hfilled.region_eq region hregion, SignalModel.contentOf,
    hdetermines.fill_eq region packet _ (hdetermines.modelAt packet _ hmodel region),
    PacketLayout.length_parts hfits]

end Determines

/-! ## Testing -/

namespace SignalModel.Keeps

variable (hkeeps : SignalModel.Keeps inv)

include hkeeps

/-- Testing stops at the first region that fails; it passes exactly if none does. -/
theorem testRegions_iff (packet : Nat) {parts : List (Region × Bytes)}
    {passes : Region × Bytes → Prop}
    (htest : ∀ part ∈ parts, ∀ {model : M}, inv model →
      ((SignalModel.test model part.1 packet part.2).1 = true ↔ passes part)) (hmodel : inv model) :
    (VoltageCapture.testRegions model packet parts).1 = true ↔ ∀ part ∈ parts, passes part := by
  induction parts generalizing model with
  | nil => simp [VoltageCapture.testRegions]
  | cons part parts ih =>
      obtain ⟨hpart, hparts⟩ := List.forall_mem_cons.mp htest
      have hiff := hpart hmodel
      have htested := hkeeps.test part.1 packet part.2 hmodel
      rw [VoltageCapture.testRegions, List.forall_mem_cons]
      split
      · next heq =>
        rw [heq] at hiff htested
        rw [ih hparts htested]
        exact ⟨fun hrest => ⟨hiff.mp rfl, hrest⟩, And.right⟩
      · next heq =>
        rw [heq] at hiff
        exact ⟨Bool.noConfusion, fun hall => hiff.mpr hall.1⟩

theorem testWholePacket_iff (packet : Nat) {buffer : Bytes} {passes : Region → Prop}
    (htest : ∀ region, ∀ {model : M}, inv model →
      ((SignalModel.test model region packet (layout.parts buffer region)).1 = true ↔
        passes region)) (hmodel : inv model) :
    (testWholePacket model layout packet buffer).1 = true ↔ ∀ region, passes region := by
  have hparts : ∀ part ∈ [(Region.scales, layout.scales.of buffer),
      (Region.weights, layout.weights.of buffer), (Region.data, layout.data.of buffer)],
      part.2 = layout.parts buffer part.1 := by
    simp [PacketLayout.parts, PacketLayout.extent]
  have htests := hkeeps.testRegions_iff packet
    (fun part hpart _ => (hparts part hpart).symm ▸ htest part.1) hmodel
  rw [testWholePacket, htests]
  constructor
  · intro hall region
    cases region with
    | scales => exact hall _ List.mem_cons_self
    | weights => exact hall _ (List.mem_cons_of_mem _ List.mem_cons_self)
    | data => exact hall _ (List.mem_cons_of_mem _ (List.mem_cons_of_mem _ List.mem_cons_self))
  · intro hall part _
    exact hall part.1

end SignalModel.Keeps

section Determines

variable (hdetermines : SignalModel.Determines inv content)

include hdetermines

theorem testRegions_iff (packet : Nat) (parts : List (Region × Bytes)) (hmodel : inv model) :
    (testRegions model packet parts).1 = true ↔
      ∀ part ∈ parts, part.2 = content part.1 packet part.2.length :=
  hdetermines.testRegions_iff packet (fun part _ => hdetermines.test_iff part.1 packet part.2) hmodel

theorem testWholePacket_iff (packet : Nat) {buffer : Bytes} (hmodel : inv model)
    (hfits : layout.packetSize ≤ buffer.length) :
    (testWholePacket model layout packet buffer).1 = true ↔
      ∀ region, (layout.extent region).of buffer =
        content region packet (layout.extent region).size := by
  refine hdetermines.testWholePacket_iff packet (fun region model hmodel => ?_) hmodel
  rw [hdetermines.test_iff region packet _ hmodel, PacketLayout.length_parts hfits]
  rfl

end Determines

end VoltageCapture
