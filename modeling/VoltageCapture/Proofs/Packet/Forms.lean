import VoltageCapture.Proofs.Packet.Random
import VoltageCapture.Proofs.Packet.Recorded

/-!
# Whole packets and split packets

A packet of the digitiser can be filled and tested in two forms: whole, or split into its data and
a block of scale factors and weights.  Where the regions lie is worked out separately for each form,
from the layout or from the geometry of split packets.

In either form a packet is its three regions back to back, between bytes that do not belong to it
(`UdpPacketLayout.whole_of_parts`, `SplitGeometry.data_of_parts`, `SplitGeometry.weights_of_parts`).
Filling it puts what the model makes of the regions in their place and leaves everything around them
(`fillWholePacket_append`, `fillSplitPacket_append`); testing it hands the regions to the model.  So
the model is asked the same in both forms, and two models that cannot be told apart
(`SignalModel.Alike`) answer the same.
`PacketGenerator.forms_agree` puts this together for two generators.
-/

namespace VoltageCapture

open PacketGenerator (Operation Purpose Buffers)

/-! ## Models that cannot be told apart -/

namespace SignalModel

variable {M : Type} [SignalModel M] {related : M → M → Prop} {model other : M}

/-- Models that are related fill in the same and accept the same, and are related ever after. -/
structure Matches (related : M → M → Prop) : Prop where
  fill_eq : ∀ {model other : M} (region : Region) (packet : Nat) (buffer : Bytes),
    related model other → (fill model region packet buffer).1 = (fill other region packet buffer).1
  related_fill : ∀ {model other : M} (region : Region) (packet : Nat) (buffer : Bytes),
    related model other →
      related (fill model region packet buffer).2 (fill other region packet buffer).2
  test_eq : ∀ {model other : M} (region : Region) (packet : Nat) (buffer : Bytes),
    related model other → (test model region packet buffer).1 = (test other region packet buffer).1
  related_test : ∀ {model other : M} (region : Region) (packet : Nat) (buffer : Bytes),
    related model other →
      related (test model region packet buffer).2 (test other region packet buffer).2

/-- Whatever is filled and tested, the two models cannot be told apart. -/
def Alike (model other : M) : Prop :=
  ∃ related, Matches related ∧ related model other

/-- Models that determine the same packets may have been used for different ones. -/
theorem Determines.alike {inv : M → Prop} {content : Region → Nat → Nat → Bytes}
    (hdetermines : Determines inv content) (hmodel : inv model) (hother : inv other) :
    Alike model other := by
  refine ⟨fun model other => inv model ∧ inv other, ⟨?_, ?_, ?_, ?_⟩, hmodel, hother⟩
  · intro model other region packet buffer ⟨hmodel, hother⟩
    rw [hdetermines.fill_eq region packet buffer hmodel,
      hdetermines.fill_eq region packet buffer hother]
  · intro model other region packet buffer ⟨hmodel, hother⟩
    exact ⟨hdetermines.fill region packet buffer hmodel,
      hdetermines.fill region packet buffer hother⟩
  · intro model other region packet buffer ⟨hmodel, hother⟩
    rw [Bool.eq_iff_iff, hdetermines.test_iff region packet buffer hmodel,
      hdetermines.test_iff region packet buffer hother]
  · intro model other region packet buffer ⟨hmodel, hother⟩
    exact ⟨hdetermines.test region packet buffer hmodel,
      hdetermines.test region packet buffer hother⟩

/-- The model after it has filled the regions of a packet, which held what `held` names. -/
def afterFill (model : M) (packet : Nat) (held : Region → Bytes) : M :=
  (fill (modelAt model packet held .data) .data packet (held .data)).2

section Matches

variable (hmatches : Matches related) (hrelated : related model other) (packet : Nat)

include hmatches hrelated

theorem Matches.modelAt (held : Region → Bytes) (region : Region) :
    related (modelAt model packet held region) (modelAt other packet held region) := by
  have hweights := hmatches.related_fill .scales packet (held .scales) hrelated
  cases region with
  | scales => exact hrelated
  | weights => exact hweights
  | data => exact hmatches.related_fill .weights packet (held .weights) hweights

theorem Matches.contentOf_eq (held : Region → Bytes) :
    contentOf model packet held = contentOf other packet held := by
  funext region
  exact hmatches.fill_eq region packet (held region) (hmatches.modelAt hrelated packet held region)

theorem Matches.afterFill (held : Region → Bytes) :
    related (afterFill model packet held) (afterFill other packet held) :=
  hmatches.related_fill .data packet (held .data) (hmatches.modelAt hrelated packet held .data)

theorem Matches.testRegions (parts : List (Region × Bytes)) :
    (testRegions model packet parts).1 = (testRegions other packet parts).1 ∧
      related (testRegions model packet parts).2 (testRegions other packet parts).2 := by
  induction parts generalizing model other with
  | nil => exact ⟨rfl, hrelated⟩
  | cons part parts ih =>
      have hanswer := hmatches.test_eq part.1 packet part.2 hrelated
      have hafter := hmatches.related_test part.1 packet part.2 hrelated
      simp only [VoltageCapture.testRegions]
      cases hmodel : SignalModel.test model part.1 packet part.2 with
      | mk passed next =>
          cases hother : SignalModel.test other part.1 packet part.2 with
          | mk accepted last =>
              rw [hmodel, hother] at hanswer hafter
              obtain rfl : passed = accepted := hanswer
              cases passed with
              | true => exact ih hafter
              | false => exact ⟨rfl, hafter⟩

end Matches

/-- Related models are asked the same, if they keep a log of it. -/
theorem Matches.recorded (hmatches : Matches related) :
    Matches fun first second : Recorded M =>
      related first.model second.model ∧ first.log.map Prod.snd = second.log.map Prod.snd := by
  refine ⟨?_, ?_, ?_, ?_⟩
  · intro first second region packet buffer ⟨hmodels, _⟩
    exact hmatches.fill_eq region packet buffer hmodels
  · intro first second region packet buffer ⟨hmodels, hlogs⟩
    refine ⟨hmatches.related_fill region packet buffer hmodels, ?_⟩
    show (first.log ++ [_]).map Prod.snd = (second.log ++ [_]).map Prod.snd
    rw [List.map_append, List.map_append, hlogs]
    rfl
  · intro first second region packet buffer ⟨hmodels, _⟩
    exact hmatches.test_eq region packet buffer hmodels
  · intro first second region packet buffer ⟨hmodels, hlogs⟩
    refine ⟨hmatches.related_test region packet buffer hmodels, ?_⟩
    show (first.log ++ [_]).map Prod.snd = (second.log ++ [_]).map Prod.snd
    rw [List.map_append, List.map_append, hlogs]
    rfl

end SignalModel

/-! ## Regions back to back -/

/-- The scale factors and the weights, which a split packet keeps together. -/
def weightsBlock (held : Region → Bytes) : Bytes :=
  held .scales ++ held .weights

/-- What the regions of a split packet hold. -/
def SplitGeometry.parts (geometry : SplitGeometry) (data weights : Bytes) : Region → Bytes
  | .scales => geometry.scales.of weights
  | .weights => geometry.weights.of weights
  | .data => geometry.data.of data

namespace UdpPacketLayout

variable (packet : UdpPacketLayout)

theorem length_head {buffer : Bytes}
    (hfits : packet.toPacketLayout.packetSize ≤ buffer.length) :
    (buffer.take packet.headerSize).length = packet.headerSize := by
  rw [packetSize_eq] at hfits
  exact List.length_take_of_le (by omega)

/-- A whole packet is what stands ahead of its regions, the regions, and what stands behind. -/
theorem whole_of_parts (buffer : Bytes) :
    buffer.take packet.headerSize ++ (weightsBlock (packet.toPacketLayout.parts buffer) ++
      (packet.toPacketLayout.parts buffer .data ++
        buffer.drop packet.toPacketLayout.packetSize)) = buffer := by
  have hregions : weightsBlock (packet.toPacketLayout.parts buffer) ++
      (packet.toPacketLayout.parts buffer .data ++ buffer.drop packet.toPacketLayout.packetSize) =
        buffer.drop packet.headerSize := by
    rw [packetSize_eq, ← Nat.add_assoc, weightsBlock, List.append_assoc]
    show buffer.slice packet.headerSize packet.scalesSize ++
      (buffer.slice (packet.headerSize + packet.scalesSize) packet.weightsSize ++
        (buffer.slice (packet.headerSize + packet.scalesSize + packet.weightsSize)
          packet.dataSize ++ buffer.drop (packet.headerSize + packet.scalesSize +
            packet.weightsSize + packet.dataSize))) = _
    rw [Bytes.slice_append_drop, Bytes.slice_append_drop, Bytes.slice_append_drop]
  rw [hregions, List.take_append_drop]

end UdpPacketLayout

namespace SplitGeometry

variable (layout : PacketLayout) (packetsPerHeap : Nat) (data weights : Bytes)

theorem data_of_parts :
    (ofLayout layout packetsPerHeap).parts data weights .data ++ data.drop layout.data.size =
      data := by
  show data.slice 0 layout.data.size ++ data.drop layout.data.size = data
  rw [Bytes.slice, List.drop_zero, List.take_append_drop]

theorem weights_of_parts :
    weightsBlock ((ofLayout layout packetsPerHeap).parts data weights) ++
      weights.drop (layout.scales.size + layout.weights.size) = weights := by
  show weights.slice 0 layout.scales.size ++ weights.slice layout.scales.size layout.weights.size ++
    weights.drop (layout.scales.size + layout.weights.size) = weights
  rw [List.append_assoc, Bytes.slice_append_drop, Bytes.slice, List.drop_zero,
    List.take_append_drop]

end SplitGeometry

/-! ## Filling -/

section Filling

open SignalModel (modelAt contentOf afterFill)

variable {M : Type} [SignalModel M]

/-- A model finds a region as it stands between other bytes, and what it makes of it takes its
place. -/
theorem fillRegion_between (model : M) (region : Region) (extent : Extent) (packet : Nat)
    (ahead : Bytes) {content : Bytes} (behind : Bytes) (hoffset : ahead.length = extent.offset)
    (hsize : content.length = extent.size) :
    fillRegion model region extent packet (ahead ++ (content ++ behind)) =
      (ahead ++ ((SignalModel.fill model region packet content).1 ++ behind),
        (SignalModel.fill model region packet content).2) := by
  have hfound : extent.of (ahead ++ (content ++ behind)) = content :=
    Bytes.slice_between hoffset hsize behind
  rw [fillRegion, hfound]
  exact Prod.ext (Bytes.overwrite_between hoffset (SignalModel.length_fill ..) behind) rfl

variable (model : M) (number : Nat) {held : Region → Bytes}

theorem length_contentOf (region : Region) :
    (contentOf model number held region).length = (held region).length :=
  SignalModel.length_fill ..

/-- The model fills the scale factors and the weights, which stand next to each other. -/
theorem fillRegion_weightsBlock (scales weights : Extent) (head behind : Bytes)
    (hoffset : head.length = scales.offset) (hadjacent : scales.limit = weights.offset)
    (hscales : (held .scales).length = scales.size)
    (hweights : (held .weights).length = weights.size) :
    fillRegion (fillRegion model .scales scales number (head ++ (weightsBlock held ++ behind))).2
        .weights weights number
        (fillRegion model .scales scales number (head ++ (weightsBlock held ++ behind))).1 =
      (head ++ (weightsBlock (contentOf model number held) ++ behind),
        modelAt model number held .data) := by
  let content := contentOf model number held
  have hfirst := fillRegion_between model .scales scales number head (held .weights ++ behind)
    hoffset hscales
  have hahead : (head ++ content .scales).length = weights.offset := by
    rw [List.length_append, length_contentOf, hoffset, hscales]
    exact hadjacent
  have hsecond := fillRegion_between (modelAt model number held .weights) .weights weights number
    (head ++ content .scales) behind hahead hweights
  rw [weightsBlock, List.append_assoc, hfirst]
  rw [List.append_assoc, List.append_assoc] at hsecond
  rw [weightsBlock, List.append_assoc]
  exact hsecond

/-- The model is asked to fill the regions in their order, each as it was at first. -/
theorem fillWholePacket_append {packet : UdpPacketLayout} {head : Bytes} (behind : Bytes)
    (hhead : head.length = packet.headerSize)
    (hheld : ∀ region, (held region).length = (packet.toPacketLayout.extent region).size) :
    fillWholePacket model packet.toPacketLayout number
        (head ++ (weightsBlock held ++ (held .data ++ behind))) =
      (head ++ (weightsBlock (contentOf model number held) ++
        (contentOf model number held .data ++ behind)), afterFill model number held) := by
  let layout := packet.toPacketLayout
  let content := contentOf model number held
  have hblock := fillRegion_weightsBlock model number layout.scales layout.weights head
    (held .data ++ behind) hhead rfl (hheld .scales) (hheld .weights)
  have hahead : (head ++ weightsBlock content).length = layout.data.offset := by
    rw [List.length_append, weightsBlock, List.length_append, length_contentOf, length_contentOf,
      hhead, hheld, hheld, ← Nat.add_assoc]
    rfl
  have hdata := fillRegion_between (modelAt model number held .data) .data layout.data number
    (head ++ weightsBlock content) behind hahead (hheld .data)
  rw [List.append_assoc, List.append_assoc] at hdata
  simp only [fillWholePacket]
  rw [hblock]
  exact hdata

theorem fillSplitPacket_append {layout : PacketLayout} (packetsPerHeap : Nat)
    (dataBehind weightsBehind : Bytes)
    (hheld : ∀ region, (held region).length = (layout.extent region).size) :
    fillSplitPacket model (.ofLayout layout packetsPerHeap) number (held .data ++ dataBehind)
        (weightsBlock held ++ weightsBehind) =
      ((contentOf model number held .data ++ dataBehind,
        weightsBlock (contentOf model number held) ++ weightsBehind),
          afterFill model number held) := by
  let geometry := SplitGeometry.ofLayout layout packetsPerHeap
  have hadjacent : geometry.scales.limit = geometry.weights.offset := Nat.zero_add _
  have hblock := fillRegion_weightsBlock model number geometry.scales geometry.weights []
    weightsBehind rfl hadjacent (hheld .scales) (hheld .weights)
  have hdata := fillRegion_between (modelAt model number held .data) .data geometry.data number []
    dataBehind rfl (hheld .data)
  rw [List.nil_append, List.nil_append] at hblock hdata
  simp only [fillSplitPacket]
  rw [hblock, hdata]
  rfl

end Filling

/-! ## A packet in both forms -/

/-- The buffers of a packet in both forms. -/
structure BothForms where
  whole : Bytes
  data : Bytes
  weights : Bytes

namespace BothForms

/-- Each region holds the same in both forms. -/
def SameRegions (layout : PacketLayout) (geometry : SplitGeometry) (buffers : BothForms) : Prop :=
  ∀ region, layout.parts buffers.whole region = geometry.parts buffers.data buffers.weights region

theorem SameRegions.parts_eq {layout : PacketLayout} {geometry : SplitGeometry}
    {buffers : BothForms} (hsame : buffers.SameRegions layout geometry) :
    geometry.parts buffers.data buffers.weights = layout.parts buffers.whole := by
  funext region
  exact (hsame region).symm

/-- The split packet is the whole one, cut where the data start. -/
structure SameContent (layout : PacketLayout) (geometry : SplitGeometry) (buffers : BothForms) :
    Prop where
  weights_eq : buffers.whole.slice layout.scales.offset
      (layout.data.offset - layout.scales.offset) = buffers.weights.take geometry.weightsStride
  data_eq : buffers.whole.slice layout.data.offset (layout.packetSize - layout.data.offset) =
    buffers.data.take geometry.dataStride

/-- Nothing has changed but the packet: not what is ahead of it or behind it, nor any length. -/
structure SameAround (layout : PacketLayout) (geometry : SplitGeometry)
    (before after : BothForms) : Prop where
  length_whole : after.whole.length = before.whole.length
  length_data : after.data.length = before.data.length
  length_weights : after.weights.length = before.weights.length
  ahead_eq : after.whole.take layout.scales.offset = before.whole.take layout.scales.offset
  behind_eq : after.whole.drop layout.packetSize = before.whole.drop layout.packetSize
  data_eq : after.data.drop geometry.dataStride = before.data.drop geometry.dataStride
  weights_eq : after.weights.drop geometry.weightsStride =
    before.weights.drop geometry.weightsStride

/-- The buffers of a packet of the digitiser, with other content in its regions. -/
def withContent (packet : UdpPacketLayout) (content : Region → Bytes) (buffers : BothForms) :
    BothForms where
  whole := buffers.whole.take packet.headerSize ++ (weightsBlock content ++
    (content .data ++ buffers.whole.drop packet.toPacketLayout.packetSize))
  data := content .data ++ buffers.data.drop packet.dataSize
  weights := weightsBlock content ++ buffers.weights.drop (packet.scalesSize + packet.weightsSize)

section WithContent

variable {packet : UdpPacketLayout} {packetsPerHeap : Nat} {content : Region → Bytes}
  {buffers : BothForms}
  (hcontent : ∀ region, (content region).length = (packet.toPacketLayout.extent region).size)

include hcontent

theorem length_weightsBlock :
    (weightsBlock content).length = packet.scalesSize + packet.weightsSize := by
  rw [weightsBlock, List.length_append, hcontent, hcontent]
  rfl

variable (hfits : packet.toPacketLayout.packetSize ≤ buffers.whole.length)

include hfits

theorem sameContent_withContent : (buffers.withContent packet content).SameContent
    packet.toPacketLayout (.ofLayout packet.toPacketLayout packetsPerHeap) := by
  have hhead := packet.length_head hfits
  have hblock := length_weightsBlock hcontent
  have hdata : (content .data).length = packet.dataSize := hcontent .data
  have hahead : (buffers.whole.take packet.headerSize ++ weightsBlock content).length =
      packet.headerSize + packet.scalesSize + packet.weightsSize := by
    rw [List.length_append, hhead, hblock, Nat.add_assoc]
  constructor
  · rw [SplitGeometry.weightsStride_ofLayout]
    refine (Bytes.slice_between hhead ?_ _).trans (List.take_left' hblock).symm
    simp only [UdpPacketLayout.toPacketLayout]
    omega
  · rw [SplitGeometry.dataStride_ofLayout, withContent, ← List.append_assoc]
    refine (Bytes.slice_between hahead ?_ _).trans (List.take_left' hdata).symm
    rw [packet.packetSize_eq]
    simp only [UdpPacketLayout.toPacketLayout]
    omega

theorem sameAround_withContent
    (hsplit : (SplitGeometry.ofLayout packet.toPacketLayout packetsPerHeap).HasRoom 1
      buffers.data buffers.weights) :
    SameAround packet.toPacketLayout (.ofLayout packet.toPacketLayout packetsPerHeap) buffers
      (buffers.withContent packet content) := by
  obtain ⟨hdataFits, hweightsFits⟩ := hsplit
  rw [Nat.one_mul, SplitGeometry.dataStride_ofLayout] at hdataFits
  rw [Nat.one_mul, SplitGeometry.weightsStride_ofLayout] at hweightsFits
  have hhead := packet.length_head hfits
  have hblock := length_weightsBlock hcontent
  have hdata : (content .data).length = packet.dataSize := hcontent .data
  have hpacket : (buffers.whole.take packet.headerSize ++
      (weightsBlock content ++ content .data)).length = packet.toPacketLayout.packetSize := by
    rw [List.length_append, List.length_append, hhead, hblock, hdata, packet.packetSize_eq]
    exact (Nat.add_assoc _ _ _).symm
  have hwhole : (buffers.withContent packet content).whole =
      (buffers.whole.take packet.headerSize ++ (weightsBlock content ++ content .data)) ++
        buffers.whole.drop packet.toPacketLayout.packetSize := by
    simp only [withContent, List.append_assoc]
  constructor
  · rw [hwhole, List.length_append, hpacket, List.length_drop]
    exact Nat.add_sub_of_le hfits
  · rw [withContent, List.length_append, hdata, List.length_drop]
    exact Nat.add_sub_of_le hdataFits
  · rw [withContent, List.length_append, hblock, List.length_drop]
    exact Nat.add_sub_of_le hweightsFits
  · exact List.take_left' hhead
  · rw [hwhole, List.drop_left' hpacket]
  · rw [SplitGeometry.dataStride_ofLayout]
    exact List.drop_left' hdata
  · exact List.drop_left' hblock

end WithContent

end BothForms

section Filled

open SignalModel (contentOf afterFill)

variable {M : Type} [SignalModel M] (model : M) (number : Nat) {packet : UdpPacketLayout}
  {buffers : BothForms}

theorem fillWholePacket_withContent
    (hfits : packet.toPacketLayout.packetSize ≤ buffers.whole.length) :
    let held := packet.toPacketLayout.parts buffers.whole
    fillWholePacket model packet.toPacketLayout number buffers.whole =
      ((buffers.withContent packet (contentOf model number held)).whole,
        afterFill model number held) := by
  intro held
  have hfill := fillWholePacket_append model number
    (buffers.whole.drop packet.toPacketLayout.packetSize) (packet.length_head hfits)
    (PacketLayout.length_parts hfits)
  rw [packet.whole_of_parts buffers.whole] at hfill
  exact hfill

theorem fillSplitPacket_withContent {packetsPerHeap : Nat}
    (hsplit : (SplitGeometry.ofLayout packet.toPacketLayout packetsPerHeap).HasRoom 1
      buffers.data buffers.weights) :
    let geometry := SplitGeometry.ofLayout packet.toPacketLayout packetsPerHeap
    let held := geometry.parts buffers.data buffers.weights
    let filled := buffers.withContent packet (contentOf model number held)
    fillSplitPacket model geometry number buffers.data buffers.weights =
      ((filled.data, filled.weights), afterFill model number held) := by
  intro geometry held filled
  obtain ⟨hscales, hweights, hdata⟩ := hsplit.limits_le
  have hheld : ∀ region, (held region).length = (packet.toPacketLayout.extent region).size := by
    intro region
    cases region with
    | scales => exact Extent.length_of hscales
    | weights => exact Extent.length_of hweights
    | data => exact Extent.length_of hdata
  have hdataBuffer : held .data ++ buffers.data.drop packet.dataSize = buffers.data :=
    SplitGeometry.data_of_parts packet.toPacketLayout packetsPerHeap _ _
  have hweightsBuffer : weightsBlock held ++
      buffers.weights.drop (packet.scalesSize + packet.weightsSize) = buffers.weights :=
    SplitGeometry.weights_of_parts packet.toPacketLayout packetsPerHeap _ _
  have hfill := fillSplitPacket_append model number packetsPerHeap
    (buffers.data.drop packet.dataSize)
    (buffers.weights.drop (packet.scalesSize + packet.weightsSize)) hheld
  rw [hdataBuffer, hweightsBuffer] at hfill
  exact hfill

end Filled

/-! ## What reaches the model -/

/-- The regions of a packet and what they hold, in the order in which they are handled. -/
def heldInOrder (held : Region → Bytes) : List (Region × Bytes) :=
  [(.scales, held .scales), (.weights, held .weights), (.data, held .data)]

/-- The requests to fill the regions of a packet. -/
def fillRequests (number : Nat) (held : Region → Bytes) : List ModelRequest :=
  (heldInOrder held).map fun part => .fill part.1 number part.2

/-- The requests to test the regions of a packet. -/
def testRequests (number : Nat) (held : Region → Bytes) : List ModelRequest :=
  (heldInOrder held).map fun part => .test part.1 number part.2

section Requests

variable {M : Type} [SignalModel M]

/-- A model was asked to test something, and has accepted it. -/
def Passed (entry : M × ModelRequest) : Prop :=
  ∃ region number content, entry.2 = .test region number content ∧
    (SignalModel.test entry.1 region number content).1 = true

/-- A model is asked one thing after the other until it does not accept something. -/
inductive AskedUntilFailure (expected : List ModelRequest) (asked : List (M × ModelRequest)) :
    Bool → Prop
  | passes (hasked : asked.map Prod.snd = expected) (hpassed : ∀ entry ∈ asked, Passed entry) :
      AskedUntilFailure expected asked true
  | fails {ahead : List (M × ModelRequest)} {last : M × ModelRequest}
      (hasked : asked = ahead ++ [last]) (hexpected : asked.map Prod.snd <+: expected)
      (hahead : ∀ entry ∈ ahead, Passed entry) (hlast : ¬Passed last) :
      AskedUntilFailure expected asked false

theorem passed_test_iff {model : M} {region : Region} {number : Nat} {content : Bytes} :
    Passed (model, .test region number content) ↔
      (SignalModel.test model region number content).1 = true := by
  constructor
  · rintro ⟨_, _, _, heq, haccepted⟩
    obtain ⟨rfl, rfl, rfl⟩ := ModelRequest.test.inj heq
    exact haccepted
  · intro haccepted
    exact ⟨region, number, content, rfl, haccepted⟩

theorem AskedUntilFailure.cons {expected : List ModelRequest} {asked : List (M × ModelRequest)}
    {passed : Bool} {entry : M × ModelRequest} (hrest : AskedUntilFailure expected asked passed)
    (hentry : Passed entry) :
    AskedUntilFailure (entry.2 :: expected) (entry :: asked) passed := by
  cases hrest with
  | passes hasked hpassed =>
      exact .passes (congrArg _ hasked) (List.forall_mem_cons.mpr ⟨hentry, hpassed⟩)
  | fails hasked hexpected hahead hlast =>
      exact .fails (congrArg _ hasked) (List.cons_prefix_cons.mpr ⟨rfl, hexpected⟩)
        (List.forall_mem_cons.mpr ⟨hentry, hahead⟩) hlast

/-- The induction is on the regions that are left. -/
theorem log_testRegions (recorded : Recorded M) (number : Nat) (parts : List (Region × Bytes)) :
    ∃ asked, (testRegions recorded number parts).2.log = recorded.log ++ asked ∧
      AskedUntilFailure (parts.map fun part => .test part.1 number part.2) asked
        (testRegions recorded number parts).1 := by
  induction parts generalizing recorded with
  | nil => exact ⟨[], (List.append_nil _).symm, .passes rfl (List.forall_mem_nil _)⟩
  | cons part parts ih =>
      let entry := (recorded.model, ModelRequest.test part.1 number part.2)
      let next := (SignalModel.test recorded part.1 number part.2).2
      have hnext : next.log = recorded.log ++ [entry] := rfl
      cases hanswer : (SignalModel.test recorded part.1 number part.2).1 with
      | true =>
          have hstep : testRegions recorded number (part :: parts) =
              testRegions next number parts := by
            rw [testRegions, show SignalModel.test recorded part.1 number part.2 =
              (true, next) from Prod.ext hanswer rfl]
          obtain ⟨asked, hlog, hasked⟩ := ih next
          rw [hstep]
          refine ⟨entry :: asked, ?_, hasked.cons (passed_test_iff.mpr hanswer)⟩
          rw [hlog, hnext, List.append_assoc, List.singleton_append]
      | false =>
          have hstep : testRegions recorded number (part :: parts) = (false, next) := by
            rw [testRegions, show SignalModel.test recorded part.1 number part.2 =
              (false, next) from Prod.ext hanswer rfl]
          rw [hstep]
          have hentry : ¬Passed entry := by
            rw [passed_test_iff]
            exact Bool.eq_false_iff.mp hanswer
          exact ⟨[entry], hnext, .fails (show [entry] = [] ++ [entry] from rfl)
            (List.cons_prefix_cons.mpr ⟨rfl, List.nil_prefix⟩) (List.forall_mem_nil _) hentry⟩

theorem askedUntilFailure_testRegions (model : M) (number : Nat)
    (parts : List (Region × Bytes)) :
    AskedUntilFailure (parts.map fun part => .test part.1 number part.2)
      (testRegions (Recorded.fresh model) number parts).2.log
      (testRegions model number parts).1 := by
  obtain ⟨asked, hlog, hasked⟩ := log_testRegions (Recorded.fresh model) number parts
  have hanswer : (testRegions model number parts).1 =
      (testRegions (Recorded.fresh model) number parts).1 :=
    congrArg Prod.fst (testRegions_map Recorded.commutes_model (Recorded.fresh model) number parts)
  rw [hanswer, hlog]
  exact hasked

end Requests

/-! ## Two generators -/

namespace PacketGenerator

open SignalModel (Matches Alike contentOf afterFill)

variable {M : Type}

section Checks

variable {generator : PacketGenerator M} {geometry : SplitGeometry}

theorem exists_check_packet_eq_ok {buffer : Bytes} (hconfigured : generator.isConfigured = true)
    (hfits : generator.layout.packetSize ≤ buffer.length) :
    ∃ geometry, generator.check (.packet buffer) = .ok geometry := by
  obtain ⟨geometry, hgeometry⟩ := Option.isSome_iff_exists.mp hconfigured
  exact ⟨geometry, check_packet_eq_ok.mpr ⟨hgeometry, checkPacket_eq_ok hgeometry hfits⟩⟩

theorem check_split_of_hasRoom {data weights : Bytes}
    (hgeometry : generator.geometry? = some geometry) (hroom : geometry.HasRoom 1 data weights) :
    generator.check (.split data weights) = .ok geometry := by
  simp only [check, checkSplit, PacketGenerator.geometry, hgeometry, checkBuffers, checkLength,
    bind_eq_ok, pure_eq_ok, require_eq_ok]
  exact ⟨geometry, rfl, (), ⟨(), hroom.data_le, hroom.weights_le⟩, rfl⟩

end Checks

section Requests

variable [SignalModel M] {generator : PacketGenerator M} {geometry : SplitGeometry}
  {buffers : Buffers}

/-- The requests that an operation makes to the generator's model, each with the state of the model
that it comes to: what is in the log, if the model has an empty one beforehand. -/
def requests (generator : PacketGenerator M) (operation : Operation M) :
    List (M × ModelRequest) :=
  ((generator.mapModel Recorded.fresh).afterOperation (operation.map Recorded.fresh)).model.log

theorem requests_of_check_eq_ok (hcheck : generator.check buffers = .ok geometry)
    (purpose : Purpose) : generator.requests (.process purpose buffers) =
      ((generator.mapModel Recorded.fresh).work geometry purpose buffers).2.log := by
  have hrecorded : (generator.mapModel Recorded.fresh).check buffers = .ok geometry :=
    (check_mapModel Recorded.fresh generator buffers).trans hcheck
  show ((generator.mapModel Recorded.fresh).afterCall (buffers.call purpose)).model.log = _
  rw [(of_check_eq_ok hrecorded purpose).2]
  cases purpose <;> rfl

variable {buffer data weights : Bytes}

theorem fillPacket_of_check (hcheck : generator.check (.packet buffer) = .ok geometry) :
    generator.fillPacket buffer =
      (.ok (fillWholePacket generator.model generator.layout generator.filled buffer).1,
        generator.movedOn
          (fillWholePacket generator.model generator.layout generator.filled buffer).2 1
          .fill) := by
  obtain ⟨-, hpacket⟩ := check_packet_eq_ok.mp hcheck
  simp only [fillPacket, hpacket]
  rfl

theorem testPacket_of_check (hcheck : generator.check (.packet buffer) = .ok geometry) :
    generator.testPacket buffer =
      (.ok (testWholePacket generator.model generator.layout generator.tested buffer).1,
        generator.movedOn
          (testWholePacket generator.model generator.layout generator.tested buffer).2 1
          .test) := by
  obtain ⟨-, hpacket⟩ := check_packet_eq_ok.mp hcheck
  simp only [testPacket, hpacket]
  rfl

theorem fillSplit_of_check (hcheck : generator.check (.split data weights) = .ok geometry) :
    generator.fillSplit data weights =
      (.ok (fillSplitPacket generator.model geometry generator.filled data weights).1,
        generator.movedOn
          (fillSplitPacket generator.model geometry generator.filled data weights).2 1 .fill) := by
  simp only [check] at hcheck
  simp only [fillSplit, hcheck]
  rfl

theorem testSplit_of_check (hcheck : generator.check (.split data weights) = .ok geometry) :
    generator.testSplit data weights =
      (.ok (testSplitPacket generator.model geometry generator.tested data weights).1,
        generator.movedOn
          (testSplitPacket generator.model geometry generator.tested data weights).2 1 .test) := by
  simp only [check] at hcheck
  simp only [testSplit, hcheck]
  rfl

end Requests

/-- The generator is one for packets of a layout, after any operations. -/
def Reached [SignalModel M] (layout : PacketLayout) (generator : PacketGenerator M) : Prop :=
  ∃ model operations, generator = (make layout model).afterOperations operations

variable [SignalModel M]

/-- What becomes of a packet that one generator fills whole and another one split. -/
structure FilledAlike (layout : PacketLayout) (geometry : SplitGeometry)
    (whole split : PacketGenerator M) (buffers filled : BothForms) : Prop where
  whole_eq : (whole.fillPacket buffers.whole).1 = .ok filled.whole
  split_eq : (split.fillSplit buffers.data buffers.weights).1 = .ok (filled.data, filled.weights)
  content : filled.SameContent layout geometry
  around : BothForms.SameAround layout geometry buffers filled
  requests_whole : (whole.requests (.process .fill (.packet buffers.whole))).map Prod.snd =
    fillRequests whole.filled (layout.parts buffers.whole)
  requests_split :
    (split.requests (.process .fill (.split buffers.data buffers.weights))).map Prod.snd =
      fillRequests whole.filled (layout.parts buffers.whole)
  alike : Alike (whole.fillPacket buffers.whole).2.model
    (split.fillSplit buffers.data buffers.weights).2.model

/-- What one generator finds in a whole packet and another one in a split packet. -/
structure TestedAlike (layout : PacketLayout) (whole split : PacketGenerator M)
    (buffers : BothForms) (passed : Bool) : Prop where
  whole_eq : (whole.testPacket buffers.whole).1 = .ok passed
  split_eq : (split.testSplit buffers.data buffers.weights).1 = .ok passed
  requests_whole : AskedUntilFailure (testRequests whole.tested (layout.parts buffers.whole))
    (whole.requests (.process .test (.packet buffers.whole))) passed
  requests_split : AskedUntilFailure (testRequests whole.tested (layout.parts buffers.whole))
    (split.requests (.process .test (.split buffers.data buffers.weights))) passed
  requests_eq : (whole.requests (.process .test (.packet buffers.whole))).map Prod.snd =
    (split.requests (.process .test (.split buffers.data buffers.weights))).map Prod.snd
  alike : Alike (whole.testPacket buffers.whole).2.model
    (split.testSplit buffers.data buffers.weights).2.model

section Forms

variable {packet : UdpPacketLayout} {packetsPerHeap : Nat} {whole split : PacketGenerator M}
  {buffers : BothForms} {related : M → M → Prop}
  (hmatches : Matches related) (hrelated : related whole.model split.model)
  (hwhole : whole.layout = packet.toPacketLayout) (hconfigured : whole.isConfigured = true)
  (hsplit : split.geometry? = some (.ofLayout packet.toPacketLayout packetsPerHeap))
  (hfits : packet.toPacketLayout.packetSize ≤ buffers.whole.length)
  (hroom : (SplitGeometry.ofLayout packet.toPacketLayout packetsPerHeap).HasRoom 1
    buffers.data buffers.weights)
  (hsame : buffers.SameRegions packet.toPacketLayout
    (.ofLayout packet.toPacketLayout packetsPerHeap))

include hmatches hrelated hwhole hconfigured hsplit hfits hroom hsame

theorem filledAlike_of_matches (hcursor : whole.filled = split.filled) :
    ∃ filled, FilledAlike packet.toPacketLayout (.ofLayout packet.toPacketLayout packetsPerHeap)
      whole split buffers filled := by
  let held := packet.toPacketLayout.parts buffers.whole
  let content := contentOf whole.model whole.filled held
  obtain ⟨_, hwholeCheck⟩ := exists_check_packet_eq_ok hconfigured (hwhole ▸ hfits)
  have hsplitCheck := check_split_of_hasRoom hsplit hroom
  have hlength : ∀ region, (content region).length =
      (packet.toPacketLayout.extent region).size := by
    intro region
    rw [length_contentOf, PacketLayout.length_parts hfits]
  -- the other model finds the same regions and puts the same into them
  have hcontent : contentOf split.model whole.filled held = content :=
    (hmatches.contentOf_eq hrelated whole.filled held).symm
  have hwholeFill := fillWholePacket_withContent whole.model whole.filled hfits
  have hsplitFill := fillSplitPacket_withContent split.model whole.filled hroom
  simp only [hsame.parts_eq] at hsplitFill
  rw [hcontent] at hsplitFill
  have hwholeCall := fillPacket_of_check hwholeCheck
  have hsplitCall := fillSplit_of_check hsplitCheck
  rw [hwhole, hwholeFill] at hwholeCall
  rw [← hcursor, hsplitFill] at hsplitCall
  refine ⟨buffers.withContent packet content, congrArg Prod.fst hwholeCall,
    congrArg Prod.fst hsplitCall, BothForms.sameContent_withContent hlength hfits,
    BothForms.sameAround_withContent hlength hfits hroom, ?_, ?_, ?_⟩
  · rw [requests_of_check_eq_ok hwholeCheck]
    show (fillWholePacket (Recorded.fresh whole.model) whole.layout whole.filled
      buffers.whole).2.log.map Prod.snd = _
    rw [hwhole, fillWholePacket_withContent _ _ hfits]
    rfl
  · rw [requests_of_check_eq_ok hsplitCheck]
    show (fillSplitPacket (Recorded.fresh split.model) _ split.filled buffers.data
      buffers.weights).2.log.map Prod.snd = _
    rw [← hcursor, fillSplitPacket_withContent _ _ hroom]
    simp only [hsame.parts_eq]
    rfl
  · rw [hwholeCall, hsplitCall]
    exact ⟨related, hmatches, hmatches.afterFill hrelated whole.filled held⟩

theorem testedAlike_of_matches (hcursor : whole.tested = split.tested) :
    ∃ passed, TestedAlike packet.toPacketLayout whole split buffers passed := by
  let regions := heldInOrder (packet.toPacketLayout.parts buffers.whole)
  obtain ⟨_, hwholeCheck⟩ := exists_check_packet_eq_ok hconfigured (hwhole ▸ hfits)
  have hsplitCheck := check_split_of_hasRoom hsplit hroom
  -- either form is tested region by region
  have hwholeTest : ∀ {N : Type} [SignalModel N] (model : N),
      testWholePacket model whole.layout whole.tested buffers.whole =
        testRegions model whole.tested regions := by
    intro N _ model
    rw [hwhole]
    rfl
  have hsplitTest : ∀ {N : Type} [SignalModel N] (model : N),
      testSplitPacket model (.ofLayout packet.toPacketLayout packetsPerHeap) split.tested
        buffers.data buffers.weights = testRegions model whole.tested regions := by
    intro N _ model
    show testRegions model split.tested (heldInOrder ((SplitGeometry.ofLayout _ _).parts _ _)) = _
    rw [hsame.parts_eq, hcursor]
  have hwholeCall := testPacket_of_check hwholeCheck
  have hsplitCall := testSplit_of_check hsplitCheck
  rw [hwholeTest] at hwholeCall
  rw [hsplitTest] at hsplitCall
  have hwholeAsked : whole.requests (.process .test (.packet buffers.whole)) =
      (testRegions (Recorded.fresh whole.model) whole.tested regions).2.log := by
    rw [requests_of_check_eq_ok hwholeCheck, ← hwholeTest]
    rfl
  have hsplitAsked : split.requests (.process .test (.split buffers.data buffers.weights)) =
      (testRegions (Recorded.fresh split.model) whole.tested regions).2.log := by
    rw [requests_of_check_eq_ok hsplitCheck, ← hsplitTest]
    rfl
  obtain ⟨hanswer, hafter⟩ := hmatches.testRegions hrelated whole.tested regions
  have hfresh : related (Recorded.fresh whole.model).model (Recorded.fresh split.model).model ∧
      (Recorded.fresh whole.model).log.map Prod.snd =
        (Recorded.fresh split.model).log.map Prod.snd := ⟨hrelated, rfl⟩
  obtain ⟨-, -, hasked⟩ := hmatches.recorded.testRegions hfresh whole.tested regions
  refine ⟨(testRegions whole.model whole.tested regions).1, congrArg Prod.fst hwholeCall,
    ?_, ?_, ?_, ?_, ?_⟩
  · rw [hsplitCall, hanswer]
  · rw [hwholeAsked]
    exact askedUntilFailure_testRegions whole.model whole.tested regions
  · rw [hsplitAsked, hanswer]
    exact askedUntilFailure_testRegions split.model whole.tested regions
  · rw [hwholeAsked, hsplitAsked, hasked]
  · rw [hwholeCall, hsplitCall]
    exact ⟨related, hmatches, hafter⟩

end Forms

/-- **Whole and split packets carry the same content.**  Let two generators of packets of the
digitiser be configured and have models that cannot be told apart.  One of them is given a packet
whole, the other one the same packet split.

If they are at the same packet, filling it leaves the same content in both forms and nothing else
changed, and testing it has the same answer.  Either way the models are asked the same, region by
region in the order of the regions, and cannot be told apart afterwards. -/
theorem forms_agree (packet : UdpPacketLayout) {whole split : PacketGenerator M}
    (hwhole : whole.Reached packet.toPacketLayout) (hconfigured : whole.isConfigured = true)
    (hsplit : split.Reached packet.toPacketLayout) {geometry : SplitGeometry}
    (hgeometry : split.geometry? = some geometry) (halike : Alike whole.model split.model)
    {buffers : BothForms} (hfits : packet.toPacketLayout.packetSize ≤ buffers.whole.length)
    (hroom : geometry.HasRoom 1 buffers.data buffers.weights)
    (hsame : buffers.SameRegions packet.toPacketLayout geometry) :
    (∀ region, (packet.toPacketLayout.parts buffers.whole region).length =
      (packet.toPacketLayout.extent region).size) ∧
    (whole.filled = split.filled →
      ∃ filled, FilledAlike packet.toPacketLayout geometry whole split buffers filled) ∧
    (whole.tested = split.tested →
      ∃ passed, TestedAlike packet.toPacketLayout whole split buffers passed) := by
  obtain ⟨model, operations, rfl⟩ := hwhole
  obtain ⟨other, others, rfl⟩ := hsplit
  obtain ⟨related, hmatches, hrelated⟩ := halike
  have hlayout := (laidOut_afterOperations (laidOut_make packet.toPacketLayout model)
    operations).layout_eq
  obtain ⟨packetsPerHeap, rfl⟩ := (laidOut_afterOperations
    (laidOut_make packet.toPacketLayout other) others).geometry_eq hgeometry
  exact ⟨PacketLayout.length_parts hfits,
    filledAlike_of_matches hmatches hrelated hlayout hconfigured hgeometry hfits hroom hsame,
    testedAlike_of_matches hmatches hrelated hlayout hconfigured hgeometry hfits hroom hsame⟩

/-- A packet of 11 bytes, the first two of them ahead of its regions. -/
def shortPacket : UdpPacketLayout where
  headerSize := 2
  channels := 1
  samples := 1
  samplesPerWeight := 1
  scalesSize := 4
  weightsSize := 1
  dataSize := 4

/-- Buffers for it in both forms, each with a byte to spare. -/
def shortBuffers : BothForms where
  whole := [20, 21, 1, 2, 3, 4, 5, 6, 7, 8, 9, 22]
  data := [6, 7, 8, 9, 23]
  weights := [1, 2, 3, 4, 5, 24]

/-- Two generators of the same random packets come to packet 3, one of them right away and the other
one after it has looked at packet 0. -/
theorem forms_agree_shortPacket :
    let start := make shortPacket.toPacketLayout RandomSignal.unconfigured
    let geometry := SplitGeometry.ofLayout shortPacket.toPacketLayout 8
    let whole := start.afterOperations
      [.configure seededHeader, .process .test (.packet shortBuffers.whole), .seek 3]
    let split := start.afterOperations [.configure seededHeader, .seek 3]
    (∃ filled, FilledAlike shortPacket.toPacketLayout geometry whole split shortBuffers filled ∧
      filled.whole.take 2 = [20, 21] ∧ filled.whole.slice 2 5 = filled.weights.take 5) ∧
    ∃ passed, TestedAlike shortPacket.toPacketLayout whole split shortBuffers passed := by
  have hconfigure : ((make shortPacket.toPacketLayout RandomSignal.unconfigured).configure
      seededHeader).1 = .ok () := rfl
  obtain ⟨packetsPerHeap, seed, hpackets, -, htracks⟩ := tracks_of_configure hconfigure
  obtain rfl : 8 = packetsPerHeap := Except.ok.inj hpackets
  have hwhole := htracks [.testPacket shortBuffers.whole, .seek 3]
  have hsplit := htracks [.seek 3]
  have hsame : shortBuffers.SameRegions shortPacket.toPacketLayout
      (.ofLayout shortPacket.toPacketLayout 8) := by
    intro region
    cases region <;> rfl
  have halike := (RandomSignal.determines seed).alike hwhole.model hsplit.model
  obtain ⟨-, hfill, htest⟩ := forms_agree shortPacket
    ⟨RandomSignal.unconfigured, [.configure seededHeader,
      .process .test (.packet shortBuffers.whole), .seek 3], rfl⟩
    (congrArg Option.isSome hwhole.geometry_eq)
    ⟨RandomSignal.unconfigured, [.configure seededHeader, .seek 3], rfl⟩
    hsplit.geometry_eq halike (by decide) ⟨by decide, by decide⟩ hsame
  obtain ⟨filled, hfilled⟩ := hfill rfl
  exact ⟨⟨filled, hfilled, hfilled.around.ahead_eq, hfilled.content.weights_eq⟩, htest rfl⟩

end PacketGenerator

end VoltageCapture
