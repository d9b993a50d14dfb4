import VoltageCapture.Packet.Layout
import VoltageCapture.Proofs.Bytes

/-!
# Extents of a buffer

A packet is filled by writing its regions one after the other into the same buffer.  What is
written into one extent is found there again (`Extent.of_overwrite_self`), and nothing else
changes: no extent apart from it (`Extent.of_overwrite_of_apart`) and no byte outside it
(`Extent.getElem?_overwrite_of_not_holds`).
-/

namespace VoltageCapture

namespace Extent

variable {extent other : Extent} {buffer content : Bytes} {index : Nat}

/-- An offset lies within the extent. -/
def Holds (extent : Extent) (index : Nat) : Prop :=
  extent.offset ≤ index ∧ index < extent.limit

/-- Two extents have no byte in common because one ends where the other starts, or before. -/
def Apart (extent other : Extent) : Prop :=
  extent.limit ≤ other.offset ∨ other.limit ≤ extent.offset

theorem Apart.symm (hapart : extent.Apart other) : other.Apart extent :=
  Or.symm hapart

theorem length_of (hfits : extent.limit ≤ buffer.length) :
    (extent.of buffer).length = extent.size :=
  Bytes.length_slice hfits

theorem Apart.not_holds (hapart : extent.Apart other) (hholds : extent.Holds index) :
    ¬other.Holds index := by
  simp only [Apart, Holds, limit] at hapart hholds ⊢
  omega

/-- What stands in an extent is a matter of the bytes at its offsets. -/
theorem of_congr {before after : Bytes}
    (hsame : ∀ index, extent.Holds index → after[index]? = before[index]?) :
    extent.of after = extent.of before := by
  apply List.ext_getElem?
  intro index
  by_cases hindex : index < extent.size
  · rw [of, of, Bytes.getElem?_slice _ _ hindex, Bytes.getElem?_slice _ _ hindex]
    exact hsame _ ⟨Nat.le_add_right _ _, Nat.add_lt_add_left hindex _⟩
  · have hshort : ∀ bytes : Bytes, (extent.of bytes).length ≤ index := by
      intro bytes
      exact Nat.le_trans (List.length_take_le _ _) (Nat.le_of_not_lt hindex)
    rw [List.getElem?_eq_none (hshort _), List.getElem?_eq_none (hshort _)]

variable (hfits : extent.limit ≤ buffer.length) (hcontent : content.length = extent.size)

include hfits hcontent

theorem length_overwrite : (buffer.overwrite extent.offset content).length = buffer.length :=
  Bytes.length_overwrite (hcontent ▸ hfits)

theorem of_overwrite_self : extent.of (buffer.overwrite extent.offset content) = content := by
  rw [of, ← hcontent]
  exact Bytes.slice_overwrite_self (hcontent ▸ hfits)

theorem getElem?_overwrite_of_not_holds (houtside : ¬extent.Holds index) :
    (buffer.overwrite extent.offset content)[index]? = buffer[index]? := by
  apply Bytes.getElem?_overwrite_of_outside (hcontent ▸ hfits)
  simp only [Holds, limit] at houtside
  omega

theorem of_overwrite_of_apart (hapart : extent.Apart other) :
    other.of (buffer.overwrite extent.offset content) = other.of buffer := by
  apply of_congr
  intro index hholds
  exact getElem?_overwrite_of_not_holds hfits hcontent (hapart.symm.not_holds hholds)

end Extent

/-! ## The regions of a packet -/

theorem PacketLayout.limit_le_packetSize (layout : PacketLayout) (region : Region) :
    (layout.extent region).limit ≤ layout.packetSize := by
  cases region with
  | scales => exact Nat.le_max_left _ _
  | weights => exact Nat.le_trans (Nat.le_max_left _ _) (Nat.le_max_right _ _)
  | data => exact Nat.le_trans (Nat.le_max_right _ _) (Nat.le_max_right _ _)

theorem UdpPacketLayout.packetSize_eq (packet : UdpPacketLayout) :
    packet.toPacketLayout.packetSize =
      packet.headerSize + (packet.scalesSize + packet.weightsSize) + packet.dataSize := by
  simp only [toPacketLayout, PacketLayout.packetSize, Extent.limit]
  omega

/-- The regions of a packet of the digitiser do not overlap. -/
theorem UdpPacketLayout.apart (packet : UdpPacketLayout) {region other : Region}
    (hne : region ≠ other) :
    (packet.toPacketLayout.extent region).Apart (packet.toPacketLayout.extent other) := by
  have hscales : packet.toPacketLayout.scales.Apart packet.toPacketLayout.weights :=
    Or.inl (Nat.le_refl _)
  have hweights : packet.toPacketLayout.weights.Apart packet.toPacketLayout.data :=
    Or.inl (Nat.le_refl _)
  have hboth : packet.toPacketLayout.scales.Apart packet.toPacketLayout.data :=
    Or.inl (Nat.le_add_right _ _)
  cases region with
  | scales =>
      cases other with
      | scales => exact absurd rfl hne
      | weights => exact hscales
      | data => exact hboth
  | weights =>
      cases other with
      | scales => exact hscales.symm
      | weights => exact absurd rfl hne
      | data => exact hweights
  | data =>
      cases other with
      | scales => exact hboth.symm
      | weights => exact hweights.symm
      | data => exact absurd rfl hne

end VoltageCapture
