import VoltageCapture.Header.Basic
import VoltageCapture.Packet.Layout

/-!
# Signal models

A signal model decides what a synthetic packet contains.  It fills and tests one
region of one packet at a time, told apart by the region and by the number of the
packet in the stream; where the region lies in a packet is not its concern.  Since
packets are numbered, they may be filled and tested in any order, also by different
models of the same configuration.

A model is prepared from the header of the stream and the layout of its packets.
The one law asked of every model is that filling keeps the length of the buffer.
-/

namespace VoltageCapture

/-- The operations of a signal model. -/
class SignalModel (M : Type) where
  /-- A short name of the kind of signal. -/
  name : M → String
  /-- Prepares the model for the packets that the header and the layout describe. -/
  configure : M → Header → PacketLayout → Except Error Unit × M
  /-- Fills a region of the packet of the given number; gives the new content of the
  buffer. -/
  fill : M → Region → Nat → Bytes → Bytes × M
  /-- Tests whether a buffer holds what the region of the packet of the given number
  should hold. -/
  test : M → Region → Nat → Bytes → Bool × M
  /-- Filling keeps the length of the buffer. -/
  length_fill : ∀ (model : M) (region : Region) (packet : Nat) (buffer : Bytes),
    (fill model region packet buffer).1.length = buffer.length

/-- A model that may be of either of two kinds works as the one it is. -/
instance {M N : Type} [SignalModel M] [SignalModel N] : SignalModel (M ⊕ N) where
  name
    | .inl model => SignalModel.name model
    | .inr model => SignalModel.name model
  configure
    | .inl model, header, layout => (SignalModel.configure model header layout).map id .inl
    | .inr model, header, layout => (SignalModel.configure model header layout).map id .inr
  fill
    | .inl model, region, packet, buffer =>
      (SignalModel.fill model region packet buffer).map id .inl
    | .inr model, region, packet, buffer =>
      (SignalModel.fill model region packet buffer).map id .inr
  test
    | .inl model, region, packet, buffer =>
      (SignalModel.test model region packet buffer).map id .inl
    | .inr model, region, packet, buffer =>
      (SignalModel.test model region packet buffer).map id .inr
  length_fill
    | .inl model, region, packet, buffer => SignalModel.length_fill model region packet buffer
    | .inr model, region, packet, buffer => SignalModel.length_fill model region packet buffer

end VoltageCapture
