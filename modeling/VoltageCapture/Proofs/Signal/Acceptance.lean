import Mathlib
import VoltageCapture.Proofs.Signal.Sine

/-!
# What the sine test accepts

The test of sine data decodes the values of a buffer and compares them with those of the tone.
Decoding is exact in both directions: it finds a value that fits its width, and only the bytes of
that value stand for it (`SampleWidth.decode_eq_iff`).  So the test accepts nothing but the bytes
that filling writes, whatever stood in the buffer before, and these only if every value of the tone
fits (`SineSignal.test_data_iff`).  Any other byte in a filled buffer is noticed.
-/

namespace VoltageCapture.SineSignal

variable {signal : SineSignal} {packet : Nat} {buffer original : Bytes}

theorem filled_data_iff (hlength : original.length = buffer.length)
    (hwhole : signal.width.bytes ∣ buffer.length) :
    buffer = signal.filled .data packet original ↔
      ∀ index < buffer.length / signal.width.bytes,
        buffer.slice (index * signal.width.bytes) signal.width.bytes =
          signal.width.encode (signal.value packet index) :=
  eq_fillWhole_iff (fun _ => signal.width.length_encode _) hlength hwhole

/-- The values of a buffer lie in it one behind the other. -/
theorem length_slice_value (hwhole : signal.width.bytes ∣ buffer.length) {index : Nat}
    (hindex : index < buffer.length / signal.width.bytes) :
    (buffer.slice (index * signal.width.bytes) signal.width.bytes).length = signal.width.bytes := by
  apply Bytes.length_slice
  calc index * signal.width.bytes + signal.width.bytes
      = (index + 1) * signal.width.bytes := (Nat.succ_mul index _).symm
    _ ≤ buffer.length / signal.width.bytes * signal.width.bytes :=
        Nat.mul_le_mul_right _ hindex
    _ = buffer.length := Nat.div_mul_cancel hwhole

theorem passes_data_iff (hlength : original.length = buffer.length) :
    signal.passes .data packet buffer = true ↔
      signal.Recognises .data packet buffer.length ∧
        buffer = signal.filled .data packet original := by
  have hvalues : signal.passes .data packet buffer = true ↔ signal.width.bytes ∣ buffer.length ∧
      ∀ index < buffer.length / signal.width.bytes, signal.width.decode
        (buffer.slice (index * signal.width.bytes) signal.width.bytes) =
          signal.value packet index := by
    rw [passes, testWhole_iff]
    simp only [beq_iff_eq]
  rw [hvalues, Recognises, and_assoc]
  refine and_congr_right fun hwhole => ?_
  rw [filled_data_iff hlength hwhole]
  constructor
  · intro hdecode
    have hboth := fun index hindex =>
      (SampleWidth.decode_eq_iff (length_slice_value hwhole hindex)).mp (hdecode index hindex)
    exact ⟨fun index hindex => (hboth index hindex).1, fun index hindex => (hboth index hindex).2⟩
  · rintro ⟨hfits, hslices⟩ index hindex
    exact (SampleWidth.decode_eq_iff (length_slice_value hwhole hindex)).mpr
      ⟨hfits index hindex, hslices index hindex⟩

/-- No byte of a filled buffer can be exchanged for another one. -/
theorem not_passes_set {position : Nat} {byte : UInt8} (hposition : position < original.length)
    (hbyte : (signal.filled .data packet original)[position]? ≠ some byte) :
    signal.passes .data packet ((signal.filled .data packet original).set position byte) = false := by
  have hfilled := length_filled signal .data packet original
  have hlength : original.length =
      ((signal.filled .data packet original).set position byte).length := by
    rw [List.length_set, hfilled]
  rw [← Bool.not_eq_true, passes_data_iff hlength]
  rintro ⟨-, hset⟩
  apply hbyte
  rw [← hset]
  exact List.getElem?_set_self (hfilled.symm ▸ hposition)

/-- **The sine test accepts exactly what is filled.**  Let a model be configured; the width of its
values is the one that the header gives.  A buffer passes as the data of a packet exactly if it
holds whole values, all of which fit the width, and is what a buffer of its length becomes when it
is filled.  With any one byte changed, a filled buffer does not pass. -/
theorem test_data_iff {start signal : SineSignal} {header : Header} {layout : PacketLayout}
    (hconfigured : SignalModel.configure start header layout = (.ok (), signal)) :
    header.unsigned32 Key.bits = .ok signal.width.bits ∧
      signal.width.bits = 8 * signal.width.bytes ∧
      ∀ (packet : Nat) (buffer original : Bytes), original.length = buffer.length →
        ((SignalModel.test signal .data packet buffer).1 = true ↔
          signal.width.bytes ∣ buffer.length ∧
            (∀ index < buffer.length / signal.width.bytes,
              signal.width.Fits (signal.value packet index)) ∧
            buffer = (SignalModel.fill signal .data packet original).1) ∧
        ∀ (position : Nat) (byte : UInt8), position < original.length →
          (SignalModel.fill signal .data packet original).1[position]? ≠ some byte →
          (SignalModel.test signal .data packet
            ((SignalModel.fill signal .data packet original).1.set position byte)).1 = false := by
  obtain ⟨hbits, -, -⟩ := of_ofHeader (configure_eq_ok hconfigured)
  refine ⟨hbits, by cases signal.width <;> rfl, ?_⟩
  intro packet buffer original hlength
  refine ⟨?_, fun position byte hposition hbyte => not_passes_set hposition hbyte⟩
  rw [← and_assoc]
  exact passes_data_iff hlength

/-- Eight bytes hold four values of packet 3.  Once they are filled, they pass exactly if those
values fit, and not with another first byte; seven bytes do not pass. -/
theorem test_data_iff_twoSamples :
    let signal : SineSignal := ⟨.bits16, 64, 2, by decide, by decide⟩
    let filled := (SignalModel.fill signal .data 3 (List.replicate 8 0)).1
    ((SignalModel.test signal .data 3 filled).1 = true ↔
        ∀ index < 4, signal.width.Fits (signal.value 3 index)) ∧
      (SignalModel.test signal .data 3 (filled.set 0 (filled.headD 0 + 1))).1 = false ∧
      (SignalModel.test signal .data 3 (List.replicate 7 0)).1 = false := by
  intro signal filled
  have hconfigured : SignalModel.configure standard ⟨[⟨"NBIT", "16"⟩]⟩
      (UdpPacketLayout.toPacketLayout ⟨0, 1, 2, 2, 4, 1, 8⟩) = (.ok (), signal) := rfl
  obtain ⟨-, -, hexact⟩ := test_data_iff hconfigured
  have hlength : filled.length = 8 := length_filled signal .data 3 _
  have hcount : 8 / signal.width.bytes = 4 := by decide
  refine ⟨?_, ?_, ?_⟩
  · rw [(hexact 3 filled (List.replicate 8 0) hlength.symm).1, hlength, hcount]
    exact ⟨fun hall => hall.2.1, fun hfits => ⟨by decide, hfits, rfl⟩⟩
  · apply (hexact 3 filled (List.replicate 8 0) hlength.symm).2 0 _ (by decide)
    obtain ⟨first, rest, hcons⟩ :=
      List.exists_cons_of_length_pos (Nat.lt_of_lt_of_eq (by decide) hlength.symm)
    show filled[0]? ≠ _
    rw [hcons]
    simp
  · rw [← Bool.not_eq_true, (hexact 3 (List.replicate 7 0) (List.replicate 7 0) rfl).1]
    rintro ⟨hwhole, -⟩
    exact absurd hwhole (by decide)

end VoltageCapture.SineSignal
