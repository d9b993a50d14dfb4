import Mathlib
import VoltageCapture.Proofs.Signal.Sine

/-!
# The tone goes on from packet to packet

How many samples share a packet is a matter of the layout.  A `StreamValue` says which value of
the stream is meant, without any packets; the number of its packet and its index there follow from
the samples in a packet.  The model goes the other way, from packet and index to the time of the
sample and the dimension, and finds those of the value again (`SineSignal.value_packet_index`).

So what is written for a value depends on its time, counted through all packets, and on its
dimension.  Two models of one width and one period write the same bytes for it, however many
samples their packets have, and again a whole number of periods later
(`SineSignal.tone_continues`).  The cosine and the sine are not looked into.
-/

namespace VoltageCapture

/-- A value of a data stream. -/
structure StreamValue where
  /-- The number of its sample, counted from the start of the stream. -/
  time : Nat
  channel : Nat
  polarisation : Fin 2
  dimension : Fin 2

namespace StreamValue

/-- The packet that the value is in, if there are `samples` samples in a packet. -/
def packet (value : StreamValue) (samples : Nat) : Nat :=
  value.time / samples

/-- The index of the value in its packet, where values are ordered by channel, sample,
polarisation and dimension. -/
def index (value : StreamValue) (samples : Nat) : Nat :=
  ((value.channel * samples + value.time % samples) * 2 + value.polarisation) * 2 +
    value.dimension

variable {value : StreamValue} {samples : Nat}

theorem index_mod_two : value.index samples % 2 = value.dimension := by
  have hdimension := value.dimension.isLt
  rw [index, Nat.mul_add_mod_of_lt hdimension]

theorem index_div_four : value.index samples / 4 =
    value.channel * samples + value.time % samples := by
  have hpolarisation := value.polarisation.isLt
  have hdimension := value.dimension.isLt
  rw [index]
  omega

theorem packet_mul_add_sample (hsamples : 0 < samples) :
    value.packet samples * samples + value.index samples / 4 % samples = value.time := by
  have hsample := Nat.mod_lt value.time hsamples
  rw [index_div_four, Nat.mul_add_mod_of_lt hsample, packet, Nat.div_add_mod']

end StreamValue

namespace SineSignal

variable {signal first second : SineSignal} {value : StreamValue} {buffer : Bytes}

/-- The tone repeats with its period. -/
theorem tone_congr {period time other : Nat} (htime : time ≡ other [MOD period])
    (width : SampleWidth) (dimension : Nat) :
    tone width period time dimension = tone width period other dimension := by
  rw [tone, tone, show time % period = other % period from htime]

theorem value_packet_index (signal : SineSignal) (value : StreamValue) :
    signal.value (value.packet signal.samples) (value.index signal.samples) =
      tone signal.width signal.period value.time value.dimension := by
  simp only [SineSignal.value, StreamValue.packet_mul_add_sample signal.samples_pos,
    StreamValue.index_mod_two]

/-! ## What is written -/

/-- A buffer for the data of the value's packet is long enough for the value. -/
def HoldsValue (signal : SineSignal) (value : StreamValue) (buffer : Bytes) : Prop :=
  (value.index signal.samples + 1) * signal.width.bytes ≤ buffer.length

instance : Decidable (signal.HoldsValue value buffer) :=
  inferInstanceAs (Decidable (_ ≤ _))

/-- The bytes of a value in a buffer that is filled with the data of the value's packet. -/
def written (signal : SineSignal) (value : StreamValue) (buffer : Bytes) : Bytes :=
  Bytes.slice (SignalModel.fill signal .data (value.packet signal.samples) buffer).1
    (value.index signal.samples * signal.width.bytes) signal.width.bytes

theorem written_eq (hholds : signal.HoldsValue value buffer) :
    signal.written value buffer =
      signal.width.encode (tone signal.width signal.period value.time value.dimension) := by
  have hbytes : 0 < signal.width.bytes := by
    cases signal.width <;> decide
  have hindex : value.index signal.samples < buffer.length / signal.width.bytes :=
    (Nat.le_div_iff_mul_le hbytes).mpr hholds
  rw [← value_packet_index]
  exact slice_fillWhole (fun _ => signal.width.length_encode _) hindex

/-- **The tone goes on from packet to packet.**  Let two models be configured with the same width
of values and the same period, given or by default, but for any packets.  For values at the same
time, or at times that are whole periods apart, and in the same dimension, they write the same
bytes: those of the tone.  Neither channels nor polarisations matter. -/
theorem tone_continues {start otherStart : SineSignal} {header otherHeader : Header}
    {layout otherLayout : PacketLayout}
    (hfirst : SignalModel.configure start header layout = (.ok (), first))
    (hsecond : SignalModel.configure otherStart otherHeader otherLayout = (.ok (), second))
    (hbits : header.unsigned32 Key.bits = otherHeader.unsigned32 Key.bits)
    (hperiod : periodOf header = periodOf otherHeader) :
    first.samples = layout.samples ∧ second.samples = otherLayout.samples ∧
      ∀ (value other : StreamValue) (buffer otherBuffer : Bytes),
        value.time ≡ other.time [MOD first.period] → value.dimension = other.dimension →
        first.HoldsValue value buffer → second.HoldsValue other otherBuffer →
        first.written value buffer = second.written other otherBuffer ∧
          first.written value buffer = first.width.encode
            (tone first.width first.period value.time value.dimension) := by
  obtain ⟨hfirstBits, hfirstPeriod, hfirstSamples⟩ := of_ofHeader (configure_eq_ok hfirst)
  obtain ⟨hsecondBits, hsecondPeriod, hsecondSamples⟩ := of_ofHeader (configure_eq_ok hsecond)
  have hwidth : first.width = second.width :=
    SampleWidth.bits_injective (Except.ok.inj (hfirstBits.symm.trans (hbits.trans hsecondBits)))
  have hsame : first.period = second.period :=
    Except.ok.inj (hfirstPeriod.symm.trans (hperiod.trans hsecondPeriod))
  refine ⟨hfirstSamples, hsecondSamples, ?_⟩
  intro value other buffer otherBuffer htime hdimension hholds hotherHolds
  refine ⟨?_, written_eq hholds⟩
  calc first.written value buffer
      = first.width.encode (tone first.width first.period value.time value.dimension) :=
        written_eq hholds
    _ = first.width.encode (tone first.width first.period other.time other.dimension) := by
        rw [tone_congr htime, hdimension]
    _ = second.width.encode (tone second.width second.period other.time other.dimension) := by
        rw [hwidth, hsame]
    _ = second.written other otherBuffer := (written_eq hotherHolds).symm

/-- Packets of two channels in values of two bytes. -/
def pairedChannels (samples : Nat) : UdpPacketLayout where
  headerSize := 0
  channels := 2
  samples := samples
  samplesPerWeight := samples
  scalesSize := 4
  weightsSize := 2
  dataSize := 16 * samples

/-- Sample 7 of packets of three and, a period of 64 later, sample 71 of packets of five; one
header gives the period and the other leaves it out. -/
theorem tone_continues_pairedChannels :
    let first : SineSignal := ⟨.bits16, 64, 3, by decide, by decide⟩
    let second : SineSignal := ⟨.bits16, 64, 5, by decide, by decide⟩
    let early : StreamValue := ⟨7, 1, 0, 1⟩
    let late : StreamValue := ⟨71, 0, 1, 1⟩
    early.packet 3 = 2 ∧ early.index 3 = 17 ∧ late.packet 5 = 14 ∧ late.index 5 = 7 ∧
      first.written early (List.replicate 48 0) = second.written late (List.replicate 80 1) := by
  intro first second early late
  have hfirst : SignalModel.configure standard ⟨[⟨"NBIT", "16"⟩, ⟨"SINE_PERIOD", "64"⟩]⟩
      (pairedChannels 3).toPacketLayout = (.ok (), first) := rfl
  have hsecond : SignalModel.configure standard ⟨[⟨"NBIT", "16"⟩]⟩
      (pairedChannels 5).toPacketLayout = (.ok (), second) := rfl
  obtain ⟨-, -, hsame⟩ := tone_continues hfirst hsecond rfl rfl
  refine ⟨by decide, by decide, by decide, by decide, ?_⟩
  exact (hsame early late _ _ (by decide) rfl (by decide) (by decide)).1

end SineSignal

end VoltageCapture
