import VoltageCapture.Proofs.Packet.Calls
import VoltageCapture.Proofs.RandomSequence
import VoltageCapture.Signal.Random

/-!
# Random packets

A configured random signal holds three sequences, each with a cursor that every filling and
every test has moved, a test maybe no further than to the first difference.  None of this
can be seen in a packet: before a region is filled or tested its sequence is moved to where
the packet starts.  `RandomSignal.Draws` is all that is known of the signal, that its
sequences are those of the seed, at any positions; it is kept by every call, and already
determines the bytes of all packets (`RandomSignal.determines`).

With that, `PacketGenerator.exactly_addressed` follows from what holds of every model that
determines its packets.
-/

namespace VoltageCapture

open RandomSequence (bytesAt streamKey)

/-! ## The sequences of a signal -/

namespace RegionSequences

variable {seed : Nat} {sequences : RegionSequences}

theorem get_set_self (sequences : RegionSequences) (region : Region) (sequence : RandomSequence) :
    (sequences.set region sequence).get region = sequence := by
  cases region <;> rfl

theorem get_set_of_ne (sequences : RegionSequences) {region other : Region}
    (hne : region ≠ other) (sequence : RandomSequence) :
    (sequences.set region sequence).get other = sequences.get other := by
  cases region <;> cases other <;> first | rfl | exact absurd rfl hne

/-- The sequences are those of a seed, at whatever positions. -/
def DrawFrom (seed : Nat) (sequences : RegionSequences) : Prop :=
  ∀ region, ∃ position, sequences.get region =
    (RandomSequence.ofSeedAndStream seed region.streamName).seek position

theorem ofSeed_drawFrom (seed : Nat) : (ofSeed seed).DrawFrom seed := by
  intro region
  cases region <;> exact ⟨0, rfl⟩

theorem DrawFrom.key_eq (hdraw : sequences.DrawFrom seed) (region : Region) :
    (sequences.get region).key = streamKey seed region.streamName := by
  obtain ⟨position, hposition⟩ := hdraw region
  rw [hposition]
  rfl

/-- Moving a cursor changes neither this sequence nor the others. -/
theorem DrawFrom.set_seek (hdraw : sequences.DrawFrom seed) (region : Region) (position : Nat) :
    (sequences.set region ((sequences.get region).seek position)).DrawFrom seed := by
  intro other
  by_cases hsame : region = other
  · subst hsame
    obtain ⟨before, hbefore⟩ := hdraw region
    exact ⟨position, by rw [get_set_self, hbefore]; rfl⟩
  · rw [get_set_of_ne sequences hsame]
    exact hdraw other

end RegionSequences

/-- The bytes of a region of `length` bytes in the packet of the given number: those of the
region's own sequence from `packet * length` on. -/
def regionBytes (seed : Nat) (region : Region) (packet length : Nat) : Bytes :=
  (RandomSequence.ofSeedAndStream seed region.streamName).between (packet * length)
    ((packet + 1) * length)

theorem regionBytes_eq_bytesAt (seed : Nat) (region : Region) (packet length : Nat) :
    regionBytes seed region packet length =
      bytesAt (streamKey seed region.streamName) (packet * length) length := by
  rw [regionBytes, Nat.succ_mul]
  exact RandomSequence.between_add_eq_bytesAt _ _ _

namespace RandomSignal

variable {seed : Nat} {signal : RandomSignal}

/-- The signal is configured with the sequences of a seed. -/
def Draws (seed : Nat) (signal : RandomSignal) : Prop :=
  ∃ sequences, signal = ⟨some sequences⟩ ∧ sequences.DrawFrom seed

theorem fill_of_draws (hdraws : signal.Draws seed) (region : Region) (packet : Nat)
    (buffer : Bytes) :
    (signal.fill region packet buffer).1 = regionBytes seed region packet buffer.length ∧
      (signal.fill region packet buffer).2.Draws seed := by
  obtain ⟨sequences, rfl, hdraw⟩ := hdraws
  refine ⟨?_, _, rfl, hdraw.set_seek region (packet * buffer.length + buffer.length)⟩
  rw [regionBytes_eq_bytesAt, ← hdraw.key_eq region]
  rfl

theorem test_of_draws (hdraws : signal.Draws seed) (region : Region) (packet : Nat)
    (buffer : Bytes) :
    ((signal.test region packet buffer).1 = true ↔
        buffer = regionBytes seed region packet buffer.length) ∧
      (signal.test region packet buffer).2.Draws seed := by
  obtain ⟨sequences, rfl, hdraw⟩ := hdraws
  rw [regionBytes_eq_bytesAt, ← hdraw.key_eq region]
  -- wherever the comparison stopped, the sequence is left behind the region
  simp only [test, RandomSequence.validate_eq]
  exact ⟨decide_eq_true_iff, _, rfl,
    hdraw.set_seek region (packet * buffer.length + buffer.length)⟩

/-- A random signal determines its packets by the seed alone. -/
theorem determines (seed : Nat) : SignalModel.Determines (Draws seed) (regionBytes seed) where
  fill region packet buffer hdraws := (fill_of_draws hdraws region packet buffer).2
  test region packet buffer hdraws := (test_of_draws hdraws region packet buffer).2
  length_content region packet length := by
    rw [regionBytes_eq_bytesAt, RandomSequence.length_bytesAt]
  fill_eq region packet buffer hdraws := (fill_of_draws hdraws region packet buffer).1
  test_iff region packet buffer hdraws := (test_of_draws hdraws region packet buffer).1

/-- Configuring needs a seed and nothing else. -/
theorem configure_eq_ok {header : Header} {layout : PacketLayout} {configured : RandomSignal}
    (hconfigure : SignalModel.configure signal header layout = (.ok (), configured)) :
    ∃ seed, header.sequenceSeed = .ok seed ∧ configured.Draws seed := by
  simp only [SignalModel.configure] at hconfigure
  split at hconfigure
  · next hheader =>
    simp only [ofHeader, bind_eq_ok, pure_eq_ok] at hheader
    obtain ⟨seed, hseed, rfl⟩ := hheader
    simp only [Prod.mk.injEq, true_and] at hconfigure
    exact ⟨seed, hseed, _, hconfigure.symm, RegionSequences.ofSeed_drawFrom seed⟩
  · simp at hconfigure

end RandomSignal

/-! ## Generators of random packets -/

namespace PacketGenerator

variable {generator : PacketGenerator RandomSignal} {header : Header}

/-- Once configured a generator has the sequences of the seed, whatever calls are made. -/
theorem tracks_of_configure (hconfigure : (generator.configure header).1 = .ok ()) :
    ∃ packetsPerHeap seed, packetsFor generator.layout header = .ok packetsPerHeap ∧
      header.sequenceSeed = .ok seed ∧ ∀ calls,
        ((generator.configure header).2.afterCalls calls).Tracks (RandomSignal.Draws seed)
          generator.layout (.ofLayout generator.layout packetsPerHeap) := by
  obtain ⟨packetsPerHeap, model, hpackets, hmodel, hconfigured⟩ := of_configure hconfigure
  obtain ⟨seed, hseed, hdraws⟩ := RandomSignal.configure_eq_ok hmodel
  refine ⟨packetsPerHeap, seed, hpackets, hseed, ?_⟩
  intro calls
  apply tracks_afterCalls (RandomSignal.determines seed).toKeeps
  rw [hconfigured]
  exact ⟨rfl, rfl, hdraws⟩

/-- **Random packets are exactly addressed and exactly checked.**  After any calls, a filled
packet holds in each region the bytes of its number, and nothing else has changed; a packet
passes the test exactly if each region holds these bytes. -/
theorem exactly_addressed (packet : UdpPacketLayout) (generator : PacketGenerator RandomSignal)
    (header : Header) (hlayout : generator.layout = packet.toPacketLayout)
    (hconfigure : (generator.configure header).1 = .ok ()) :
    ∃ seed, header.sequenceSeed = .ok seed ∧
      ∀ (calls : List Call) (used : PacketGenerator RandomSignal),
      used = (generator.configure header).2.afterCalls calls →
      ∀ buffer : Bytes, packet.toPacketLayout.packetSize ≤ buffer.length →
        (∃ filled, (used.fillPacket buffer).1 = .ok filled ∧ filled.length = buffer.length ∧
          (∀ region, (packet.toPacketLayout.extent region).of filled =
            regionBytes seed region used.filled (packet.toPacketLayout.extent region).size) ∧
          ∀ index, (∀ region, ¬(packet.toPacketLayout.extent region).Holds index) →
            filled[index]? = buffer[index]?) ∧
        ∃ passed, (used.testPacket buffer).1 = .ok passed ∧
          (passed = true ↔ ∀ region, (packet.toPacketLayout.extent region).of buffer =
            regionBytes seed region used.tested (packet.toPacketLayout.extent region).size) := by
  obtain ⟨packetsPerHeap, seed, -, hseed, htracks⟩ := tracks_of_configure hconfigure
  refine ⟨seed, hseed, ?_⟩
  rintro calls used rfl buffer hfits
  have hused := htracks calls
  rw [hlayout] at hused
  have hdetermines := RandomSignal.determines seed
  obtain ⟨filled, hfill, hfilled⟩ :=
    exists_fillPacket_filled hdetermines hused hfits packet.apart
  refine ⟨⟨filled, hfill, hfilled.length_eq, ?_, ?_⟩,
    exists_testPacket_iff hdetermines hused hfits⟩
  · intro region
    exact hfilled.region_eq region (by cases region <;> decide)
  · intro index houtside
    exact hfilled.outside_eq index fun region _ => houtside region

/-- A stream of eight channels, in packets of four behind 16 bytes of header. -/
def seededHeader : Header :=
  ⟨[⟨"NDIM", "2"⟩, ⟨"NPOL", "2"⟩, ⟨"NCHAN", "8"⟩, ⟨"SEED", "7"⟩]⟩

def headedPacket : UdpPacketLayout where
  headerSize := 16
  channels := 4
  samples := 32
  samplesPerWeight := 8
  scalesSize := 4
  weightsSize := 32
  dataSize := 1024

/-- A packet that was tested before, however far, does not show in packet 3. -/
theorem exactly_addressed_headedPacket :
    let generator := PacketGenerator.make headedPacket.toPacketLayout RandomSignal.unconfigured
    let used := (generator.configure seededHeader).2.afterCalls
      [.testPacket (List.replicate 1076 0), .seek 3]
    ∃ filled, (used.fillPacket (List.replicate 1080 0)).1 = .ok filled ∧
      (PacketLayout.extent headedPacket.toPacketLayout .data).of filled =
        regionBytes 7 .data 3 1024 := by
  intro generator used
  obtain ⟨seed, hseed, hcalls⟩ := exactly_addressed headedPacket
    (.make headedPacket.toPacketLayout .unconfigured) seededHeader rfl rfl
  obtain rfl : seed = 7 := (Except.ok.inj hseed).symm
  obtain ⟨⟨filled, hfill, -, hregion, -⟩, -⟩ := hcalls
    [.testPacket (List.replicate 1076 0), .seek 3] _ rfl (List.replicate 1080 0)
    (by rw [List.length_replicate]; decide)
  exact ⟨filled, hfill, hregion .data⟩

end PacketGenerator

end VoltageCapture
