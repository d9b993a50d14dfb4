import Mathlib
import VoltageCapture.Proofs.Heap.Layout
import VoltageCapture.Proofs.Packet.Random
import VoltageCapture.Proofs.Signal.Sine

/-!
# Filling a packet, then testing it

A packet that a generator has filled is tested by the same generator, or by another one that was
configured alike.  Whether it passes is decided region by region, and for each kind of signal it
depends on the number of the packet and the length of the region alone:
`SignalModel.TestsFilled inv verdict` says so of two models of which `inv` holds, whatever else
they were used for.

Random packets always pass.  The test of a sine packet also asks that the data be made up of
whole values, which nothing has checked before: the width of a value is read from the header, and
the size of the data comes from the layout.  `PacketGenerator.filled_passes_iff` gives the exact
condition.
-/

namespace VoltageCapture

variable {M : Type} [SignalModel M]

/-! ## Models -/

/-- As long as `inv` holds of two models, what one of them fills in passes the test of the other
exactly if `verdict` holds of the region, the number of the packet and the length. -/
structure SignalModel.TestsFilled (inv : M → Prop) (verdict : Region → Nat → Nat → Prop) :
    Prop extends SignalModel.Keeps inv where
  test_fill_iff : ∀ {writer reader : M} (region : Region) (packet : Nat) (buffer : Bytes),
    inv writer → inv reader →
    ((SignalModel.test reader region packet
        (SignalModel.fill writer region packet buffer).1).1 = true ↔
      verdict region packet buffer.length)

theorem SignalModel.Determines.testsFilled {inv : M → Prop} {content : Region → Nat → Nat → Bytes}
    (hdetermines : SignalModel.Determines inv content) :
    SignalModel.TestsFilled inv fun _ _ _ => True where
  toKeeps := hdetermines.toKeeps
  test_fill_iff region packet buffer hwriter hreader := by
    rw [hdetermines.test_iff region packet _ hreader, hdetermines.fill_eq region packet _ hwriter,
      hdetermines.length_content, iff_true]

namespace SineSignal

/-- No call changes a sine signal. -/
theorem testsFilled (signal : SineSignal) :
    SignalModel.TestsFilled (· = signal) signal.Recognises where
  fill _ _ _ hmodel := hmodel
  test _ _ _ hmodel := hmodel
  test_fill_iff region packet buffer hwriter hreader := by
    subst hwriter hreader
    exact passes_filled_iff _ region packet buffer

end SineSignal

/-! ## Whole packets -/

theorem testWholePacket_fillWholePacket_iff {inv : M → Prop}
    {verdict : Region → Nat → Nat → Prop} (htests : SignalModel.TestsFilled inv verdict)
    {writer reader : M} {layout : PacketLayout} {buffer : Bytes} (packet : Nat)
    (hwriter : inv writer) (hreader : inv reader)
    (hapart : ∀ {region other}, region ≠ other →
      (layout.extent region).Apart (layout.extent other))
    (hfits : layout.packetSize ≤ buffer.length) :
    (testWholePacket reader layout packet
        (fillWholePacket writer layout packet buffer).1).1 = true ↔
      ∀ region, verdict region packet (layout.extent region).size := by
  have hfilled := fillWholePacket_contentOf writer packet hapart hfits
  apply htests.testWholePacket_iff packet _ hreader
  intro region model hmodel
  -- writer and reader come to the region in whatever states the regions ahead have left them
  have hregion : layout.parts (fillWholePacket writer layout packet buffer).1 region =
      SignalModel.contentOf writer packet (layout.parts buffer) region :=
    hfilled.region_eq region (by cases region <;> decide)
  rw [hregion, SignalModel.contentOf, ← PacketLayout.length_parts hfits region]
  exact htests.test_fill_iff region packet _ (htests.modelAt packet _ hwriter region) hmodel

/-! ## Generators -/

namespace PacketGenerator

/-- Packet `number`, filled by a generator after any calls, passes exactly if `verdict` holds of
the number.  It is tested by the generator that has filled it, or by another one after any
calls. -/
def RoundTrips (header : Header) (verdict : Nat → Prop) (generator other : PacketGenerator M) :
    Prop :=
  ∀ (calls : List Call) (number : Nat) (buffer : Bytes),
    generator.layout.packetSize ≤ buffer.length →
    let writer := ((generator.configure header).2.afterCalls calls).seek number
    ∃ filled, (writer.fillPacket buffer).1 = .ok filled ∧
      ∀ reader, (reader = (writer.fillPacket buffer).2 ∨
          ∃ calls, reader = (other.configure header).2.afterCalls calls) →
        ∃ passed, ((reader.seek number).testPacket filled).1 = .ok passed ∧
          (passed = true ↔ verdict number)

variable {packet : UdpPacketLayout} {header : Header}

theorem RoundTrips.congr {generator other : PacketGenerator M} {verdict asked : Nat → Prop}
    (hround : RoundTrips header verdict generator other)
    (hiff : ∀ number, verdict number ↔ asked number) :
    RoundTrips header asked generator other := by
  intro calls number buffer hfits
  obtain ⟨filled, hfill, hreaders⟩ := hround calls number buffer hfits
  refine ⟨filled, hfill, ?_⟩
  intro reader hreader
  obtain ⟨passed, htest, hpassed⟩ := hreaders reader hreader
  exact ⟨passed, htest, hpassed.trans (hiff number)⟩

/-- Neither what a generator did before nor which generator it is makes a difference, as `inv`
holds of the models of both. -/
theorem roundTrips_of_testsFilled {generator other : PacketGenerator M} {inv : M → Prop}
    {verdict : Region → Nat → Nat → Prop} (htests : SignalModel.TestsFilled inv verdict)
    (hmodel : ∀ model configured,
      SignalModel.configure model header packet.toPacketLayout = (.ok (), configured) →
      inv configured)
    (hgenerator : generator.Accepts packet.toPacketLayout header)
    (hother : other.Accepts packet.toPacketLayout header) :
    RoundTrips header
      (fun number => ∀ region, verdict region number (packet.toPacketLayout.extent region).size)
      generator other := by
  intro calls number buffer hfits writer
  rw [hgenerator.layout_eq] at hfits
  obtain ⟨geometry, hcalls⟩ := hgenerator.tracks htests.toKeeps hmodel
  obtain ⟨otherGeometry, hotherCalls⟩ := hother.tracks htests.toKeeps hmodel
  have hseek : writer.Tracks inv packet.toPacketLayout geometry :=
    tracks_afterCall htests.toKeeps (hcalls calls) (.seek number)
  have hfilled := fillWholePacket_contentOf writer.model number packet.apart hfits
  refine ⟨_, fillPacket_eq_ok hseek hfits, ?_⟩
  intro reader hreader
  obtain ⟨readerGeometry, hreader⟩ :
      ∃ geometry, reader.Tracks inv packet.toPacketLayout geometry := by
    rcases hreader with rfl | ⟨calls, rfl⟩
    · exact ⟨geometry, tracks_afterCall htests.toKeeps hseek (.fillPacket buffer)⟩
    · exact ⟨otherGeometry, hotherCalls calls⟩
  have hread : (reader.seek number).Tracks inv packet.toPacketLayout readerGeometry :=
    tracks_afterCall htests.toKeeps hreader (.seek number)
  exact ⟨_, testPacket_eq_ok hread (hfilled.length_eq ▸ hfits),
    testWholePacket_fillWholePacket_iff htests number hseek.model hread.model packet.apart hfits⟩

theorem random_roundTrips {generator other : PacketGenerator RandomSignal}
    (hgenerator : generator.Accepts packet.toPacketLayout header)
    (hother : other.Accepts packet.toPacketLayout header) :
    RoundTrips header (fun _ => True) generator other := by
  obtain ⟨-, seed, -, hseed, -⟩ := tracks_of_configure hgenerator.configure_ok
  have hdraws : ∀ (model configured : RandomSignal),
      SignalModel.configure model header packet.toPacketLayout = (.ok (), configured) →
      configured.Draws seed := by
    intro model configured hmodel
    obtain ⟨found, hfound, hdraws⟩ := RandomSignal.configure_eq_ok hmodel
    obtain rfl := Except.ok.inj (hseed.symm.trans hfound)
    exact hdraws
  have htests := (RandomSignal.determines seed).testsFilled
  exact (roundTrips_of_testsFilled htests hdraws hgenerator hother).congr
    fun _ => iff_true_intro fun _ => trivial

theorem sine_roundTrips {generator other : PacketGenerator SineSignal}
    (hgenerator : generator.Accepts packet.toPacketLayout header)
    (hother : other.Accepts packet.toPacketLayout header) :
    ∃ signal, SineSignal.ofHeader header packet.toPacketLayout = .ok signal ∧
      RoundTrips header
        (fun number => ∀ region, signal.Recognises region number
          (packet.toPacketLayout.extent region).size) generator other := by
  obtain ⟨-, signal, -, hsignal, -⟩ := of_configure hgenerator.configure_ok
  rw [hgenerator.layout_eq] at hsignal
  have hheader := SineSignal.configure_eq_ok hsignal
  refine ⟨signal, hheader, roundTrips_of_testsFilled signal.testsFilled ?_ hgenerator hother⟩
  intro model configured hmodel
  exact Except.ok.inj ((SineSignal.configure_eq_ok hmodel).symm.trans hheader)

/-- **Which filled packets pass.**  Once a generator accepts a header, random packets always pass
after they have been filled.  A sine packet passes exactly if its data are whole values of the
width that the header asks for, and all of its values lie in the range of that width.  Data are
whole values whenever the layout is one for samples of whole bytes. -/
theorem filled_passes_iff
    {headerSize channels samples samplesPerWeight dataBits weightBits : Nat}
    (hmake : UdpPacketLayout.make headerSize channels samples samplesPerWeight dataBits
      weightBits = .ok packet) (header : Header) :
    (∀ generator other : PacketGenerator RandomSignal,
      generator.Accepts packet.toPacketLayout header → other.Accepts packet.toPacketLayout header →
      RoundTrips header (fun _ => True) generator other) ∧
    ∀ generator other : PacketGenerator SineSignal,
      generator.Accepts packet.toPacketLayout header → other.Accepts packet.toPacketLayout header →
      ∃ signal, SineSignal.ofHeader header packet.toPacketLayout = .ok signal ∧
        RoundTrips header
          (fun number => signal.width.bytes ∣ packet.dataSize ∧
            ∀ index < packet.dataSize / signal.width.bytes,
              signal.width.Fits (signal.value number index)) generator other ∧
        (8 ∣ dataBits → signal.width.bytes ∣ packet.dataSize) := by
  obtain ⟨hscales, hdata⟩ := UdpPacketLayout.sizes_of_make hmake
  refine ⟨fun _ _ hgenerator hother => random_roundTrips hgenerator hother, ?_⟩
  intro generator other hgenerator hother
  obtain ⟨signal, hsignal, hround⟩ := sine_roundTrips hgenerator hother
  refine ⟨signal, hsignal, ?_, ?_⟩
  · apply hround.congr
    intro number
    constructor
    · intro hall
      exact hall .data
    · intro hwhole region
      cases region with
      | scales => exact ⟨1, hscales⟩
      | weights => trivial
      | data => exact hwhole
  · rintro ⟨bytes, rfl⟩
    -- a sample has four values, and no value is wider than four bytes
    have hfour : 4 ∣ packet.dataSize := by
      refine ⟨samples * channels * bytes, Nat.eq_of_mul_eq_mul_right (by decide : 0 < 8) ?_⟩
      rw [hdata]
      ac_rfl
    have hwidth : signal.width.bytes ∣ 4 := by
      cases signal.width <;> decide
    exact Nat.dvd_trans hwidth hfour

/-- A header that asks for values of four bytes. -/
def wideHeader : Header :=
  ⟨[⟨"NDIM", "2"⟩, ⟨"NPOL", "2"⟩, ⟨"NCHAN", "1"⟩, ⟨"NBIT", "32"⟩, ⟨"SEED", "7"⟩]⟩

/-- A packet of one sample of four bits a value, which makes two bytes of data. -/
def narrowPacket : UdpPacketLayout where
  headerSize := 0
  channels := 1
  samples := 1
  samplesPerWeight := 1
  scalesSize := 4
  weightsSize := 1
  dataSize := 2

def narrowRandom : PacketGenerator RandomSignal :=
  .make narrowPacket.toPacketLayout .unconfigured

def narrowSine : PacketGenerator SineSignal :=
  .make narrowPacket.toPacketLayout .standard

theorem narrowRandom_accepts : narrowRandom.Accepts narrowPacket.toPacketLayout wideHeader :=
  ⟨rfl, rfl⟩

theorem narrowSine_accepts : narrowSine.Accepts narrowPacket.toPacketLayout wideHeader :=
  ⟨rfl, rfl⟩

/-- Packet 3 passes right after it has been filled if it is random, and not if it is sine. -/
theorem filled_passes_iff_narrowPacket :
    let random := (narrowRandom.configure wideHeader).2.seek 3
    let sine := (narrowSine.configure wideHeader).2.seek 3
    let buffer : Bytes := List.replicate 7 0
    (∃ filled, (random.fillPacket buffer).1 = .ok filled ∧
      (((random.fillPacket buffer).2.seek 3).testPacket filled).1 = .ok true) ∧
    ∃ filled, (sine.fillPacket buffer).1 = .ok filled ∧
      (((sine.fillPacket buffer).2.seek 3).testPacket filled).1 = .ok false := by
  intro random sine buffer
  obtain ⟨hrandom, hsine⟩ := filled_passes_iff
    (show UdpPacketLayout.make 0 1 1 1 4 8 = .ok narrowPacket from rfl) wideHeader
  constructor
  · obtain ⟨filled, hfill, hreaders⟩ :=
      hrandom _ _ narrowRandom_accepts narrowRandom_accepts [] 3 buffer (by decide)
    obtain ⟨passed, htest, hpassed⟩ := hreaders _ (.inl rfl)
    exact ⟨filled, hfill, hpassed.mpr trivial ▸ htest⟩
  · obtain ⟨signal, hsignal, hround, -⟩ := hsine _ _ narrowSine_accepts narrowSine_accepts
    obtain ⟨filled, hfill, hreaders⟩ := hround [] 3 buffer (by decide)
    obtain ⟨passed, htest, hpassed⟩ := hreaders _ (.inl rfl)
    obtain rfl : (⟨.bits32, 64, 1, by decide, by decide⟩ : SineSignal) = signal :=
      Except.ok.inj hsignal
    have hfails : passed = false := by
      rw [← Bool.not_eq_true, hpassed]
      rintro ⟨hwhole, -⟩
      exact absurd hwhole (by decide)
    exact ⟨filled, hfill, hfails ▸ htest⟩

/-- Two bytes hold no value of four, so none is out of range.  They are left as they are, and
then not accepted. -/
theorem filled_rejected_narrowPacket :
    UdpPacketLayout.make 0 1 1 1 4 8 = .ok narrowPacket ∧
      narrowSine.Accepts narrowPacket.toPacketLayout wideHeader ∧
      (∀ signal, SineSignal.ofHeader wideHeader narrowPacket.toPacketLayout = .ok signal →
        ∀ index < narrowPacket.dataSize / signal.width.bytes,
          signal.width.Fits (signal.value 3 index)) ∧
      (((narrowSine.configure wideHeader).2.seek 3).fillPacket (List.replicate 7 0)).1 =
        .ok [0x3F, 0x80, 0, 0, 0xFF, 0, 0] ∧
      (((((narrowSine.configure wideHeader).2.seek 3).fillPacket
        (List.replicate 7 0)).2.seek 3).testPacket [0x3F, 0x80, 0, 0, 0xFF, 0, 0]).1 =
        .ok false := by
  refine ⟨rfl, narrowSine_accepts, ?_, by cbv, by cbv⟩
  intro signal hsignal index hindex
  obtain rfl : (⟨.bits32, 64, 1, by decide, by decide⟩ : SineSignal) = signal :=
    Except.ok.inj hsignal
  exact absurd hindex (Nat.not_lt_zero index)

end PacketGenerator

end VoltageCapture
