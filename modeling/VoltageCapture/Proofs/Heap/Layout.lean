import VoltageCapture.Heap.Layout
import VoltageCapture.Proofs.Requirement

/-!
# Which headers have a heap layout, and which one

`HeapLayout.configure` checks two headers against each other, field by field, and then the
sizes that follow from them.  Its conditions are listed in `HeapLayout.requirements`, in the
order of the checks and over unbounded integers.

* `decides_configure`: a layout is given exactly if all of them are met, and then it is the
  one that the numbers in the headers determine; otherwise the failure names the field of
  the first that is not met.
* `configure_exact` says the same without `Decides`, with the equations of the geometry.

The products are computed factor by factor, each step with a check.  As no factor is zero,
a step passes the bound only if the whole product does (`boundedProduct?_eq`).
-/

namespace VoltageCapture

/-! ## Products of sizes -/

theorem le_foldl_mul {factors : List Nat} (hpos : ∀ factor ∈ factors, 0 < factor) (start : Nat) :
    start ≤ factors.foldl (· * ·) start := by
  induction factors generalizing start with
  | nil => exact Nat.le_refl start
  | cons factor factors ih =>
      have hrest := ih (fun other hother => hpos other (List.mem_cons_of_mem _ hother))
        (start * factor)
      calc start ≤ start * factor := Nat.le_mul_of_pos_right _ (hpos factor List.mem_cons_self)
        _ ≤ factors.foldl (· * ·) (start * factor) := hrest

/-- Checking every partial product is as good as checking the last. -/
theorem boundedProduct?_eq {factors : List Nat} (hpos : ∀ factor ∈ factors, 0 < factor)
    {start : Nat} (hstart : start < sizeBound) :
    boundedProduct? start factors =
      if factors.foldl (· * ·) start < sizeBound then some (factors.foldl (· * ·) start)
      else none := by
  induction factors generalizing start with
  | nil => rw [boundedProduct?, List.foldl_nil, if_pos hstart]
  | cons factor factors ih =>
      have hrest : ∀ other ∈ factors, 0 < other :=
        fun other hother => hpos other (List.mem_cons_of_mem _ hother)
      rw [boundedProduct?, List.foldl_cons]
      by_cases hnext : start * factor < sizeBound
      · rw [if_pos hnext]
        exact ih hrest hnext
      · have hle := le_foldl_mul hrest (start * factor)
        rw [if_neg hnext, if_neg (Nat.not_lt.mpr (Nat.le_trans (Nat.le_of_not_lt hnext) hle))]

theorem decides_sizeProduct {factors : List Nat} (field : String) (product : Nat)
    (hpos : ∀ factor ∈ factors, 0 < factor) (hproduct : factors.foldl (· * ·) 1 = product) :
    Decides (sizeProduct field factors) [⟨field, product < sizeBound⟩] (· = product) := by
  have heq := boundedProduct?_eq hpos (show 1 < sizeBound by decide)
  rw [hproduct] at heq
  apply Decides.single
  · intro hfits
    rw [if_pos hfits] at heq
    exact ⟨product, by rw [sizeProduct, heq], rfl⟩
  · intro hlarge
    rw [if_neg hlarge] at heq
    exact ⟨_, by rw [sizeProduct, heq]⟩

theorem eq_of_boundedProduct? {start product : Nat} {factors : List Nat}
    (hproduct : boundedProduct? start factors = some product) :
    product = factors.foldl (· * ·) start := by
  induction factors generalizing start with
  | nil => exact (Option.some.inj hproduct).symm
  | cons factor factors ih =>
      rw [boundedProduct?] at hproduct
      split at hproduct
      · exact ih hproduct
      · cases hproduct

theorem eq_of_sizeProduct {field : String} {factors : List Nat} {product : Nat}
    (hproduct : sizeProduct field factors = .ok product) :
    product = factors.foldl (· * ·) 1 := by
  rw [sizeProduct] at hproduct
  split at hproduct
  · next heq =>
    cases hproduct
    exact eq_of_boundedProduct? heq
  · cases hproduct

/-! ## Packets -/

/-- The sizes of a packet: one scale factor, and samples of four values. -/
theorem UdpPacketLayout.sizes_of_make
    {headerSize channels samples samplesPerWeight dataBits weightBits : Nat}
    {packet : UdpPacketLayout}
    (hmake : make headerSize channels samples samplesPerWeight dataBits weightBits = .ok packet) :
    packet.scalesSize = scaleSize ∧ packet.dataSize * 8 = samples * channels * 4 * dataBits := by
  simp only [make, bind_eq_ok, require_eq_ok, pure_eq_ok] at hmake
  obtain ⟨-, -, -, -, -, -, dataTotal, hdata, -, ⟨-, hwhole⟩, -, -, -, -, rfl⟩ := hmake
  refine ⟨rfl, ?_⟩
  have htotal := eq_of_sizeProduct hdata
  calc dataTotal / 8 * 8 = dataTotal := Nat.div_mul_cancel (Nat.dvd_of_mod_eq_zero hwhole)
    _ = samples * channels * 4 * dataBits := by
        rw [htotal]
        simp [Nat.mul_assoc]

/-- Given groups of samples and channels that are in order, a packet layout only depends on
the sizes. -/
theorem UdpPacketLayout.decides_make {channels samples samplesPerWeight dataBits weightBits : Nat}
    (headerSize : Nat) (hchannels : channels ≠ 0) (hsamples : samples ≠ 0)
    (hgroup : samplesPerWeight ≠ 0) (hgroups : samplesPerWeight ∣ samples) (hdata : dataBits ≠ 0)
    (hbytes : 8 ∣ dataBits) (hweight : weightBits ≠ 0) :
    Decides (make headerSize channels samples samplesPerWeight dataBits weightBits)
      [⟨"UDP_NSAMP", samples * channels * 4 * dataBits < sizeBound⟩,
        ⟨"UDP_NCHAN", samples / samplesPerWeight * channels * weightBits < sizeBound⟩,
        ⟨"NBIT", 8 ∣ samples / samplesPerWeight * channels * weightBits⟩]
      (· = {
        headerSize, channels, samples, samplesPerWeight
        scalesSize := scaleSize
        weightsSize := samples / samplesPerWeight * channels * weightBits / 8
        dataSize := samples * channels * 4 * dataBits / 8 }) := by
  have hcount : 0 < samples / samplesPerWeight :=
    Nat.div_pos (Nat.le_of_dvd (Nat.pos_of_ne_zero hsamples) hgroups) (Nat.pos_of_ne_zero hgroup)
  have hwhole : samples * channels * 4 * dataBits % 8 = 0 :=
    Nat.mod_eq_zero_of_dvd (Nat.dvd_mul_left_of_dvd hbytes _)
  apply Decides.require_bind hchannels
  apply Decides.require_bind hsamples
  apply Decides.require_bind ⟨hgroup, Nat.mod_eq_zero_of_dvd hgroups⟩
  refine (decides_sizeProduct "UDP_NSAMP" (samples * channels * 4 * dataBits) ?_ ?_).bind
    fun dataTotal hdataTotal => ?_
  · simp only [List.forall_mem_cons, List.not_mem_nil, false_implies, implies_true, and_true]
    omega
  · simp [Nat.mul_assoc]
  subst hdataTotal
  apply Decides.require_bind ⟨hdata, hwhole⟩
  refine (decides_sizeProduct "UDP_NCHAN" (samples / samplesPerWeight * channels * weightBits)
    ?_ ?_).bind fun weightsTotal hweightsTotal => ?_
  · simp only [List.forall_mem_cons, List.not_mem_nil, false_implies, implies_true, and_true]
    omega
  · simp
  subst hweightsTotal
  have hasked : weightBits ≠ 0 ∧ samples / samplesPerWeight * channels * weightBits % 8 = 0 ↔
      8 ∣ samples / samplesPerWeight * channels * weightBits :=
    ⟨fun hboth => Nat.dvd_of_mod_eq_zero hboth.2,
      fun hdvd => ⟨hweight, Nat.mod_eq_zero_of_dvd hdvd⟩⟩
  exact (Decides.ofRequire hasked).bind fun _ _ => Decides.pure rfl

/-! ## Numbers of a heap -/

/-- The numbers in a data header and a weights header on which the size of heaps depends.  A
number that is missing counts as zero. -/
structure HeapNumbers where
  /-- Frequency channels in the stream. -/
  channels : Nat
  /-- Time samples in a packet. -/
  samples : Nat
  /-- Frequency channels in a packet. -/
  packetChannels : Nat
  samplesPerWeight : Nat
  /-- Bits per real sample value. -/
  sampleBits : Nat
  /-- Bits per weight. -/
  weightBits : Nat

namespace HeapNumbers

/-- The numbers of two headers; those that both must give are taken from the data header. -/
def ofHeaders (data weights : Header) : HeapNumbers where
  channels := (data.number? Key.channels).getD 0
  samples := (data.number? Key.packetSamples).getD 0
  packetChannels := (data.number? Key.packetChannels).getD 0
  samplesPerWeight := (data.number? Key.weightSamples).getD 0
  sampleBits := (data.number? Key.bits).getD 0
  weightBits := (weights.number? Key.bits).getD 0

/-- The bits of the samples in a packet: each sample is complex and has two polarisations. -/
def dataTotal (n : HeapNumbers) : Nat :=
  n.samples * n.packetChannels * 4 * n.sampleBits

/-- The bits of the weights in a packet. -/
def weightsTotal (n : HeapNumbers) : Nat :=
  n.samples / n.samplesPerWeight * n.packetChannels * n.weightBits

/-- The bytes of a heap in the data stream. -/
def dataHeap (n : HeapNumbers) : Nat :=
  n.channels / n.packetChannels * (n.dataTotal / 8)

/-- The bytes of a heap in the weights stream. -/
def weightsHeap (n : HeapNumbers) : Nat :=
  n.channels / n.packetChannels * (4 + n.weightsTotal / 8)

/-- The packet layout of these numbers. -/
def packet (n : HeapNumbers) : UdpPacketLayout where
  headerSize := 0
  channels := n.packetChannels
  samples := n.samples
  samplesPerWeight := n.samplesPerWeight
  scalesSize := 4
  weightsSize := n.weightsTotal / 8
  dataSize := n.dataTotal / 8

/-- The heap layout of these numbers. -/
def layout (n : HeapNumbers) : HeapLayout where
  channels := n.channels
  dataBits := n.sampleBits
  weightBits := n.weightBits
  packetsPerHeap := n.channels / n.packetChannels
  packet := n.packet
  dataPacketStride := n.dataTotal / 8
  weightsPacketStride := 4 + n.weightsTotal / 8
  dataHeapStride := n.dataHeap
  weightsHeapStride := n.weightsHeap

variable {n : HeapNumbers}

theorem packets_pos (hchannels : n.channels ≠ 0) (hpacket : n.packetChannels ≠ 0)
    (hdvd : n.packetChannels ∣ n.channels) : 0 < n.channels / n.packetChannels :=
  Nat.div_pos (Nat.le_of_dvd (Nat.pos_of_ne_zero hchannels) hdvd) (Nat.pos_of_ne_zero hpacket)

theorem eight_dvd_dataTotal (hbytes : 8 ∣ n.sampleBits) : 8 ∣ n.dataTotal :=
  Nat.dvd_mul_left_of_dvd hbytes _

theorem dataBytes_pos (hsamples : n.samples ≠ 0) (hpacket : n.packetChannels ≠ 0)
    (hbits : n.sampleBits ≠ 0) (hbytes : 8 ∣ n.sampleBits) : 0 < n.dataTotal / 8 := by
  have htotal : 0 < n.dataTotal := Nat.pos_of_ne_zero <|
    Nat.mul_ne_zero (Nat.mul_ne_zero (Nat.mul_ne_zero hsamples hpacket) (by decide)) hbits
  exact Nat.div_pos (Nat.le_of_dvd htotal (eight_dvd_dataTotal hbytes)) (by decide)

end HeapNumbers

/-! ## Acceptance -/

namespace HeapLayout

/-- What is asked of a data header and a weights header, in the order of the checks. -/
def requirements (data weights : Header) : List Requirement :=
  let n := HeapNumbers.ofHeaders data weights
  sharedFields.map (fun field =>
    ⟨field, ∃ number, data.number? field = some number ∧ weights.number? field = some number⟩) ++
  [⟨Key.dimensions, data.number? Key.dimensions = some 2⟩,
    ⟨Key.polarisations, data.number? Key.polarisations = some 2⟩,
    ⟨Key.bits, n.sampleBits ∈ [8, 16, 32]⟩,
    ⟨Key.channels, n.channels ≠ 0⟩,
    ⟨Key.packetSamples, n.samples ≠ 0⟩,
    ⟨Key.packetChannels, n.packetChannels ≠ 0⟩,
    ⟨Key.weightSamples, n.samplesPerWeight ≠ 0⟩,
    ⟨Key.channels, n.packetChannels ∣ n.channels⟩,
    ⟨Key.packetSamples, n.samplesPerWeight ∣ n.samples⟩,
    ⟨Key.dimensions, weights.number? Key.dimensions = some 1⟩,
    ⟨Key.polarisations, weights.number? Key.polarisations = some 1⟩,
    ⟨Key.bits, n.weightBits ≠ 0⟩,
    ⟨Key.packetSamples, n.dataTotal < sizeBound⟩,
    ⟨Key.packetChannels, n.weightsTotal < sizeBound⟩,
    ⟨Key.bits, 8 ∣ n.weightsTotal⟩,
    ⟨Key.channels, n.dataHeap < sizeBound⟩,
    ⟨Key.channels, n.weightsHeap < sizeBound⟩]

variable {data weights : Header} {layout : HeapLayout}

theorem decides_checkShared (data weights : Header) (field : String) :
    Decides (checkShared data weights field)
      [⟨field, ∃ number, data.number? field = some number ∧ weights.number? field = some number⟩]
      fun _ => True := by
  apply Decides.single
  · rintro ⟨number, hdata, hweights⟩
    refine ⟨(), ?_, trivial⟩
    simp only [checkShared, bind_eq_ok, require_eq_ok]
    exact ⟨number, Header.unsigned32_of_number? hdata, number,
      Header.unsigned32_of_number? hweights, rfl⟩
  · intro hnone
    simp only [checkShared, bind_eq_error, require_eq_error]
    cases hdata : data.number? field with
    | none =>
        obtain ⟨message, herror⟩ := Header.unsigned32_of_number?_eq_none hdata
        exact ⟨message, Or.inl herror⟩
    | some number =>
        have hfirst := Header.unsigned32_of_number? hdata
        cases hweights : weights.number? field with
        | none =>
            obtain ⟨message, herror⟩ := Header.unsigned32_of_number?_eq_none hweights
            exact ⟨message, Or.inr ⟨number, hfirst, Or.inl herror⟩⟩
        | some other =>
            have hsecond := Header.unsigned32_of_number? hweights
            have hne : number ≠ other := by
              rintro rfl
              exact hnone ⟨number, hdata, hweights⟩
            exact ⟨_, Or.inr ⟨number, hfirst, Or.inr ⟨other, hsecond, hne, rfl⟩⟩⟩

theorem decides_positive (header : Header) (field : String) :
    Decides (positive header field) [⟨field, (header.number? field).getD 0 ≠ 0⟩]
      fun value => value = (header.number? field).getD 0 ∧ value ≠ 0 :=
  Header.decides_number (p := (· ≠ 0)) (fun hne => hne rfl) header field _

theorem decides_sampleBits (header : Header) :
    Decides (sampleBits header) [⟨Key.bits, (header.number? Key.bits).getD 0 ∈ [8, 16, 32]⟩]
      fun bits => bits = (header.number? Key.bits).getD 0 ∧ bits ∈ [8, 16, 32] :=
  Header.decides_number (p := (· ∈ [8, 16, 32])) (by decide) header Key.bits _

/-- The sizes of heaps are the last that is checked. -/
theorem decides_ofPacket (n : HeapNumbers) (hdata : 0 < n.dataTotal / 8)
    (hchannels : n.channels ≠ 0) (hpacket : n.packetChannels ≠ 0) (hdvd : n.packetChannels ∣ n.channels) :
    Decides (ofPacket n.channels n.sampleBits n.weightBits n.packet)
      [⟨Key.channels, n.dataHeap < sizeBound⟩, ⟨Key.channels, n.weightsHeap < sizeBound⟩]
      (· = n.layout) := by
  have hpackets := HeapNumbers.packets_pos hchannels hpacket hdvd
  refine (decides_sizeProduct Key.channels n.dataHeap ?_ ?_).bind fun dataHeap hdataHeap => ?_
  · exact List.forall_mem_cons.mpr ⟨hpackets, List.forall_mem_singleton.mpr hdata⟩
  · simp [HeapNumbers.dataHeap, HeapNumbers.packet]
  refine (decides_sizeProduct Key.channels n.weightsHeap ?_ ?_).bind
    fun weightsHeap hweightsHeap => ?_
  · refine List.forall_mem_cons.mpr ⟨hpackets, List.forall_mem_singleton.mpr ?_⟩
    exact Nat.add_pos_left (show 0 < 4 by decide) _
  · simp [HeapNumbers.weightsHeap, HeapNumbers.packet]
  subst hdataHeap hweightsHeap
  exact Decides.pure rfl

/-- **What decides about a pair of headers.**  The heap layout of two headers is that of
their numbers, if all requirements are met. -/
theorem decides_configure (data weights : Header) :
    Decides (configure data weights) (requirements data weights)
      (· = (HeapNumbers.ofHeaders data weights).layout) := by
  refine (Decides.forM (decides_checkShared data weights) sharedFields).bind fun _ _ => ?_
  refine (data.decides_checkValue Key.dimensions 2).bind fun _ _ => ?_
  refine (data.decides_checkValue Key.polarisations 2).bind fun _ _ => ?_
  refine (decides_sampleBits data).bind fun bits hbits => ?_
  refine (decides_positive data Key.channels).bind fun channels hchannels => ?_
  refine (decides_positive data Key.packetSamples).bind fun samples hsamples => ?_
  refine (decides_positive data Key.packetChannels).bind fun packetChannels hpacketChannels => ?_
  refine (decides_positive data Key.weightSamples).bind fun samplesPerWeight hgroup => ?_
  obtain ⟨rfl, hsupported⟩ := hbits
  obtain ⟨rfl, hchannels⟩ := hchannels
  obtain ⟨rfl, hsamples⟩ := hsamples
  obtain ⟨rfl, hpacketChannels⟩ := hpacketChannels
  obtain ⟨rfl, hgroup⟩ := hgroup
  refine (Decides.ofRequire Nat.dvd_iff_mod_eq_zero.symm).bind fun _ hdvd => ?_
  refine (Decides.ofRequire Nat.dvd_iff_mod_eq_zero.symm).bind fun _ hgroups => ?_
  refine (weights.decides_checkValue Key.dimensions 1).bind fun _ _ => ?_
  refine (weights.decides_checkValue Key.polarisations 1).bind fun _ _ => ?_
  refine (decides_positive weights Key.bits).bind fun weightBits hweight => ?_
  obtain ⟨rfl, hweight⟩ := hweight
  have hbytes : ∀ bits ∈ [8, 16, 32], bits ≠ 0 ∧ 8 ∣ bits := by decide
  obtain ⟨hbits, height⟩ := hbytes _ hsupported
  refine (UdpPacketLayout.decides_make 0 hpacketChannels hsamples hgroup hgroups hbits height
    hweight).bind fun packet hpacket => ?_
  subst hpacket
  refine decides_ofPacket (HeapNumbers.ofHeaders data weights) ?_ hchannels hpacketChannels hdvd
  exact HeapNumbers.dataBytes_pos hsamples hpacketChannels hbits height

/-- The geometry of the heaps that some numbers describe, in unbounded integers. -/
structure Describes (layout : HeapLayout) (n : HeapNumbers) : Prop where
  packetsPerHeap_mul : layout.packetsPerHeap * n.packetChannels = n.channels
  dataPacketStride_eq :
    8 * layout.dataPacketStride = n.samples * n.packetChannels * 4 * n.sampleBits
  weightsPacketStride_eq : 8 * layout.weightsPacketStride =
    8 * 4 + n.samples / n.samplesPerWeight * n.packetChannels * n.weightBits
  dataHeapStride_eq : layout.dataHeapStride = layout.packetsPerHeap * layout.dataPacketStride
  weightsHeapStride_eq :
    layout.weightsHeapStride = layout.packetsPerHeap * layout.weightsPacketStride
  dataHeapStride_pos : 0 < layout.dataHeapStride
  weightsHeapStride_pos : 0 < layout.weightsHeapStride
  dataHeapStride_lt : layout.dataHeapStride < sizeBound
  weightsHeapStride_lt : layout.weightsHeapStride < sizeBound

theorem describes_of_requirements
    (hmet : ∀ requirement ∈ requirements data weights, requirement.met) :
    (HeapNumbers.ofHeaders data weights).layout.Describes (HeapNumbers.ofHeaders data weights) := by
  simp only [requirements, List.forall_mem_append, List.forall_mem_cons] at hmet
  obtain ⟨_, _, _, hsupported, hchannels, hsamples, hpacketChannels, hgroup, hdvd, hgroups, _, _,
    hweight, _, _, hwhole, hdataHeap, hweightsHeap, _⟩ := hmet
  have hbytes : ∀ bits ∈ [8, 16, 32], bits ≠ 0 ∧ 8 ∣ bits := by decide
  obtain ⟨hbits, height⟩ := hbytes _ hsupported
  have hpackets := HeapNumbers.packets_pos hchannels hpacketChannels hdvd
  refine ⟨Nat.div_mul_cancel hdvd, ?_, ?_, rfl, rfl, ?_, ?_, hdataHeap, hweightsHeap⟩
  · exact Nat.mul_div_cancel' (HeapNumbers.eight_dvd_dataTotal height)
  · show 8 * (4 + (HeapNumbers.ofHeaders data weights).weightsTotal / 8) = _
    rw [Nat.mul_add, Nat.mul_div_cancel' hwhole]
    rfl
  · exact Nat.mul_pos hpackets (HeapNumbers.dataBytes_pos hsamples hpacketChannels hbits height)
  · exact Nat.mul_pos hpackets (Nat.add_pos_left (by decide) _)

theorem of_configure (hlayout : configure data weights = .ok layout) :
    (∀ requirement ∈ requirements data weights, requirement.met) ∧
      layout = (HeapNumbers.ofHeaders data weights).layout :=
  (decides_configure data weights).of_ok hlayout

/-- The strides of an accepted layout are positive: its heaps hold bytes in both streams. -/
theorem strides_pos_of_configure (hlayout : configure data weights = .ok layout) :
    0 < layout.dataHeapStride ∧ 0 < layout.weightsHeapStride := by
  obtain ⟨hmet, rfl⟩ := of_configure hlayout
  have hdescribes := describes_of_requirements hmet
  exact ⟨hdescribes.dataHeapStride_pos, hdescribes.weightsHeapStride_pos⟩

/-- **Acceptance and exact geometry.**  Two headers have a heap layout exactly if they meet
the requirements; its geometry is the one that their numbers describe.  All else is refused
with a validation error, which names the field of the first requirement that is not met. -/
theorem configure_exact (data weights : Header) :
    ((∃ layout, configure data weights = .ok layout) ↔
      ∀ requirement ∈ requirements data weights, requirement.met) ∧
    (∀ layout, configure data weights = .ok layout →
      layout.Describes (HeapNumbers.ofHeaders data weights)) ∧
    ∀ error, configure data weights = .error error →
      ∃ field message, error = .validation field message ∧
        FirstUnmet (requirements data weights) field := by
  have hdecides := decides_configure data weights
  refine ⟨hdecides.exists_ok_iff, ?_, ?_⟩
  · intro layout hlayout
    obtain ⟨hmet, rfl⟩ := of_configure hlayout
    exact describes_of_requirements hmet
  · intro error herror
    exact hdecides.of_error herror

/-- A header of a stream in packets of 32 samples, of which eight share a weight. -/
def streamHeader (channels packetChannels form bits : String) : Header :=
  ⟨[⟨"NCHAN", channels⟩, ⟨"UDP_NCHAN", packetChannels⟩, ⟨"UDP_NSAMP", "32"⟩, ⟨"WT_NSAMP", "8"⟩,
    ⟨"NDIM", form⟩, ⟨"NPOL", form⟩, ⟨"NBIT", bits⟩]⟩

/-- Two packets make a heap of eight channels.  With all numbers of the weights as large as
they can be, it is the weights of a packet that no longer fit in 64 bits. -/
theorem configure_exact_streamHeader :
    (∃ layout, configure (streamHeader "8" "4" "2" "16") (streamHeader "8" "4" "1" "16") =
        .ok layout ∧ layout.Describes ⟨8, 32, 4, 8, 16, 16⟩) ∧
    FirstUnmet (requirements (streamHeader "4294967295" "4294967295" "2" "32")
      (streamHeader "4294967295" "4294967295" "1" "4294967295")) Key.packetChannels := by
  refine ⟨?_, ?_⟩
  · have haccepted : configure (streamHeader "8" "4" "2" "16") (streamHeader "8" "4" "1" "16") =
        .ok (HeapNumbers.layout ⟨8, 32, 4, 8, 16, 16⟩) := rfl
    exact ⟨_, haccepted, (configure_exact _ _).2.1 _ haccepted⟩
  · have hrefused : configure (streamHeader "4294967295" "4294967295" "2" "32")
        (streamHeader "4294967295" "4294967295" "1" "4294967295") =
        .error (.validation "UDP_NCHAN" "size of [4, 4294967295, 4294967295] overflows") := rfl
    obtain ⟨field, message, herror, hunmet⟩ := (configure_exact _ _).2.2 _ hrefused
    obtain ⟨rfl, _⟩ := Error.validation.inj herror
    exact hunmet

end HeapLayout

end VoltageCapture
