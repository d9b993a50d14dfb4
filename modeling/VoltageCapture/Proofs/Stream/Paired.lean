import VoltageCapture.Proofs.Stream.Mapped
import VoltageCapture.Proofs.Stream.PairRun

/-!
# Complete and exact runs of a pair

A pair of capture streams is read to its end without an error exactly if both payloads
are the same heaps (`PayloadPair.Match`).  Nothing but the payloads decides this: not
whether the captures are mapped or copied, not how many heaps a block of copies holds or
how often that is changed, and not in what pieces the readers deliver.

* `exact_answers_mapped` and `exact_answers_copying` are the two kinds of pairs.
* `exact_answers` puts them together.
-/

namespace VoltageCapture

/-! ## Payloads that match -/

namespace PayloadPair

variable {P : PayloadPair} {answers : Nat → Except Error BlockPair}

/-- Both payloads are the same heaps: as many of them, and unless there are none, the same
ones of the observation. -/
def Match (P : PayloadPair) : Prop :=
  ∃ count, P.data.length = count * P.D ∧ P.weights.length = count * P.W ∧
    (count = 0 ∨ P.Aligned)

theorem match_iff_matchFrom_zero : P.Match ↔ P.MatchFrom 0 := by
  simp only [Match, MatchFrom, Nat.le_zero]

/-- There can be buffers for so many heaps of both payloads. -/
structure Fits (P : PayloadPair) (heaps : Nat) : Prop where
  pos : 0 < heaps
  data_le : heaps * P.D ≤ Bytes.maxLength
  weights_le : heaps * P.W ≤ Bytes.maxLength

/-- The answers come to the end without an error exactly if the payloads match.  Then they
hand out all of both payloads and stay at the end; otherwise they come upon a validation
error. -/
structure Exact (P : PayloadPair) (answers : Nat → Except Error BlockPair) : Prop where
  ends_iff : EndsWithoutError answers ↔ P.Match
  completes : P.Match → ∃ blocks, Completes P.layout P.data P.weights answers blocks
  breaks : ¬P.Match → ∃ blocks, Breaks P.layout answers blocks

theorem exact_of (hD : 0 < P.D)
    (hcompletes : P.Match → ∃ blocks, Completes P.layout P.data P.weights answers blocks)
    (hbreaks : ¬P.Match → ∃ blocks, Breaks P.layout answers blocks) : P.Exact answers := by
  refine ⟨⟨?_, ?_⟩, hcompletes, hbreaks⟩
  · intro hends
    by_cases hmatch : P.Match
    · exact hmatch
    · obtain ⟨blocks, hblocks⟩ := hbreaks hmatch
      exact absurd hends (hblocks.not_endsWithoutError hD)
  · intro hmatch
    obtain ⟨blocks, hblocks⟩ := hcompletes hmatch
    exact hblocks.endsWithoutError

end PayloadPair

/-! ## Streams that were just opened -/

/-- The stream is a capture file that was opened in place, with its payload and the
payload's offset within the observation. -/
def MappedStream.Opened (payload : Bytes) (obsOffset : Nat) (stream : MappedStream) : Prop :=
  ∃ tree config, ofConfig tree config = .ok stream ∧ stream.payload = payload ∧
    stream.header.unsigned64 Key.obsOffset = .ok obsOffset

/-- The stream was opened on a reliable reader.  The payload is what follows the header
block in the reader. -/
def CopyingStream.Opened (payload : Bytes) (obsOffset : Nat) (stream : CopyingStream) : Prop :=
  ∃ reader source blockSize hint, reader.Reliable ∧
    ofReader reader source blockSize hint = .ok stream ∧
    Capture.payload hint reader.unread = payload ∧
    stream.header.unsigned64 Key.obsOffset = .ok obsOffset

variable {payload : Bytes} {obsOffset start size : Nat}

theorem MappedStream.readyAt_of_opened {stream : MappedStream}
    (hopened : Opened payload obsOffset stream) (hsize : payload.length ≤ size) :
    ReadyAt payload obsOffset 0 size stream := by
  obtain ⟨tree, config, hopen, hpayload, hoffset⟩ := hopened
  obtain ⟨_, _, _, _, _, _, hsame, hdelivered⟩ := of_ofConfig hopen
  rw [hsame, Except.ok.injEq] at hoffset
  exact ⟨hpayload, hoffset, hsize, Or.inl ⟨hdelivered, rfl⟩⟩

theorem CopyingStream.readyAt_of_opened {stream : CopyingStream}
    (hopened : Opened payload obsOffset stream) :
    ReadyAt payload obsOffset 0 stream.blockSize stream := by
  obtain ⟨reader, source, blockSize, hint, hreader, hopen, rfl, hoffset⟩ := hopened
  obtain ⟨_, hsame, hdelivered, _⟩ := of_ofReader hopen
  rw [hsame, Except.ok.injEq] at hoffset
  refine ⟨serves_of_ofReader hreader hopen, hoffset, ?_, rfl⟩
  rw [hdelivered, Nat.zero_min]

theorem CopyingStream.readyAt_setBlockSize {stream : CopyingStream} {wanted : Nat}
    (hready : ReadyAt payload obsOffset start size stream) (hpos : 0 < wanted)
    (hmax : wanted ≤ Bytes.maxLength) :
    ∃ after, stream.setBlockSize wanted = (.ok (), after) ∧
      ReadyAt payload obsOffset start wanted after :=
  ⟨_, setBlockSize_eq_ok hpos hmax,
    ⟨hready.serves.reliable, hready.serves.delivered_le, hready.serves.unhanded⟩,
    hready.obsOffset_eq, hready.delivered_eq, rfl⟩

namespace PairedStream

/-! ## Pairs that were just made -/

section Pairs

variable {D W : Type} [BlockStream D] [BlockStream W] {pair after : PairedStream D W}
  {data : D} {weights : W} {layout : HeapLayout} {P : PayloadPair}

/-- The pair holds two streams whose headers have a layout, and no step of it has failed. -/
structure IsPairOf (pair : PairedStream D W) (data : D) (weights : W) (layout : HeapLayout) :
    Prop where
  parts_eq : pair.parts = .ok (data, weights, layout)
  layoutOf_eq : layoutOf data weights = .ok layout
  failed_eq : pair.failed = false

theorem isPairOf_ofStreams (hpair : ofStreams data weights = .ok pair)
    (hlayout : pair.heapLayout = .ok layout) : pair.IsPairOf data weights layout := by
  simp only [ofStreams, bind_eq_ok, pure_eq_ok] at hpair
  obtain ⟨found, hfound, rfl⟩ := hpair
  obtain rfl : found = layout := Except.ok.inj hlayout
  exact ⟨rfl, hfound, rfl⟩

theorem IsPairOf.strides_pos (hpair : pair.IsPairOf data weights P.layout) : 0 < P.D ∧ 0 < P.W :=
  HeapLayout.strides_pos_of_configure hpair.layoutOf_eq

variable {dataReady : Nat → Nat → D → Prop} {weightsReady : Nat → Nat → W → Prop} {heaps : Nat}
  {prepare : Nat → PairedStream D W → PairedStream D W}

/-- A pair that is ready at its first heaps is read exactly, whatever its streams are. -/
theorem exact_of_ready (hreads : Reads P dataReady weightsReady)
    (hprepare : ∀ i, Prepares P dataReady weightsReady (prepare i))
    (hready : Ready P dataReady weightsReady 0 heaps (prepare 0 pair)) :
    P.Exact (answers prepare pair) := by
  apply PayloadPair.exact_of hreads.dataStride_pos
  · intro hmatch
    obtain ⟨count, hdata, hweights, hstart⟩ := hmatch
    have haligned : 0 < count → P.Aligned := fun hpos => hstart.resolve_left (Nat.ne_of_gt hpos)
    have hblocks := completes_of_ready hreads hprepare hready hdata hweights haligned
    rwa [Nat.zero_mul, Nat.zero_mul, List.drop_zero, List.drop_zero] at hblocks
  · intro hmismatch
    rw [PayloadPair.match_iff_matchFrom_zero] at hmismatch
    apply breaks_of_ready hreads hprepare hready ?_ ?_ hmismatch
    · rw [Nat.zero_mul]
      exact Nat.zero_le _
    · rw [Nat.zero_mul]
      exact Nat.zero_le _

end Pairs

/-! ## Mapped captures -/

variable {P : PayloadPair}

section Mapped

variable {pair : PairedStream MappedStream MappedStream} {data weights : MappedStream}

theorem reads_mapped (hpair : pair.IsPairOf data weights P.layout) :
    Reads P (MappedStream.ReadyAt P.data P.dataOffset)
      (MappedStream.ReadyAt P.weights P.weightsOffset) := by
  obtain ⟨hD, hW⟩ := hpair.strides_pos
  exact ⟨hD, hW, MappedStream.steady_readyAt _ _, MappedStream.steady_readyAt _ _⟩

/-- A step gives all heaps at once, so it is as good as one of any number that is not too small. -/
theorem ready_mapped (hdata : data.Opened P.data P.dataOffset)
    (hweights : weights.Opened P.weights P.weightsOffset)
    (hpair : pair.IsPairOf data weights P.layout) {heaps : Nat} (hpos : 0 < heaps)
    (hdataFits : P.data.length ≤ heaps * P.D) (hweightsFits : P.weights.length ≤ heaps * P.W) :
    Ready P (MappedStream.ReadyAt P.data P.dataOffset)
      (MappedStream.ReadyAt P.weights P.weightsOffset) 0 heaps pair := by
  refine ⟨hpos, hpair.failed_eq, data, weights, hpair.parts_eq, ?_, ?_⟩
  · rw [Nat.zero_mul]
    exact MappedStream.readyAt_of_opened hdata hdataFits
  · rw [Nat.zero_mul]
    exact MappedStream.readyAt_of_opened hweights hweightsFits

theorem prepares_id {D W : Type} [BlockStream D] [BlockStream W]
    {dataReady : Nat → Nat → D → Prop} {weightsReady : Nat → Nat → W → Prop} :
    Prepares P dataReady weightsReady id :=
  ⟨fun hsame => ⟨_, hsame⟩, fun hfailed => hfailed⟩

theorem exact_answers_mapped (hdata : data.Opened P.data P.dataOffset)
    (hweights : weights.Opened P.weights P.weightsOffset)
    (hpair : pair.IsPairOf data weights P.layout) :
    P.Exact (answers (fun _ => id) pair) := by
  obtain ⟨hD, hW⟩ := hpair.strides_pos
  have hdataFits : P.data.length ≤ (P.data.length + P.weights.length + 1) * P.D :=
    Nat.le_trans (by omega) (Nat.le_mul_of_pos_right _ hD)
  have hweightsFits : P.weights.length ≤ (P.data.length + P.weights.length + 1) * P.W :=
    Nat.le_trans (by omega) (Nat.le_mul_of_pos_right _ hW)
  exact exact_of_ready (reads_mapped hpair) (fun _ => prepares_id)
    (ready_mapped hdata hweights hpair (Nat.succ_pos _) hdataFits hweightsFits)

end Mapped

/-! ## Copied captures -/

section Loaders

variable {pair : PairedStream CopyingStream CopyingStream} {data weights : CopyingStream}
  {start heaps dataSize weightsSize : Nat} {counts : List Nat}

/-- Setting the number of heaps moves neither stream. -/
theorem ready_setHeapsPerBlock (hD : 0 < P.D) (hW : 0 < P.W) (hfailed : pair.failed = false)
    (hparts : pair.parts = .ok (data, weights, P.layout))
    (hdata : data.ReadyAt P.data P.dataOffset (start * P.D) dataSize)
    (hweights : weights.ReadyAt P.weights P.weightsOffset (start * P.W) weightsSize)
    (hfits : P.Fits heaps) :
    Ready P (CopyingStream.ReadyAt P.data P.dataOffset)
      (CopyingStream.ReadyAt P.weights P.weightsOffset) start heaps
      (pair.setHeapsPerBlock heaps).2 := by
  obtain ⟨dataAfter, hdataSet, hdataReady⟩ :=
    CopyingStream.readyAt_setBlockSize hdata (Nat.mul_pos hfits.pos hD) hfits.data_le
  obtain ⟨weightsAfter, hweightsSet, hweightsReady⟩ :=
    CopyingStream.readyAt_setBlockSize hweights (Nat.mul_pos hfits.pos hW) hfits.weights_le
  obtain ⟨_, _, hlayout⟩ := parts_eq_ok.mp hparts
  have hset : (pair.setHeapsPerBlock heaps).2 =
      { pair with data? := some dataAfter, weights? := some weightsAfter } := by
    rw [setHeapsPerBlock, if_neg (Nat.ne_of_gt hfits.pos)]
    simp only [hparts, BlockLoader.setBlockSize, hdataSet, hweightsSet]
  rw [hset]
  exact ⟨hfits.pos, hfailed, dataAfter, weightsAfter, parts_eq_ok.mpr ⟨rfl, rfl, hlayout⟩,
    hdataReady, hweightsReady⟩

theorem failed_setHeapsPerBlock {D W : Type} [BlockLoader D] [BlockLoader W]
    (pair : PairedStream D W) (heaps : Nat) :
    (pair.setHeapsPerBlock heaps).2.failed = pair.failed := by
  unfold setHeapsPerBlock
  split
  · rfl
  split
  · rfl
  split
  · rfl
  · rfl

/-- The pair after the number of heaps was set to each of some counts in turn. -/
def sized (counts : List Nat) (pair : PairedStream CopyingStream CopyingStream) :
    PairedStream CopyingStream CopyingStream :=
  counts.foldl (fun pair heaps => (pair.setHeapsPerBlock heaps).2) pair

theorem prepares_sized (hD : 0 < P.D) (hW : 0 < P.W) (hfits : ∀ heaps ∈ counts, P.Fits heaps) :
    Prepares P (CopyingStream.ReadyAt P.data P.dataOffset)
      (CopyingStream.ReadyAt P.weights P.weightsOffset) (sized counts) := by
  induction counts with
  | nil => exact ⟨fun hready => ⟨_, hready⟩, fun hfailed => hfailed⟩
  | cons count counts ih =>
      have hfirst := hfits count List.mem_cons_self
      have hrest := ih fun heaps hmem => hfits heaps (List.mem_cons_of_mem _ hmem)
      refine ⟨?_, ?_⟩
      · intro start heaps pair hready
        obtain ⟨data, weights, hparts, hdata, hweights⟩ := hready.streams
        apply hrest.ready
        exact ready_setHeapsPerBlock hD hW hready.failed_eq hparts hdata hweights hfirst
      · intro pair hfailed
        apply hrest.failed
        exact (failed_setHeapsPerBlock pair count).trans hfailed

/-- A pair of copied captures is read exactly, if the number of heaps is set ahead of the
first step, whatever is set later. -/
theorem exact_answers_copying (hdata : data.Opened P.data P.dataOffset)
    (hweights : weights.Opened P.weights P.weightsOffset)
    (hpair : pair.IsPairOf data weights P.layout) {counts : Nat → List Nat}
    (hset : counts 0 ≠ []) (hfits : ∀ i, ∀ heaps ∈ counts i, P.Fits heaps) :
    P.Exact (answers (fun i => sized (counts i)) pair) := by
  obtain ⟨hD, hW⟩ := hpair.strides_pos
  have hreads : Reads P (CopyingStream.ReadyAt P.data P.dataOffset)
      (CopyingStream.ReadyAt P.weights P.weightsOffset) :=
    ⟨hD, hW, CopyingStream.steady_readyAt _ _, CopyingStream.steady_readyAt _ _⟩
  obtain ⟨count, rest, hcounts⟩ := List.exists_cons_of_ne_nil hset
  have hfirst : ∀ heaps ∈ count :: rest, P.Fits heaps := hcounts ▸ hfits 0
  have hdataStart : data.ReadyAt P.data P.dataOffset (0 * P.D) data.blockSize := by
    rw [Nat.zero_mul]
    exact CopyingStream.readyAt_of_opened hdata
  have hweightsStart : weights.ReadyAt P.weights P.weightsOffset (0 * P.W) weights.blockSize := by
    rw [Nat.zero_mul]
    exact CopyingStream.readyAt_of_opened hweights
  have hstart := ready_setHeapsPerBlock hD hW hpair.failed_eq hpair.parts_eq hdataStart
    hweightsStart (hfirst count List.mem_cons_self)
  -- what else is set ahead of the first step
  have hothers : ∀ heaps ∈ rest, P.Fits heaps := by
    intro heaps hmem
    exact hfirst heaps (List.mem_cons_of_mem _ hmem)
  obtain ⟨heaps, hready⟩ := (prepares_sized hD hW hothers).ready hstart
  apply exact_of_ready hreads (fun i => prepares_sized hD hW (hfits i))
  rw [hcounts]
  exact hready

end Loaders

/-! ## Both kinds of captures -/

/-- **A paired run is complete and exact.**  Let two streams be opened, mapped or copied,
and paired, so that their headers have a layout.  Where they are copied, let numbers of
heaps be set for which there can be buffers, at least one of them ahead of the first step.
Then repeated steps reach the end without an error exactly if both payloads are the same
heaps. -/
theorem exact_answers (P : PayloadPair) :
    (∀ {pair : PairedStream MappedStream MappedStream} {data weights : MappedStream},
      data.Opened P.data P.dataOffset → weights.Opened P.weights P.weightsOffset →
      pair.IsPairOf data weights P.layout → P.Exact (answers (fun _ => id) pair)) ∧
    (∀ {pair : PairedStream CopyingStream CopyingStream} {data weights : CopyingStream}
      {counts : Nat → List Nat},
      data.Opened P.data P.dataOffset → weights.Opened P.weights P.weightsOffset →
      pair.IsPairOf data weights P.layout → counts 0 ≠ [] →
      (∀ i, ∀ heaps ∈ counts i, P.Fits heaps) →
      P.Exact (answers (fun i => sized (counts i)) pair)) :=
  ⟨exact_answers_mapped, fun hdata hweights hpair hset hfits =>
    exact_answers_copying hdata hweights hpair hset hfits⟩

/-- Two heaps of one packet each. -/
def twoHeaps : PayloadPair where
  layout := {
    channels := 1, dataBits := 8, weightBits := 8, packetsPerHeap := 1
    packet := {
      headerSize := 0, channels := 1, samples := 1, samplesPerWeight := 1
      scalesSize := 4, weightsSize := 1, dataSize := 4 }
    dataPacketStride := 4, weightsPacketStride := 5, dataHeapStride := 4, weightsHeapStride := 5 }
  data := [1, 2, 3, 4, 5, 6, 7, 8]
  dataOffset := 6
  weights := [1, 2, 3, 4, 5, 6, 7, 8, 9, 10]
  weightsOffset := 9

/-- A capture whose header ends with the given lines. -/
def capture (lines : String) (payload : Bytes) : Bytes :=
  (Utf8.bytes "HDR_SIZE 96\nNCHAN 1\nUDP_NSAMP 1\nUDP_NCHAN 1\nWT_NSAMP 1\nNBIT 8\n"
    ++ Utf8.bytes lines).padTo 96 ++ payload

def dataCapture : Bytes :=
  capture "NDIM 2\nNPOL 2\nOBS_OFFSET 6\n" twoHeaps.data

def weightsCapture : Bytes :=
  capture "NDIM 1\nNPOL 1\nOBS_OFFSET 9\n" twoHeaps.weights

def captures : FileTree where
  home := []
  entries := [(["data"], .file dataCapture), (["weights"], .file weightsCapture)]

set_option maxRecDepth 4096 in
private theorem opened_mapped : (do
    let data ← MappedStream.ofConfig captures { path := "data", headerSizeHint := 16 }
    let weights ← MappedStream.ofConfig captures { path := "weights", headerSizeHint := 16 }
    let pair ← ofStreams data weights
    return (data.payload, data.header.unsigned64 Key.obsOffset,
      weights.payload, weights.header.unsigned64 Key.obsOffset, pair.heapLayout)) =
      .ok (twoHeaps.data, .ok twoHeaps.dataOffset,
        twoHeaps.weights, .ok twoHeaps.weightsOffset, .ok twoHeaps.layout) := by
  cbv

set_option maxRecDepth 4096 in
private theorem opened_copies : (do
    let data ← CopyingStream.ofReader (.stuttering dataCapture 60 1) "data" 3 16
    let weights ← CopyingStream.ofReader (.stuttering weightsCapture 70 0) "weights" 7 16
    let pair ← ofStreams data weights
    return (data.header.unsigned64 Key.obsOffset, weights.header.unsigned64 Key.obsOffset,
      pair.heapLayout)) =
      .ok (.ok twoHeaps.dataOffset, .ok twoHeaps.weightsOffset, .ok twoHeaps.layout) := by
  cbv

/-- Two heaps are read to their end, in place and as copies.  The copies are taken one heap
at a time at first, and two at a time from the second step on. -/
theorem exact_answers_twoHeaps :
    (∃ pair : PairedStream MappedStream MappedStream,
      EndsWithoutError (answers (fun _ => id) pair)) ∧
    (∃ pair : PairedStream CopyingStream CopyingStream,
      EndsWithoutError (answers (fun i => sized [min (i + 1) 2]) pair)) := by
  have hmatch : twoHeaps.Match := ⟨2, rfl, rfl, Or.inr rfl⟩
  refine ⟨?_, ?_⟩
  · have hopened := opened_mapped
    simp only [bind_eq_ok, pure_eq_ok, Prod.mk.injEq] at hopened
    obtain ⟨data, hdata, weights, hweights, pair, hpair, hpayload, hoffset, hweightsPayload,
      hweightsOffset, hlayout⟩ := hopened
    have hexact := (exact_answers twoHeaps).1 ⟨_, _, hdata, hpayload, hoffset⟩
      ⟨_, _, hweights, hweightsPayload, hweightsOffset⟩ (isPairOf_ofStreams hpair hlayout)
    exact ⟨pair, hexact.ends_iff.mpr hmatch⟩
  · have hopened := opened_copies
    have hpayload : Capture.payload 16 dataCapture = twoHeaps.data := by cbv
    have hweightsPayload : Capture.payload 16 weightsCapture = twoHeaps.weights := by cbv
    simp only [bind_eq_ok, pure_eq_ok, Prod.mk.injEq] at hopened
    obtain ⟨data, hdata, weights, hweights, pair, hpair, hoffset, hweightsOffset, hlayout⟩ := hopened
    have hfits : ∀ i, ∀ heaps ∈ [min (i + 1) 2], twoHeaps.Fits heaps := by
      intro i heaps hheaps
      rw [List.mem_singleton] at hheaps
      have hmax : 10 ≤ Bytes.maxLength := by decide
      refine ⟨by omega, ?_, ?_⟩
      · show heaps * 4 ≤ Bytes.maxLength
        omega
      · show heaps * 5 ≤ Bytes.maxLength
        omega
    have hexact := (exact_answers twoHeaps).2
      ⟨_, _, _, _, .stuttering dataCapture (by decide) 1, hdata, hpayload, hoffset⟩
      ⟨_, _, _, _, .stuttering weightsCapture (by decide) 0, hweights, hweightsPayload,
        hweightsOffset⟩ (isPairOf_ofStreams hpair hlayout) (List.cons_ne_nil _ _) hfits
    exact ⟨pair, hexact.ends_iff.mpr hmatch⟩

end PairedStream

end VoltageCapture
