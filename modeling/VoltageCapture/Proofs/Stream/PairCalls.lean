import VoltageCapture.Proofs.Stream.Paired

/-!
# Pairs after any calls

The streams of a pair may be replaced at any time: halfway through, after a failure, by
streams with other headers.  Nothing can then be said about a pair from what it has read
before.  What remains is the layout, which is always that of the two headers the pair has now
(`PairedStream.WellLaid`): every call keeps it, so every pair that calls lead to has it
(`PairedStream.Reachable.wellLaid`).  What a step gives or refuses follows from the two blocks
and this layout alone (`PairedStream.givesHeaps_of_reachable`).

The offsets of two blocks are compared as numbers of heaps, rounded down.  So the blocks of a
pair start in the same heap; they start at the same boundary of heaps if their offsets are
boundaries at all.
-/

namespace VoltageCapture

namespace BlockPair

variable {layout : HeapLayout} {data weights : Block} {pair : BlockPair} {heap count : Nat}

/-- The blocks have the length of `count` heaps, and both start in the heap `heap` of the
observation. -/
structure Covers (layout : HeapLayout) (pair : BlockPair) (heap count : Nat) : Prop where
  count_pos : 0 < count
  data_length : pair.data.length = count * layout.dataHeapStride
  weights_length : pair.weights.length = count * layout.weightsHeapStride
  data_start : pair.data.obsOffset / layout.dataHeapStride = heap
  weights_start : pair.weights.obsOffset / layout.weightsHeapStride = heap

/-- Blocks that start at a boundary of heaps start at the same one. -/
theorem Covers.obsOffset_eq (hcovers : Covers layout pair heap count)
    (hdata : layout.dataHeapStride ∣ pair.data.obsOffset)
    (hweights : layout.weightsHeapStride ∣ pair.weights.obsOffset) :
    pair.data.obsOffset = heap * layout.dataHeapStride ∧
      pair.weights.obsOffset = heap * layout.weightsHeapStride := by
  refine ⟨?_, ?_⟩
  · calc pair.data.obsOffset
        = pair.data.obsOffset / layout.dataHeapStride * layout.dataHeapStride :=
          (Nat.div_mul_cancel hdata).symm
      _ = heap * layout.dataHeapStride := by rw [hcovers.data_start]
  · calc pair.weights.obsOffset
        = pair.weights.obsOffset / layout.weightsHeapStride * layout.weightsHeapStride :=
          (Nat.div_mul_cancel hweights).symm
      _ = heap * layout.weightsHeapStride := by rw [hcovers.weights_start]

theorem isEnd_false_of_length {block : Block} (hlength : 0 < block.length) : block.isEnd = false := by
  rw [Block.isEnd, List.isEmpty_eq_false_iff]
  exact List.ne_nil_of_length_pos hlength

theorem isEnd_of_ofBlocks (hpair : ofBlocks layout data weights = .ok pair) :
    pair.isEnd = (data.isEnd && weights.isEnd) := by
  unfold ofBlocks at hpair
  split at hpair
  · next hdata hweights =>
    rw [← Except.ok.inj hpair, hdata, hweights]
    rfl
  · simp only [bind_eq_ok, pure_eq_ok] at hpair
    obtain ⟨_, _, rfl⟩ := hpair
    rfl
  · simp at hpair

/-- Two blocks that are not both end marks are paired exactly if they cover the same heaps. -/
theorem ofBlocks_eq_ok_iff_covers (hD : 0 < layout.dataHeapStride)
    (hW : 0 < layout.weightsHeapStride) (hend : (data.isEnd && weights.isEnd) = false) :
    ofBlocks layout data weights = .ok pair ↔
      pair = ⟨data, weights⟩ ∧ ∃ heap count, Covers layout ⟨data, weights⟩ heap count := by
  constructor
  · intro hpair
    have hsame := isEnd_eq_of_ofBlocks hpair
    have hdata : data.isEnd = false := by
      rw [← hsame, Bool.and_self] at hend
      exact hend
    obtain ⟨rfl, ⟨count, hdataLength, hweightsLength⟩, hstart⟩ :=
      (ofBlocks_eq_ok hdata (hsame ▸ hdata) hD hW).mp hpair
    refine ⟨rfl, _, count, ?_, hdataLength, hweightsLength, hstart, rfl⟩
    -- a block of no heaps would be an end mark
    apply Nat.pos_of_ne_zero
    rintro rfl
    rw [Nat.zero_mul] at hdataLength
    rw [Block.isEnd, List.isEmpty_eq_false_iff] at hdata
    exact hdata (List.length_eq_zero_iff.mp hdataLength)
  · rintro ⟨rfl, heap, count, hcovers⟩
    have hdata : data.isEnd = false := by
      apply isEnd_false_of_length
      rw [hcovers.data_length]
      exact Nat.mul_pos hcovers.count_pos hD
    have hweights : weights.isEnd = false := by
      apply isEnd_false_of_length
      rw [hcovers.weights_length]
      exact Nat.mul_pos hcovers.count_pos hW
    rw [ofBlocks_eq_ok hdata hweights hD hW]
    exact ⟨rfl, ⟨count, hcovers.data_length, hcovers.weights_length⟩,
      hcovers.data_start.trans hcovers.weights_start.symm⟩

end BlockPair

namespace PairedStream

variable {D W : Type} {pair after : PairedStream D W}

/-! ## Calls -/

/-- A call to a pair of streams. -/
inductive Call (D W : Type) where
  | setData (data : D)
  | setWeights (weights : W)
  | next

/-- A call to a pair of loaders. -/
inductive LoaderCall (D W : Type) where
  | stream (call : Call D W)
  | setHeapsPerBlock (heaps : Nat)

/-- The pair after a call. -/
def afterCall [BlockStream D] [BlockStream W] (pair : PairedStream D W) :
    Call D W → PairedStream D W
  | .setData data => (pair.setData data).2
  | .setWeights weights => (pair.setWeights weights).2
  | .next => pair.next.2

/-- The pair after some calls. -/
def afterCalls [BlockStream D] [BlockStream W] (pair : PairedStream D W) (calls : List (Call D W)) :
    PairedStream D W :=
  calls.foldl afterCall pair

/-- The pair of loaders after a call. -/
def afterLoaderCall [BlockLoader D] [BlockLoader W] (pair : PairedStream D W) :
    LoaderCall D W → PairedStream D W
  | .stream call => pair.afterCall call
  | .setHeapsPerBlock heaps => (pair.setHeapsPerBlock heaps).2

/-- The pair of loaders after some calls. -/
def afterLoaderCalls [BlockLoader D] [BlockLoader W] (pair : PairedStream D W)
    (calls : List (LoaderCall D W)) : PairedStream D W :=
  calls.foldl afterLoaderCall pair

/-- A pair that was just made. -/
inductive IsNew [BlockStream D] [BlockStream W] : PairedStream D W → Prop where
  | empty : IsNew .empty
  | ofStreams {data : D} {weights : W} {pair : PairedStream D W}
    (hpair : ofStreams data weights = .ok pair) : IsNew pair

/-! ## The layout is that of the headers -/

section Streams

variable [BlockStream D] [BlockStream W]

/-- The pair has the layout of the headers of its streams, and none if one is missing. -/
def WellLaid (pair : PairedStream D W) : Prop :=
  layoutOf? pair.data? pair.weights? = .ok pair.layout?

/-- The streams of both pairs have the same headers, and both pairs have the same layout. -/
structure SameHeaders (pair after : PairedStream D W) : Prop where
  data_eq : after.data?.map BlockStream.header = pair.data?.map BlockStream.header
  weights_eq : after.weights?.map BlockStream.header = pair.weights?.map BlockStream.header
  layout_eq : after.layout? = pair.layout?

theorem SameHeaders.refl (pair : PairedStream D W) : SameHeaders pair pair :=
  ⟨rfl, rfl, rfl⟩

theorem SameHeaders.of_parts {data dataAfter : D} {weights weightsAfter : W} {layout : HeapLayout}
    (hparts : pair.parts = .ok (data, weights, layout)) (hfirst : after.data? = some dataAfter)
    (hsecond : after.weights? = some weightsAfter) (hlayout : after.layout? = pair.layout?)
    (hdata : BlockStream.header dataAfter = BlockStream.header data)
    (hweights : BlockStream.header weightsAfter = BlockStream.header weights) :
    SameHeaders pair after := by
  obtain ⟨hdataBefore, hweightsBefore, _⟩ := parts_eq_ok.mp hparts
  refine ⟨?_, ?_, hlayout⟩
  · rw [hfirst, hdataBefore, Option.map_some, Option.map_some, hdata]
  · rw [hsecond, hweightsBefore, Option.map_some, Option.map_some, hweights]

theorem layoutOf?_eq (data? : Option D) (weights? : Option W) :
    layoutOf? data? weights? =
      match data?.map BlockStream.header, weights?.map BlockStream.header with
      | some data, some weights => some <$> HeapLayout.configure data weights
      | _, _ => .ok none := by
  cases data? <;> cases weights? <;> rfl

theorem WellLaid.of_sameHeaders (hlaid : pair.WellLaid) (hsame : SameHeaders pair after) :
    after.WellLaid := by
  rw [WellLaid, layoutOf?_eq, hsame.data_eq, hsame.weights_eq, hsame.layout_eq, ← layoutOf?_eq]
  exact hlaid

theorem header_nextBlocks (layout : HeapLayout) (data : D) (weights : W) :
    BlockStream.header (nextBlocks layout data weights).2.1 = BlockStream.header data ∧
      BlockStream.header (nextBlocks layout data weights).2.2 = BlockStream.header weights := by
  have hdata := BlockStream.header_next data
  have hweights := BlockStream.header_next weights
  unfold nextBlocks
  split
  · next hnext =>
    rw [hnext] at hdata
    exact ⟨hdata, rfl⟩
  · next hnext =>
    rw [hnext] at hdata
    split
    · next hother =>
      rw [hother] at hweights
      exact ⟨hdata, hweights⟩
    · next hother =>
      rw [hother] at hweights
      exact ⟨hdata, hweights⟩

theorem sameHeaders_next (pair : PairedStream D W) : SameHeaders pair pair.next.2 := by
  unfold next
  split
  · exact .refl pair
  split
  · exact .refl pair
  next data weights layout hparts =>
  obtain ⟨hdata, hweights⟩ := header_nextBlocks layout data weights
  split
  · next hblocks =>
    rw [hblocks] at hdata hweights
    exact .of_parts hparts rfl rfl rfl hdata hweights
  · next hblocks =>
    rw [hblocks] at hdata hweights
    exact .of_parts hparts rfl rfl rfl hdata hweights

theorem WellLaid.install (hlaid : pair.WellLaid) (data? : Option D) (weights? : Option W) :
    (pair.install data? weights?).2.WellLaid := by
  unfold PairedStream.install
  split
  · exact hlaid
  · next hlayout => exact hlayout

theorem wellLaid_of_isNew (hnew : pair.IsNew) : pair.WellLaid := by
  cases hnew with
  | empty => rfl
  | ofStreams hpair =>
      simp only [ofStreams, bind_eq_ok, pure_eq_ok] at hpair
      obtain ⟨layout, hlayout, rfl⟩ := hpair
      rw [WellLaid, layoutOf?, hlayout]
      rfl

theorem WellLaid.afterCall (hlaid : pair.WellLaid) (call : Call D W) :
    (pair.afterCall call).WellLaid := by
  cases call with
  | setData data => exact hlaid.install _ _
  | setWeights weights => exact hlaid.install _ _
  | next => exact hlaid.of_sameHeaders (sameHeaders_next pair)

theorem WellLaid.afterCalls (hlaid : pair.WellLaid) (calls : List (Call D W)) :
    (pair.afterCalls calls).WellLaid := by
  induction calls generalizing pair with
  | nil => exact hlaid
  | cons call calls ih => exact ih (hlaid.afterCall call)

theorem WellLaid.of_parts (hlaid : pair.WellLaid) {data : D} {weights : W} {layout : HeapLayout}
    (hparts : pair.parts = .ok (data, weights, layout)) : layoutOf data weights = .ok layout := by
  obtain ⟨hdata, hweights, hlayout⟩ := parts_eq_ok.mp hparts
  rw [WellLaid, hdata, hweights, hlayout, layoutOf?, map_eq_ok] at hlaid
  obtain ⟨found, hfound, hsame⟩ := hlaid
  rw [hfound, Option.some.inj hsame]

end Streams

section Loaders

variable [BlockLoader D] [BlockLoader W]

theorem sameHeaders_setHeapsPerBlock (pair : PairedStream D W) (heaps : Nat) :
    SameHeaders pair (pair.setHeapsPerBlock heaps).2 := by
  unfold setHeapsPerBlock
  split
  · exact .refl pair
  split
  · exact .refl pair
  next data weights layout hparts =>
  obtain ⟨_, hsecond, _⟩ := parts_eq_ok.mp hparts
  have hdata := BlockLoader.header_setBlockSize data (heaps * layout.dataHeapStride)
  have hweights := BlockLoader.header_setBlockSize weights (heaps * layout.weightsHeapStride)
  split
  · next hset =>
    rw [hset] at hdata
    exact .of_parts hparts rfl hsecond rfl hdata rfl
  · next hset =>
    rw [hset] at hdata
    exact .of_parts hparts rfl rfl rfl hdata hweights

theorem WellLaid.afterLoaderCall (hlaid : pair.WellLaid) (call : LoaderCall D W) :
    (pair.afterLoaderCall call).WellLaid := by
  cases call with
  | stream call => exact hlaid.afterCall call
  | setHeapsPerBlock heaps => exact hlaid.of_sameHeaders (sameHeaders_setHeapsPerBlock pair heaps)

theorem WellLaid.afterLoaderCalls (hlaid : pair.WellLaid) (calls : List (LoaderCall D W)) :
    (pair.afterLoaderCalls calls).WellLaid := by
  induction calls generalizing pair with
  | nil => exact hlaid
  | cons call calls ih => exact ih (hlaid.afterLoaderCall call)

end Loaders

/-! ## What a step gives -/

section Steps

variable [BlockStream D] [BlockStream W] {data dataAfter : D} {weights weightsAfter : W}
  {layout : HeapLayout} {dataBlock weightsBlock : Block} {blocks : BlockPair}

/-- A step whose two streams give blocks compares these. -/
theorem next_of_blocks (hfailed : pair.failed = false)
    (hparts : pair.parts = .ok (data, weights, layout))
    (hdata : BlockStream.next data = (.ok dataBlock, dataAfter))
    (hweights : BlockStream.next weights = (.ok weightsBlock, weightsAfter)) :
    pair.next.1 = BlockPair.ofBlocks layout dataBlock weightsBlock := by
  have hblocks : nextBlocks layout data weights =
      (BlockPair.ofBlocks layout dataBlock weightsBlock, dataAfter, weightsAfter) := by
    simp only [nextBlocks, hdata, hweights]
  rw [next, hfailed, if_neg Bool.false_ne_true]
  simp only [hparts, hblocks]
  split
  · next hresult => exact (congrArg Prod.fst hresult).symm
  · next hresult => exact (congrArg Prod.fst hresult).symm

/-- A step that gives blocks has them from its two streams. -/
theorem of_next (hnext : pair.next = (.ok blocks, after)) :
    pair.failed = false ∧ ∃ data weights layout dataBlock weightsBlock,
      pair.parts = .ok (data, weights, layout) ∧
        (BlockStream.next data).1 = .ok dataBlock ∧ (BlockStream.next weights).1 = .ok weightsBlock ∧
        BlockPair.ofBlocks layout dataBlock weightsBlock = .ok blocks := by
  unfold next at hnext
  split at hnext
  · simp at hnext
  next hfailed =>
  split at hnext
  · simp at hnext
  next data weights layout hparts =>
  split at hnext
  · next hblocks =>
    simp only [Prod.mk.injEq, Except.ok.injEq] at hnext
    obtain ⟨rfl, _⟩ := hnext
    refine ⟨Bool.eq_false_iff.mpr hfailed, data, weights, layout, ?_⟩
    unfold nextBlocks at hblocks
    split at hblocks
    · simp at hblocks
    next dataBlock dataAfter hdata =>
    split at hblocks
    · simp at hblocks
    next weightsBlock weightsAfter hweights =>
    exact ⟨dataBlock, weightsBlock, hparts, congrArg Prod.fst hdata, congrArg Prod.fst hweights,
      congrArg Prod.fst hblocks⟩
  · simp at hnext

/-- What the next step of a pair gives and refuses.  Blocks that are given cover the same
heaps in the layout of the two streams.  Of the blocks that the streams have, those that cover
the same heaps are given, and others are refused. -/
structure GivesHeaps (pair : PairedStream D W) : Prop where
  covers : ∀ {blocks : BlockPair} {after : PairedStream D W},
    pair.next = (.ok blocks, after) → blocks.isEnd = false →
    ∃ data weights layout heap count, pair.data? = some data ∧ pair.weights? = some weights ∧
      layoutOf data weights = .ok layout ∧ blocks.Covers layout heap count ∧
      (layout.dataHeapStride ∣ blocks.data.obsOffset →
        layout.weightsHeapStride ∣ blocks.weights.obsOffset →
        blocks.data.obsOffset = heap * layout.dataHeapStride ∧
          blocks.weights.obsOffset = heap * layout.weightsHeapStride)
  decides : ∀ {data : D} {weights : W} {layout : HeapLayout} {blocks : BlockPair},
    pair.failed = false → pair.parts = .ok (data, weights, layout) →
    (BlockStream.next data).1 = .ok blocks.data → (BlockStream.next weights).1 = .ok blocks.weights →
    blocks.isEnd = false →
    ((∃ heap count, blocks.Covers layout heap count) ∧ pair.next.1 = .ok blocks) ∨
      ((∀ heap count, ¬blocks.Covers layout heap count) ∧
        ∃ field message, pair.next.1 = .error (.validation field message))

theorem WellLaid.givesHeaps (hlaid : pair.WellLaid) : pair.GivesHeaps := by
  refine ⟨?_, ?_⟩
  · intro blocks after hnext hend
    obtain ⟨_, data, weights, layout, dataBlock, weightsBlock, hparts, _, _, hblocks⟩ := of_next hnext
    have hlayout := hlaid.of_parts hparts
    obtain ⟨hD, hW⟩ := HeapLayout.strides_pos_of_configure hlayout
    rw [BlockPair.isEnd_of_ofBlocks hblocks] at hend
    obtain ⟨rfl, heap, count, hcovers⟩ :=
      (BlockPair.ofBlocks_eq_ok_iff_covers hD hW hend).mp hblocks
    obtain ⟨hdata, hweights, _⟩ := parts_eq_ok.mp hparts
    exact ⟨data, weights, layout, heap, count, hdata, hweights, hlayout, hcovers,
      hcovers.obsOffset_eq⟩
  · intro data weights layout blocks hfailed hparts hdata hweights hend
    obtain ⟨hD, hW⟩ := HeapLayout.strides_pos_of_configure (hlaid.of_parts hparts)
    rw [next_of_blocks hfailed hparts (Prod.ext hdata rfl) (Prod.ext hweights rfl)]
    cases hblocks : BlockPair.ofBlocks layout blocks.data blocks.weights with
    | ok given =>
        obtain ⟨rfl, hcovers⟩ := (BlockPair.ofBlocks_eq_ok_iff_covers hD hW hend).mp hblocks
        exact Or.inl ⟨hcovers, rfl⟩
    | error error =>
        obtain ⟨field, message, rfl⟩ := BlockPair.validation_of_ofBlocks hblocks
        refine Or.inr ⟨?_, field, message, rfl⟩
        intro heap count hcovers
        have hgiven := (BlockPair.ofBlocks_eq_ok_iff_covers hD hW hend).mpr ⟨rfl, heap, count, hcovers⟩
        rw [hblocks] at hgiven
        simp at hgiven

end Steps

/-- A pair that some calls have led to.  If the streams are loaders, the calls may set the
number of heaps in a block as well. -/
inductive Reachable {D W : Type} [streamD : BlockStream D] [streamW : BlockStream W] :
    PairedStream D W → Prop where
  | afterCalls {pair : PairedStream D W} (hnew : pair.IsNew) (calls : List (Call D W)) :
    Reachable (pair.afterCalls calls)
  | afterLoaderCalls {pair : PairedStream D W} [loaderD : BlockLoader D] [loaderW : BlockLoader W]
    (hdata : loaderD.toBlockStream = streamD) (hweights : loaderW.toBlockStream = streamW)
    (hnew : pair.IsNew) (calls : List (LoaderCall D W)) : Reachable (pair.afterLoaderCalls calls)

theorem Reachable.wellLaid {D W : Type} [BlockStream D] [BlockStream W] {pair : PairedStream D W}
    (hpair : pair.Reachable) : pair.WellLaid := by
  cases hpair with
  | afterCalls hnew calls => exact (wellLaid_of_isNew hnew).afterCalls calls
  | afterLoaderCalls hdata hweights hnew calls =>
      subst hdata hweights
      exact (wellLaid_of_isNew hnew).afterLoaderCalls calls

/-- **What a pair gives and refuses, after any calls.**  Whatever streams were installed and
however far they had been read, blocks that are given hold the same number of heaps and start
in the same heap, at the same boundary if they start at boundaries; other blocks are a
validation error. -/
theorem givesHeaps_of_reachable {D W : Type} [BlockStream D] [BlockStream W]
    {pair : PairedStream D W} (hpair : pair.Reachable) : pair.GivesHeaps :=
  hpair.wellLaid.givesHeaps

/-- A header of heaps of one packet with one sample. -/
def heapHeader (dimensions : String) : Header :=
  ⟨[⟨Key.channels, "1"⟩, ⟨Key.packetSamples, "1"⟩, ⟨Key.packetChannels, "1"⟩,
    ⟨Key.weightSamples, "1"⟩, ⟨Key.bits, "8"⟩, ⟨Key.dimensions, dimensions⟩,
    ⟨Key.polarisations, dimensions⟩]⟩

/-- A loader of heaps of one packet that starts at the given offset. -/
def heapLoader (dimensions : String) (obsOffset : Nat) (payload : Bytes) : CopyingStream where
  source := "memory"
  reader := .ofBytes payload
  header := heapHeader dimensions
  obsOffset := obsOffset
  pending := []
  blockSize := 1
  blockSize_pos := Nat.one_pos

/-- A pair whose data stream was replaced after a heap gives the next one. -/
theorem givesHeaps_replaced :
    ∃ pair, ofStreams (heapLoader "2" 4 [1, 2, 3, 4]) (heapLoader "1" 5 [1, 2, 3, 4, 5, 6, 7, 8, 9, 10]) =
        .ok pair ∧
      ∃ blocks after, (pair.afterLoaderCalls [.setHeapsPerBlock 1, .stream .next,
          .stream (.setData (heapLoader "2" 8 [5, 6, 7, 8])), .setHeapsPerBlock 1]).next =
        (.ok blocks, after) ∧ ∃ layout heap count, blocks.Covers layout heap count := by
  have hgiven : (do
      let pair ← ofStreams (heapLoader "2" 4 [1, 2, 3, 4])
        (heapLoader "1" 5 [1, 2, 3, 4, 5, 6, 7, 8, 9, 10])
      (pair.afterLoaderCalls [.setHeapsPerBlock 1, .stream .next,
        .stream (.setData (heapLoader "2" 8 [5, 6, 7, 8])), .setHeapsPerBlock 1]).next.1) =
      .ok ⟨⟨[5, 6, 7, 8], 8⟩, ⟨[6, 7, 8, 9, 10], 10⟩⟩ := by
    cbv
  obtain ⟨pair, hpair, hnext⟩ := bind_eq_ok.mp hgiven
  obtain ⟨_, _, layout, heap, count, _, _, _, hcovers, _⟩ :=
    (givesHeaps_of_reachable (.afterLoaderCalls rfl rfl (.ofStreams hpair) _)).covers
      (Prod.ext hnext rfl) (by decide)
  exact ⟨pair, hpair, _, _, Prod.ext hnext rfl, layout, heap, count, hcovers⟩

/-- Blocks that start in the middle of a heap are given as if they started with it: the data
at byte 7, in the second heap of 4 bytes, and the weights at byte 5, with the second heap of 5
bytes. -/
theorem next_not_at_boundary :
    ¬∀ {pair after : PairedStream CopyingStream CopyingStream} {layout : HeapLayout}
        {blocks : BlockPair},
      pair.Reachable → pair.heapLayout = .ok layout → pair.next = (.ok blocks, after) →
      blocks.isEnd = false →
      ∃ heap count, 0 < count ∧ blocks.data.length = count * layout.dataHeapStride ∧
        blocks.data.obsOffset = heap * layout.dataHeapStride ∧
        blocks.weights.length = count * layout.weightsHeapStride ∧
        blocks.weights.obsOffset = heap * layout.weightsHeapStride := by
  intro hall
  have hgiven : (do
      let pair ← ofStreams (heapLoader "2" 7 [1, 2, 3, 4]) (heapLoader "1" 5 [1, 2, 3, 4, 5])
      let layout ← (pair.afterLoaderCalls [.setHeapsPerBlock 1]).heapLayout
      let blocks ← (pair.afterLoaderCalls [.setHeapsPerBlock 1]).next.1
      return (layout.dataHeapStride, blocks)) =
      .ok (4, ⟨⟨[1, 2, 3, 4], 7⟩, ⟨[1, 2, 3, 4, 5], 5⟩⟩) := by
    cbv
  simp only [bind_eq_ok, pure_eq_ok, Prod.mk.injEq] at hgiven
  obtain ⟨pair, hpair, layout, hlayout, blocks, hblocks, hstride, rfl⟩ := hgiven
  obtain ⟨heap, _, _, _, hoffset, _⟩ :=
    hall (.afterLoaderCalls rfl rfl (.ofStreams hpair) _) hlayout (Prod.ext hblocks rfl) (by decide)
  -- no multiple of 4 is 7
  rw [hstride] at hoffset
  have hseven : 7 = heap * 4 := hoffset
  omega

end PairedStream

end VoltageCapture
