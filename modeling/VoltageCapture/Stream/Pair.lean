import VoltageCapture.Heap.Layout
import VoltageCapture.Stream.Copying

/-!
# Paired streams

A data stream and its weights stream are read together, so that every step gives the
same heaps on both sides.  The pair knows the heap layout of its two headers as soon as
it has both streams; the layout is computed anew whenever a stream is installed, and a
stream whose header does not fit is refused.

A step advances both streams and then compares the two blocks.  If it fails the streams
have moved apart, so the pair counts as failed, and gives no more blocks until a stream
is replaced.
-/

namespace VoltageCapture

/-- A block of data and the block of the weights that belong to it. -/
structure BlockPair where
  data : Block
  weights : Block
deriving DecidableEq, Repr

namespace BlockPair

/-- The pair that marks the end of both streams. -/
def endMark : BlockPair := ⟨.endMark, .endMark⟩

/-- Whether both streams have ended. -/
def isEnd (pair : BlockPair) : Bool :=
  pair.data.isEnd && pair.weights.isEnd

/-- Checks that two blocks hold the same number of whole heaps and start at the same
heap. -/
def checkAligned (layout : HeapLayout) (data weights : Block) : Except Error Unit := do
  let _ ← layout.heapsIn data.length weights.length
  require
    (data.obsOffset / layout.dataHeapStride = weights.obsOffset / layout.weightsHeapStride)
    (.inconsistent Key.obsOffset)

/-- The pair of two blocks, which must hold the same heaps or both be end marks. -/
def ofBlocks (layout : HeapLayout) (data weights : Block) : Except Error BlockPair :=
  match data.isEnd, weights.isEnd with
  | true, true => .ok .endMark
  | false, false => do
    checkAligned layout data weights
    return ⟨data, weights⟩
  | _, _ => .error (.validation "stream length"
      "data and weights streams hold different numbers of heaps")

end BlockPair

/-- A data stream and a weights stream that advance together. -/
structure PairedStream (D W : Type) where
  data? : Option D := none
  weights? : Option W := none
  /-- The layout of the two headers, once there are two. -/
  layout? : Option HeapLayout := none
  /-- Whether a step has failed since a stream was last installed. -/
  failed : Bool := false

namespace PairedStream

variable {D W : Type}

/-- The pair without streams. -/
def empty : PairedStream D W := {}

/-- Whether both streams are installed. -/
def isInitialised (pair : PairedStream D W) : Bool :=
  pair.layout?.isSome

/-- The two streams and their layout, if both streams are installed. -/
def parts (pair : PairedStream D W) : Except Error (D × W × HeapLayout) :=
  match pair.data?, pair.weights?, pair.layout? with
  | some data, some weights, some layout => .ok (data, weights, layout)
  | _, _, _ => .error (.state "data and weights streams must both be set")

/-- The data stream. -/
def data (pair : PairedStream D W) : Except Error D := do
  let (data, _, _) ← pair.parts
  return data

/-- The weights stream. -/
def weights (pair : PairedStream D W) : Except Error W := do
  let (_, weights, _) ← pair.parts
  return weights

/-- The heap layout of the two headers. -/
def heapLayout (pair : PairedStream D W) : Except Error HeapLayout := do
  let (_, _, layout) ← pair.parts
  return layout

section Streams

variable [BlockStream D] [BlockStream W]

/-- The header of the data stream. -/
def dataHeader (pair : PairedStream D W) : Except Error Header :=
  BlockStream.header <$> pair.data

/-- The header of the weights stream. -/
def weightsHeader (pair : PairedStream D W) : Except Error Header :=
  BlockStream.header <$> pair.weights

/-! ### Installing streams -/

/-- The layout of the headers of two streams. -/
def layoutOf (data : D) (weights : W) : Except Error HeapLayout :=
  HeapLayout.configure (BlockStream.header data) (BlockStream.header weights)

/-- The layout of two streams, if both are there. -/
def layoutOf? : Option D → Option W → Except Error (Option HeapLayout)
  | some data, some weights => some <$> layoutOf data weights
  | _, _ => .ok none

/-- The pair of two streams. -/
def ofStreams (data : D) (weights : W) : Except Error (PairedStream D W) := do
  let layout ← layoutOf data weights
  return { data? := some data, weights? := some weights, layout? := some layout }

/-- The pair of what streams there are, if their headers fit; the pair as it was
otherwise. -/
def install (pair : PairedStream D W) (data? : Option D) (weights? : Option W) :
    Except Error Unit × PairedStream D W :=
  match layoutOf? data? weights? with
  | .error error => (.error error, pair)
  | .ok layout? => (.ok (), { data?, weights?, layout? })

/-- Installs a data stream in place of the one there was. -/
def setData (pair : PairedStream D W) (data : D) : Except Error Unit × PairedStream D W :=
  pair.install (some data) pair.weights?

/-- Installs a weights stream in place of the one there was. -/
def setWeights (pair : PairedStream D W) (weights : W) : Except Error Unit × PairedStream D W :=
  pair.install pair.data? (some weights)

/-! ### Reading -/

/-- Advances both streams, the data stream first, and pairs their blocks.  If the data
stream fails the weights stream stays where it is. -/
def nextBlocks (layout : HeapLayout) (data : D) (weights : W) : Except Error BlockPair × D × W :=
  match BlockStream.next data with
  | (.error error, data) => (.error error, data, weights)
  | (.ok dataBlock, data) =>
    match BlockStream.next weights with
    | (.error error, weights) => (.error error, data, weights)
    | (.ok weightsBlock, weights) =>
      (BlockPair.ofBlocks layout dataBlock weightsBlock, data, weights)

/-- The next pair of blocks. -/
def next (pair : PairedStream D W) : Except Error BlockPair × PairedStream D W :=
  if pair.failed then
    (.error (.state "data and weights streams failed on a previous block"), pair)
  else
    match pair.parts with
    | .error error => (.error error, pair)
    | .ok (data, weights, layout) =>
      match nextBlocks layout data weights with
      | (.ok blocks, data, weights) =>
        (.ok blocks, { pair with data? := some data, weights? := some weights })
      | (.error error, data, weights) =>
        (.error error, { pair with data? := some data, weights? := some weights, failed := true })

end Streams

/-! ### Block sizes -/

section Loaders

variable [BlockLoader D] [BlockLoader W]

/-- Sets both block sizes so that blocks hold the given number of heaps. -/
def setHeapsPerBlock (pair : PairedStream D W) (heaps : Nat) :
    Except Error Unit × PairedStream D W :=
  if heaps = 0 then
    (.error (.validation "heaps_per_block" "must be greater than 0"), pair)
  else
    match pair.parts with
    | .error error => (.error error, pair)
    | .ok (data, weights, layout) =>
      match BlockLoader.setBlockSize data (heaps * layout.dataHeapStride) with
      | (.error error, data) => (.error error, { pair with data? := some data })
      | (.ok (), data) =>
        let (result, weights) :=
          BlockLoader.setBlockSize weights (heaps * layout.weightsHeapStride)
        (result, { pair with data? := some data, weights? := some weights })

end Loaders

/-! ### Pairs of files -/

/-- Opens a data file and a weights file in place. -/
def ofMappedFiles (tree : FileTree) (dataPath weightsPath : String) :
    Except Error (PairedStream MappedStream MappedStream) := do
  let data ← MappedStream.ofPath tree dataPath
  let weights ← MappedStream.ofPath tree weightsPath
  ofStreams data weights

/-- Opens a data file and a weights file for copying, some heaps at a time. -/
def ofCopiedFiles (tree : FileTree) (dataPath weightsPath : String) (heaps : Nat) :
    Except Error (PairedStream CopyingStream CopyingStream) := do
  let data ← CopyingStream.ofPath tree dataPath
  let weights ← CopyingStream.ofPath tree weightsPath
  let pair ← ofStreams data weights
  let (result, pair) := pair.setHeapsPerBlock heaps
  result
  return pair

end PairedStream

end VoltageCapture
