import VoltageCapture.Stream.Pair

/-!
# Segments

A segment is a data file and its weights file taken as a whole: both payloads hold the
same number of whole heaps, which is checked when the files are opened, and a single
step gives all of them.
-/

namespace VoltageCapture

/-- A data file and its weights file, read in one step. -/
structure HeapSegment where
  streams : PairedStream MappedStream MappedStream
  /-- The number of heaps in each of the files. -/
  heaps : Nat

namespace HeapSegment

/-- Opens a data file and a weights file. -/
def ofPaths (tree : FileTree) (dataPath weightsPath : String) : Except Error HeapSegment := do
  let data ← MappedStream.ofPath tree dataPath
  let weights ← MappedStream.ofPath tree weightsPath
  let streams ← PairedStream.ofStreams data weights
  let layout ← streams.heapLayout
  let heaps ← layout.heapsIn data.payloadSize weights.payloadSize
  return { streams, heaps }

/-- The whole segment on the first call, the end mark afterwards. -/
def next (segment : HeapSegment) : Except Error BlockPair × HeapSegment :=
  let (result, streams) := segment.streams.next
  (result, { segment with streams })

end HeapSegment

end VoltageCapture
