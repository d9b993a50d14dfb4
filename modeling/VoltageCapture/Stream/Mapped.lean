import VoltageCapture.Capture.Open
import VoltageCapture.Header.Prefixed
import VoltageCapture.Stream.Block
import VoltageCapture.Stream.Config

/-!
# Mapped streams

A mapped stream shows the payload of a capture file where it is, without copying it.
The payload is a single block; after it the stream is at its end.

The payload starts where the header says that it ends, and the header says so by the
value of its field `HDR_SIZE`, the last one if the field is repeated.
-/

namespace VoltageCapture

/-- A capture file whose payload is shown in place. -/
structure MappedStream where
  path : String
  header : Header
  /-- The offset of the payload within the observation. -/
  obsOffset : Nat
  payload : Bytes
  /-- Whether the payload has been handed out. -/
  delivered : Bool := false
deriving Repr

namespace MappedStream

/-- The stream of a file with the given content. -/
def ofContent (path : String) (content : Bytes) (header : Header) : Except Error MappedStream := do
  let headerSize ← header.declaredSize
  let obsOffset ← header.unsigned64 Key.obsOffset
  require (headerSize ≤ content.length) (.fault (.headerBeyondFile headerSize content.length))
  return { path, header, obsOffset, payload := content.drop headerSize }

/-- Opens a capture file. -/
def ofConfig (tree : FileTree) (config : StreamConfig) : Except Error MappedStream := do
  config.validate
  let entry ← tree.openCapture config.path
  let (header, _) ← (Header.readPrefixed entry.reader config.headerSizeHint).1
  ofContent config.path entry.content header

/-- Opens a capture file with default sizes. -/
def ofPath (tree : FileTree) (path : String) : Except Error MappedStream :=
  ofConfig tree (.ofPath path)

/-- The number of payload bytes. -/
def payloadSize (stream : MappedStream) : Nat :=
  stream.payload.length

/-- The whole payload on the first call, the end mark afterwards. -/
def next (stream : MappedStream) : Except Error Block × MappedStream :=
  if stream.delivered ∨ stream.payload = [] then
    (.ok .endMark, { stream with delivered := true })
  else
    (.ok ⟨stream.payload, stream.obsOffset⟩, { stream with delivered := true })

/-- The payload bytes not yet handed out. -/
def remaining (stream : MappedStream) : Nat :=
  if stream.delivered then 0 else stream.payload.length

instance : FiniteStream MappedStream where
  header := header
  next := next
  mode _ := .zeroCopy
  header_next stream := by
    unfold next
    split <;> rfl
  remaining := remaining
  remaining_next_lt {stream after block} hnext hblock := by
    unfold next at hnext
    split at hnext
    · simp only [Prod.mk.injEq, Except.ok.injEq] at hnext
      simp [← hnext.1, Block.isEnd, Block.endMark] at hblock
    · next hready =>
      simp only [Prod.mk.injEq, Except.ok.injEq] at hnext
      have hpayload : 0 < stream.payload.length :=
        List.length_pos_iff.mpr fun hempty => hready (Or.inr hempty)
      have hdelivered : stream.delivered = false :=
        Bool.eq_false_iff.mpr fun hdone => hready (Or.inl hdone)
      simp [← hnext.2, remaining, hdelivered, hpayload]

end MappedStream

end VoltageCapture
