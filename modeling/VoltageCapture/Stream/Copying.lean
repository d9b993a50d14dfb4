import VoltageCapture.Stream.Mapped

/-!
# Copying streams

A copying stream reads the payload of a capture out of a reader, block by block.  A
block holds as many bytes as the block size allows, fewer only at the end of the
payload.  Payload bytes that were read along with the header are handed out first.

If the reader fails, the bytes that were collected for the block are gone, and the
stream goes on with the bytes after them.
-/

namespace VoltageCapture

/-- A capture that is read block by block. -/
structure CopyingStream where
  /-- What the capture is called in messages. -/
  source : String
  reader : Reader
  header : Header
  /-- The offset of the payload within the observation. -/
  obsOffset : Nat
  /-- The number of payload bytes handed out. -/
  delivered : Nat := 0
  /-- Payload bytes that were read along with the header and not yet handed out. -/
  pending : Bytes
  /-- The greatest length of a block. -/
  blockSize : Nat
  blockSize_pos : 0 < blockSize

namespace CopyingStream

/-! ### Opening -/

/-- Reads the header of a capture and prepares to read its payload. -/
def ofReader (reader : Reader) (source : String) (blockSize headerSizeHint : Nat) :
    Except Error CopyingStream :=
  if hsize : blockSize = 0 then
    .error StreamConfig.zeroBlockSize
  else do
    let (result, reader) := Header.readPrefixed reader headerSizeHint
    let (header, pending) ← result
    let obsOffset ← header.unsigned64 Key.obsOffset
    requireAllocatable blockSize
    return {
      source, reader, header, obsOffset, pending, blockSize
      blockSize_pos := Nat.pos_of_ne_zero hsize }

/-- Opens a capture file. -/
def ofConfig (tree : FileTree) (config : StreamConfig) : Except Error CopyingStream := do
  config.validate
  let entry ← tree.openCapture config.path
  ofReader entry.reader config.path config.blockSize config.headerSizeHint

/-- Opens a capture file with default sizes. -/
def ofPath (tree : FileTree) (path : String) : Except Error CopyingStream :=
  ofConfig tree (.ofPath path)

/-! ### Reading -/

/-- Hands out bytes as a block, the end mark if there are none. -/
def handOut (stream : CopyingStream) (bytes : Bytes) : Except Error Block × CopyingStream :=
  if bytes = [] then
    (.ok .endMark, stream)
  else
    (.ok ⟨bytes, stream.obsOffset + stream.delivered⟩,
      { stream with delivered := stream.delivered + bytes.length })

/-- The pending bytes that the next block starts with. -/
def pendingPart (stream : CopyingStream) : Bytes :=
  stream.pending.take stream.blockSize

/-- The stream whose pending bytes for the next block have been taken. -/
def takePending (stream : CopyingStream) : CopyingStream :=
  { stream with pending := stream.pending.drop stream.blockSize }

/-- The next block: pending bytes first, then bytes from the reader. -/
def next (stream : CopyingStream) : Except Error Block × CopyingStream :=
  match stream.reader.readFull (stream.blockSize - stream.pendingPart.length) with
  | (.error cause, reader) =>
    (.error (.atPath "Failed to read" stream.source cause), { stream.takePending with reader })
  | (.ok rest, reader) =>
    { stream.takePending with reader }.handOut (stream.pendingPart ++ rest)

/-- Sets the greatest length of the blocks to come. -/
def setBlockSize (stream : CopyingStream) (size : Nat) : Except Error Unit × CopyingStream :=
  if hsize : size = 0 then
    (.error StreamConfig.zeroBlockSize, stream)
  else if Bytes.maxLength < size then
    (.error (.allocation size), stream)
  else
    (.ok (), { stream with blockSize := size, blockSize_pos := Nat.pos_of_ne_zero hsize })

/-- The payload bytes that are still to come. -/
def remaining (stream : CopyingStream) : Nat :=
  stream.pending.length + stream.reader.unread.length

theorem header_handOut (stream : CopyingStream) (bytes : Bytes) :
    (stream.handOut bytes).2.header = stream.header := by
  unfold handOut
  split <;> rfl

theorem header_next (stream : CopyingStream) : stream.next.2.header = stream.header := by
  unfold next
  split
  · rfl
  · exact header_handOut _ _

/-- The block that is handed out holds the bytes, and no more or fewer are to come. -/
theorem remaining_handOut {stream after : CopyingStream} {bytes : Bytes} {block : Block}
    (h : stream.handOut bytes = (.ok block, after)) :
    block.bytes = bytes ∧ after.remaining = stream.remaining := by
  unfold handOut at h
  split at h
  · next hempty =>
    simp only [Prod.mk.injEq, Except.ok.injEq] at h
    simp [← h.1, ← h.2, hempty, Block.endMark]
  · simp only [Prod.mk.injEq, Except.ok.injEq] at h
    simp [← h.1, ← h.2, remaining]

/-- The bytes of a block are no longer to come. -/
theorem remaining_next {stream after : CopyingStream} {block : Block}
    (h : stream.next = (.ok block, after)) :
    block.length + after.remaining = stream.remaining := by
  unfold next at h
  split at h
  · simp at h
  · next rest reader hread =>
    have hunread := congrArg List.length (Reader.unread_of_readFull hread)
    have hpending := congrArg List.length (List.take_append_drop stream.blockSize stream.pending)
    obtain ⟨hbytes, hremaining⟩ := remaining_handOut h
    rw [List.length_append] at hunread hpending
    rw [hremaining, Block.length, hbytes]
    simp only [remaining, takePending, pendingPart, List.length_append]
    omega

instance : FiniteStream CopyingStream where
  header := header
  next := next
  mode _ := .copying
  header_next := header_next
  remaining := remaining
  remaining_next_lt hnext hblock := by
    have hremaining := remaining_next hnext
    simp only [Block.isEnd, List.isEmpty_eq_false_iff] at hblock
    have hlength := List.length_pos_iff.mpr hblock
    simp only [Block.length] at hremaining
    omega

theorem header_setBlockSize (stream : CopyingStream) (size : Nat) :
    (stream.setBlockSize size).2.header = stream.header := by
  unfold setBlockSize
  split
  · rfl
  · split <;> rfl

instance : BlockLoader CopyingStream where
  blockSize := blockSize
  setBlockSize := setBlockSize
  header_setBlockSize := header_setBlockSize

end CopyingStream

end VoltageCapture
