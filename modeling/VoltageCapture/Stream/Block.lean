import VoltageCapture.Header.Basic

/-!
# Block streams

The payload of a capture is read block by block.  A block is a run of bytes together
with its place in the observation; the empty block says that the stream has ended.
What all streams share is the class `BlockStream`: a header that never changes, and a
step that gives the next block.  A `BlockLoader` copies its blocks out of a source and
lets the caller choose how long they may be.  A `FiniteStream` cannot give blocks for
ever, which is what makes a loop over all of its blocks end.
-/

namespace VoltageCapture

/-- A run of payload bytes. -/
structure Block where
  bytes : Bytes
  /-- The offset of the first byte within the observation. -/
  obsOffset : Nat
deriving DecidableEq, Repr

namespace Block

/-- The block that marks the end of a stream. -/
def endMark : Block := ⟨[], 0⟩

/-- Whether a block marks the end of its stream. -/
def isEnd (block : Block) : Bool :=
  block.bytes.isEmpty

/-- The number of bytes of a block. -/
def length (block : Block) : Nat :=
  block.bytes.length

end Block

/-- How a stream gets at its bytes. -/
inductive AccessMode where
  /-- Blocks are views of the source. -/
  | zeroCopy
  /-- Blocks are copies. -/
  | copying
deriving DecidableEq, Repr

/-- Step by step access to the payload that a header describes. -/
class BlockStream (S : Type) where
  /-- The header of the stream. -/
  header : S → Header
  /-- The next block, the end mark once the stream is exhausted. -/
  next : S → Except Error Block × S
  /-- How the stream gets at its bytes. -/
  mode : S → AccessMode
  /-- A step leaves the header as it is. -/
  header_next : ∀ stream : S, header (next stream).2 = header stream

/-- A stream whose blocks have a greatest length that can be set. -/
class BlockLoader (S : Type) extends BlockStream S where
  /-- The greatest length of a block. -/
  blockSize : S → Nat
  /-- Sets the greatest length of the blocks to come. -/
  setBlockSize : S → Nat → Except Error Unit × S
  /-- Setting the length of blocks leaves the header as it is. -/
  header_setBlockSize : ∀ (stream : S) (size : Nat),
    header (setBlockSize stream size).2 = header stream

/-- A stream that runs out of bytes. -/
class FiniteStream (S : Type) extends BlockStream S where
  /-- A bound on the bytes that are still to come. -/
  remaining : S → Nat
  /-- Every block but the end mark uses up some of them. -/
  remaining_next_lt : ∀ {stream after : S} {block : Block},
    next stream = (.ok block, after) → block.isEnd = false → remaining after < remaining stream

/-- A stream that may be of either of two kinds works as the one it is. -/
instance {S T : Type} [BlockStream S] [BlockStream T] : BlockStream (S ⊕ T) where
  header
    | .inl stream => BlockStream.header stream
    | .inr stream => BlockStream.header stream
  next
    | .inl stream => (BlockStream.next stream).map id .inl
    | .inr stream => (BlockStream.next stream).map id .inr
  mode
    | .inl stream => BlockStream.mode stream
    | .inr stream => BlockStream.mode stream
  header_next
    | .inl stream => BlockStream.header_next stream
    | .inr stream => BlockStream.header_next stream

instance {S T : Type} [FiniteStream S] [FiniteStream T] : FiniteStream (S ⊕ T) where
  remaining
    | .inl stream => FiniteStream.remaining stream
    | .inr stream => FiniteStream.remaining stream
  remaining_next_lt {stream after block} hnext hblock := by
    cases stream with
    | inl stream =>
      simp only [BlockStream.next, Prod.map, id, Prod.mk.injEq] at hnext
      obtain ⟨hresult, rfl⟩ := hnext
      exact FiniteStream.remaining_next_lt (Prod.ext hresult rfl) hblock
    | inr stream =>
      simp only [BlockStream.next, Prod.map, id, Prod.mk.injEq] at hnext
      obtain ⟨hresult, rfl⟩ := hnext
      exact FiniteStream.remaining_next_lt (Prod.ext hresult rfl) hblock

end VoltageCapture
