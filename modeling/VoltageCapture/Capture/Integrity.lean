import VoltageCapture.Capture.Writer
import VoltageCapture.RandomSequence
import VoltageCapture.Stream.Copying

/-!
# Checking captures end to end

A test capture carries pseudo-random bytes: the byte at an offset of the observation is
the byte of the random sequence at that position, under the seed that the header gives.
`Capture.generate` writes such a file and `Capture.verify` checks one, whichever way it
is read, and tells at which block it differs first.
-/

namespace VoltageCapture

/-! ### Writing a test capture -/

/-- The header with a size and an observation offset, if it had none. -/
def Header.completed (header : Header) : Header :=
  let sized :=
    if header.contains Key.headerSize then header
    else header.set Key.headerSize (toString Header.defaultSize)
  if sized.contains Key.obsOffset then sized else sized.set Key.obsOffset "0"

namespace Capture

/-- The random sequence of a capture, at the observation offset of its payload. -/
def payloadSequence (header : Header) : Except Error RandomSequence := do
  let sequence ← RandomSequence.ofHeader header
  let offset ← header.unsigned64 Key.obsOffset
  return sequence.seek offset

/-- Writes the next `count` bytes of a sequence, a block at a time. -/
def writeSequence (writer : CaptureWriter) (sequence : RandomSequence) (count : Nat) :
    CaptureWriter :=
  if _h : count = 0 then
    writer
  else
    let (bytes, sequence) := sequence.generate (min count StreamConfig.defaultBlockSize)
    writeSequence (writer.write bytes) sequence (count - StreamConfig.defaultBlockSize)
termination_by count
decreasing_by
  have : 0 < StreamConfig.defaultBlockSize := by decide
  omega

/-- Writes a test capture of `count` payload bytes; gives their number and the file tree
with the capture in it. -/
def generate (tree : FileTree) (header : Header) (output : String) (count : Nat) :
    Except Error (Nat × FileTree) := do
  let sequence ← payloadSequence header
  let (writer, tree) ← CaptureWriter.create tree output header
  return (writeSequence writer sequence count).finish tree

/-! ### Verifying a test capture -/

/-- What verifying a capture has found. -/
inductive Verdict where
  /-- All payload bytes are as they should be; so many there are. -/
  | intact (count : Nat)
  /-- The block at this observation offset differs. -/
  | differs (obsOffset : Nat)
deriving DecidableEq, Repr

/-- Verifies the blocks that are still to come, after `count` bytes have passed. -/
def verifyBlocks {S : Type} [FiniteStream S] (stream : S) (sequence : RandomSequence)
    (count : Nat) : Except Error Verdict :=
  match _hnext : BlockStream.next stream with
  | (.error error, _) => .error error
  | (.ok block, stream) =>
    if _hend : block.isEnd then
      .ok (.intact count)
    else
      match (sequence.seek block.obsOffset).validate block.bytes with
      | (true, sequence) => verifyBlocks stream sequence (count + block.length)
      | (false, _) => .ok (.differs block.obsOffset)
termination_by FiniteStream.remaining stream
decreasing_by exact FiniteStream.remaining_next_lt _hnext (Bool.eq_false_iff.mpr _hend)

/-- Verifies the payload of a capture. -/
def verify {S : Type} [FiniteStream S] (stream : S) : Except Error Verdict := do
  let sequence ← RandomSequence.ofHeader (BlockStream.header stream)
  verifyBlocks stream sequence 0

end Capture

end VoltageCapture
