import VoltageCapture.Blake3
import VoltageCapture.Header.Basic

/-!
# Random sequences

Test payloads are cut from pseudo-random byte sequences.  The byte of a sequence at a
position depends on the seed, the name of the stream and the position alone, so a
writer may stamp a payload from any offset on and a reader may check any part of it
without what came before.

A `RandomSequence` is a cursor over such a sequence.  `generate` hands out the bytes at
the cursor, `validate` compares bytes with those at the cursor; both move it past
the bytes concerned, also when they differ.
-/

namespace VoltageCapture

/-- A cursor over the pseudo-random bytes of a seed and a stream. -/
structure RandomSequence where
  /-- The seed that the sequence was made from. -/
  seed : Nat
  /-- The key that determines the bytes. -/
  key : Blake3.Chain
  /-- The position of the next byte. -/
  position : Nat
deriving DecidableEq

namespace RandomSequence

/-- The purpose for which keys are derived. -/
def keyContext : String := "voltcap random sequence v1 key"

/-- The key of a stream under a seed. -/
def streamKey (seed : Nat) (stream : String) : Blake3.Chain :=
  Blake3.deriveKey (Utf8.bytes keyContext) (Bytes.littleEndian 8 seed ++ Utf8.bytes stream)

/-- The sequence of a named stream, at its start.  Streams of one seed are
independent of each other. -/
def ofSeedAndStream (seed : Nat) (stream : String) : RandomSequence :=
  ⟨seed, streamKey seed stream, 0⟩

/-- The sequence of the stream without a name, at its start. -/
def ofSeed (seed : Nat) : RandomSequence :=
  ofSeedAndStream seed ""

/-- The `count` bytes from `position` on of the sequence with the given key. -/
def bytesAt (key : Blake3.Chain) (position count : Nat) : Bytes :=
  (Blake3.keyedHash key []).output position count

@[simp] theorem length_bytesAt (key : Blake3.Chain) (position count : Nat) :
    (bytesAt key position count).length = count := by
  simp [bytesAt]

/-- The next `count` bytes, and the sequence after them. -/
def generate (sequence : RandomSequence) (count : Nat) : Bytes × RandomSequence :=
  (bytesAt sequence.key sequence.position count,
    { sequence with position := sequence.position + count })

/-- The sequence at a position. -/
def seek (sequence : RandomSequence) (position : Nat) : RandomSequence :=
  { sequence with position }

/-- The sequence at its start. -/
def reset (sequence : RandomSequence) : RandomSequence :=
  sequence.seek 0

/-- The number of bytes that are compared at a time. -/
def chunkLength : Nat := 4096

/-- Compares `bytes` with the next bytes, a chunk at a time and only up to the first chunk
that differs. -/
def compareChunks (sequence : RandomSequence) (bytes : Bytes) : Bool × RandomSequence :=
  if _h : bytes = [] then
    (true, sequence)
  else
    let chunk := bytes.take chunkLength
    let (expected, sequence) := sequence.generate chunk.length
    if expected = chunk then sequence.compareChunks (bytes.drop chunkLength)
    else (false, sequence)
termination_by bytes.length
decreasing_by
  have hpos := List.length_pos_iff.mpr _h
  simp only [List.length_drop, chunkLength]
  omega

/-- Whether `bytes` are the next bytes, and the sequence after them. -/
def validate (sequence : RandomSequence) (bytes : Bytes) : Bool × RandomSequence :=
  let (passed, compared) := sequence.compareChunks bytes
  (passed, compared.seek (sequence.position + bytes.length))

/-- A sequence as it is shown to people: seed and position. -/
def describe (sequence : RandomSequence) : String :=
  "RandomSequence \x7b seed: " ++ toString sequence.seed ++ ", position: "
    ++ toString sequence.position ++ " \x7d"

end RandomSequence

/-! ### Seeds from headers -/

/-- The seed that stands for a start time: the first eight bytes of its hash. -/
def seedOfTime (time : String) : Nat :=
  Bytes.ofLittleEndian ((Blake3.hash (Utf8.bytes time)).output 0 8)

/-- The seed that a header asks for: the field `SEED`, or else one derived from the
start time of the observation. -/
def Header.sequenceSeed (header : Header) : Except Error Nat :=
  if header.contains Key.seed then
    header.unsigned64 Key.seed
  else if header.contains Key.utcStart then
    seedOfTime <$> header.value Key.utcStart
  else
    .error (.validation Key.utcStart "missing header field (and no SEED)")

/-- The sequence that a header asks for, at its start. -/
def RandomSequence.ofHeader (header : Header) : Except Error RandomSequence :=
  RandomSequence.ofSeed <$> header.sequenceSeed

end VoltageCapture
