import VoltageCapture.RandomSequence
import VoltageCapture.Signal.Model

/-!
# Random signals

Every region of a packet is filled with pseudo-random bytes.  Each region has a
sequence of its own under the seed of the stream, and packet `n` holds the bytes of
that sequence from `n` times the length of the region on.  Any packet can therefore
be tested without the packets ahead of it.

Until it is configured the model leaves buffers as they are and no test passes.
-/

namespace VoltageCapture

/-- The stream name of the sequence that fills a region. -/
def Region.streamName : Region → String
  | .scales => "scales"
  | .weights => "weights"
  | .data => "data"

/-- A sequence for each region. -/
structure RegionSequences where
  scales : RandomSequence
  weights : RandomSequence
  data : RandomSequence
deriving DecidableEq

namespace RegionSequences

/-- The sequences of a seed, at their start. -/
def ofSeed (seed : Nat) : RegionSequences where
  scales := .ofSeedAndStream seed Region.scales.streamName
  weights := .ofSeedAndStream seed Region.weights.streamName
  data := .ofSeedAndStream seed Region.data.streamName

/-- The sequence of a region. -/
def get (sequences : RegionSequences) : Region → RandomSequence
  | .scales => sequences.scales
  | .weights => sequences.weights
  | .data => sequences.data

/-- Replaces the sequence of a region. -/
def set (sequences : RegionSequences) (region : Region) (sequence : RandomSequence) :
    RegionSequences :=
  match region with
  | .scales => { sequences with scales := sequence }
  | .weights => { sequences with weights := sequence }
  | .data => { sequences with data := sequence }

end RegionSequences

/-- The model that fills packets with pseudo-random bytes. -/
structure RandomSignal where
  /-- The sequences, once the model is configured. -/
  sequences? : Option RegionSequences := none
deriving DecidableEq

namespace RandomSignal

/-- A model that is not configured. -/
def unconfigured : RandomSignal := ⟨none⟩

/-- The model for streams with the given header. -/
def ofHeader (header : Header) : Except Error RandomSignal := do
  let seed ← header.sequenceSeed
  return ⟨some (.ofSeed seed)⟩

/-- Fills a region of a packet. -/
def fill (signal : RandomSignal) (region : Region) (packet : Nat) (buffer : Bytes) :
    Bytes × RandomSignal :=
  match signal.sequences? with
  | none => (buffer, signal)
  | some sequences =>
    let (bytes, sequence) :=
      ((sequences.get region).seek (packet * buffer.length)).generate buffer.length
    (bytes, ⟨some (sequences.set region sequence)⟩)

/-- Tests a region of a packet. -/
def test (signal : RandomSignal) (region : Region) (packet : Nat) (buffer : Bytes) :
    Bool × RandomSignal :=
  match signal.sequences? with
  | none => (false, signal)
  | some sequences =>
    let (passed, sequence) :=
      ((sequences.get region).seek (packet * buffer.length)).validate buffer
    (passed, ⟨some (sequences.set region sequence)⟩)

theorem length_fill (signal : RandomSignal) (region : Region) (packet : Nat) (buffer : Bytes) :
    (signal.fill region packet buffer).1.length = buffer.length := by
  unfold fill
  cases signal.sequences? with
  | none => rfl
  | some sequences => simp [RandomSequence.generate]

instance : SignalModel RandomSignal where
  name _ := "random"
  configure signal header _ :=
    match ofHeader header with
    | .ok configured => (.ok (), configured)
    | .error error => (.error error, signal)
  fill := fill
  test := test
  length_fill := length_fill

end RandomSignal

end VoltageCapture
