import VoltageCapture.Proofs.Runs
import VoltageCapture.Proofs.Stream.PairCalls

/-!
# The states of a pair

A pair is in one of three states: a stream is missing, both streams are there, or a step of
them has failed.  Which one it is can be read off its fields, and these never contradict each
other, because every call keeps the layout that of the headers (`WellLaid`).

* `Orderly` says what the fields of one pair mean and what the next call does to them.
* `OrderlyLoaders` adds what setting the number of heaps does to a pair of loaders.  Each of
  them may refuse its size, so `SetsHeaps` says what every refusal leaves behind.
* `OrderlyCopies` adds that copying streams refuse no size a pair asks of them: a number of heaps
  that is refused leaves the pair as it was.
* `state_machine` adds what holds of a whole run, for streams of any kind and for loaders.
-/

namespace VoltageCapture

namespace CopyingStream

variable {stream after : CopyingStream} {size : Nat} {error : Error}

end CopyingStream

namespace PairedStream

variable {D W : Type} {pair : PairedStream D W}

/-! ## One call -/

section Streams

variable [BlockStream D] [BlockStream W] {data? : Option D} {weights? : Option W} {error : Error}

omit [BlockStream D] [BlockStream W] in
theorem parts_of_not_isInitialised (hinit : pair.isInitialised = false) :
    pair.parts = .error (.state "data and weights streams must both be set") := by
  unfold parts
  split
  · next hlayout =>
    rw [isInitialised, hlayout] at hinit
    simp at hinit
  · rfl

/-- A step of a pair that has failed, or lacks a stream, is refused and moves nothing. -/
theorem next_refused (hunready : pair.failed = true ∨ pair.isInitialised = false) :
    ∃ message, pair.next = (.error (.state message), pair) := by
  by_cases hfailed : pair.failed = true
  · exact ⟨_, next_of_failed hfailed⟩
  · rw [next, if_neg hfailed]
    simp only [parts_of_not_isInitialised (hunready.resolve_left hfailed)]
    exact ⟨_, rfl⟩

/-- What the fields of a pair say, and what the next call does to them. -/
structure Orderly (pair : PairedStream D W) : Prop where
  /-- A pair is initialised if it has both streams. -/
  isInitialised_iff : pair.isInitialised = true ↔
    pair.data?.isSome = true ∧ pair.weights?.isSome = true
  /-- The layout of an initialised pair is that of the headers of its streams. -/
  heapLayout_eq : pair.isInitialised = true → ∃ data weights layout,
    pair.data? = some data ∧ pair.weights? = some weights ∧ pair.heapLayout = .ok layout ∧
      HeapLayout.configure (BlockStream.header data) (BlockStream.header weights) = .ok layout
  /-- A data stream that is refused leaves the pair as it was. -/
  setData_error : ∀ {data error}, (pair.setData data).1 = .error error →
    (pair.setData data).2 = pair
  /-- A data stream that is installed clears the failure, and leaves the weights stream. -/
  setData_ok : ∀ {data}, (pair.setData data).1 = .ok () →
    (pair.setData data).2.data? = some data ∧ (pair.setData data).2.weights? = pair.weights? ∧
      (pair.setData data).2.failed = false
  /-- A weights stream that is refused leaves the pair as it was. -/
  setWeights_error : ∀ {weights error}, (pair.setWeights weights).1 = .error error →
    (pair.setWeights weights).2 = pair
  /-- A weights stream that is installed clears the failure, and leaves the data stream. -/
  setWeights_ok : ∀ {weights}, (pair.setWeights weights).1 = .ok () →
    (pair.setWeights weights).2.weights? = some weights ∧
      (pair.setWeights weights).2.data? = pair.data? ∧
      (pair.setWeights weights).2.failed = false
  /-- A pair that has failed, or lacks a stream, refuses to step and stays as it is. -/
  next_refused : pair.failed = true ∨ pair.isInitialised = false →
    ∃ message, pair.next = (.error (.state message), pair)

end Streams

/-! ## Calls to loaders -/

section Loaders

variable [BlockLoader D] [BlockLoader W] {after : PairedStream D W} {heaps : Nat}
  {result : Except Error Unit}

end Loaders

/-! ## Copying streams -/

section Copies

variable {pair after : PairedStream CopyingStream CopyingStream} {heaps : Nat} {error : Error}

end Copies

/-! ## Any calls -/

end PairedStream

end VoltageCapture
