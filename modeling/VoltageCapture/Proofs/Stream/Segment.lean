import VoltageCapture.Stream.Segment
import VoltageCapture.Proofs.Stream.Paired

/-!
# A segment is all or nothing

Opening a segment checks that both payloads are the same number of whole heaps.  The one step that
gives them checks it again, but cannot come to another result: what is left for it to find is that
the heaps are not the same ones of the observation.  So the first step gives both payloads whole, or
is refused for their places and leaves the segment failed (`AllOrNothing`).

`HeapSegment.ofPaths_exact` states for two capture files when they make a segment and what call
after call of it gives.
-/

namespace VoltageCapture

/-! ## Two mapped files -/

namespace PayloadPair

variable {P : PayloadPair} {heaps other : Nat} {answers : Nat → Except Error BlockPair}

/-- The payloads of two mapped captures, with heaps of the given layout. -/
def ofMapped (layout : HeapLayout) (data weights : MappedStream) : PayloadPair where
  layout := layout
  data := data.payload
  dataOffset := data.obsOffset
  weights := weights.payload
  weightsOffset := weights.obsOffset

/-- Both payloads are so many whole heaps. -/
structure Holds (P : PayloadPair) (heaps : Nat) : Prop where
  data_eq : P.data.length = heaps * P.D
  weights_eq : P.weights.length = heaps * P.W

theorem Holds.unique (hD : 0 < P.D) (hholds : P.Holds heaps) (hother : P.Holds other) :
    other = heaps :=
  Nat.eq_of_mul_eq_mul_right hD (hother.data_eq.symm.trans hholds.data_eq)

/-- What call after call of a segment of so many heaps gives. -/
inductive AllOrNothing (P : PayloadPair) (answers : Nat → Except Error BlockPair) : Nat → Prop
  /-- There is nothing to give. -/
  | empty (hended : ∀ i, answers i = .ok .endMark) : AllOrNothing P answers 0
  /-- Both payloads are given at once. -/
  | whole {heaps : Nat} (hpos : 0 < heaps) (haligned : P.Aligned)
      (hfirst : answers 0 = .ok ⟨⟨P.data, P.dataOffset⟩, ⟨P.weights, P.weightsOffset⟩⟩)
      (hended : ∀ i, 0 < i → answers i = .ok .endMark) : AllOrNothing P answers heaps
  /-- The payloads are different heaps of the observation, and are refused. -/
  | apart {heaps : Nat} (hpos : 0 < heaps) (hapart : ¬P.Aligned)
      (hfirst : answers 0 = .error (.inconsistent Key.obsOffset))
      (hrefused : ∀ i, 0 < i → ∃ message, answers i = .error (.state message)) :
      AllOrNothing P answers heaps

/-- The only errors are for the places of the payloads, and for that having failed. -/
theorem AllOrNothing.error_cases (hanswers : AllOrNothing P answers heaps) {i : Nat}
    {error : Error} (herror : answers i = .error error) :
    error = .inconsistent Key.obsOffset ∨ ∃ message, error = .state message := by
  cases hanswers with
  | empty hended =>
      rw [hended i] at herror
      cases herror
  | whole _ _ hfirst hended =>
      cases i with
      | zero =>
          rw [hfirst] at herror
          cases herror
      | succ i =>
          rw [hended _ (Nat.succ_pos i)] at herror
          cases herror
  | apart _ _ hfirst hrefused =>
      cases i with
      | zero =>
          rw [hfirst] at herror
          exact Or.inl (Except.error.inj herror).symm
      | succ i =>
          obtain ⟨message, hmessage⟩ := hrefused _ (Nat.succ_pos i)
          rw [hmessage] at herror
          exact Or.inr ⟨message, (Except.error.inj herror).symm⟩

/-- Some heaps are bytes, so the part that may hold all of them is the payload. -/
theorem Holds.parts_eq (hholds : P.Holds heaps) (hpos : 0 < heaps) (hD : 0 < P.D) (hW : 0 < P.W) :
    P.dataPart 0 heaps = ⟨P.data, P.dataOffset⟩ ∧
      P.weightsPart 0 heaps = ⟨P.weights, P.weightsOffset⟩ := by
  have hdata : 0 < P.data.length := hholds.data_eq ▸ Nat.mul_pos hpos hD
  have hweights : 0 < P.weights.length := hholds.weights_eq ▸ Nat.mul_pos hpos hW
  rw [dataPart, weightsPart, Nat.zero_mul, Nat.zero_mul]
  constructor
  · exact Block.part_zero _ (List.length_pos_iff.mp hdata) (Nat.le_of_eq hholds.data_eq)
  · exact Block.part_zero _ (List.length_pos_iff.mp hweights) (Nat.le_of_eq hholds.weights_eq)

end PayloadPair

/-! ## The one step -/

namespace PairedStream

variable {P : PayloadPair} {pair : PairedStream MappedStream MappedStream}
  {data weights : MappedStream} {heaps : Nat}

theorem answers_of_next {after : PairedStream MappedStream MappedStream}
    {result : Except Error BlockPair} (hnext : pair.next = (result, after)) {i : Nat}
    (hi : 0 < i) : answers (fun _ => id) pair i = answers (fun _ => id) after (i - 1) := by
  cases i with
  | zero => exact absurd hi (Nat.lt_irrefl 0)
  | succ i =>
      show answers (fun _ => id) pair.next.2 i = _
      rw [hnext, Nat.add_sub_cancel]

theorem allOrNothing_answers (hdata : data.Opened P.data P.dataOffset)
    (hweights : weights.Opened P.weights P.weightsOffset)
    (hpair : pair.IsPairOf data weights P.layout) (hholds : P.Holds heaps) :
    P.AllOrNothing (answers (fun _ => id) pair) heaps := by
  have hreads := reads_mapped hpair
  have hprepare : ∀ i : Nat, Prepares P (MappedStream.ReadyAt P.data P.dataOffset)
      (MappedStream.ReadyAt P.weights P.weightsOffset) ((fun _ => id) i) := fun _ => prepares_id
  obtain ⟨hD, hW⟩ := hpair.strides_pos
  rcases Nat.eq_zero_or_pos heaps with rfl | hpos
  · have hdataEmpty : P.data.length = 0 := by rw [hholds.data_eq, Nat.zero_mul]
    have hweightsEmpty : P.weights.length = 0 := by rw [hholds.weights_eq, Nat.zero_mul]
    have hready := ready_mapped hdata hweights hpair Nat.one_pos (by omega) (by omega)
    exact .empty (answers_of_exhausted hreads hprepare hready (by omega) (by omega))
  have hready := ready_mapped hdata hweights hpair hpos (Nat.le_of_eq hholds.data_eq)
    (Nat.le_of_eq hholds.weights_eq)
  by_cases haligned : P.Aligned
  · have hanswer := PayloadPair.answer_of_match hD hW hpos hholds.data_eq hholds.weights_eq
      haligned hpos
    obtain ⟨hdataPart, hweightsPart⟩ := hholds.parts_eq hpos hD hW
    rw [hdataPart, hweightsPart] at hanswer
    obtain ⟨after, hnext, hafter⟩ := next_of_answer_ok hreads hready hanswer
    rw [Nat.zero_add] at hafter
    refine .whole hpos haligned (congrArg Prod.fst hnext) ?_
    intro i hi
    rw [answers_of_next hnext hi]
    exact answers_of_exhausted hreads hprepare hafter
      (Nat.le_of_eq hholds.data_eq) (Nat.le_of_eq hholds.weights_eq) (i - 1)
  · have hanswer := PayloadPair.answer_of_not_aligned hD hW hpos hholds.data_eq hholds.weights_eq
      haligned hpos
    obtain ⟨after, hnext, hfailed⟩ := next_of_answer_error hreads hready hanswer
    refine .apart hpos haligned (congrArg Prod.fst hnext) ?_
    intro i hi
    rw [answers_of_next hnext hi]
    exact answers_of_failed hprepare hfailed (i - 1)

end PairedStream

/-! ## Opening and reading -/

namespace HeapSegment

variable {tree : FileTree} {dataPath weightsPath : String} {data weights : MappedStream}
  {segment : HeapSegment} {layout : HeapLayout} {heaps : Nat}

/-- The answers to one call of `next` after another. -/
def answers (segment : HeapSegment) : Nat → Except Error BlockPair
  | 0 => segment.next.1
  | i + 1 => segment.next.2.answers i

theorem answers_eq (segment : HeapSegment) :
    segment.answers = PairedStream.answers (fun _ => id) segment.streams := by
  funext i
  induction i generalizing segment with
  | zero => rfl
  | succ i ih => exact ih segment.next.2

/-- Two files make a segment if their headers have a layout and their payloads are as many whole
heaps of it. -/
theorem ofPaths_eq_ok (hdata : MappedStream.ofPath tree dataPath = .ok data)
    (hweights : MappedStream.ofPath tree weightsPath = .ok weights) :
    ofPaths tree dataPath weightsPath = .ok segment ↔
      ∃ layout, HeapLayout.configure data.header weights.header = .ok layout ∧
        (PayloadPair.ofMapped layout data weights).Holds segment.heaps ∧
        segment.streams =
          { data? := some data, weights? := some weights, layout? := some layout } := by
  simp only [ofPaths, hdata, hweights, PairedStream.ofStreams, bind_eq_ok, pure_eq_ok,
    Except.ok.injEq]
  constructor
  · rintro ⟨_, rfl, _, rfl, pair, ⟨layout, hlayout, rfl⟩, found, hfound, heaps, hheaps, rfl⟩
    obtain rfl : layout = found := Except.ok.inj hfound
    obtain ⟨hD, hW⟩ := HeapLayout.strides_pos_of_configure hlayout
    obtain ⟨hdataWhole, hweightsWhole⟩ := (HeapLayout.heapsIn_eq_ok hD hW).mp hheaps
    exact ⟨layout, hlayout, ⟨hdataWhole, hweightsWhole⟩, rfl⟩
  · rintro ⟨layout, hlayout, hholds, hstreams⟩
    obtain ⟨hD, hW⟩ := HeapLayout.strides_pos_of_configure hlayout
    refine ⟨data, rfl, weights, rfl, _, ⟨layout, hlayout, rfl⟩, layout, rfl, segment.heaps, ?_, ?_⟩
    · exact (HeapLayout.heapsIn_eq_ok hD hW).mpr ⟨hholds.data_eq, hholds.weights_eq⟩
    · rw [← hstreams]

theorem allOrNothing_of_ofPaths (hdata : MappedStream.ofPath tree dataPath = .ok data)
    (hweights : MappedStream.ofPath tree weightsPath = .ok weights)
    (hlayout : HeapLayout.configure data.header weights.header = .ok layout)
    (hholds : (PayloadPair.ofMapped layout data weights).Holds segment.heaps)
    (hstreams : segment.streams =
      { data? := some data, weights? := some weights, layout? := some layout }) :
    (PayloadPair.ofMapped layout data weights).AllOrNothing segment.answers segment.heaps := by
  obtain ⟨-, -, -, -, -, -, hdataOffset, -⟩ := MappedStream.of_ofConfig hdata
  obtain ⟨-, -, -, -, -, -, hweightsOffset, -⟩ := MappedStream.of_ofConfig hweights
  rw [answers_eq, hstreams]
  exact PairedStream.allOrNothing_answers ⟨tree, _, hdata, rfl, hdataOffset⟩
    ⟨tree, _, hweights, rfl, hweightsOffset⟩ ⟨rfl, hlayout, rfl⟩ hholds

/-- **A segment is all or nothing.**  Two files that can be opened make a segment exactly if their
headers have a layout and their payloads are the same number of whole heaps of it, which is the
segment's number of heaps.  Call after call it gives both payloads at once, with the offsets of
their headers, and then end marks; or, if the offsets lie in different heaps, it is refused for them
and has failed from then on.  There is no other error, such as one for a number of heaps. -/
theorem ofPaths_exact (hdata : MappedStream.ofPath tree dataPath = .ok data)
    (hweights : MappedStream.ofPath tree weightsPath = .ok weights) :
    ((∃ segment, ofPaths tree dataPath weightsPath = .ok segment) ↔
      ∃ layout heaps, HeapLayout.configure data.header weights.header = .ok layout ∧
        (PayloadPair.ofMapped layout data weights).Holds heaps) ∧
    ∀ segment, ofPaths tree dataPath weightsPath = .ok segment →
      ∃ layout, HeapLayout.configure data.header weights.header = .ok layout ∧
        (∀ heaps, (PayloadPair.ofMapped layout data weights).Holds heaps ↔
          heaps = segment.heaps) ∧
        data.header.unsigned64 Key.obsOffset = .ok data.obsOffset ∧
        weights.header.unsigned64 Key.obsOffset = .ok weights.obsOffset ∧
        (PayloadPair.ofMapped layout data weights).AllOrNothing segment.answers segment.heaps ∧
        ∀ i error, segment.answers i = .error error →
          error = .inconsistent Key.obsOffset ∨ ∃ message, error = .state message := by
  constructor
  · constructor
    · rintro ⟨segment, hsegment⟩
      obtain ⟨layout, hlayout, hholds, -⟩ := (ofPaths_eq_ok hdata hweights).mp hsegment
      exact ⟨layout, segment.heaps, hlayout, hholds⟩
    · rintro ⟨layout, heaps, hlayout, hholds⟩
      have hopened : ofPaths tree dataPath weightsPath =
          .ok ⟨{ data? := some data, weights? := some weights, layout? := some layout }, heaps⟩ :=
        (ofPaths_eq_ok hdata hweights).mpr ⟨layout, hlayout, hholds, rfl⟩
      exact ⟨_, hopened⟩
  · intro segment hsegment
    obtain ⟨layout, hlayout, hholds, hstreams⟩ := (ofPaths_eq_ok hdata hweights).mp hsegment
    obtain ⟨hD, -⟩ := HeapLayout.strides_pos_of_configure hlayout
    obtain ⟨-, -, -, -, -, -, hdataOffset, -⟩ := MappedStream.of_ofConfig hdata
    obtain ⟨-, -, -, -, -, -, hweightsOffset, -⟩ := MappedStream.of_ofConfig hweights
    have hanswers := allOrNothing_of_ofPaths hdata hweights hlayout hholds hstreams
    refine ⟨layout, hlayout, ?_, hdataOffset, hweightsOffset, hanswers, ?_⟩
    · intro heaps
      constructor
      · exact hholds.unique hD
      · rintro rfl
        exact hholds
    · intro i error herror
      exact hanswers.error_cases herror

set_option maxRecDepth 4096 in
private theorem opened_files : (do
    let data ← MappedStream.ofPath PairedStream.captures "data"
    let weights ← MappedStream.ofPath PairedStream.captures "weights"
    let layout ← HeapLayout.configure data.header weights.header
    return PayloadPair.ofMapped layout data weights) = .ok PairedStream.twoHeaps := by
  cbv

/-- Two heaps are given at once, and nothing after them. -/
theorem ofPaths_exact_captures :
    ∃ segment, ofPaths PairedStream.captures "data" "weights" = .ok segment ∧ segment.heaps = 2 ∧
      segment.answers 0 =
        .ok ⟨⟨PairedStream.twoHeaps.data, 6⟩, ⟨PairedStream.twoHeaps.weights, 9⟩⟩ ∧
      ∀ i, 0 < i → segment.answers i = .ok .endMark := by
  have hopened := opened_files
  simp only [bind_eq_ok, pure_eq_ok] at hopened
  obtain ⟨data, hdata, weights, hweights, layout, hlayout, hpair⟩ := hopened
  obtain ⟨hopens, hexact⟩ := ofPaths_exact hdata hweights
  have hholds : (PayloadPair.ofMapped layout data weights).Holds 2 := hpair ▸ ⟨rfl, rfl⟩
  obtain ⟨segment, hsegment⟩ := hopens.mpr ⟨layout, 2, hlayout, hholds⟩
  obtain ⟨found, hfound, hheaps, -, -, hanswers, -⟩ := hexact segment hsegment
  obtain rfl := Except.ok.inj (hlayout.symm.trans hfound)
  rw [← (hheaps 2).mp hholds, hpair] at hanswers
  refine ⟨segment, hsegment, ((hheaps 2).mp hholds).symm, ?_⟩
  cases hanswers with
  | whole _ _ hfirst hended => exact ⟨hfirst, hended⟩
  | apart _ hapart => exact absurd rfl hapart

end HeapSegment

end VoltageCapture
