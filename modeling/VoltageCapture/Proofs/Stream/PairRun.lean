import VoltageCapture.Proofs.Stream.Aligned

/-!
# Reading two payloads to their end

Repeated calls of `PairedStream.next` either give both payloads, cut at heap boundaries,
and then the end mark for ever, or come upon a validation error and then give state errors
for ever.  Which of the two happens is decided by the payloads alone
(`PayloadPair.MatchFrom`): they must hold the same number of whole heaps and, unless they are
empty, start at the same heap of the observation.

## Strategy

A call that finds both streams at heap `start` and takes `heaps` of them gives
`PayloadPair.answer start heaps`.  `PairedStream.Ready` says that a pair is in such a state,
for streams of any kind that hand out their payload in order (`Steady`), and
`next_of_answer_ok` that the call leads to the state at heap `start + heaps`.  The two run lemmas,
`completes_of_ready` and `breaks_of_ready`, are inductions on the heaps that are left; what
couples the streams is only that both positions are `start` heaps.
-/

namespace VoltageCapture

/-! ## What a row of answers may be -/

/-- The first answers are some blocks in turn, each of them some heaps of both payloads. -/
structure HandsOut (layout : HeapLayout) (answers : Nat → Except Error BlockPair)
    (blocks : List BlockPair) : Prop where
  answer_eq : ∀ i (hi : i < blocks.length), answers i = .ok blocks[i]
  heaps : ∀ pair ∈ blocks, ∃ count, 0 < count ∧
    pair.data.length = count * layout.dataHeapStride ∧
    pair.weights.length = count * layout.weightsHeapStride

/-- The answers hand out two payloads and are the end mark from then on. -/
structure Completes (layout : HeapLayout) (data weights : Bytes)
    (answers : Nat → Except Error BlockPair) (blocks : List BlockPair) : Prop
    extends HandsOut layout answers blocks where
  data_eq : blocks.flatMap (·.data.bytes) = data
  weights_eq : blocks.flatMap (·.weights.bytes) = weights
  ended : ∀ i, blocks.length ≤ i → answers i = .ok .endMark

/-- After some blocks there is a validation error, and from then on the pair is refused. -/
structure Breaks (layout : HeapLayout) (answers : Nat → Except Error BlockPair)
    (blocks : List BlockPair) : Prop extends HandsOut layout answers blocks where
  broken : ∃ field message, answers blocks.length = .error (.validation field message)
  refused : ∀ i, blocks.length < i → ∃ message, answers i = .error (.state message)

/-- Some answer is the end mark, and none before it is an error. -/
def EndsWithoutError (answers : Nat → Except Error BlockPair) : Prop :=
  ∃ count, (∃ pair, answers count = .ok pair ∧ pair.isEnd = true) ∧
    ∀ i < count, ∃ pair, answers i = .ok pair

section Answers

variable {layout : HeapLayout} {answers : Nat → Except Error BlockPair} {blocks : List BlockPair}
  {data weights : Bytes}

theorem HandsOut.nil : HandsOut layout answers [] :=
  ⟨fun _ hi => absurd hi (Nat.not_lt_zero _), fun _ hpair => nomatch hpair⟩

theorem HandsOut.cons {pair : BlockPair}
    (hrest : HandsOut layout (fun i => answers (i + 1)) blocks) (hfirst : answers 0 = .ok pair)
    (hheaps : ∃ count, 0 < count ∧ pair.data.length = count * layout.dataHeapStride ∧
      pair.weights.length = count * layout.weightsHeapStride) :
    HandsOut layout answers (pair :: blocks) := by
  refine ⟨?_, ?_⟩
  · intro i hi
    cases i with
    | zero => exact hfirst
    | succ i => exact hrest.answer_eq i (Nat.lt_of_succ_lt_succ hi)
  · intro other hother
    rcases List.mem_cons.mp hother with rfl | hmem
    · exact hheaps
    · exact hrest.heaps other hmem

theorem Completes.cons {pair : BlockPair}
    (hrest : Completes layout data weights (fun i => answers (i + 1)) blocks)
    (hfirst : answers 0 = .ok pair)
    (hheaps : ∃ count, 0 < count ∧ pair.data.length = count * layout.dataHeapStride ∧
      pair.weights.length = count * layout.weightsHeapStride) :
    Completes layout (pair.data.bytes ++ data) (pair.weights.bytes ++ weights) answers
      (pair :: blocks) := by
  refine ⟨hrest.toHandsOut.cons hfirst hheaps, ?_, ?_, ?_⟩
  · rw [List.flatMap_cons, hrest.data_eq]
  · rw [List.flatMap_cons, hrest.weights_eq]
  · intro i hi
    cases i with
    | zero => simp at hi
    | succ i => exact hrest.ended i (Nat.le_of_succ_le_succ hi)

theorem Breaks.cons {pair : BlockPair}
    (hrest : Breaks layout (fun i => answers (i + 1)) blocks) (hfirst : answers 0 = .ok pair)
    (hheaps : ∃ count, 0 < count ∧ pair.data.length = count * layout.dataHeapStride ∧
      pair.weights.length = count * layout.weightsHeapStride) :
    Breaks layout answers (pair :: blocks) := by
  refine ⟨hrest.toHandsOut.cons hfirst hheaps, hrest.broken, ?_⟩
  intro i hi
  cases i with
  | zero => simp at hi
  | succ i => exact hrest.refused i (Nat.lt_of_succ_lt_succ hi)

theorem Completes.endsWithoutError (hcompletes : Completes layout data weights answers blocks) :
    EndsWithoutError answers :=
  ⟨blocks.length, ⟨.endMark, hcompletes.ended _ (Nat.le_refl _), rfl⟩,
    fun i hi => ⟨_, hcompletes.answer_eq i hi⟩⟩

theorem Breaks.not_endsWithoutError (hD : 0 < layout.dataHeapStride)
    (hbreaks : Breaks layout answers blocks) : ¬EndsWithoutError answers := by
  rintro ⟨count, ⟨pair, hpair, hend⟩, hbefore⟩
  obtain ⟨field, message, hbroken⟩ := hbreaks.broken
  rcases Nat.lt_or_ge blocks.length count with hlt | hge
  · obtain ⟨other, hother⟩ := hbefore _ hlt
    rw [hbroken] at hother
    simp at hother
  rcases Nat.lt_or_eq_of_le hge with hlt | rfl
  · -- a block of some heaps is no end mark
    have hblock := hbreaks.answer_eq count hlt
    rw [hpair, Except.ok.injEq] at hblock
    obtain ⟨heaps, hpos, hlength, _⟩ := hbreaks.heaps pair (hblock ▸ List.getElem_mem hlt)
    have hbytes : 0 < pair.data.length := hlength ▸ Nat.mul_pos hpos hD
    simp only [BlockPair.isEnd, Bool.and_eq_true, Block.isEnd, List.isEmpty_iff] at hend
    rw [Block.length, hend.1, List.length_nil] at hbytes
    exact absurd hbytes (Nat.lt_irrefl 0)
  · rw [hbroken] at hpair
    simp at hpair

end Answers

/-! ## States of a pair -/

namespace PairedStream

variable {D W : Type} {P : PayloadPair} {pair : PairedStream D W} {start heaps : Nat}
  {dataReady : Nat → Nat → D → Prop} {weightsReady : Nat → Nat → W → Prop}

theorem parts_eq_ok {data : D} {weights : W} {layout : HeapLayout} :
    pair.parts = .ok (data, weights, layout) ↔
      pair.data? = some data ∧ pair.weights? = some weights ∧ pair.layout? = some layout := by
  unfold parts
  split
  · next hdata hweights hlayout => simp [hdata, hweights, hlayout]
  · next hmissing =>
    simp only [reduceCtorEq, false_iff]
    rintro ⟨hdata, hweights, hlayout⟩
    exact hmissing _ _ _ hdata hweights hlayout

/-- Both streams are at heap `start` of their payloads and ready to give `heaps` of them. -/
structure Ready (P : PayloadPair) (dataReady : Nat → Nat → D → Prop)
    (weightsReady : Nat → Nat → W → Prop) (start heaps : Nat) (pair : PairedStream D W) :
    Prop where
  heaps_pos : 0 < heaps
  failed_eq : pair.failed = false
  streams : ∃ data weights, pair.parts = .ok (data, weights, P.layout) ∧
    dataReady (start * P.D) (heaps * P.D) data ∧
    weightsReady (start * P.W) (heaps * P.W) weights

variable [BlockStream D] [BlockStream W]

/-- Both payloads consist of bytes in heaps, and streams that are ready give them in order. -/
structure Reads (P : PayloadPair) (dataReady : Nat → Nat → D → Prop)
    (weightsReady : Nat → Nat → W → Prop) : Prop where
  dataStride_pos : 0 < P.D
  weightsStride_pos : 0 < P.W
  data : Steady P.data P.dataOffset dataReady
  weights : Steady P.weights P.weightsOffset weightsReady

/-- A step of both streams takes the next heaps of both payloads. -/
theorem nextBlocks_of_ready (hreads : Reads P dataReady weightsReady)
    (hready : Ready P dataReady weightsReady start heaps pair) :
    ∃ data weights dataAfter weightsAfter, pair.parts = .ok (data, weights, P.layout) ∧
      nextBlocks P.layout data weights = (P.answer start heaps, dataAfter, weightsAfter) ∧
      dataReady ((start + heaps) * P.D) (heaps * P.D) dataAfter ∧
      weightsReady ((start + heaps) * P.W) (heaps * P.W) weightsAfter := by
  obtain ⟨data, weights, hparts, hdata, hweights⟩ := hready.streams
  obtain ⟨dataAfter, hdataNext, hdataAfter⟩ := hreads.data hdata
  obtain ⟨weightsAfter, hweightsNext, hweightsAfter⟩ := hreads.weights hweights
  rw [← Nat.add_mul] at hdataAfter hweightsAfter
  refine ⟨data, weights, dataAfter, weightsAfter, hparts, ?_, hdataAfter, hweightsAfter⟩
  simp only [nextBlocks, hdataNext, hweightsNext]
  rfl

/-- A call that gives heaps of both payloads leaves the streams behind them. -/
theorem next_of_answer_ok (hreads : Reads P dataReady weightsReady)
    (hready : Ready P dataReady weightsReady start heaps pair) {blocks : BlockPair}
    (hanswer : P.answer start heaps = .ok blocks) :
    ∃ after, pair.next = (.ok blocks, after) ∧
      Ready P dataReady weightsReady (start + heaps) heaps after := by
  obtain ⟨data, weights, dataAfter, weightsAfter, hparts, hblocks, hdataAfter, hweightsAfter⟩ :=
    nextBlocks_of_ready hreads hready
  obtain ⟨_, _, hlayout⟩ := parts_eq_ok.mp hparts
  refine ⟨{ pair with data? := some dataAfter, weights? := some weightsAfter }, ?_,
    hready.heaps_pos, hready.failed_eq, dataAfter, weightsAfter,
    parts_eq_ok.mpr ⟨rfl, rfl, hlayout⟩, hdataAfter, hweightsAfter⟩
  rw [next, hready.failed_eq, if_neg Bool.false_ne_true]
  simp only [hparts, hblocks, hanswer]

/-- A call that finds different heaps leaves the pair failed. -/
theorem next_of_answer_error (hreads : Reads P dataReady weightsReady)
    (hready : Ready P dataReady weightsReady start heaps pair) {error : Error}
    (hanswer : P.answer start heaps = .error error) :
    ∃ after, pair.next = (.error error, after) ∧ after.failed = true := by
  obtain ⟨data, weights, dataAfter, weightsAfter, hparts, hblocks, _⟩ :=
    nextBlocks_of_ready hreads hready
  refine ⟨{ pair with data? := some dataAfter, weights? := some weightsAfter, failed := true }, ?_,
    rfl⟩
  rw [next, hready.failed_eq, if_neg Bool.false_ne_true]
  simp only [hparts, hblocks, hanswer]

theorem next_of_failed (hfailed : pair.failed = true) :
    pair.next = (.error (.state "data and weights streams failed on a previous block"), pair) := by
  rw [next, if_pos hfailed]

/-! ## Call after call -/

/-- The answers to one call of `next` after another.  Ahead of call `i` the pair is made
ready by `prepare i`. -/
def answers (prepare : Nat → PairedStream D W → PairedStream D W) (pair : PairedStream D W) :
    Nat → Except Error BlockPair
  | 0 => (prepare 0 pair).next.1
  | i + 1 => answers (fun j => prepare (j + 1)) (prepare 0 pair).next.2 i

/-- A preparation that moves neither stream.  It may change how many heaps are given. -/
structure Prepares (P : PayloadPair) (dataReady : Nat → Nat → D → Prop)
    (weightsReady : Nat → Nat → W → Prop) (prepare : PairedStream D W → PairedStream D W) :
    Prop where
  ready : ∀ {start heaps pair}, Ready P dataReady weightsReady start heaps pair →
    ∃ heaps, Ready P dataReady weightsReady start heaps (prepare pair)
  failed : ∀ {pair}, pair.failed = true → (prepare pair).failed = true

variable {prepare : Nat → PairedStream D W → PairedStream D W}

theorem answers_succ {after : PairedStream D W} {result : Except Error BlockPair}
    (hnext : (prepare 0 pair).next = (result, after)) :
    (fun i => answers prepare pair (i + 1)) = answers (fun j => prepare (j + 1)) after := by
  funext i
  rw [answers, hnext]

theorem answers_of_failed (hprepare : ∀ i, Prepares P dataReady weightsReady (prepare i))
    (hfailed : pair.failed = true) (i : Nat) :
    ∃ message, answers prepare pair i = .error (.state message) := by
  induction i generalizing prepare pair with
  | zero =>
      rw [answers, next_of_failed ((hprepare 0).failed hfailed)]
      exact ⟨_, rfl⟩
  | succ i ih =>
      rw [answers, next_of_failed ((hprepare 0).failed hfailed)]
      exact ih (fun j => hprepare (j + 1)) ((hprepare 0).failed hfailed)

theorem answers_of_exhausted (hreads : Reads P dataReady weightsReady)
    (hprepare : ∀ i, Prepares P dataReady weightsReady (prepare i))
    (hready : Ready P dataReady weightsReady start heaps (prepare 0 pair))
    (hdata : P.data.length ≤ start * P.D) (hweights : P.weights.length ≤ start * P.W)
    (i : Nat) : answers prepare pair i = .ok .endMark := by
  induction i generalizing prepare pair start heaps with
  | zero =>
      obtain ⟨after, hnext, _⟩ := next_of_answer_ok hreads hready
        (PayloadPair.answer_of_exhausted hdata hweights)
      rw [answers, hnext]
  | succ i ih =>
      obtain ⟨after, hnext, hafter⟩ := next_of_answer_ok hreads hready
        (PayloadPair.answer_of_exhausted hdata hweights)
      obtain ⟨more, hprepared⟩ := (hprepare 1).ready hafter
      have hle : start ≤ start + heaps := Nat.le_add_right _ _
      rw [answers, hnext]
      apply ih (fun j => hprepare (j + 1)) hprepared
      · exact Nat.le_trans hdata (Nat.mul_le_mul_right _ hle)
      · exact Nat.le_trans hweights (Nat.mul_le_mul_right _ hle)

/-- From heap `start` on, payloads of the same heaps are handed out to their end.  The
induction is on the heaps that are left. -/
theorem completes_of_ready (hreads : Reads P dataReady weightsReady)
    (hprepare : ∀ i, Prepares P dataReady weightsReady (prepare i))
    (hready : Ready P dataReady weightsReady start heaps (prepare 0 pair)) {count : Nat}
    (hdata : P.data.length = count * P.D) (hweights : P.weights.length = count * P.W)
    (haligned : start < count → P.Aligned) :
    ∃ blocks, Completes P.layout (P.data.drop (start * P.D)) (P.weights.drop (start * P.W))
      (answers prepare pair) blocks := by
  induction hleft : count - start using Nat.strongRecOn generalizing prepare pair start heaps with
  | ind left ih =>
      have hheaps := hready.heaps_pos
      rcases Nat.lt_or_ge start count with hlt | hdone
      -- some heaps are left: this step gives the first of them, the induction the others
      · have hanswer := PayloadPair.answer_of_match hreads.dataStride_pos hreads.weightsStride_pos
          hheaps hdata hweights (haligned hlt) hlt
        obtain ⟨after, hnext, hafter⟩ := next_of_answer_ok hreads hready hanswer
        obtain ⟨more, hprepared⟩ := (hprepare 1).ready hafter
        obtain ⟨blocks, hblocks⟩ := ih (count - (start + heaps)) (by omega)
          (fun j => hprepare (j + 1)) hprepared (fun _ => haligned hlt) rfl
        rw [← answers_succ hnext] at hblocks
        have hcons := hblocks.cons (by rw [answers, hnext])
          ⟨_, Nat.lt_min.mpr ⟨hheaps, Nat.sub_pos_of_lt hlt⟩,
            PayloadPair.length_dataPart hdata, PayloadPair.length_weightsPart hweights⟩
        rw [PayloadPair.dataPart_append_drop, PayloadPair.weightsPart_append_drop] at hcons
        exact ⟨_, hcons⟩
      · have hdataEnd : P.data.length ≤ start * P.D := by
          rw [hdata]
          exact Nat.mul_le_mul_right _ hdone
        have hweightsEnd : P.weights.length ≤ start * P.W := by
          rw [hweights]
          exact Nat.mul_le_mul_right _ hdone
        refine ⟨[], .nil, ?_, ?_, ?_⟩
        · rw [List.drop_of_length_le hdataEnd, List.flatMap_nil]
        · rw [List.drop_of_length_le hweightsEnd, List.flatMap_nil]
        · intro i _
          exact answers_of_exhausted hreads hprepare hready hdataEnd hweightsEnd i

/-- From heap `start` on, payloads that are not the same heaps lead to an error.  The
induction is on the data bytes that are left. -/
theorem breaks_of_ready (hreads : Reads P dataReady weightsReady)
    (hprepare : ∀ i, Prepares P dataReady weightsReady (prepare i))
    (hready : Ready P dataReady weightsReady start heaps (prepare 0 pair))
    (hdata : start * P.D ≤ P.data.length) (hweights : start * P.W ≤ P.weights.length)
    (hmismatch : ¬P.MatchFrom start) :
    ∃ blocks, Breaks P.layout (answers prepare pair) blocks := by
  induction hleft : P.data.length - start * P.D using Nat.strongRecOn
    generalizing prepare pair start heaps with
  | ind left ih =>
      have hheaps := hready.heaps_pos
      cases hanswer : P.answer start heaps with
      | error error =>
          obtain ⟨after, hnext, hafter⟩ := next_of_answer_error hreads hready hanswer
          obtain ⟨field, message, rfl⟩ := BlockPair.validation_of_ofBlocks hanswer
          refine ⟨[], .nil, ⟨field, message, ?_⟩, ?_⟩
          · rw [List.length_nil, answers, hnext]
          · intro i hi
            cases i with
            | zero => simp at hi
            | succ i =>
                rw [answers, hnext]
                exact answers_of_failed (fun j => hprepare (j + 1)) hafter i
      | ok blocks =>
          obtain ⟨after, hnext, hafter⟩ := next_of_answer_ok hreads hready hanswer
          obtain ⟨more, hprepared⟩ := (hprepare 1).ready hafter
          -- fewer heaps than wanted would end both payloads at one heap, and so match them;
          -- this keeps both positions within their payloads
          obtain ⟨rfl, hcount, hdataNext, hweightsNext, hlater⟩ :=
            PayloadPair.of_answer_of_not_matchFrom hreads.dataStride_pos hreads.weightsStride_pos
              hheaps hdata hweights hmismatch hanswer
          have hprogress : start * P.D < (start + heaps) * P.D :=
            Nat.mul_lt_mul_of_pos_right (by omega) hreads.dataStride_pos
          obtain ⟨blocks, hblocks⟩ := ih (P.data.length - (start + heaps) * P.D) (by omega)
            (fun j => hprepare (j + 1)) hprepared hdataNext hweightsNext hlater rfl
          rw [← answers_succ hnext] at hblocks
          exact ⟨_, hblocks.cons (by rw [answers, hnext]) hcount⟩

end PairedStream

end VoltageCapture
