import VoltageCapture.Stream.Pair
import VoltageCapture.Proofs.Error
import VoltageCapture.Proofs.Heap.Layout
import VoltageCapture.Proofs.Stream.Copying

/-!
# Blocks of the same heaps

A step of a pair compares the block of data with the block of weights.  The first part of
this file settles when the comparison succeeds, and that it fails with nothing but
validation errors.  The second part is about blocks that are parts of two payloads:
`PayloadPair.answer start heaps` is what a step gives that takes `heaps` heaps from heap
`start` of both payloads on.

* `of_answer`: an answer without error is the end mark, if nothing is left, or some heaps
  of both payloads.
* `answer_of_match`: if both payloads are the same heaps, an answer is never an error.
-/

namespace VoltageCapture

/-! ## Counting heaps -/

theorem HeapLayout.heapsIn_eq_ok {layout : HeapLayout} {dataLength weightsLength heaps : Nat}
    (hdata : 0 < layout.dataHeapStride) (hweights : 0 < layout.weightsHeapStride) :
    layout.heapsIn dataLength weightsLength = .ok heaps ↔
      dataLength = heaps * layout.dataHeapStride ∧
        weightsLength = heaps * layout.weightsHeapStride := by
  simp only [heapsIn, bind_eq_ok, pure_eq_ok, require_eq_ok]
  constructor
  · rintro ⟨_, hdataWhole, _, hweightsWhole, _, hsame, rfl⟩
    refine ⟨?_, ?_⟩
    · exact (Nat.div_mul_cancel (Nat.dvd_of_mod_eq_zero hdataWhole)).symm
    · rw [hsame]
      exact (Nat.div_mul_cancel (Nat.dvd_of_mod_eq_zero hweightsWhole)).symm
  · rintro ⟨rfl, rfl⟩
    refine ⟨(), Nat.mul_mod_left _ _, (), Nat.mul_mod_left _ _, (), ?_, ?_⟩
    · rw [Nat.mul_div_cancel _ hdata, Nat.mul_div_cancel _ hweights]
    · exact Nat.mul_div_cancel _ hdata

theorem HeapLayout.validation_of_heapsIn {layout : HeapLayout} {dataLength weightsLength : Nat}
    {error : Error} (hheaps : layout.heapsIn dataLength weightsLength = .error error) :
    ∃ field message, error = .validation field message := by
  simp only [heapsIn, bind_eq_error, require_eq_error, pure, Except.pure, reduceCtorEq, and_false,
    exists_false, or_false] at hheaps
  rcases hheaps with ⟨_, rfl⟩ | ⟨_, _, ⟨_, rfl⟩ | ⟨_, _, _, rfl⟩⟩
  · exact ⟨_, _, rfl⟩
  · exact ⟨_, _, rfl⟩
  · exact ⟨_, _, rfl⟩

namespace BlockPair

variable {layout : HeapLayout} {data weights : Block}

/-! ## Comparing two blocks -/

theorem ofBlocks_of_isEnd (hdata : data.isEnd = true) (hweights : weights.isEnd = true) :
    ofBlocks layout data weights = .ok .endMark := by
  rw [ofBlocks, hdata, hweights]

theorem isEnd_eq_of_ofBlocks {pair : BlockPair} (hpair : ofBlocks layout data weights = .ok pair) :
    data.isEnd = weights.isEnd := by
  unfold ofBlocks at hpair
  split at hpair
  · next hdata hweights => rw [hdata, hweights]
  · next hdata hweights => rw [hdata, hweights]
  · simp at hpair

/-- Two blocks that are no end marks are paired if they hold the same number of heaps and
start at the same heap. -/
theorem ofBlocks_eq_ok {pair : BlockPair} (hdata : data.isEnd = false)
    (hweights : weights.isEnd = false) (hdataStride : 0 < layout.dataHeapStride)
    (hweightsStride : 0 < layout.weightsHeapStride) :
    ofBlocks layout data weights = .ok pair ↔
      pair = ⟨data, weights⟩ ∧
        (∃ heaps, data.length = heaps * layout.dataHeapStride ∧
          weights.length = heaps * layout.weightsHeapStride) ∧
        data.obsOffset / layout.dataHeapStride =
          weights.obsOffset / layout.weightsHeapStride := by
  rw [ofBlocks, hdata, hweights]
  simp only [checkAligned, bind_eq_ok, pure_eq_ok, require_eq_ok,
    HeapLayout.heapsIn_eq_ok hdataStride hweightsStride]
  constructor
  · rintro ⟨_, ⟨heaps, hheaps, hstart⟩, rfl⟩
    exact ⟨rfl, ⟨heaps, hheaps⟩, hstart⟩
  · rintro ⟨rfl, ⟨heaps, hheaps⟩, hstart⟩
    exact ⟨(), ⟨heaps, hheaps, hstart⟩, rfl⟩

/-- Two blocks of the same number of heaps are refused if they start at different ones. -/
theorem ofBlocks_of_apart {heaps : Nat} (hdata : data.isEnd = false)
    (hweights : weights.isEnd = false)
    (hheaps : layout.heapsIn data.length weights.length = .ok heaps)
    (hapart : data.obsOffset / layout.dataHeapStride ≠
      weights.obsOffset / layout.weightsHeapStride) :
    ofBlocks layout data weights = .error (.inconsistent Key.obsOffset) := by
  have hrefused : checkAligned layout data weights = .error (.inconsistent Key.obsOffset) := by
    rw [checkAligned, bind_eq_error]
    exact Or.inr ⟨heaps, hheaps, require_eq_error.mpr ⟨hapart, rfl⟩⟩
  rw [ofBlocks, hdata, hweights]
  exact bind_eq_error.mpr (Or.inl hrefused)

theorem validation_of_ofBlocks {error : Error}
    (hpair : ofBlocks layout data weights = .error error) :
    ∃ field message, error = .validation field message := by
  unfold ofBlocks at hpair
  split at hpair
  · simp at hpair
  · simp only [checkAligned, bind_eq_error, require_eq_error, pure, Except.pure, reduceCtorEq,
      and_false, exists_false, or_false] at hpair
    rcases hpair with hheaps | ⟨_, _, _, rfl⟩
    · exact HeapLayout.validation_of_heapsIn hheaps
    · exact ⟨_, _, rfl⟩
  · simp only [Except.error.injEq] at hpair
    exact ⟨_, _, hpair.symm⟩

end BlockPair

/-! ## Parts of two payloads -/

/-- A payload of data and a payload of weights, with their offsets within the observation,
and the layout of their heaps. -/
structure PayloadPair where
  layout : HeapLayout
  data : Bytes
  dataOffset : Nat
  weights : Bytes
  weightsOffset : Nat

namespace PayloadPair

variable {P : PayloadPair} {start heaps : Nat}

abbrev D (P : PayloadPair) : Nat := P.layout.dataHeapStride

abbrev W (P : PayloadPair) : Nat := P.layout.weightsHeapStride

/-- Both payloads start in the same heap of the observation. -/
def Aligned (P : PayloadPair) : Prop :=
  P.dataOffset / P.D = P.weightsOffset / P.W

/-- From heap `start` of the payloads on, both consist of the same heaps. -/
def MatchFrom (P : PayloadPair) (start : Nat) : Prop :=
  ∃ count, P.data.length = count * P.D ∧ P.weights.length = count * P.W ∧
    (count ≤ start ∨ P.Aligned)

/-- The data of some heaps, from heap `start` of the payload on. -/
def dataPart (P : PayloadPair) (start heaps : Nat) : Block :=
  .part P.data P.dataOffset (start * P.D) (heaps * P.D)

/-- The weights of some heaps, from heap `start` of the payload on. -/
def weightsPart (P : PayloadPair) (start heaps : Nat) : Block :=
  .part P.weights P.weightsOffset (start * P.W) (heaps * P.W)

/-- What a call gives that takes some heaps from heap `start` of both payloads on. -/
def answer (P : PayloadPair) (start heaps : Nat) : Except Error BlockPair :=
  BlockPair.ofBlocks P.layout (P.dataPart start heaps) (P.weightsPart start heaps)

theorem answer_of_exhausted (hdata : P.data.length ≤ start * P.D)
    (hweights : P.weights.length ≤ start * P.W) : P.answer start heaps = .ok .endMark := by
  have hdataMark : P.dataPart start heaps = .endMark := Block.part_eq_endMark hdata
  have hweightsMark : P.weightsPart start heaps = .endMark := Block.part_eq_endMark hweights
  rw [answer, hdataMark, hweightsMark]
  exact BlockPair.ofBlocks_of_isEnd rfl rfl

/-- If both payloads have bytes left, their parts start in the same heap exactly if the
payloads do. -/
theorem aligned_iff (hD : 0 < P.D) (hW : 0 < P.W) (hdata : (P.dataPart start heaps).isEnd = false)
    (hweights : (P.weightsPart start heaps).isEnd = false) :
    (P.dataPart start heaps).obsOffset / P.D = (P.weightsPart start heaps).obsOffset / P.W ↔
      P.Aligned := by
  have hdataOffset : (P.dataPart start heaps).obsOffset = P.dataOffset + start * P.D :=
    Block.obsOffset_part hdata
  have hweightsOffset : (P.weightsPart start heaps).obsOffset = P.weightsOffset + start * P.W :=
    Block.obsOffset_part hweights
  rw [hdataOffset, hweightsOffset, Nat.add_mul_div_right _ _ hD, Nat.add_mul_div_right _ _ hW,
    Aligned]
  omega

/-- An answer without error is the end mark, if nothing is left, or some heaps of both
payloads. -/
theorem of_answer (hD : 0 < P.D) (hW : 0 < P.W) (hheaps : 0 < heaps) {pair : BlockPair}
    (hanswer : P.answer start heaps = .ok pair) :
    (pair = .endMark ∧ P.data.length ≤ start * P.D ∧ P.weights.length ≤ start * P.W) ∨
      (pair = ⟨P.dataPart start heaps, P.weightsPart start heaps⟩ ∧ P.Aligned ∧
        ∃ count, 0 < count ∧ (P.dataPart start heaps).length = count * P.D ∧
          (P.weightsPart start heaps).length = count * P.W) := by
  have hdataEnd : (P.dataPart start heaps).isEnd = true ↔ P.data.length ≤ start * P.D :=
    Block.isEnd_part_iff _ (Nat.mul_pos hheaps hD)
  have hweightsEnd : (P.weightsPart start heaps).isEnd = true ↔ P.weights.length ≤ start * P.W :=
    Block.isEnd_part_iff _ (Nat.mul_pos hheaps hW)
  have hsame := BlockPair.isEnd_eq_of_ofBlocks hanswer
  rw [answer] at hanswer
  cases hdata : (P.dataPart start heaps).isEnd with
  | true =>
      have hweights : (P.weightsPart start heaps).isEnd = true := hsame ▸ hdata
      rw [BlockPair.ofBlocks_of_isEnd hdata hweights, Except.ok.injEq] at hanswer
      exact Or.inl ⟨hanswer.symm, hdataEnd.mp hdata, hweightsEnd.mp hweights⟩
  | false =>
      have hweights : (P.weightsPart start heaps).isEnd = false := hsame ▸ hdata
      obtain ⟨hpair, ⟨count, hdataLength, hweightsLength⟩, hstart⟩ :=
        (BlockPair.ofBlocks_eq_ok hdata hweights hD hW).mp hanswer
      refine Or.inr ⟨hpair, (aligned_iff hD hW hdata hweights).mp hstart, count, ?_, hdataLength,
        hweightsLength⟩
      -- a block of no heaps would have been an end mark
      apply Nat.pos_of_ne_zero
      intro hzero
      rw [hzero, Nat.zero_mul] at hdataLength
      rw [Block.isEnd, List.isEmpty_eq_false_iff] at hdata
      exact hdata (List.length_eq_zero_iff.mp hdataLength)

theorem dataPart_append_drop :
    (P.dataPart start heaps).bytes ++ P.data.drop ((start + heaps) * P.D) =
      P.data.drop (start * P.D) := by
  rw [dataPart, Block.bytes_part, Nat.add_mul, ← List.drop_drop, List.take_append_drop]

theorem weightsPart_append_drop :
    (P.weightsPart start heaps).bytes ++ P.weights.drop ((start + heaps) * P.W) =
      P.weights.drop (start * P.W) := by
  rw [weightsPart, Block.bytes_part, Nat.add_mul, ← List.drop_drop, List.take_append_drop]

theorem length_dataPart {count : Nat} (hdata : P.data.length = count * P.D) :
    (P.dataPart start heaps).length = min heaps (count - start) * P.D := by
  rw [dataPart, Block.length_part, hdata, ← Nat.sub_mul, Nat.mul_min_mul_right]

theorem length_weightsPart {count : Nat} (hweights : P.weights.length = count * P.W) :
    (P.weightsPart start heaps).length = min heaps (count - start) * P.W := by
  rw [weightsPart, Block.length_part, hweights, ← Nat.sub_mul, Nat.mul_min_mul_right]

/-- While both payloads have heaps left, neither part is an end mark. -/
theorem isEnd_parts_of_left {count : Nat} (hD : 0 < P.D) (hW : 0 < P.W) (hheaps : 0 < heaps)
    (hdata : P.data.length = count * P.D) (hweights : P.weights.length = count * P.W)
    (hleft : start < count) :
    (P.dataPart start heaps).isEnd = false ∧ (P.weightsPart start heaps).isEnd = false := by
  constructor
  · rw [← Bool.not_eq_true, dataPart, Block.isEnd_part_iff _ (Nat.mul_pos hheaps hD), hdata]
    exact Nat.not_le.mpr (Nat.mul_lt_mul_of_pos_right hleft hD)
  · rw [← Bool.not_eq_true, weightsPart, Block.isEnd_part_iff _ (Nat.mul_pos hheaps hW), hweights]
    exact Nat.not_le.mpr (Nat.mul_lt_mul_of_pos_right hleft hW)

/-- While both payloads are the same heaps and some are left, an answer gives of them as
many as are wanted and left. -/
theorem answer_of_match {count : Nat} (hD : 0 < P.D) (hW : 0 < P.W) (hheaps : 0 < heaps)
    (hdata : P.data.length = count * P.D) (hweights : P.weights.length = count * P.W)
    (haligned : P.Aligned) (hleft : start < count) :
    P.answer start heaps = .ok ⟨P.dataPart start heaps, P.weightsPart start heaps⟩ := by
  obtain ⟨hdataEnd, hweightsEnd⟩ := isEnd_parts_of_left hD hW hheaps hdata hweights hleft
  rw [answer, BlockPair.ofBlocks_eq_ok hdataEnd hweightsEnd hD hW]
  exact ⟨rfl, ⟨_, length_dataPart hdata, length_weightsPart hweights⟩,
    (aligned_iff hD hW hdataEnd hweightsEnd).mpr haligned⟩

/-- While as many heaps are left of both payloads, but not the same ones, an answer is refused
for their places. -/
theorem answer_of_not_aligned {count : Nat} (hD : 0 < P.D) (hW : 0 < P.W) (hheaps : 0 < heaps)
    (hdata : P.data.length = count * P.D) (hweights : P.weights.length = count * P.W)
    (hapart : ¬P.Aligned) (hleft : start < count) :
    P.answer start heaps = .error (.inconsistent Key.obsOffset) := by
  obtain ⟨hdataEnd, hweightsEnd⟩ := isEnd_parts_of_left hD hW hheaps hdata hweights hleft
  apply BlockPair.ofBlocks_of_apart hdataEnd hweightsEnd
  · rw [HeapLayout.heapsIn_eq_ok hD hW]
    exact ⟨length_dataPart hdata, length_weightsPart hweights⟩
  · exact fun hsame => hapart ((aligned_iff hD hW hdataEnd hweightsEnd).mp hsame)

/-- If the payloads are not the same heaps, an answer without error gives as many heaps as
were wanted, and the payloads behind them are not the same heaps either. -/
theorem of_answer_of_not_matchFrom (hD : 0 < P.D) (hW : 0 < P.W) (hheaps : 0 < heaps)
    (hdataStart : start * P.D ≤ P.data.length) (hweightsStart : start * P.W ≤ P.weights.length)
    (hmismatch : ¬P.MatchFrom start) {pair : BlockPair}
    (hanswer : P.answer start heaps = .ok pair) :
    pair = ⟨P.dataPart start heaps, P.weightsPart start heaps⟩ ∧
      (∃ count, 0 < count ∧ pair.data.length = count * P.D ∧
        pair.weights.length = count * P.W) ∧
      (start + heaps) * P.D ≤ P.data.length ∧ (start + heaps) * P.W ≤ P.weights.length ∧
      ¬P.MatchFrom (start + heaps) := by
  rcases of_answer hD hW hheaps hanswer with
    ⟨_, hdataEnd, hweightsEnd⟩ | ⟨rfl, haligned, count, hcount, hdata, hweights⟩
  · exact absurd ⟨start, Nat.le_antisymm hdataEnd hdataStart,
      Nat.le_antisymm hweightsEnd hweightsStart, Or.inl (Nat.le_refl _)⟩ hmismatch
  · have hlater : ¬P.MatchFrom (start + heaps) := fun ⟨total, hdataTotal, hweightsTotal, _⟩ =>
      hmismatch ⟨total, hdataTotal, hweightsTotal, Or.inr haligned⟩
    refine ⟨rfl, ⟨count, hcount, hdata, hweights⟩, ?_⟩
    rw [dataPart, Block.length_part] at hdata
    rw [weightsPart, Block.length_part] at hweights
    rw [Nat.add_mul, Nat.add_mul]
    rcases Nat.lt_or_ge (P.data.length - start * P.D) (heaps * P.D) with hshort | hlong
    · -- fewer heaps than wanted: both payloads end with them
      rw [Nat.min_eq_right (Nat.le_of_lt hshort)] at hdata
      have hfewer : count < heaps := Nat.lt_of_mul_lt_mul_right (hdata ▸ hshort)
      have hweightsFewer : count * P.W < heaps * P.W := Nat.mul_lt_mul_of_pos_right hfewer hW
      refine absurd ⟨start + count, ?_, ?_, Or.inr haligned⟩ hmismatch
      · rw [Nat.add_mul]
        omega
      · rw [Nat.add_mul]
        omega
    · rw [Nat.min_eq_left hlong] at hdata
      have hall : heaps = count := Nat.eq_of_mul_eq_mul_right hD hdata
      rw [← hall] at hweights
      exact ⟨by omega, by omega, hlater⟩

end PayloadPair

end VoltageCapture
