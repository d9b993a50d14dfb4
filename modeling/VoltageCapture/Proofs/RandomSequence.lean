import VoltageCapture.RandomSequence

/-!
# One byte for each position

The bytes of a random sequence are those of the output of a hash, which is made in blocks of
64.  Here it is shown that neither the blocks nor the way to a position matter: the byte at a
position is a function of the key and the position (`bytesAt_eq_map`), so that stretches
join (`bytesAt_add`).  Validating compares a chunk at a time and stops early; its answer is
that of one comparison, and the cursor moves past all bytes (`validate_eq`).
-/

namespace VoltageCapture

/-! ## Output of the hash -/

namespace Blake3.Node

theorem outputBlock_eq_map (node : Node) (index : Nat) :
    node.outputBlock index = (List.range' (64 * index) 64).map node.outputByte := by
  apply List.ext_getElem
  · rw [length_outputBlock, List.length_map, List.length_range']
  · intro i hi _
    rw [length_outputBlock] at hi
    have hdiv : (64 * index + i) / 64 = index := by omega
    have hmod : (64 * index + i) % 64 = i := by omega
    rw [List.getElem_map, List.getElem_range', Nat.one_mul, outputByte, hdiv, hmod,
      List.getElem?_eq_getElem, Option.getD_some]

theorem flatMap_outputBlock (node : Node) (first count : Nat) :
    (List.range' first count).flatMap node.outputBlock =
      (List.range' (64 * first) (64 * count)).map node.outputByte := by
  induction count generalizing first with
  | zero => rfl
  | succ count ih =>
      rw [List.range'_succ, List.flatMap_cons, ih, outputBlock_eq_map, ← List.map_append,
        Nat.mul_add, Nat.mul_one, List.range'_append_1, Nat.mul_add, Nat.mul_one, Nat.add_comm 64]

/-- The output from a position on is the byte at each position, block borders or not. -/
theorem output_eq_map (node : Node) (position count : Nat) :
    node.output position count = (List.range' position count).map node.outputByte := by
  have hstart : 64 * (position / 64) + position % 64 = position := Nat.div_add_mod position 64
  obtain ⟨more, hmore⟩ : ∃ more,
      64 * ((position % 64 + count + 63) / 64) - position % 64 = count + more :=
    Nat.exists_eq_add_of_le (by omega)
  simp only [output, flatMap_outputBlock, ← List.map_drop, ← List.map_take]
  rw [List.drop_range', Nat.mul_one, hstart, hmore, ← List.range'_append_1,
    List.take_left' List.length_range']

end Blake3.Node

namespace RandomSequence

variable {key : Blake3.Chain} {sequence : RandomSequence} {bytes : Bytes}

/-! ## Stretches of a sequence -/

theorem bytesAt_eq_map (key : Blake3.Chain) (position count : Nat) :
    bytesAt key position count =
      (List.range' position count).map (Blake3.keyedHash key []).outputByte :=
  Blake3.Node.output_eq_map _ position count

@[simp] theorem bytesAt_zero (key : Blake3.Chain) (position : Nat) : bytesAt key position 0 = [] :=
  List.length_eq_zero_iff.mp (length_bytesAt key position 0)

/-- What follows a stretch is the stretch that starts where it ends. -/
theorem bytesAt_add (key : Blake3.Chain) (position first second : Nat) :
    bytesAt key position (first + second) =
      bytesAt key position first ++ bytesAt key (position + first) second := by
  rw [bytesAt_eq_map, bytesAt_eq_map, bytesAt_eq_map, ← List.map_append, List.range'_append_1]

theorem take_bytesAt {first count : Nat} (hle : first ≤ count) (key : Blake3.Chain)
    (position : Nat) : (bytesAt key position count).take first = bytesAt key position first := by
  obtain ⟨second, rfl⟩ := Nat.exists_eq_add_of_le hle
  rw [bytesAt_add, List.take_left' (length_bytesAt _ _ _)]

theorem drop_bytesAt {first count : Nat} (hle : first ≤ count) (key : Blake3.Chain)
    (position : Nat) :
    (bytesAt key position count).drop first = bytesAt key (position + first) (count - first) := by
  obtain ⟨second, rfl⟩ := Nat.exists_eq_add_of_le hle
  rw [bytesAt_add, List.drop_left' (length_bytesAt _ _ _), Nat.add_sub_cancel_left]

theorem slice_bytesAt {start count : Nat} (hle : start ≤ count) (key : Blake3.Chain)
    (position size : Nat) :
    ((bytesAt key position count).drop start).take size =
      bytesAt key (position + start) (min size (count - start)) := by
  rw [drop_bytesAt hle, List.take_eq_take_min, length_bytesAt,
    take_bytesAt (Nat.min_le_right _ _)]

/-- Bytes are a stretch of a sequence if their parts are, one behind the other. -/
theorem append_eq_bytesAt_iff (key : Blake3.Chain) (position : Nat) (first second : Bytes) :
    first ++ second = bytesAt key position (first ++ second).length ↔
      first = bytesAt key position first.length ∧
        second = bytesAt key (position + first.length) second.length := by
  rw [List.length_append, bytesAt_add]
  refine ⟨fun heq => List.append_inj heq (length_bytesAt _ _ _).symm, ?_⟩
  rintro ⟨hfirst, hsecond⟩
  rw [← hfirst, ← hsecond]

/-- Stretches of one length, each at its number times that length, follow each other. -/
theorem flatMap_bytesAt (key : Blake3.Chain) (length start count : Nat) :
    (List.range' start count).flatMap (fun number => bytesAt key (number * length) length) =
      bytesAt key (start * length) (count * length) := by
  induction count generalizing start with
  | zero => rw [Nat.zero_mul, bytesAt_zero, List.range'_zero, List.flatMap_nil]
  | succ count ih =>
      rw [List.range'_succ, List.flatMap_cons, ih, Nat.succ_mul, Nat.succ_mul,
        Nat.add_comm (count * length), bytesAt_add]

/-- The bytes of a sequence from position `start` up to position `stop`, as a sequence gives
them that starts at position zero. -/
def between (sequence : RandomSequence) (start stop : Nat) : Bytes :=
  (sequence.reset.generate stop).1.drop start

theorem between_eq_bytesAt {start stop : Nat} (hle : start ≤ stop) (sequence : RandomSequence) :
    sequence.between start stop = bytesAt sequence.key start (stop - start) := by
  show (bytesAt sequence.key 0 stop).drop start = _
  rw [drop_bytesAt hle, Nat.zero_add]

theorem between_add_eq_bytesAt (sequence : RandomSequence) (start count : Nat) :
    sequence.between start (start + count) = bytesAt sequence.key start count := by
  rw [between_eq_bytesAt (Nat.le_add_right _ _), Nat.add_sub_cancel_left]

/-! ## Comparing -/

/-- A step of the comparison: the chunk, and then the rest from where it ends. -/
theorem compareChunks_of_ne_nil (hne : bytes ≠ []) :
    sequence.compareChunks bytes =
      if bytesAt sequence.key sequence.position (bytes.take chunkLength).length =
          bytes.take chunkLength then
        (sequence.seek (sequence.position + (bytes.take chunkLength).length)).compareChunks
          (bytes.drop chunkLength)
      else
        (false, sequence.seek (sequence.position + (bytes.take chunkLength).length)) := by
  rw [compareChunks, dif_neg hne]
  rfl

/-- Comparing leaves the seed and the key as they are, and passes exactly the bytes of the
sequence.  The induction is on the bytes that have not been compared. -/
theorem of_compareChunks (sequence : RandomSequence) (bytes : Bytes) :
    ((sequence.compareChunks bytes).1 = true ↔
      bytes = bytesAt sequence.key sequence.position bytes.length) ∧
    ∃ position, (sequence.compareChunks bytes).2 = sequence.seek position := by
  induction hlength : bytes.length using Nat.strongRecOn generalizing sequence bytes with
  | ind length ih =>
      subst hlength
      by_cases hne : bytes = []
      · subst hne
        rw [compareChunks, dif_pos rfl]
        exact ⟨by simp, sequence.position, rfl⟩
      · have hpos := List.length_pos_iff.mpr hne
        have hshorter : (bytes.drop chunkLength).length < bytes.length := by
          rw [List.length_drop, chunkLength]
          omega
        have hsplit := append_eq_bytesAt_iff sequence.key sequence.position
          (bytes.take chunkLength) (bytes.drop chunkLength)
        rw [List.take_append_drop] at hsplit
        rw [compareChunks_of_ne_nil hne, hsplit]
        split
        · next hsame =>
          obtain ⟨hpassed, position, hposition⟩ := ih _ hshorter
            (sequence.seek (sequence.position + (bytes.take chunkLength).length)) _ rfl
          exact ⟨hpassed.trans ⟨fun hrest => ⟨hsame.symm, hrest⟩, And.right⟩, position, hposition⟩
        · next hdiffers =>
          exact ⟨⟨Bool.noConfusion, fun hboth => absurd hboth.1.symm hdiffers⟩, _, rfl⟩

/-- Validating is one comparison, and moves past all bytes. -/
theorem validate_eq (sequence : RandomSequence) (bytes : Bytes) :
    sequence.validate bytes =
      (decide (bytes = bytesAt sequence.key sequence.position bytes.length),
        sequence.seek (sequence.position + bytes.length)) := by
  obtain ⟨hpassed, position, hposition⟩ := of_compareChunks sequence bytes
  have hanswer : (sequence.compareChunks bytes).1 =
      decide (bytes = bytesAt sequence.key sequence.position bytes.length) := by
    rw [Bool.eq_iff_iff, hpassed, decide_eq_true_iff]
  show ((sequence.compareChunks bytes).1,
    (sequence.compareChunks bytes).2.seek (sequence.position + bytes.length)) = _
  rw [hanswer, hposition]
  rfl

end RandomSequence

end VoltageCapture
