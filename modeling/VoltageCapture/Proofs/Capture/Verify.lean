import VoltageCapture.Command.Run
import VoltageCapture.Proofs.RandomSequence
import VoltageCapture.Proofs.Stream.Agreement

/-!
# What verifying a capture finds

Verifying goes through the blocks of a stream, moves the random sequence to each and stops
at the first that differs.  Whatever kind of stream it is, the blocks are the parts of one
payload, of one size each but for the last, so the verdict can be told from the payload as a
whole (`Verdict.IsExact`): it is intact if it is what the sequence gives, and otherwise the
first byte that differs lies in the block that is named.  This is proved for all streams
that hand out a payload in order (`Capture.verifyBlocks_of_ready`); the mapped stream is the
case of a single block.
-/

namespace VoltageCapture

open RandomSequence (bytesAt)

/-! ## The first difference -/

/-- Two byte strings differ at an index and are the same ahead of it. -/
structure FirstDifference (first second : Bytes) (index : Nat) : Prop where
  lt_length : index < first.length
  ne : first[index]? ≠ second[index]?
  take_eq : first.take index = second.take index

namespace FirstDifference

variable {first second : Bytes} {index other start size : Nat}

theorem exists_of_ne (hlength : first.length = second.length) (hne : first ≠ second) :
    ∃ index, FirstDifference first second index := by
  induction first generalizing second with
  | nil => exact absurd (List.length_eq_zero_iff.mp hlength.symm).symm hne
  | cons byte first ih =>
      cases second with
      | nil => simp at hlength
      | cons expected second =>
          by_cases hbyte : byte = expected
          · subst hbyte
            obtain ⟨index, hlt, hdiffer, hsame⟩ := ih (Nat.succ.inj hlength)
              fun heq => hne (heq ▸ rfl)
            refine ⟨index + 1, Nat.succ_lt_succ hlt, hdiffer, ?_⟩
            rw [List.take_succ_cons, List.take_succ_cons, hsame]
          · exact ⟨0, Nat.succ_pos _, fun heq => hbyte (Option.some.inj heq), rfl⟩

theorem not_lt (hindex : FirstDifference first second index)
    (hother : FirstDifference first second other) : ¬index < other := by
  intro hlt
  apply hindex.ne
  rw [← List.getElem?_take_of_lt hlt, hother.take_eq, List.getElem?_take_of_lt hlt]

theorem unique (hindex : FirstDifference first second index)
    (hother : FirstDifference first second other) : index = other :=
  Nat.le_antisymm (Nat.le_of_not_lt (hother.not_lt hindex))
    (Nat.le_of_not_lt (hindex.not_lt hother))

/-- The first difference of a part, if there is none ahead of the part. -/
theorem of_part (hsame : first.take start = second.take start)
    (hpart : FirstDifference ((first.drop start).take size) ((second.drop start).take size) index) :
    index < size ∧ FirstDifference first second (start + index) := by
  obtain ⟨hlt, hdiffer, htake⟩ := hpart
  rw [List.length_take, List.length_drop] at hlt
  have hindex : index < size := by omega
  refine ⟨hindex, by omega, ?_, ?_⟩
  · rwa [List.getElem?_take_of_lt hindex, List.getElem?_take_of_lt hindex, List.getElem?_drop,
      List.getElem?_drop] at hdiffer
  · rw [List.take_take, List.take_take, Nat.min_eq_left (Nat.le_of_lt hindex)] at htake
    rw [List.take_add, List.take_add, hsame, htake]

end FirstDifference

namespace Capture

/-! ## Block by block -/

/-- The verdict on a payload that lies at `obsOffset` within the observation and should be
`expected`.  It was compared in blocks of `size` bytes. -/
inductive Verdict.IsExact (payload expected : Bytes) (obsOffset size : Nat) : Verdict → Prop
  | intact (heq : payload = expected) :
      IsExact payload expected obsOffset size (.intact payload.length)
  | differs {index : Nat} (hfirst : FirstDifference payload expected index) :
      IsExact payload expected obsOffset size (.differs (obsOffset + size * (index / size)))

section Exact

variable {payload expected : Bytes} {obsOffset size index : Nat} {verdict : Verdict}

theorem Verdict.IsExact.eq_intact (hexact : verdict.IsExact payload expected obsOffset size)
    (heq : payload = expected) : verdict = .intact payload.length := by
  cases hexact with
  | intact _ => rfl
  | differs hfirst => exact absurd (heq ▸ rfl) hfirst.ne

theorem Verdict.IsExact.eq_differs (hexact : verdict.IsExact payload expected obsOffset size)
    (hfirst : FirstDifference payload expected index) :
    verdict = .differs (obsOffset + size * (index / size)) := by
  cases hexact with
  | intact heq => exact absurd (heq ▸ rfl) hfirst.ne
  | differs hother => rw [hfirst.unique hother]

end Exact

section Blocks

variable {S : Type} [FiniteStream S] {stream after : S} {sequence : RandomSequence} {block : Block}
  {count : Nat}

theorem verifyBlocks_of_end (hnext : BlockStream.next stream = (.ok block, after))
    (hend : block.isEnd = true) : verifyBlocks stream sequence count = .ok (.intact count) := by
  rw [verifyBlocks]
  split
  · next herror =>
    rw [hnext] at herror
    simp at herror
  · next found _ hfound =>
    rw [hnext, Prod.mk.injEq, Except.ok.injEq] at hfound
    rw [dif_pos (hfound.1 ▸ hend)]

/-- A block is compared with the bytes of the sequence at its own offset. -/
theorem verifyBlocks_of_block (hnext : BlockStream.next stream = (.ok block, after))
    (hend : block.isEnd = false) :
    verifyBlocks stream sequence count =
      if block.bytes = bytesAt sequence.key block.obsOffset block.length then
        verifyBlocks after (sequence.seek (block.obsOffset + block.length)) (count + block.length)
      else .ok (.differs block.obsOffset) := by
  rw [verifyBlocks]
  split
  · next herror =>
    rw [hnext] at herror
    simp at herror
  · next found rest hfound =>
    rw [hnext, Prod.mk.injEq, Except.ok.injEq] at hfound
    obtain ⟨rfl, rfl⟩ := hfound
    have hvalidate : (sequence.seek block.obsOffset).validate block.bytes =
        (decide (block.bytes = bytesAt sequence.key block.obsOffset block.length),
          sequence.seek (block.obsOffset + block.length)) :=
      RandomSequence.validate_eq _ _
    rw [dif_neg (by simp [hend]), hvalidate]
    by_cases hsame : block.bytes = bytesAt sequence.key block.obsOffset block.length
    · rw [if_pos hsame, decide_eq_true hsame]
    · rw [if_neg hsame, decide_eq_false hsame]

variable {payload expected : Bytes} {obsOffset size start : Nat} {ready : Nat → Nat → S → Prop}

/-- From a border between blocks up to which all bytes are as they should be, the verdict is
exact.  The induction is on the bytes that are left. -/
theorem verifyBlocks_of_ready (hsteady : Steady payload obsOffset ready) (hsize : 0 < size)
    (hready : ready start size stream) (hborder : size ∣ start)
    (hexpected : expected = bytesAt sequence.key obsOffset payload.length)
    (hsame : payload.take start = expected.take start) (hcount : count = min start payload.length) :
    ∃ verdict, verifyBlocks stream sequence count = .ok verdict ∧
      verdict.IsExact payload expected obsOffset size := by
  have hlength : expected.length = payload.length := by
    rw [hexpected, RandomSequence.length_bytesAt]
  induction hleft : payload.length - start using Nat.strongRecOn
    generalizing start stream sequence count with
  | ind left ih =>
      obtain ⟨after, hnext, hafter⟩ := hsteady hready
      by_cases hlt : start < payload.length
      · have hend : (Block.part payload obsOffset start size).isEnd = false := by
          rw [← Bool.not_eq_true, Block.isEnd_part_iff obsOffset hsize]
          exact Nat.not_le.mpr hlt
        have hblock : bytesAt sequence.key (Block.part payload obsOffset start size).obsOffset
            (Block.part payload obsOffset start size).length = (expected.drop start).take size := by
          rw [Block.obsOffset_part hend, Block.length_part, hexpected,
            RandomSequence.slice_bytesAt (Nat.le_of_lt hlt)]
        -- the sequence is moved to the block, so the block meets its own part of what is expected
        rw [verifyBlocks_of_block hnext hend, hblock, Block.bytes_part, Block.length_part]
        by_cases hmatch : (payload.drop start).take size = (expected.drop start).take size
        · rw [if_pos hmatch]
          refine ih (payload.length - (start + size)) (by omega) hafter
            (Nat.dvd_add hborder (Nat.dvd_refl size)) ?_ ?_ ?_ rfl
          · exact hexpected
          · rw [List.take_add, List.take_add, hsame, hmatch]
          · omega
        · rw [if_neg hmatch, Block.obsOffset_part hend]
          obtain ⟨index, hpart⟩ := FirstDifference.exists_of_ne (by
            rw [List.length_take, List.length_take, List.length_drop, List.length_drop, hlength])
            hmatch
          obtain ⟨hindex, hfirst⟩ := hpart.of_part hsame
          -- the difference lies in the block that starts here, so dividing finds its number
          obtain ⟨border, rfl⟩ := hborder
          have hnumber : (size * border + index) / size = border := by
            rw [Nat.mul_add_div hsize, Nat.div_eq_of_lt hindex, Nat.add_zero]
          exact ⟨_, rfl, hnumber ▸ .differs hfirst⟩
      · have hdone := Nat.le_of_not_lt hlt
        have hend : (Block.part payload obsOffset start size).isEnd = true :=
          (Block.isEnd_part_iff obsOffset hsize).mpr hdone
        rw [List.take_of_length_le hdone, List.take_of_length_le (hlength ▸ hdone)] at hsame
        rw [Nat.min_eq_right hdone] at hcount
        subst hcount
        exact ⟨_, verifyBlocks_of_end hnext hend, .intact hsame⟩

theorem verify_of_ready (hsteady : Steady payload obsOffset ready) (hsize : 0 < size)
    (hready : ready 0 size stream)
    (hsequence : RandomSequence.ofHeader (BlockStream.header stream) = .ok sequence) :
    ∃ verdict, verify stream = .ok verdict ∧
      verdict.IsExact payload (sequence.between obsOffset (obsOffset + payload.length)) obsOffset
        size := by
  have hexpected := RandomSequence.between_add_eq_bytesAt sequence obsOffset payload.length
  obtain ⟨verdict, hverdict, hexact⟩ := verifyBlocks_of_ready hsteady hsize hready
    (Nat.dvd_zero size) hexpected rfl (Nat.zero_min _).symm
  refine ⟨verdict, ?_, hexact⟩
  simp only [verify, bind_eq_ok]
  exact ⟨sequence, hsequence, hverdict⟩

end Blocks

end Capture

/-! ## The task -/

namespace Command

open Capture (Verdict)

variable {tree : FileTree} {file : String} {mapped : MappedStream} {entry : Entry}
  {sequence : RandomSequence}

/-- What the task `verify` reports on a file, however the command line spells it: one verdict
if the file is read in place, whatever block size is given, and one for each block size if it
is copied. -/
structure Reports (tree : FileTree) (file : String) (inPlace : Verdict) (copied : Nat → Verdict) :
    Prop where
  mapped : ∀ arguments blockSize,
    Invocation.ofArguments arguments = some (.verify file false blockSize) →
    run tree arguments = (verdictOutcome inPlace, tree)
  byDefault : ∀ arguments, Invocation.ofArguments arguments = some (.verify file true none) →
    run tree arguments = (verdictOutcome (copied StreamConfig.defaultBlockSize), tree)
  bySize : ∀ arguments value blockSize,
    Invocation.ofArguments arguments = some (.verify file true (some value)) →
    Text.unsigned64? value = some blockSize → 0 < blockSize → blockSize ≤ Bytes.maxLength →
    run tree arguments = (verdictOutcome (copied blockSize), tree)

theorem run_of_verify {arguments : List String} {copy : Bool} {blockSize : Option String}
    {verdict : Verdict}
    (harguments : Invocation.ofArguments arguments = some (.verify file copy blockSize))
    (hverdict : verify tree file copy blockSize = .ok verdict) :
    run tree arguments = (verdictOutcome verdict, tree) := by
  simp only [run, harguments, perform, hverdict]

theorem steady_opened (payload : Bytes) (obsOffset : Nat) :
    Steady payload obsOffset fun start size => Sum.elim
      (MappedStream.ReadyAt payload obsOffset start size)
      (CopyingStream.ReadyAt payload obsOffset start size) :=
  Steady.sum (MappedStream.steady_readyAt payload obsOffset)
    (CopyingStream.steady_readyAt payload obsOffset)

section Opened

variable (hopen : MappedStream.ofPath tree file = .ok mapped)
  (hsequence : RandomSequence.ofHeader mapped.header = .ok sequence)

include hopen hsequence

/-- In place the payload is a single block. -/
theorem exists_verdict_inPlace (blockSize : Option String) :
    ∃ verdict, verify tree file false blockSize = .ok verdict ∧
      verdict.IsExact mapped.payload
        (sequence.between mapped.obsOffset (mapped.obsOffset + mapped.payload.length))
        mapped.obsOffset (max mapped.payload.length 1) := by
  obtain ⟨_, _, _, _, _, _, _, hfresh⟩ := MappedStream.of_ofConfig hopen
  have hready : MappedStream.ReadyAt mapped.payload mapped.obsOffset 0
      (max mapped.payload.length 1) mapped :=
    ⟨rfl, rfl, Nat.le_max_left _ _, Or.inl ⟨hfresh, rfl⟩⟩
  have hpos : 0 < max mapped.payload.length 1 := Nat.lt_of_lt_of_le Nat.one_pos (Nat.le_max_right _ _)
  obtain ⟨verdict, hverdict, hexact⟩ := Capture.verify_of_ready
    (steady_opened mapped.payload mapped.obsOffset) hpos
    (show Sum.elim _ _ (Sum.inl mapped) from hready) hsequence
  refine ⟨verdict, ?_, hexact⟩
  simp only [verify, openCapture, Bool.false_eq_true, if_false, bind_eq_ok, map_eq_ok]
  exact ⟨_, ⟨mapped, hopen, rfl⟩, hverdict⟩

variable (hentry : tree.openCapture file = .ok entry)
  (honce : Capture.DeclaresSizeOnce Header.defaultSize entry.content)

include hentry honce

theorem exists_verdict_copied {blockSize : Nat} (hpos : 0 < blockSize)
    (hmax : blockSize ≤ Bytes.maxLength) :
    ∃ stream, CopyingStream.ofConfig tree { StreamConfig.ofPath file with blockSize } = .ok stream ∧
      ∃ verdict, Capture.verify (Sum.inr stream : MappedStream ⊕ CopyingStream) = .ok verdict ∧
        verdict.IsExact mapped.payload
          (sequence.between mapped.obsOffset (mapped.obsOffset + mapped.payload.length))
          mapped.obsOffset blockSize := by
  have hsizes : Capture.headerSize Header.defaultSize entry.content =
      mapped.header.declaredSize := by
    obtain ⟨found, extra, _, hfound, hread, ⟨size, hsize, _⟩, _⟩ := MappedStream.of_ofConfig hopen
    obtain rfl : entry = found := Except.ok.inj (hentry.symm.trans hfound)
    obtain ⟨content, rfl⟩ := Entry.exists_content_of_readPrefixed hread
    obtain ⟨⟨scanned, hscanned, _⟩, hblock, _⟩ :=
      Header.of_readPrefixed (Reader.Reliable.ofBytes content) (Prod.ext hread rfl)
    rw [hsize, Capture.declaredSize_eq_headerSize hscanned hblock hsize honce]
    exact hscanned
  -- hence copying starts at the same byte of the file as reading in place
  obtain ⟨stream, hstream, hheader, hready⟩ :=
    CopyingStream.exists_readyAt_of_sizes hopen hentry hsizes hpos hmax
  rw [← hheader] at hsequence
  exact ⟨stream, hstream, Capture.verify_of_ready (steady_opened mapped.payload mapped.obsOffset)
    hpos (show Sum.elim _ _ (Sum.inr stream) from hready) hsequence⟩

/-- The reports follow from what exact verdicts are. -/
theorem reports_of_isExact {inPlace : Verdict} {copied : Nat → Verdict}
    (hinPlace : ∀ verdict, verdict.IsExact mapped.payload
      (sequence.between mapped.obsOffset (mapped.obsOffset + mapped.payload.length))
      mapped.obsOffset (max mapped.payload.length 1) → verdict = inPlace)
    (hcopied : ∀ blockSize verdict, verdict.IsExact mapped.payload
      (sequence.between mapped.obsOffset (mapped.obsOffset + mapped.payload.length))
      mapped.obsOffset blockSize → verdict = copied blockSize) :
    Reports tree file inPlace copied := by
  constructor
  · intro arguments blockSize harguments
    obtain ⟨verdict, hverdict, hexact⟩ := exists_verdict_inPlace hopen hsequence blockSize
    obtain rfl := hinPlace verdict hexact
    exact run_of_verify harguments hverdict
  · intro arguments harguments
    obtain ⟨stream, hstream, verdict, hverdict, hexact⟩ :=
      exists_verdict_copied hopen hsequence hentry honce
        (show 0 < StreamConfig.defaultBlockSize by decide) (by decide)
    obtain rfl := hcopied _ verdict hexact
    apply run_of_verify harguments
    simp only [verify, openCapture, if_true, bind_eq_ok, map_eq_ok]
    exact ⟨_, ⟨stream, hstream, rfl⟩, hverdict⟩
  · intro arguments value blockSize harguments hvalue hpos hmax
    obtain ⟨stream, hstream, verdict, hverdict, hexact⟩ :=
      exists_verdict_copied hopen hsequence hentry honce hpos hmax
    obtain rfl := hcopied _ verdict hexact
    apply run_of_verify harguments
    simp only [verify, openCapture, count, hvalue, if_true, bind_eq_ok, map_eq_ok]
    exact ⟨_, ⟨_, rfl, stream, hstream, rfl⟩, hverdict⟩

end Opened

/-- **The answer of `verify` is exact and does not depend on how the file is read.**  Let a
capture file that declares its size once be open to reading in place, and let its header give
a sequence.  If the payload consists of the bytes of the sequence at its offset, every way to
verify it reports all bytes as intact.  Otherwise every way fails, at the offset of the payload
if it is read in place, and at that of the block with the first byte that differs if it is
copied. -/
theorem verify_exact (hopen : MappedStream.ofPath tree file = .ok mapped)
    (hsequence : RandomSequence.ofHeader mapped.header = .ok sequence)
    (hentry : tree.openCapture file = .ok entry)
    (honce : Capture.DeclaresSizeOnce Header.defaultSize entry.content) :
    (mapped.payload =
        sequence.between mapped.obsOffset (mapped.obsOffset + mapped.payload.length) ∧
      Reports tree file (.intact mapped.payload.length) fun _ => .intact mapped.payload.length) ∨
    ∃ index, FirstDifference mapped.payload
        (sequence.between mapped.obsOffset (mapped.obsOffset + mapped.payload.length)) index ∧
      Reports tree file (.differs mapped.obsOffset)
        fun blockSize => .differs (mapped.obsOffset + blockSize * (index / blockSize)) := by
  have hlength : mapped.payload.length =
      (sequence.between mapped.obsOffset (mapped.obsOffset + mapped.payload.length)).length := by
    rw [RandomSequence.between_add_eq_bytesAt, RandomSequence.length_bytesAt]
  by_cases heq : mapped.payload =
      sequence.between mapped.obsOffset (mapped.obsOffset + mapped.payload.length)
  · refine Or.inl ⟨heq, reports_of_isExact hopen hsequence hentry honce ?_ ?_⟩
    · exact fun verdict hexact => hexact.eq_intact heq
    · exact fun blockSize verdict hexact => hexact.eq_intact heq
  · obtain ⟨index, hfirst⟩ := FirstDifference.exists_of_ne hlength heq
    refine Or.inr ⟨index, hfirst, reports_of_isExact hopen hsequence hentry honce ?_ ?_⟩
    · intro verdict hexact
      have hsingle : index / max mapped.payload.length 1 = 0 :=
        Nat.div_eq_of_lt (Nat.lt_of_lt_of_le hfirst.lt_length (Nat.le_max_left _ _))
      rw [hexact.eq_differs hfirst, hsingle, Nat.mul_zero, Nat.add_zero]
    · exact fun blockSize verdict hexact => hexact.eq_differs hfirst

/-- A capture of seven bytes from offset 1000 on, of which the sixth is not that of the
sequence. -/
def corrupted : Bytes :=
  (Utf8.bytes "HDR_SIZE 48\nOBS_OFFSET 1000\nSEED 7\n").padTo 48 ++ [154, 164, 101, 5, 244, 0, 82]

def corruptedTree : FileTree where
  home := []
  entries := [(["corrupted"], .file corrupted)]

/-- In blocks of three it is the second block that differs. -/
theorem verify_exact_corrupted :
    run corruptedTree ["verify", "-f", "corrupted"] =
        (verdictOutcome (.differs 1000), corruptedTree) ∧
      run corruptedTree ["verify", "-f", "corrupted", "--copy", "--block-size=3"] =
        (verdictOutcome (.differs 1003), corruptedTree) := by
  have hopen : MappedStream.ofPath corruptedTree "corrupted" = .ok {
      path := "corrupted"
      header := ⟨[⟨"HDR_SIZE", "48"⟩, ⟨"OBS_OFFSET", "1000"⟩, ⟨"SEED", "7"⟩]⟩
      obsOffset := 1000
      payload := [154, 164, 101, 5, 244, 0, 82] } := by cbv
  have hentry : corruptedTree.openCapture "corrupted" = .ok (.file corrupted) := by cbv
  have honce : Capture.DeclaresSizeOnce Header.defaultSize corrupted := by
    refine ⟨"HDR_SIZE 48\nOBS_OFFSET 1000\nSEED 7\n".toList, by cbv, [], "HDR_SIZE 48".toList,
      ["OBS_OFFSET 1000".toList, "SEED 7".toList, []], by cbv, List.cons_ne_nil _ _, by decide,
      by decide, by decide⟩
  have hexpected : (RandomSequence.ofSeed 7).between 1000 1007 =
      [154, 164, 101, 5, 244, 32, 82] := by
    rw [RandomSequence.between_eq_bytesAt (by decide)]
    decide +kernel
  have hsequence : RandomSequence.ofHeader ⟨[⟨"HDR_SIZE", "48"⟩, ⟨"OBS_OFFSET", "1000"⟩,
      ⟨"SEED", "7"⟩]⟩ = .ok (.ofSeed 7) := rfl
  rcases verify_exact hopen hsequence hentry honce with ⟨hsame, _⟩ | ⟨index, hfirst, hreports⟩
  · exact absurd (hsame.trans hexpected) (by decide)
  · have hfifth : FirstDifference [154, 164, 101, 5, 244, 0, 82]
        ((RandomSequence.ofSeed 7).between 1000 1007) 5 := by
      rw [hexpected]
      exact ⟨by decide, by decide, by decide⟩
    obtain rfl := hfirst.unique hfifth
    exact ⟨hreports.mapped _ none rfl, hreports.bySize _ "3" 3 rfl rfl (by decide) (by decide)⟩

end Command

end VoltageCapture
