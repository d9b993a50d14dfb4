import VoltageCapture.Proofs.Capture.RoundTrip
import VoltageCapture.Proofs.Capture.Verify

/-!
# What is generated is intact

A header file is loaded, completed by a size and an offset, and written in front of bytes of
its random sequence.  Verifying reads the header back, makes the sequence anew and compares.
The two meet in the header: it is well formed and free of the character zero when it is loaded
(`FileTree.writable_of_loadHeader`), completing it keeps both (`Header.Writable.completed`), and such a
header is read back from its block.  So verifying finds the sequence that was written
(`Command.verify_generated`).
-/

namespace VoltageCapture

open RandomSequence (bytesAt)

/-! ## The header that is written -/

namespace Header

variable {header : Header} {bytes : Bytes} {key value : String}

/-- A header that is read back from its block. -/
structure Writable (header : Header) : Prop where
  wellFormed : header.WellFormed
  nul_not_mem : '\x00' ∉ header.render.toList

theorem writable_of_ofBytes (hread : ofBytes bytes = .ok header) : header.Writable := by
  unfold ofBytes at hread
  split at hread
  · next text htext =>
    refine ⟨wellFormed_of_parse hread, nul_not_mem_render hread ?_⟩
    rw [String.toList_ofList]
    exact Utf8.not_mem_of_encode_eq_untilNul (Utf8.decode_eq_ok.mp htext)
  · simp at hread

theorem Writable.set (hheader : header.Writable) (hfield : Field.WellFormed ⟨key, value⟩)
    (hnul : '\x00' ∉ Field.line ⟨key, value⟩) : (header.set key value).Writable := by
  refine ⟨hheader.wellFormed.set hfield, ?_⟩
  intro hmem
  rw [render, String.toList_ofList] at hmem
  obtain ⟨field, hset, hline⟩ := List.mem_flatMap.mp hmem
  rcases mem_setField hset with rfl | hold
  · exact hnul hline
  · apply hheader.nul_not_mem
    rw [render, String.toList_ofList]
    exact List.mem_flatMap.mpr ⟨field, hold, hline⟩

/-- A field that is added where there is none of its key. -/
theorem Writable.setMissing (hheader : header.Writable) (hfield : Field.WellFormed ⟨key, value⟩)
    (hnul : '\x00' ∉ Field.line ⟨key, value⟩) :
    (if header.contains key then header else header.set key value).Writable := by
  split
  · exact hheader
  · exact hheader.set hfield hnul

theorem Writable.completed (hheader : header.Writable) : header.completed.Writable := by
  have hsize : Field.WellFormed ⟨Key.headerSize, toString defaultSize⟩ :=
    Field.wellFormed_of_written (by cbv) (by decide) (by decide)
  have hoffset : Field.WellFormed ⟨Key.obsOffset, "0"⟩ :=
    Field.wellFormed_of_written (by cbv) (by decide) (by decide)
  exact (hheader.setMissing hsize (by decide)).setMissing hoffset (by decide)

end Header

theorem FileTree.writable_of_loadHeader {tree : FileTree} {path : String} {header : Header}
    (hload : tree.loadHeader path = .ok header) : header.Writable := by
  unfold loadHeader at hload
  split at hload
  · simp at hload
  · exact Header.writable_of_ofBytes hload

/-! ## The file that is written -/

namespace Capture

variable {tree after : FileTree} {output : String} {header : Header} {sequence : RandomSequence}
  {size obsOffset count written : Nat}

/-- Block by block, the bytes that are written are those of one stretch. -/
theorem writeSequence_eq (writer : CaptureWriter) (sequence : RandomSequence) (count : Nat) :
    writeSequence writer sequence count =
      writer.write (bytesAt sequence.key sequence.position count) := by
  induction count using Nat.strongRecOn generalizing writer sequence with
  | ind count ih =>
      rw [writeSequence]
      split
      · next hzero =>
        rw [hzero, RandomSequence.bytesAt_zero, CaptureWriter.write, List.append_nil]
        rfl
      · next hne =>
        have hblock : 0 < StreamConfig.defaultBlockSize := by decide
        have hsplit : count =
            min count StreamConfig.defaultBlockSize + (count - StreamConfig.defaultBlockSize) := by
          omega
        simp only [RandomSequence.generate, ih (count - StreamConfig.defaultBlockSize) (by omega)]
        conv_rhs => rw [hsplit, RandomSequence.bytesAt_add]
        simp only [CaptureWriter.write, RandomSequence.length_bytesAt, List.length_append,
          List.append_assoc, Nat.add_assoc]

/-- The path leads to a capture with the header, padded to `size` bytes, and `count` bytes of
the header's sequence. -/
structure Stamped (tree : FileTree) (path : String) (header : Header) (sequence : RandomSequence)
    (size obsOffset count : Nat) : Prop where
  sequence_eq : RandomSequence.ofHeader header = .ok sequence
  obsOffset_eq : header.unsigned64 Key.obsOffset = .ok obsOffset
  size_eq : header.declaredSize = .ok size
  fits : (Utf8.bytes header.render).length ≤ size
  size_le : size ≤ Bytes.maxLength
  entry_eq : tree.openCapture path = .ok
    (.file ((Utf8.bytes header.render).padTo size ++ bytesAt sequence.key obsOffset count))
  path_ne : path ≠ ""

theorem stamped_of_generate (hgenerate : generate tree header output count = .ok (written, after)) :
    written = count ∧ ∃ sequence size obsOffset,
      Stamped after output header sequence size obsOffset count := by
  simp only [generate, payloadSequence, bind_eq_ok, pure_eq_ok] at hgenerate
  obtain ⟨_, ⟨sequence, hsequence, obsOffset, hoffset, rfl⟩, ⟨writer, created⟩, hcreate, hfinish⟩ :=
    hgenerate
  rw [writeSequence_eq] at hfinish
  obtain ⟨hblock, hlocation, hnone, _⟩ := CaptureWriter.of_create hcreate
  obtain ⟨size, hsize, hfits, hmax, hcontent⟩ := Header.of_toBlock hblock
  have hpos : 0 < writer.content.length := by
    have hline := Header.sizeLineEndsWithin_of_declaredSize hsize
    rw [hcontent, Header.length_padTo hfits]
    exact Nat.lt_of_lt_of_le hline.pos hfits
  have hentry := CaptureWriter.openCapture_finish hcreate
    (List.append_ne_nil_of_left_ne_nil (List.ne_nil_of_length_pos hpos)
      (bytesAt sequence.key obsOffset count))
  obtain ⟨hlocate, _⟩ := FileTree.of_locateNew hlocation
  refine ⟨?_, sequence, size, obsOffset, hsequence, hoffset, hsize, hfits, hmax, ?_,
    FileTree.ne_empty_of_locate hlocate⟩
  · have hcount : writer.payloadWritten + (bytesAt sequence.key obsOffset count).length = written :=
      congrArg Prod.fst hfinish
    rw [← hcount, hnone, Nat.zero_add, RandomSequence.length_bytesAt]
  · have hafter : ((writer.write (bytesAt sequence.key obsOffset count)).finish created).2 = after :=
      congrArg Prod.snd hfinish
    rw [← hafter, ← hcontent]
    exact hentry

/-- A stamped capture is opened in place with its header and its bytes. -/
theorem Stamped.opens (hstamped : Stamped tree output header sequence size obsOffset count)
    (hheader : header.Writable) (hreach : header.SizeLineEndsWithin Header.defaultSize) :
    ∃ mapped, MappedStream.ofPath tree output = .ok mapped ∧ mapped.header = header ∧
      mapped.payload = bytesAt sequence.key obsOffset count ∧ mapped.obsOffset = obsOffset := by
  have hlength := Header.length_padTo hstamped.fits
  have hpos : 0 < size := Nat.lt_of_lt_of_le hreach.within_render.pos hstamped.fits
  have hle : size ≤ ((Utf8.bytes header.render).padTo size ++
      bytesAt sequence.key obsOffset count).length := by
    rw [List.length_append, hlength]
    exact Nat.le_add_right _ _
  have hvalid : (StreamConfig.ofPath output).validate = .ok () := by
    simp only [StreamConfig.validate, bind_eq_ok, require_eq_ok]
    exact ⟨(), hstamped.path_ne, (), show StreamConfig.defaultBlockSize ≠ 0 by decide,
      show Header.defaultSize ≠ 0 by decide⟩
  have hscan : headerSize Header.defaultSize ((Utf8.bytes header.render).padTo size ++
      bytesAt sequence.key obsOffset count) = .ok size := by
    rw [Bytes.padTo, List.append_assoc]
    exact headerSize_of_written hheader.wellFormed hheader.nul_not_mem hstamped.size_eq
      (Nat.ne_of_gt hpos) hreach _
  have hparsed : Header.ofBytes (((Utf8.bytes header.render).padTo size ++
      bytesAt sequence.key obsOffset count).take size) = .ok header := by
    rw [List.take_left' hlength]
    exact Header.ofBytes_padTo hheader.wellFormed hheader.nul_not_mem size
  obtain ⟨mapped, _, hopen, _, _, hsame, hpayload, hoffset⟩ :=
    opens_of_content hvalid hstamped.entry_eq
      (show Header.defaultSize ≤ Bytes.maxLength by decide)
      (show StreamConfig.defaultBlockSize ≤ Bytes.maxLength by decide) hscan
      (List.ne_nil_of_length_pos (Nat.lt_of_lt_of_le hpos hle)) hle hstamped.size_le hparsed
      hstamped.size_eq hstamped.obsOffset_eq
  rw [List.drop_left' hlength] at hpayload
  exact ⟨mapped, hopen, hsame, hpayload, hoffset⟩

end Capture

/-! ## Verifying the file -/

namespace Command

variable {tree after : FileTree} {header : Header} {sequence : RandomSequence} {outcome : Outcome}
  {arguments : List String} {source output bytes : String} {size obsOffset count : Nat}

theorem reports_of_stamped
    (hstamped : Capture.Stamped tree output header sequence size obsOffset count)
    (hheader : header.Writable) (hreach : header.SizeLineEndsWithin Header.defaultSize) :
    Reports tree output (.intact count) fun _ => .intact count := by
  obtain ⟨mapped, hopen, rfl, hpayload, rfl⟩ := hstamped.opens hheader hreach
  have honce : Capture.DeclaresSizeOnce Header.defaultSize _ :=
    Capture.declaresSizeOnce_of_written hheader.wellFormed hheader.nul_not_mem hstamped.size_eq
      hstamped.fits hreach (bytesAt sequence.key mapped.obsOffset count)
  have hlength : mapped.payload.length = count := by
    rw [hpayload, RandomSequence.length_bytesAt]
  have hsame : mapped.payload =
      sequence.between mapped.obsOffset (mapped.obsOffset + mapped.payload.length) := by
    rw [RandomSequence.between_add_eq_bytesAt, hlength]
    exact hpayload
  apply reports_of_isExact hopen hstamped.sequence_eq hstamped.entry_eq honce
  · intro verdict hexact
    rw [hexact.eq_intact hsame, hlength]
  · intro blockSize verdict hexact
    rw [hexact.eq_intact hsame, hlength]

theorem failure_code_ne (error : Error) : (Outcome.failure error).code ≠ 0 := by
  unfold Outcome.failure
  split
  · exact Nat.succ_ne_zero _
  · exact Nat.succ_ne_zero _

/-- A task that ends with the code zero has written a capture. -/
theorem of_run_generate
    (harguments : Invocation.ofArguments arguments = some (.generate source output bytes))
    (hrun : run tree arguments = (outcome, after)) (hcode : outcome.code = 0) :
    ∃ header count written, tree.loadHeader source = .ok header ∧
      Text.unsigned64? bytes = some count ∧
      Capture.generate tree header.completed output count = .ok (written, after) := by
  simp only [run, harguments, perform] at hrun
  split at hrun
  · next text created hgenerate =>
    simp only [generate, bind_eq_ok, pure_eq_ok, Prod.mk.injEq] at hgenerate hrun
    obtain ⟨header, hload, count, hcount, ⟨written, tree⟩, hgenerated, _, rfl⟩ := hgenerate
    obtain ⟨_, rfl⟩ := hrun
    refine ⟨header, count, written, hload, ?_, hgenerated⟩
    unfold Command.count at hcount
    split at hcount
    · next found hfound => rw [hfound, Except.ok.inj hcount]
    · simp at hcount
  · next error _ =>
    rw [Prod.mk.injEq] at hrun
    exact absurd (hrun.1 ▸ hcode) (failure_code_ne error)

/-- **What `generate` writes, `verify` accepts.**  Let the task `generate` succeed.  Then the
file has as many bytes as the size that the completed header declares and the number that was
asked for together.  If the line with the size ends within the first bytes that are read,
every way to verify the file reports that number of bytes as intact; and the line does so if
the header block is no longer than those bytes. -/
theorem verify_generated
    (harguments : Invocation.ofArguments arguments = some (.generate source output bytes))
    (hrun : run tree arguments = (outcome, after)) (hcode : outcome.code = 0) :
    ∃ header size count content, tree.loadHeader source = .ok header ∧
      header.completed.declaredSize = .ok size ∧ Text.unsigned64? bytes = some count ∧
      after.openCapture output = .ok (.file content) ∧ content.length = size + count ∧
      (size ≤ Header.defaultSize → header.completed.SizeLineEndsWithin Header.defaultSize) ∧
      (header.completed.SizeLineEndsWithin Header.defaultSize →
        Reports after output (.intact count) fun _ => .intact count) := by
  obtain ⟨header, count, written, hload, hcount, hgenerate⟩ := of_run_generate harguments hrun hcode
  obtain ⟨_, sequence, size, obsOffset, hstamped⟩ := Capture.stamped_of_generate hgenerate
  have hheader := (FileTree.writable_of_loadHeader hload).completed
  refine ⟨header, size, count, _, hload, hstamped.size_eq, hcount, hstamped.entry_eq, ?_, ?_, ?_⟩
  · rw [List.length_append, Header.length_padTo hstamped.fits, RandomSequence.length_bytesAt]
  · intro hsize
    have hline := Header.sizeLineEndsWithin_of_declaredSize hstamped.size_eq
    exact hline.mono (Nat.le_trans hstamped.fits hsize)
  · exact reports_of_stamped hstamped hheader

/-- A header file without an offset, which is also where the capture goes. -/
def seedTree : FileTree where
  home := []
  entries := [(["seed"], .file (Utf8.bytes "HDR_SIZE 48\nSEED 7\n"))]

/-- Five bytes are written over their own header file, and verified in place and in blocks of
two. -/
theorem verify_generated_seedTree :
    (run seedTree ["generate", "--header", "seed", "-o", "seed", "-b5"]).1.code = 0 ∧
      ∃ after, (run seedTree ["generate", "--header", "seed", "-o", "seed", "-b5"]).2 = after ∧
        run after ["verify", "-f", "seed"] = (verdictOutcome (.intact 5), after) ∧
        run after ["verify", "-f", "seed", "--copy", "-b2"] =
          (verdictOutcome (.intact 5), after) := by
  have harguments : Invocation.ofArguments ["generate", "--header", "seed", "-o", "seed", "-b5"] =
      some (.generate "seed" "seed" "5") := rfl
  have hload : seedTree.loadHeader "seed" = .ok ⟨[⟨"HDR_SIZE", "48"⟩, ⟨"SEED", "7"⟩]⟩ := by cbv
  have hcode : (run seedTree ["generate", "--header", "seed", "-o", "seed", "-b5"]).1.code = 0 := by
    cbv
  obtain ⟨header, size, count, content, hheader, hsize, hcount, _, _, hshort, hreports⟩ :=
    verify_generated harguments rfl hcode
  obtain rfl := Except.ok.inj (hload.symm.trans hheader)
  obtain rfl : 5 = count := Option.some.inj hcount
  obtain rfl : 48 = size := Except.ok.inj hsize
  have hverify := hreports (hshort (by decide))
  exact ⟨hcode, _, rfl, hverify.mapped _ none rfl,
    hverify.bySize _ "2" 2 rfl rfl (by decide) (by decide)⟩

end Command

end VoltageCapture
