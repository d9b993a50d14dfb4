import VoltageCapture.Capture.Writer
import VoltageCapture.Proofs.Capture.FileTree
import VoltageCapture.Proofs.Header.Block
import VoltageCapture.Proofs.Stream.Agreement

/-!
# Captures are read as they were written

A capture that a `CaptureWriter` has written is opened again under the path that it was
created with, mapped or for copying, and gives the header and the payload that went in
(`CaptureWriter.readsBack_of_create`).

## Strategy

The writer leaves a file in the tree whose content is the header block and the payload
(`openCapture_finish`).  `opens_of_content` says when a file can be opened at all: scanning
finds the size of its block, a header stands in the block, and the header declares that same
size.  For the file that was written the first is `Capture.headerSize_of_written` and the
second `Header.ofBytes_padTo`.
-/

namespace VoltageCapture

/-! ## Opening a file -/

/-- A file can be opened both ways if scanning finds the size of its header block and the
header in the block declares that size.  The payload is what follows the block. -/
theorem opens_of_content {tree : FileTree} {config : StreamConfig} {content : Bytes}
    {header : Header} {size obsOffset : Nat} (hvalid : config.validate = .ok ())
    (hentry : tree.openCapture config.path = .ok (.file content))
    (hhint : config.headerSizeHint ≤ Bytes.maxLength) (hblock : config.blockSize ≤ Bytes.maxLength)
    (hscan : Capture.headerSize config.headerSizeHint content = .ok size)
    (hne : content ≠ []) (hle : size ≤ content.length) (hmax : size ≤ Bytes.maxLength)
    (hheader : Header.ofBytes (content.take size) = .ok header)
    (hsize : header.declaredSize = .ok size)
    (hoffset : header.unsigned64 Key.obsOffset = .ok obsOffset) :
    ∃ mapped stream, MappedStream.ofConfig tree config = .ok mapped ∧
      CopyingStream.ofConfig tree config = .ok stream ∧ stream.Agrees mapped ∧
      mapped.header = header ∧ mapped.payload = content.drop size ∧
      mapped.obsOffset = obsOffset := by
  have hreader : (Entry.file content).reader.Reliable := Reader.Reliable.ofBytes content
  obtain ⟨extra, rest, hread⟩ :=
    Header.readPrefixed_of_headerSize hreader hhint hmax hscan hle hne hheader
  have hresult : (Header.readPrefixed (Entry.file content).reader config.headerSizeHint).1 =
      .ok (header, extra) := by rw [hread]
  obtain ⟨mapped, hopen, rfl, hpayload, hsame⟩ : ∃ mapped, MappedStream.ofConfig tree config =
      .ok mapped ∧ mapped.header = header ∧ mapped.payload = content.drop size ∧
        mapped.obsOffset = obsOffset := by
    simp only [MappedStream.ofConfig, MappedStream.ofContent, bind_eq_ok, pure_eq_ok, require_eq_ok]
    exact ⟨_, ⟨(), hvalid, _, hentry, _, hresult, size, hsize, obsOffset, hoffset, (), hle, rfl⟩,
      rfl, rfl, rfl⟩
  simp only [StreamConfig.validate, bind_eq_ok, require_eq_ok] at hvalid
  obtain ⟨_, _, _, hpos, _⟩ := hvalid
  obtain ⟨stream, hstream, hagrees⟩ := CopyingStream.exists_agrees_of_sizes hopen hentry
    (hscan.trans hsize.symm) (Nat.pos_of_ne_zero hpos) hblock
  exact ⟨mapped, stream, hopen, hstream, hagrees, rfl, hpayload, hsame⟩

namespace CaptureWriter

variable {tree created : FileTree} {path text : String} {header : Header}
  {writer : CaptureWriter}

/-! ## Writing a file -/

theorem of_create (hcreate : create tree path header = .ok (writer, created)) :
    header.toBlock = .ok writer.content ∧ tree.locateNew path = .ok writer.location ∧
      writer.payloadWritten = 0 ∧ created = tree.put writer.location (.file []) := by
  simp only [create, bind_eq_ok] at hcreate
  obtain ⟨content, hcontent, hcreate⟩ := hcreate
  split at hcreate
  · simp at hcreate
  · next location hlocation =>
    rw [pure_eq_ok, Prod.mk.injEq] at hcreate
    obtain ⟨rfl, rfl⟩ := hcreate
    exact ⟨hcontent, hlocation, rfl, rfl⟩

theorem foldl_write (writer : CaptureWriter) (blocks : List Bytes) :
    blocks.foldl write writer = writer.write blocks.flatten := by
  induction blocks generalizing writer with
  | nil =>
      rw [List.foldl_nil, List.flatten_nil, write, List.append_nil]
      rfl
  | cons block blocks ih =>
      rw [List.foldl_cons, ih, List.flatten_cons]
      simp only [write, List.append_assoc, List.length_append, Nat.add_assoc]

/-- The path that a writer was created with leads to the file that it has written. -/
theorem openCapture_finish (hcreate : create tree path header = .ok (writer, created))
    {bytes : Bytes} (hne : writer.content ++ bytes ≠ []) :
    ((writer.write bytes).finish created).2.openCapture path =
      .ok (.file (writer.content ++ bytes)) := by
  obtain ⟨_, hlocation, _, rfl⟩ := of_create hcreate
  obtain ⟨hlocate, hfree⟩ := FileTree.of_locateNew hlocation
  have hstill : FileTree.entry? (tree.put writer.location (.file [])) writer.location ≠
      some .folder := by
    rw [FileTree.entry?_put_self hfree]
    simp
  exact FileTree.openCapture_put hstill (FileTree.locate_put hfree hlocate) hne

/-! ## Reading it back -/

/-- **Capture files decode to what was encoded.**  Let a writer be created with a header
that was read from text without the character zero and that has an offset, and let it be
finished after some blocks.  With any size hint that reaches behind the line with the size,
and any block size, for which there can be buffers, the file can be opened in place and for
copying; both streams give the header, the blocks joined and the offset.  The number of
bytes that finishing gives is that of the payload. -/
theorem readsBack_of_create {obsOffset hint blockSize : Nat}
    (hparse : Header.parse text = .ok header) (hnul : '\x00' ∉ text.toList)
    (hoffset : header.unsigned64 Key.obsOffset = .ok obsOffset)
    (hcreate : create tree path header = .ok (writer, created)) (blocks : List Bytes)
    (hreach : header.SizeLineEndsWithin hint) (hhint : hint ≤ Bytes.maxLength)
    (hpos : 0 < blockSize) (hmax : blockSize ≤ Bytes.maxLength) :
    ((blocks.foldl write writer).finish created).1 = blocks.flatten.length ∧
      ∃ mapped stream,
        MappedStream.ofConfig ((blocks.foldl write writer).finish created).2
          { path, blockSize, headerSizeHint := hint } = .ok mapped ∧
        CopyingStream.ofConfig ((blocks.foldl write writer).finish created).2
          { path, blockSize, headerSizeHint := hint } = .ok stream ∧
        stream.Agrees mapped ∧ mapped.header = header ∧ mapped.payload = blocks.flatten ∧
        mapped.obsOffset = obsOffset := by
  rw [foldl_write]
  obtain ⟨hblock, hlocation, hnone, _⟩ := of_create hcreate
  refine ⟨?_, ?_⟩
  · show writer.payloadWritten + blocks.flatten.length = blocks.flatten.length
    rw [hnone, Nat.zero_add]
  · obtain ⟨size, hsize, hfits, hsizeMax, hcontent⟩ := Header.of_toBlock hblock
    have hheader := Header.wellFormed_of_parse hparse
    have hclean := Header.nul_not_mem_render hparse hnul
    -- the block takes exactly the declared size, so that the payload starts behind it
    have hlength : writer.content.length = size := by
      rw [hcontent, Bytes.padTo, List.length_append, List.length_replicate]
      omega
    have hsizePos : 0 < size := Nat.lt_of_lt_of_le hreach.within_render.pos hfits
    have hne : writer.content ++ blocks.flatten ≠ [] := by
      refine List.append_ne_nil_of_left_ne_nil ?_ _
      exact List.ne_nil_of_length_pos (hlength ▸ hsizePos)
    have hpath : path ≠ "" := by
      obtain ⟨hlocate, _⟩ := FileTree.of_locateNew hlocation
      exact FileTree.ne_empty_of_locate hlocate
    have hvalid : StreamConfig.validate { path, blockSize, headerSizeHint := hint } = .ok () := by
      simp only [StreamConfig.validate, bind_eq_ok, require_eq_ok]
      exact ⟨(), hpath, (), Nat.ne_of_gt hpos, Nat.ne_of_gt hreach.pos⟩
    have hscan : Capture.headerSize hint (writer.content ++ blocks.flatten) = .ok size := by
      rw [hcontent, Bytes.padTo, List.append_assoc]
      exact Capture.headerSize_of_written hheader hclean hsize (Nat.ne_of_gt hsizePos) hreach _
    have hparsed : Header.ofBytes ((writer.content ++ blocks.flatten).take size) = .ok header := by
      rw [List.take_left' hlength, hcontent]
      exact Header.ofBytes_padTo hheader hclean size
    have hle : size ≤ (writer.content ++ blocks.flatten).length := by
      rw [List.length_append, hlength]
      exact Nat.le_add_right _ _
    have hopens := opens_of_content hvalid (openCapture_finish hcreate hne) hhint hmax hscan hne hle
      hsizeMax hparsed hsize hoffset
    rwa [List.drop_left' hlength] at hopens

/-- A header of 25 bytes in a block of 32. -/
def shortHeader : Header :=
  ⟨[⟨"HDR_SIZE", "32"⟩, ⟨"OBS_OFFSET", "7"⟩]⟩

/-- A capture of three bytes that is written in two blocks.  It is read with a hint that ends
with the line of the size, so that most of the block is read in a second step. -/
theorem readsBack_shortHeader :
    ∃ writer created, create { home := [] } "capture" shortHeader = .ok (writer, created) ∧
      ∃ mapped stream,
        MappedStream.ofConfig ((writer.write [1, 2]).write [3] |>.finish created).2
          { path := "capture", blockSize := 2, headerSizeHint := 12 } = .ok mapped ∧
        CopyingStream.ofConfig ((writer.write [1, 2]).write [3] |>.finish created).2
          { path := "capture", blockSize := 2, headerSizeHint := 12 } = .ok stream ∧
        stream.Agrees mapped ∧ mapped.payload = [1, 2, 3] := by
  have hparse : Header.parse "HDR_SIZE 32\n OBS_OFFSET  7" = .ok shortHeader := by cbv
  have hcreated : (fun result => result.1.payloadWritten) <$>
      create { home := [] } "capture" shortHeader = .ok 0 := by cbv
  obtain ⟨⟨writer, created⟩, hcreate, _⟩ := map_eq_ok.mp hcreated
  have hoffset : shortHeader.unsigned64 Key.obsOffset = .ok 7 := by cbv
  have hreach : shortHeader.SizeLineEndsWithin 12 :=
    ⟨[], ⟨"HDR_SIZE", "32"⟩, [⟨"OBS_OFFSET", "7"⟩], rfl, rfl, by decide⟩
  obtain ⟨_, mapped, stream, hmapped, hstream, hagrees, _, hpayload, _⟩ :=
    readsBack_of_create hparse (by decide) hoffset hcreate [[1, 2], [3]] hreach (by decide)
      (show 0 < 2 by decide) (by decide)
  exact ⟨writer, created, hcreate, mapped, stream, hmapped, hstream, hagrees, hpayload⟩

end CaptureWriter

end VoltageCapture
