import VoltageCapture.Proofs.Header.Scan
import VoltageCapture.Proofs.Stream.Collect
import VoltageCapture.Proofs.Stream.Copying
import VoltageCapture.Proofs.Stream.Mapped

/-!
# Two ways to the same payload

A mapped stream takes its payload from where the parsed header says that it starts, a
copying stream from where the scanned size says.  If the size is declared once, and early
enough to be scanned, these are the same place (`Capture.declaredSize_eq_headerSize`), and
then both streams report the same header and hand out the same bytes: the former as one
block, the latter in as many as its block size makes of them
(`CopyingStream.exists_agrees_of_mapped`).
-/

namespace VoltageCapture

/-! ## What can be read -/

theorem Reader.readFull_broken (cause : IoCause) {wanted : Nat} (hwanted : wanted ≠ 0) :
    (Reader.broken cause).readFull wanted = (.error cause, (Reader.broken cause).advance) := by
  have hread : (Reader.broken cause).read wanted = (.failed cause, (Reader.broken cause).advance) :=
    rfl
  rw [readFull, readFullFrom_eq hwanted, hread]

/-- A header can only be read from a file. -/
theorem Entry.exists_content_of_readPrefixed {entry : Entry} {hint : Nat} {result : Header × Bytes}
    (hread : (Header.readPrefixed entry.reader hint).1 = .ok result) :
    ∃ content, entry = .file content := by
  cases entry with
  | file content => exact ⟨content, rfl⟩
  | folder =>
      have hwanted : max hint 1 ≠ 0 := by omega
      simp only [Header.readPrefixed, Entry.reader, Reader.readFull_broken _ hwanted] at hread
      split at hread
      · simp at hread
      · simp at hread

namespace CopyingStream

variable {reader : Reader} {hint obsOffset blockSize : Nat} {header : Header} {extra payload : Bytes}
  {stream : CopyingStream} {mapped : MappedStream}

/-- A stream can be opened where a header with an offset can be read, with any block size
for which there can be a buffer. -/
theorem exists_of_readPrefixed (hread : (Header.readPrefixed reader hint).1 = .ok (header, extra))
    (hoffset : header.unsigned64 Key.obsOffset = .ok obsOffset) (hpos : 0 < blockSize)
    (hmax : blockSize ≤ Bytes.maxLength) (source : String) :
    ∃ stream, ofReader reader source blockSize hint = .ok stream ∧ stream.header = header ∧
      stream.obsOffset = obsOffset := by
  unfold ofReader
  rw [dif_neg (Nat.ne_of_gt hpos)]
  simp only [hread, bind_eq_ok, pure_eq_ok, requireAllocatable_eq_ok]
  exact ⟨_, ⟨_, rfl, _, hoffset, (), hmax, rfl⟩, rfl, rfl⟩

/-! ## Mapped and copied -/

/-- A mapped stream and a copying stream report the same header and hand out the same
payload, the former in a single block, if it is not empty, and the latter in blocks that
start where that block starts. -/
structure Agrees (stream : CopyingStream) (mapped : MappedStream) : Prop where
  header_eq : stream.header = mapped.header
  whole : FiniteStream.blocks mapped =
    .ok (if mapped.payload = [] then [] else [⟨mapped.payload, mapped.obsOffset⟩])
  parts : ∃ found, FiniteStream.blocks stream = .ok found ∧
    Tiles mapped.payload mapped.obsOffset found

end CopyingStream

theorem MappedStream.blocks_eq {mapped : MappedStream} (hfresh : mapped.delivered = false) :
    FiniteStream.blocks mapped =
      .ok (if mapped.payload = [] then [] else [⟨mapped.payload, mapped.obsOffset⟩]) := by
  have hlast : BlockStream.next { mapped with delivered := true } =
      (.ok .endMark, { mapped with delivered := true }) := rfl
  have hend : FiniteStream.blocks { mapped with delivered := true } = .ok [] :=
    FiniteStream.blocks_of_end hlast rfl
  split
  · next hempty =>
    have hnext : BlockStream.next mapped = (.ok .endMark, { mapped with delivered := true }) :=
      if_pos (Or.inr hempty)
    exact FiniteStream.blocks_of_end hnext rfl
  · next hne =>
    have hnext : BlockStream.next mapped =
        (.ok ⟨mapped.payload, mapped.obsOffset⟩, { mapped with delivered := true }) :=
      if_neg (by simp [hfresh, hne])
    rw [FiniteStream.blocks_of_block hnext (by simp [Block.isEnd, hne]), hend]
    rfl

namespace CopyingStream

section Mapped

variable {tree : FileTree} {config : StreamConfig} {entry : Entry} {blockSize : Nat}
  {mapped : MappedStream}

/-- Where a capture file can be opened in place, and scanning finds the size that its header
declares, it can be opened for copying and hands out the same payload. -/
theorem exists_readyAt_of_sizes (hopen : MappedStream.ofConfig tree config = .ok mapped)
    (hentry : tree.openCapture config.path = .ok entry)
    (hsizes : Capture.headerSize config.headerSizeHint entry.content = mapped.header.declaredSize)
    (hpos : 0 < blockSize) (hmax : blockSize ≤ Bytes.maxLength) :
    ∃ stream, ofConfig tree { config with blockSize } = .ok stream ∧
      stream.header = mapped.header ∧
      stream.ReadyAt mapped.payload mapped.obsOffset 0 blockSize := by
  obtain ⟨found, extra, hvalid, hfound, hread, ⟨size, hsize, _, hpayload⟩, hoffset, _⟩ :=
    MappedStream.of_ofConfig hopen
  obtain rfl : entry = found := Except.ok.inj (hentry.symm.trans hfound)
  -- opening in place has read the header, so this is a file and not a folder
  obtain ⟨content, rfl⟩ := Entry.exists_content_of_readPrefixed hread
  have hreader : (Entry.file content).reader.Reliable := Reader.Reliable.ofBytes content
  obtain ⟨stream, hstream, hheader, hsame⟩ :=
    exists_of_readPrefixed hread hoffset hpos hmax config.path
  have hpayloads : Capture.payload config.headerSizeHint content = mapped.payload := by
    rw [hpayload]
    exact Capture.payload_eq (hsizes.trans hsize)
  refine ⟨stream, ?_, hheader, ?_⟩
  · simp only [ofConfig, bind_eq_ok]
    refine ⟨(), ?_, .file content, hentry, hstream⟩
    simp only [StreamConfig.validate, bind_eq_ok, require_eq_ok] at hvalid ⊢
    obtain ⟨_, hpath, _, _, hhint⟩ := hvalid
    exact ⟨(), hpath, (), Nat.ne_of_gt hpos, hhint⟩
  · obtain ⟨_, _, hdelivered, hblockSize, _⟩ := of_ofReader hstream
    have hserves := serves_of_ofReader hreader hstream
    refine ⟨hpayloads ▸ hserves, hsame, ?_, hblockSize⟩
    rw [hdelivered, Nat.zero_min]

theorem exists_agrees_of_sizes (hopen : MappedStream.ofConfig tree config = .ok mapped)
    (hentry : tree.openCapture config.path = .ok entry)
    (hsizes : Capture.headerSize config.headerSizeHint entry.content = mapped.header.declaredSize)
    (hpos : 0 < blockSize) (hmax : blockSize ≤ Bytes.maxLength) :
    ∃ stream, ofConfig tree { config with blockSize } = .ok stream ∧ stream.Agrees mapped := by
  obtain ⟨_, _, _, _, _, _, _, hfresh⟩ := MappedStream.of_ofConfig hopen
  obtain ⟨stream, hstream, hheader, hready⟩ :=
    exists_readyAt_of_sizes hopen hentry hsizes hpos hmax
  have htiles := FiniteStream.tiles_of_ready (steady_readyAt _ _) hpos hready
  exact ⟨stream, hstream, hheader, MappedStream.blocks_eq hfresh, htiles⟩

/-- **Zero-copy and copying access agree.**  Where a capture file that declares its size
once can be opened in place, it can be opened for copying, with any block size for which
there can be a buffer, and both give the same header and the same payload. -/
theorem exists_agrees_of_mapped (hopen : MappedStream.ofConfig tree config = .ok mapped)
    (hentry : tree.openCapture config.path = .ok entry)
    (honce : Capture.DeclaresSizeOnce config.headerSizeHint entry.content) (hpos : 0 < blockSize)
    (hmax : blockSize ≤ Bytes.maxLength) :
    ∃ stream, ofConfig tree { config with blockSize } = .ok stream ∧ stream.Agrees mapped := by
  refine exists_agrees_of_sizes hopen hentry ?_ hpos hmax
  obtain ⟨found, extra, _, hfound, hread, ⟨size, hsize, _⟩, _⟩ := MappedStream.of_ofConfig hopen
  obtain rfl : entry = found := Except.ok.inj (hentry.symm.trans hfound)
  obtain ⟨content, rfl⟩ := Entry.exists_content_of_readPrefixed hread
  obtain ⟨⟨scanned, hscanned, _⟩, hblock, _⟩ :=
    Header.of_readPrefixed (Reader.Reliable.ofBytes content) (Prod.ext hread rfl)
  rw [hsize, Capture.declaredSize_eq_headerSize hscanned hblock hsize honce]
  exact hscanned

end Mapped

def numberedTree : FileTree where
  home := []
  entries := [(["numbered"], .file numbered)]

/-- The capture of seven bytes, mapped and in blocks of three. -/
theorem exists_agrees_numbered :
    ∃ mapped, MappedStream.ofConfig numberedTree { path := "numbered", headerSizeHint := 16 } =
        .ok mapped ∧
      ∃ stream, ofConfig numberedTree { path := "numbered", headerSizeHint := 16, blockSize := 3 } =
        .ok stream ∧ stream.Agrees mapped := by
  have hopened : (·.payload) <$>
      MappedStream.ofConfig numberedTree { path := "numbered", headerSizeHint := 16 } =
        .ok [1, 2, 3, 4, 5, 6, 7] := by cbv
  obtain ⟨mapped, hopen, _⟩ := map_eq_ok.mp hopened
  have hentry : numberedTree.openCapture "numbered" = .ok (.file numbered) := by cbv
  have honce : Capture.DeclaresSizeOnce 16 numbered := by
    refine ⟨"HDR_SIZE 32\nOBS_OFFSET 1000\n".toList, by cbv, [], "HDR_SIZE 32".toList,
      ["OBS_OFFSET 1000".toList, []], by cbv, List.cons_ne_nil _ _, by decide, by decide, by decide⟩
  exact ⟨mapped, hopen, exists_agrees_of_mapped hopen hentry honce (by decide) (by decide)⟩

end CopyingStream

end VoltageCapture
