import VoltageCapture.Proofs.Header.Parser
import VoltageCapture.Proofs.Header.Prefixed
import VoltageCapture.Proofs.Text.Utf8

/-!
# Finding the size and reading it

The size of a header block is found twice: `Header.scanSize` looks for it among the first
bytes of a capture, before there is a header, and `Header.declaredSize` takes it from the
header that was read.  The former stops at the first line with `HDR_SIZE`, the latter is
given by the last; the former cuts bytes at line feeds, the latter text.

* `Capture.headerSize_of_lines`: scanning bytes is scanning the text that they encode, as
  far as the lines reach that are read whole.
* `Capture.declaredSize_eq_headerSize`: if a single line holds `HDR_SIZE` and it is read
  whole, both find the same size.
-/

namespace VoltageCapture

/-! ## Text as bytes -/

namespace Bytes

variable {bytes : Bytes}

theorem untilNul_append (hnul : (0 : UInt8) ∉ bytes) (more : Bytes) :
    (bytes ++ more).untilNul = bytes ++ more.untilNul := by
  refine List.takeWhile_append_of_pos fun b hb => bne_iff_ne.mpr ?_
  rintro rfl
  exact hnul hb

theorem untilNul_of_not_mem (hnul : (0 : UInt8) ∉ bytes) : bytes.untilNul = bytes := by
  have happend := untilNul_append hnul []
  rw [List.append_nil] at happend
  exact happend.trans (List.append_nil bytes)

theorem untilNul_append_of_mem (hnul : (0 : UInt8) ∈ bytes) (more : Bytes) :
    (bytes ++ more).untilNul = bytes.untilNul := by
  obtain ⟨first, rest, rfl, hfirst⟩ := List.eq_append_cons_of_mem hnul
  have hends : ∀ behind, untilNul (0 :: behind) = [] := fun behind =>
    List.takeWhile_cons_of_neg (by decide)
  rw [List.append_assoc, List.cons_append, untilNul_append hfirst, untilNul_append hfirst, hends,
    hends]

end Bytes

namespace Utf8

variable {text : List Char}

theorem encode_terminated (lines : List (List Char)) :
    encode (Text.terminated '\n' lines) =
      Text.terminated Header.lineFeed (lines.map encode) := by
  induction lines with
  | nil => rfl
  | cons line lines ih =>
      rw [Text.terminated_cons, encode_append, encode_cons, ih, List.map_cons, Text.terminated_cons]
      rfl

theorem lineFeed_not_mem_encode (hnone : '\n' ∉ text) : Header.lineFeed ∉ encode text :=
  fun hmem => hnone (mem_of_mem_encode (by decide) hmem)

theorem untilNul_encode_append (hnone : '\x00' ∉ text) (rest : Bytes) :
    Bytes.untilNul (encode text ++ rest) = encode text ++ Bytes.untilNul rest :=
  Bytes.untilNul_append (fun hzero => hnone (mem_of_mem_encode (by decide) hzero)) rest

/-- The lines of a text are written as the lines of the bytes that it is written as. -/
theorem pieces_encode (text : List Char) :
    Text.pieces Header.lineFeed (encode text) = (Text.pieces '\n' text).map encode := by
  obtain ⟨parts, last, _, _, htext, hpieces, _⟩ := Text.pieces_append '\n' text []
  have hlines : ∀ line ∈ parts ++ [last], Header.lineFeed ∉ encode line := by
    intro line hline
    exact lineFeed_not_mem_encode (Text.not_mem_of_mem_pieces (hpieces ▸ hline))
  have hparts : ∀ part ∈ parts.map encode, Header.lineFeed ∉ part := by
    intro part hpart
    obtain ⟨line, hline, rfl⟩ := List.mem_map.mp hpart
    exact hlines line (List.mem_append_left _ hline)
  have hlast := Text.pieces_of_not_mem (hlines last (List.mem_append_right _ List.mem_cons_self))
  rw [hpieces, htext, encode_append, encode_terminated, Text.pieces_terminated hparts, hlast,
    List.map_append, List.map_singleton]

/-- Bytes all of whose lines are text are text. -/
theorem of_pieces_eq_map {bytes : Bytes} {lines : List (List Char)}
    (hlines : Text.pieces Header.lineFeed bytes = lines.map encode) :
    ∃ text, bytes = encode text ∧ Text.pieces '\n' text = lines := by
  obtain ⟨parts, last, _, _, hbytes, hpieces, _⟩ := Text.pieces_append Header.lineFeed bytes []
  rw [hpieces] at hlines
  obtain ⟨before, final, rfl, rfl, hfinal⟩ := List.append_eq_map_iff.mp hlines
  obtain ⟨line, rfl, rfl⟩ := List.map_eq_singleton_iff.mp hfinal
  have htext : bytes = encode (Text.terminated '\n' before ++ line) := by
    rw [hbytes, encode_append, encode_terminated]
  refine ⟨_, htext, ?_⟩
  rw [htext, pieces_encode] at hpieces
  apply (List.map_inj_right fun _ _ => encode_injective).mp
  rw [hpieces, List.map_append, List.map_singleton]

theorem not_mem_of_encode_eq_untilNul {bytes : Bytes} (htext : Bytes.untilNul bytes = encode text) :
    '\x00' ∉ text := by
  intro hmem
  have hzero : (0 : UInt8) ∈ Bytes.untilNul bytes := by
    rw [htext]
    exact List.mem_flatMap.mpr ⟨_, hmem, List.mem_singleton.mpr rfl⟩
  have hne := (List.all_eq_true.mp List.all_takeWhile) _ hzero
  exact absurd hne (by decide)

end Utf8

/-! ## Scanning lines -/

namespace Header

variable {before : List (List Char)} {line : List Char} {result : Except Error Nat}

/-- The first line that declares a size decides, whatever follows it. -/
theorem sizeOfLines_of_lines (hbefore : ∀ other ∈ before, ¬IsSizeLine other)
    (hline : sizeOfLine? line = some result) (more : List Bytes) :
    sizeOfLines ((before ++ [line]).map Utf8.encode ++ more) = result := by
  induction before with
  | nil =>
      rw [List.nil_append, List.map_cons, List.cons_append, sizeOfLines, Utf8.decode_encode]
      simp only [hline, Option.getD_some]
  | cons other before ih =>
      have hrest := ih fun later hlater => hbefore later (List.mem_cons_of_mem _ hlater)
      rw [List.cons_append, List.map_cons, List.cons_append, sizeOfLines, Utf8.decode_encode]
      simp only [sizeOfLine?_eq_none (hbefore other List.mem_cons_self), Option.getD_none]
      exact hrest

end Header

namespace Capture

variable {before : List (List Char)} {line : List Char} {result : Except Error Nat} {hint : Nat}

/-- The lines of a capture up to one that declares a size decide on the size of its header
block, if the hint reaches behind them. -/
theorem headerSize_of_lines (hfeeds : ∀ other ∈ before ++ [line], '\n' ∉ other)
    (hbefore : ∀ other ∈ before, ¬Header.IsSizeLine other)
    (hline : Header.sizeOfLine? line = some result)
    (hnul : '\x00' ∉ Text.terminated '\n' (before ++ [line]))
    (hreach : (Utf8.encode (Text.terminated '\n' (before ++ [line]))).length ≤ hint)
    (rest : Bytes) :
    headerSize hint (Utf8.encode (Text.terminated '\n' (before ++ [line])) ++ rest) = result := by
  have hbytes : ∀ other ∈ (before ++ [line]).map Utf8.encode, Header.lineFeed ∉ other := by
    intro other hother
    obtain ⟨found, hfound, rfl⟩ := List.mem_map.mp hother
    exact Utf8.lineFeed_not_mem_encode (hfeeds found hfound)
  rw [headerSize, List.take_append, List.take_of_length_le (by omega), Header.scanSize,
    Utf8.untilNul_encode_append hnul, Utf8.encode_terminated, Text.pieces_terminated hbytes]
  exact Header.sizeOfLines_of_lines hbefore hline _

end Capture

/-! ## A size that is declared once -/

namespace Header

variable {text : List Char} {header : Header} {size reach : Nat}

/-- Exactly one line of the text holds the field `HDR_SIZE`, and that line ends, with its
line feed, within the first `reach` bytes of the text. -/
def DeclaresSizeOnce (text : List Char) (reach : Nat) : Prop :=
  ∃ before line after, Text.pieces '\n' text = before ++ line :: after ∧ after ≠ [] ∧
    IsSizeLine line ∧ (∀ other ∈ before ++ after, ¬IsSizeLine other) ∧
    (Utf8.encode (Text.terminated '\n' (before ++ [line]))).length ≤ reach

/-- The only line with the field `HDR_SIZE` gives the size that the header declares. -/
theorem unsigned64?_of_single {before after : List (List Char)} {line value : List Char}
    (hparse : parse (String.ofList text) = .ok header) (hsize : header.declaredSize = .ok size)
    (hlines : Text.pieces '\n' text = before ++ line :: after)
    (hline : Field.ofLine? line = some (Key.headerSize.toList, value))
    (hafter : ∀ other ∈ after, ¬IsSizeLine other) :
    Text.unsigned64? (String.ofList value) = some size := by
  have hfields : fieldLines text = before.filterMap Field.ofLine? ++
      (Key.headerSize.toList, value) :: after.filterMap Field.ofLine? := by
    rw [fieldLines, hlines, List.filterMap_append, List.filterMap_cons_some hline]
  have hlater : ∀ other ∈ after.filterMap Field.ofLine?, String.ofList other.1 ≠ Key.headerSize := by
    intro other hother heq
    obtain ⟨found, hfound, hparts⟩ := List.mem_filterMap.mp hother
    refine hafter found hfound (isSizeLine_iff.mpr ⟨other.2, ?_⟩)
    rw [hparts, ← heq, String.toList_ofList]
  have hvalue : header.value? Key.headerSize = some (String.ofList value) := by
    rw [parse, String.toList_ofList] at hparse
    rw [value?_of_foldlM hparse, hfields]
    exact lastValue_of_single _ String.ofList_toList hlater
  obtain ⟨found, hfound, hnumber⟩ := of_unsigned64 hsize
  rw [hvalue] at hfound
  rw [Option.some.inj hfound]
  exact hnumber

end Header

namespace Capture

variable {hint size found : Nat} {content : Bytes} {header : Header}

/-- The header block of a capture declares its size on a single line, which is among the
first bytes of the capture that are read. -/
def DeclaresSizeOnce (hint : Nat) (content : Bytes) : Prop :=
  ∃ text, Utf8.decode (headerBlock hint content).untilNul = .ok text ∧
    Header.DeclaresSizeOnce text hint

/-- If the size is declared once, the size that is found by scanning and the size that the
header declares are the same. -/
theorem declaredSize_eq_headerSize (hfound : headerSize hint content = .ok found)
    (hheader : Header.ofBytes (headerBlock hint content) = .ok header)
    (hsize : header.declaredSize = .ok size) (honce : DeclaresSizeOnce hint content) :
    size = found := by
  obtain ⟨text, htext, before, line, after, hlines, hmore, hsizeLine, hothers, hreach⟩ := honce
  obtain ⟨value, hline⟩ := Header.isSizeLine_iff.mp hsizeLine
  have hparse : Header.parse (String.ofList text) = .ok header := by
    rw [Header.ofBytes, htext] at hheader
    exact hheader
  have hvalue := Header.unsigned64?_of_single hparse hsize hlines hline fun other hother =>
    hothers other (List.mem_append_right _ hother)
  obtain ⟨result, hresult, _, hunique⟩ := Header.sizeOfLine?_of_ofLine? hline hvalue
  -- the capture starts with the text of the lines up to that of the size
  obtain ⟨rest, hrest, _⟩ : ∃ rest, text = Text.terminated '\n' (before ++ [line]) ++ rest ∧ _ :=
    Text.of_pieces_eq_append (by rw [hlines, List.append_assoc, List.singleton_append]) hmore
  have hbytes := Utf8.decode_eq_ok.mp htext
  have hnul : '\x00' ∉ Text.terminated '\n' (before ++ [line]) := fun hmem =>
    Utf8.not_mem_of_encode_eq_untilNul hbytes (hrest ▸ List.mem_append_left _ hmem)
  have hstart : ∃ more, content = Utf8.encode (Text.terminated '\n' (before ++ [line])) ++ more := by
    refine ⟨Utf8.encode rest ++ (headerBlock hint content).dropWhile (· != 0) ++
      content.drop found, ?_⟩
    rw [← List.append_assoc, ← List.append_assoc, ← Utf8.encode_append, ← hrest, ← hbytes,
      Bytes.untilNul, List.takeWhile_append_dropWhile, headerBlock_eq hfound,
      List.take_append_drop]
  obtain ⟨more, hcontent⟩ := hstart
  have hfeeds : ∀ other ∈ before ++ [line], '\n' ∉ other := by
    intro other hother
    have hpiece : other ∈ Text.pieces '\n' text := by
      rw [hlines, ← List.singleton_append, ← List.append_assoc]
      exact List.mem_append_left _ hother
    exact Text.not_mem_of_mem_pieces hpiece
  have hbefore : ∀ other ∈ before, ¬Header.IsSizeLine other := by
    intro other hother
    exact hothers other (List.mem_append_left _ hother)
  have hscan := headerSize_of_lines hfeeds hbefore hresult hnul hreach more
  rw [← hcontent, hfound] at hscan
  exact (hunique found hscan.symm).symm

end Capture

end VoltageCapture
