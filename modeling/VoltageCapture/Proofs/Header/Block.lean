import VoltageCapture.Proofs.Header.Scan

/-!
# The header block of a written header

The block that `Header.toBlock` writes is the header text and zero bytes.  A header that
was read from text without the character zero is found again in it: the parser gives the
same header (`ofBytes_padTo`), and scanning the capture gives the size of the block, as soon
as the line with the size is read whole (`Capture.headerSize_of_written`), whatever the
payload behind the block is.
-/

namespace VoltageCapture

namespace Header

variable {header : Header} {text : String} {block : Bytes} {size hint : Nat}

theorem of_toBlock (hblock : header.toBlock = .ok block) :
    ∃ size, header.declaredSize = .ok size ∧ (Utf8.bytes header.render).length ≤ size ∧
      size ≤ Bytes.maxLength ∧ block = (Utf8.bytes header.render).padTo size := by
  simp only [toBlock, bind_eq_ok, pure_eq_ok, require_eq_ok, requireAllocatable_eq_ok] at hblock
  obtain ⟨size, hsize, _, hfits, _, hmax, rfl⟩ := hblock
  exact ⟨size, hsize, hfits, hmax, rfl⟩

/-- Writing a header adds no character but the blanks and line feeds between its parts. -/
theorem mem_of_mem_render (hparse : parse text = .ok header) {c : Char}
    (hmem : c ∈ header.render.toList) : c ∈ text.toList ∨ c = ' ' ∨ c = '\n' := by
  rw [render, String.toList_ofList] at hmem
  obtain ⟨field, hfield, hline⟩ := List.mem_flatMap.mp hmem
  obtain ⟨line, hpiece, hparts, _⟩ := exists_line_of_parse hparse hfield
  have htext : ∀ d ∈ line, d ∈ text.toList := fun d hd => Text.mem_of_mem_pieces hpiece hd
  simp only [Field.line, List.mem_append, List.mem_cons, List.not_mem_nil, or_false] at hline
  rcases hline with (hkey | hblank | hvalue) | hfeed
  · exact Or.inl (htext c (Field.mem_of_ofLine? hparts (Or.inl hkey)))
  · exact Or.inr (Or.inl hblank)
  · exact Or.inl (htext c (Field.mem_of_ofLine? hparts (Or.inr hvalue)))
  · exact Or.inr (Or.inr hfeed)

theorem nul_not_mem_render (hparse : parse text = .ok header) (hnul : '\x00' ∉ text.toList) :
    '\x00' ∉ header.render.toList := by
  intro hmem
  rcases mem_of_mem_render hparse hmem with htext | hblank | hfeed
  · exact hnul htext
  · exact absurd hblank (by decide)
  · exact absurd hfeed (by decide)

/-- The text of a block ends at the first padding byte, or with the block if there is none. -/
theorem untilNul_padTo (hnul : '\x00' ∉ header.render.toList) (size : Nat) :
    ((Utf8.bytes header.render).padTo size).untilNul = Utf8.encode header.render.toList := by
  rw [Bytes.padTo, Utf8.bytes, Utf8.untilNul_encode_append hnul]
  cases size - (Utf8.encode header.render.toList).length with
  | zero => exact List.append_nil _
  | succ missing =>
      rw [List.replicate_succ, Bytes.untilNul, List.takeWhile_cons_of_neg (by decide),
        List.append_nil]

theorem length_padTo (hfits : (Utf8.bytes header.render).length ≤ size) :
    ((Utf8.bytes header.render).padTo size).length = size := by
  rw [Bytes.padTo, List.length_append, List.length_replicate]
  omega

/-- A well-formed header is read back from its block. -/
theorem ofBytes_padTo (hheader : header.WellFormed) (hnul : '\x00' ∉ header.render.toList)
    (size : Nat) : ofBytes ((Utf8.bytes header.render).padTo size) = .ok header := by
  rw [ofBytes, untilNul_padTo hnul, Utf8.decode_encode]
  show parse (String.ofList header.render.toList) = .ok header
  rw [String.ofList_toList, parse_render hheader]

/-- The line with the field `HDR_SIZE` ends, with its line feed, within the first `reach`
bytes of the header text. -/
def SizeLineEndsWithin (header : Header) (reach : Nat) : Prop :=
  ∃ before field after, header.fields = before ++ field :: after ∧
    field.key = Key.headerSize ∧
    (Utf8.encode ((before ++ [field]).flatMap Field.line)).length ≤ reach

theorem SizeLineEndsWithin.pos {reach : Nat} (hreach : header.SizeLineEndsWithin reach) :
    0 < reach := by
  obtain ⟨before, field, _, _, _, hend⟩ := hreach
  have hfeed : '\n' ∈ (before ++ [field]).flatMap Field.line := by
    refine List.mem_flatMap.mpr ⟨field, List.mem_append_right _ List.mem_cons_self, ?_⟩
    exact List.mem_append_right _ List.mem_cons_self
  have hbyte : lineFeed ∈ Utf8.encode ((before ++ [field]).flatMap Field.line) :=
    List.mem_flatMap.mpr ⟨_, hfeed, List.mem_singleton.mpr rfl⟩
  exact Nat.lt_of_lt_of_le (List.length_pos_of_mem hbyte) hend

/-- The line of a field ends within the text. -/
theorem sizeLineEndsWithin_render {field : Field} (hmem : field ∈ header.fields)
    (hkey : field.key = Key.headerSize) :
    header.SizeLineEndsWithin (Utf8.bytes header.render).length := by
  obtain ⟨before, after, hfields⟩ := List.append_of_mem hmem
  refine ⟨before, field, after, hfields, hkey, ?_⟩
  have hall : before ++ field :: after = before ++ [field] ++ after := by
    rw [List.append_assoc, List.singleton_append]
  have hsplit : Utf8.bytes header.render =
      Utf8.encode ((before ++ [field]).flatMap Field.line) ++ Utf8.encode (after.flatMap Field.line) := by
    rw [Utf8.bytes, render, String.toList_ofList, hfields, hall, List.flatMap_append,
      Utf8.encode_append]
  rw [hsplit, List.length_append]
  exact Nat.le_add_right _ _

theorem sizeLineEndsWithin_of_declaredSize (hsize : header.declaredSize = .ok size) :
    header.SizeLineEndsWithin (Utf8.bytes header.render).length := by
  obtain ⟨value, hvalue, _⟩ := of_unsigned64 hsize
  obtain ⟨field, hmem, hkey, _⟩ := exists_mem_of_value? hvalue
  exact sizeLineEndsWithin_render hmem hkey

theorem SizeLineEndsWithin.within_render {reach : Nat} (hreach : header.SizeLineEndsWithin reach) :
    header.SizeLineEndsWithin (Utf8.bytes header.render).length := by
  obtain ⟨before, field, after, hfields, hkey, _⟩ := hreach
  exact sizeLineEndsWithin_render (hfields ▸ List.mem_append_right _ List.mem_cons_self) hkey

theorem SizeLineEndsWithin.mono {near far : Nat} (hreach : header.SizeLineEndsWithin near)
    (hle : near ≤ far) : header.SizeLineEndsWithin far := by
  obtain ⟨before, field, after, hfields, hkey, hend⟩ := hreach
  exact ⟨before, field, after, hfields, hkey, Nat.le_trans hend hle⟩

/-- No field of a header but the one with the size stands on a line that declares a size. -/
theorem WellFormed.not_isSizeLine_written (hheader : header.WellFormed) {before after : List Field}
    {field : Field} (hfields : header.fields = before ++ field :: after)
    (hkey : field.key = Key.headerSize) :
    ∀ line ∈ before.map Field.written ++ after.map Field.written, ¬IsSizeLine line := by
  have hnodup := hheader.nodup
  rw [keys, hfields, List.map_append, List.map_cons, List.nodup_append, List.nodup_cons] at hnodup
  obtain ⟨_, ⟨hafter, _⟩, hbefore⟩ := hnodup
  have hothers : ∀ other ∈ before ++ after, other ∈ header.fields ∧ other.key ≠ field.key := by
    intro other hother
    rcases List.mem_append.mp hother with hfirst | hlast
    · refine ⟨hfields ▸ List.mem_append_left _ hfirst, ?_⟩
      exact hbefore _ (List.mem_map_of_mem hfirst) _ List.mem_cons_self
    · refine ⟨hfields ▸ List.mem_append_right _ (List.mem_cons_of_mem _ hlast), ?_⟩
      intro hsame
      exact hafter (hsame ▸ List.mem_map_of_mem hlast)
  intro line hline hsizeLine
  rw [← List.map_append] at hline
  obtain ⟨other, hother, rfl⟩ := List.mem_map.mp hline
  obtain ⟨hmem, hne⟩ := hothers other hother
  rw [IsSizeLine, (hheader.fields other hmem).ofLine?_written, Option.map_some,
    Option.some.injEq, String.toList_inj] at hsizeLine
  exact hne (hsizeLine.trans hkey.symm)

end Header

/-- Scanning a capture that starts with a header text finds the size that the header
declares. -/
theorem Capture.headerSize_of_written {header : Header} {size hint : Nat}
    (hheader : header.WellFormed) (hnul : '\x00' ∉ header.render.toList)
    (hsize : header.declaredSize = .ok size) (hne : size ≠ 0)
    (hreach : header.SizeLineEndsWithin hint) (rest : Bytes) :
    headerSize hint (Utf8.bytes header.render ++ rest) = .ok size := by
  obtain ⟨before, field, after, hfields, hkey, hend⟩ := hreach
  have hmem : field ∈ header.fields := hfields ▸ List.mem_append_right _ List.mem_cons_self
  have hlines : (before ++ [field]).flatMap Field.line =
      Text.terminated '\n' (before.map Field.written ++ [field.written]) := by
    rw [Header.flatMap_line, List.map_append, List.map_singleton]
  have htext : header.render.toList =
      Text.terminated '\n' (before.map Field.written ++ [field.written]) ++
        Text.terminated '\n' (after.map Field.written) := by
    rw [Header.toList_render, hfields, ← Text.terminated_append, List.map_append, List.map_cons,
      List.append_assoc, List.singleton_append]
  -- the line of this field declares the size
  have hvalue := Header.value?_of_mem hheader.nodup hmem
  obtain ⟨value, hfound, hnumber⟩ := Header.of_unsigned64 hsize
  rw [hkey, hfound, Option.some.injEq] at hvalue
  have hparts := (hheader.fields field hmem).ofLine?_written
  rw [hkey] at hparts
  obtain ⟨result, hresult, hdeclared, _⟩ := Header.sizeOfLine?_of_ofLine? hparts
    (by rw [String.ofList_toList, ← hvalue, hnumber])
  rw [hdeclared hne] at hresult
  -- and no line ahead of it does
  have hothers : ∀ line ∈ before.map Field.written, ¬Header.IsSizeLine line := by
    intro line hline
    exact hheader.not_isSizeLine_written hfields hkey line (List.mem_append_left _ hline)
  have hfeeds : ∀ line ∈ before.map Field.written ++ [field.written], '\n' ∉ line := by
    intro line hline
    refine hheader.not_mem_written line ?_
    rw [hfields, List.map_append, List.map_cons, ← List.singleton_append, ← List.append_assoc]
    exact List.mem_append_left _ hline
  rw [Utf8.bytes, htext, Utf8.encode_append, List.append_assoc]
  refine headerSize_of_lines hfeeds hothers hresult ?_ (hlines ▸ hend) _
  exact fun hzero => hnul (htext ▸ List.mem_append_left _ hzero)

/-- A capture that starts with the block of a header declares its size once. -/
theorem Capture.declaresSizeOnce_of_written {header : Header} {size hint : Nat}
    (hheader : header.WellFormed) (hnul : '\x00' ∉ header.render.toList)
    (hsize : header.declaredSize = .ok size) (hfits : (Utf8.bytes header.render).length ≤ size)
    (hreach : header.SizeLineEndsWithin hint) (rest : Bytes) :
    DeclaresSizeOnce hint ((Utf8.bytes header.render).padTo size ++ rest) := by
  have hpos : 0 < size := Nat.lt_of_lt_of_le hreach.within_render.pos hfits
  have hscan : headerSize hint ((Utf8.bytes header.render).padTo size ++ rest) = .ok size := by
    rw [Bytes.padTo, List.append_assoc]
    exact headerSize_of_written hheader hnul hsize (Nat.ne_of_gt hpos) hreach _
  refine ⟨header.render.toList, ?_, ?_⟩
  · rw [headerBlock_eq hscan, List.take_left' (Header.length_padTo hfits),
      Header.untilNul_padTo hnul, Utf8.decode_encode]
  · obtain ⟨before, field, after, hfields, hkey, hend⟩ := hreach
    have hmem : field ∈ header.fields := hfields ▸ List.mem_append_right _ List.mem_cons_self
    have hpieces := Text.pieces_terminated hheader.not_mem_written []
    rw [List.append_nil, ← Header.toList_render, Text.pieces_of_not_mem List.not_mem_nil, hfields,
      List.map_append, List.map_cons, List.append_assoc, List.cons_append] at hpieces
    have hothers := hheader.not_isSizeLine_written hfields hkey
    refine ⟨before.map Field.written, field.written, after.map Field.written ++ [[]], hpieces,
      List.append_ne_nil_of_right_ne_nil _ (List.cons_ne_nil _ _), ?_, ?_, ?_⟩
    · rw [Header.IsSizeLine, (hheader.fields field hmem).ofLine?_written, Option.map_some, hkey]
    · -- behind the last line feed there is nothing, so nothing is declared there
      intro other hother
      rw [← List.append_assoc] at hother
      rcases List.mem_append.mp hother with hfield | hlast
      · exact hothers other hfield
      · rw [List.mem_singleton.mp hlast]
        decide
    · rwa [Header.flatMap_line, List.map_append, List.map_singleton] at hend

end VoltageCapture
