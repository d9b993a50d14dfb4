import VoltageCapture.Proofs.Header.Scan

/-!
# Sizes that are cut short

The size of a header block is looked for in the first bytes of a stream, and where these end
is not up to the header.  Two lengths of the same stream agree on the first line with
`HDR_SIZE` as far as the shorter one reaches.  The only way in which they can find different
sizes is that the shorter one ends within the number (`Header.SizeCut`), which it then reads
as a smaller one: this is `Header.declared_of_append`.
-/

namespace VoltageCapture

namespace Header

variable {line other value : List Char} {size found : Nat}

/-! ## Lines and the numbers on them -/

/-- The first word of the line is `HDR_SIZE`, and the next one the number `size`. -/
def Declares (line : List Char) (size : Nat) : Prop :=
  ∃ numeral others, Text.words line = Key.headerSize.toList :: numeral :: others ∧
    Text.unsigned64? (String.ofList numeral) = some size

theorem isSizeLine_iff_words :
    IsSizeLine line ↔ ∃ others, Text.words line = Key.headerSize.toList :: others := by
  constructor
  · intro hline
    obtain ⟨value, hfield⟩ := isSizeLine_iff.mp hline
    exact ⟨_, Field.words_of_ofLine? hfield⟩
  · rintro ⟨others, hwords⟩
    cases hfield : Field.ofLine? line with
    | none =>
        rcases Field.words_of_ofLine?_eq_none hfield with hnone | ⟨rest, more, hcomment⟩
        · rw [hnone] at hwords
          exact absurd hwords.symm (List.cons_ne_nil _ _)
        · rw [hcomment, List.cons.injEq] at hwords
          exact absurd (List.cons.inj hwords.1).1 (by decide)
    | some field =>
        rw [Field.words_of_ofLine? hfield, List.cons.injEq] at hwords
        rw [IsSizeLine, hfield, Option.map_some, hwords.1]

theorem Declares.isSizeLine (hline : Declares line size) : IsSizeLine line := by
  obtain ⟨numeral, others, hwords, _⟩ := hline
  exact isSizeLine_iff_words.mpr ⟨_, hwords⟩

theorem Declares.unique (hline : Declares line size) (hother : Declares line found) :
    size = found := by
  obtain ⟨numeral, others, hwords, hnumber⟩ := hline
  obtain ⟨second, rest, hsame, hsecond⟩ := hother
  rw [hwords, List.cons.injEq, List.cons.injEq] at hsame
  rw [← hsame.2.1, hnumber] at hsecond
  exact Option.some.inj hsecond

theorem declares_of_sizeOfLine? (hline : sizeOfLine? line = some (.ok size)) :
    Declares line size ∧ size ≠ 0 := by
  unfold sizeOfLine? at hline
  split at hline
  · simp at hline
  next key values hwords =>
  split at hline
  · next hkey =>
    dsimp only at hline
    split at hline
    · simp at hline
    · next number hne hnumber =>
      simp only [Option.some.injEq, Except.ok.injEq] at hline
      subst hline
      have hnone : Text.unsigned64? (String.ofList []) = none := by decide
      cases values with
      | nil => exact absurd (hnone.symm.trans hnumber) (Option.some_ne_none _).symm
      | cons numeral others =>
          refine ⟨⟨numeral, others, ?_, hnumber⟩, fun hzero => hne hzero⟩
          rw [hwords, ← hkey, String.toList_ofList]
    · simp at hline
  · simp at hline

theorem sizeOfLine?_ne_none (hline : IsSizeLine line) : sizeOfLine? line ≠ none := by
  obtain ⟨others, hwords⟩ := isSizeLine_iff_words.mp hline
  simp only [sizeOfLine?, hwords, String.ofList_toList, if_pos]
  split <;> exact Option.some_ne_none _

theorem declares_of_ofLine? (hline : Field.ofLine? line = some (Key.headerSize.toList, value))
    (hvalue : Text.unsigned64? (String.ofList value) = some size) : Declares line size := by
  obtain ⟨hne, hword⟩ := Text.word_of_natBelow? hvalue
  refine ⟨value, [], ?_, hvalue⟩
  rw [Field.words_of_ofLine? hline, Text.words_of_word hne hword]

theorem declares_of_front {front numeral : List Char} {blank : Char}
    (hfront : Text.words front = [Key.headerSize.toList]) (hblank : Text.isBlank blank = true)
    (hnumber : Text.unsigned64? (String.ofList numeral) = some size) :
    Declares (front ++ blank :: numeral) size := by
  obtain ⟨hne, hword⟩ := Text.word_of_natBelow? hnumber
  refine ⟨numeral, [], ?_, hnumber⟩
  rw [Text.words_append_blank hblank, hfront, Text.words_of_word hne hword, List.singleton_append]

/-- The line ends with its number `size`, and the text `tail` continues the number. -/
def NumberContinued (line tail : List Char) (size : Nat) : Prop :=
  ∃ front blank numeral digit rest, line = front ++ blank :: numeral ∧
    Text.words front = [Key.headerSize.toList] ∧ Text.isBlank blank = true ∧
    Text.unsigned64? (String.ofList numeral) = some size ∧
    tail = digit :: rest ∧ Text.isDecimalDigit digit = true

theorem Declares.unsigned64?_of_continued {front numeral tail : List Char} {blank : Char}
    (hfront : Text.words front = [Key.headerSize.toList]) (hblank : Text.isBlank blank = true)
    (hnumber : Text.unsigned64? (String.ofList numeral) = some size)
    (hlonger : Declares (front ++ blank :: numeral ++ tail) found) :
    Text.unsigned64? (String.ofList (numeral ++ Text.firstWord tail)) = some found := by
  obtain ⟨longer, others, hwords, hresult⟩ := hlonger
  obtain ⟨hne, hword⟩ := Text.word_of_natBelow? hnumber
  rw [List.append_assoc, List.cons_append, Text.words_continued hblank hne hword, hfront,
    List.singleton_append, List.cons.injEq, List.cons.injEq] at hwords
  rw [hwords.2.1]
  exact hresult

/-- A word that continues a number starts with a digit. -/
theorem exists_digit_of_continued {numeral tail : List Char}
    (hnumber : Text.unsigned64? (String.ofList numeral) = some size)
    (hlonger : Text.unsigned64? (String.ofList (numeral ++ Text.firstWord tail)) = some found)
    (hnext : Text.firstWord tail ≠ []) :
    ∃ digit rest, tail = digit :: rest ∧ Text.isDecimalDigit digit = true := by
  obtain ⟨digit, word, hword⟩ := List.exists_cons_of_ne_nil hnext
  obtain ⟨behind, hbehind⟩ : Text.firstWord tail <+: tail := List.takeWhile_prefix _
  obtain ⟨hdigits, _⟩ := Text.of_natBelow?_append hnumber hlonger (by decide)
  refine ⟨digit, word ++ behind, ?_, hdigits digit (hword ▸ List.mem_cons_self)⟩
  rw [← hbehind, hword, List.cons_append]

/-- A line that is continued declares the same number, or one that has more digits. -/
theorem Declares.of_append {tail : List Char} (hline : Declares line size)
    (hlonger : Declares (line ++ tail) found) :
    (¬NumberContinued line tail size ∧ found = size) ∨
      (NumberContinued line tail size ∧ 10 * size ≤ found) := by
  by_cases hcontinued : NumberContinued line tail size
  · refine Or.inr ⟨hcontinued, ?_⟩
    obtain ⟨front, blank, numeral, digit, rest, rfl, hfront, hblank, hnumber, rfl, hdigit⟩ := hcontinued
    have hfirst : Text.firstWord (digit :: rest) ≠ [] := by
      have hnot := Text.isBlank_of_isDecimalDigit hdigit
      rw [Text.firstWord, List.takeWhile_cons_of_pos (by simp [hnot])]
      exact List.cons_ne_nil _ _
    have hfound := hlonger.unsigned64?_of_continued hfront hblank hnumber
    exact (Text.of_natBelow?_append hnumber hfound (by decide)).2 hfirst
  · refine Or.inl ⟨hcontinued, ?_⟩
    obtain ⟨numeral, others, hwords, hnumber⟩ := hline
    rcases Text.words_append_cases hwords tail with ⟨more, hkept⟩ | ⟨front, blank, rfl, hblank, hfront⟩
    · have hkeeps : Declares (line ++ tail) size := ⟨numeral, more, hkept, hnumber⟩
      exact hlonger.unique hkeeps
    · have hfound := hlonger.unsigned64?_of_continued hfront hblank hnumber
      by_cases hnext : Text.firstWord tail = []
      · rw [hnext, List.append_nil, hnumber] at hfound
        exact (Option.some.inj hfound).symm
      · obtain ⟨digit, rest, htail, hdigit⟩ := exists_digit_of_continued hnumber hfound hnext
        exact absurd ⟨front, blank, numeral, digit, rest, rfl, hfront, hblank, hnumber, htail, hdigit⟩
          hcontinued

/-! ## The first line with the size -/

variable {bytes more : Bytes} {before early : List (List Char)}

/-- Of the text in some bytes, `line` is the first line with `HDR_SIZE`, and `before` are the
lines ahead of it. -/
def FirstSizeLine (bytes : Bytes) (before : List (List Char)) (line : List Char) : Prop :=
  (∃ after, Text.pieces lineFeed bytes.untilNul = (before ++ [line]).map Utf8.encode ++ after) ∧
    (∀ other ∈ before, ¬IsSizeLine other) ∧ IsSizeLine line

theorem exists_first_of_sizeOfLines {lines : List Bytes} (hscan : sizeOfLines lines = .ok size) :
    ∃ before line after, lines = (before ++ [line]).map Utf8.encode ++ after ∧
      (∀ other ∈ before, ¬IsSizeLine other) ∧ sizeOfLine? line = some (.ok size) := by
  induction lines with
  | nil => simp [sizeOfLines] at hscan
  | cons piece lines ih =>
      rw [sizeOfLines] at hscan
      split at hscan
      · simp at hscan
      next line hline =>
      have hpiece := Utf8.decode_eq_ok.mp hline
      cases hresult : sizeOfLine? line with
      | some result =>
          rw [hresult, Option.getD_some] at hscan
          refine ⟨[], line, lines, ?_, List.forall_mem_nil _, hscan ▸ hresult⟩
          rw [List.nil_append, List.map_singleton, List.singleton_append, hpiece]
      | none =>
          rw [hresult, Option.getD_none] at hscan
          obtain ⟨before, found, after, hafter, hbefore, hfound⟩ := ih hscan
          refine ⟨line :: before, found, after, ?_, ?_, hfound⟩
          · rw [List.cons_append, List.map_cons, List.cons_append, ← hafter, hpiece]
          · exact List.forall_mem_cons.mpr ⟨fun hsizeLine => sizeOfLine?_ne_none hsizeLine hresult,
              hbefore⟩

theorem exists_first_of_scanSize (hscan : scanSize bytes = .ok size) :
    ∃ before line, FirstSizeLine bytes before line ∧ Declares line size ∧ size ≠ 0 := by
  obtain ⟨before, line, after, hlines, hbefore, hline⟩ := exists_first_of_sizeOfLines hscan
  obtain ⟨hdeclares, hne⟩ := declares_of_sizeOfLine? hline
  exact ⟨before, line, ⟨⟨after, hlines⟩, hbefore, hdeclares.isSizeLine⟩, hdeclares, hne⟩

/-- Lines without the field and then one with it stand at one place only. -/
theorem first_eq {after rest : List Bytes} {piece : Bytes}
    (hsame : before.map Utf8.encode ++ piece :: rest = (early ++ [line]).map Utf8.encode ++ after)
    (hbefore : ∀ other ∈ before, ¬IsSizeLine other) (hearly : ∀ other ∈ early, ¬IsSizeLine other)
    (hpiece : ∀ other, piece = Utf8.encode other → IsSizeLine other) (hline : IsSizeLine line) :
    early = before ∧ Utf8.encode line = piece := by
  induction before generalizing early with
  | nil =>
      cases early with
      | nil => exact ⟨rfl, (List.cons.inj hsame).1.symm⟩
      | cons other early =>
          have hother := hpiece other (List.cons.inj hsame).1
          exact absurd hother (hearly other List.mem_cons_self)
  | cons other before ih =>
      cases early with
      | nil =>
          have hother := Utf8.encode_injective (List.cons.inj hsame).1
          exact absurd (hother ▸ hline) (hbefore other List.mem_cons_self)
      | cons first early =>
          obtain ⟨hfirst, hrest⟩ := List.cons.inj hsame
          obtain ⟨rfl, hfound⟩ := ih hrest
            (fun found hfound => hbefore found (List.mem_cons_of_mem _ hfound))
            (fun found hfound => hearly found (List.mem_cons_of_mem _ hfound))
          exact ⟨congrArg (· :: early) (Utf8.encode_injective hfirst).symm, hfound⟩

/-! ## Reading on -/

/-- The bytes end on the line `line`, and no byte zero has ended the text before. -/
def EndsOnLine (bytes : Bytes) (before : List (List Char)) (line : List Char) : Prop :=
  (0 : UInt8) ∉ bytes ∧ Text.pieces lineFeed bytes = (before ++ [line]).map Utf8.encode

theorem EndsOnLine.firstSizeLine (hends : EndsOnLine bytes before line)
    (hbefore : ∀ other ∈ before, ¬IsSizeLine other) (hline : IsSizeLine line) :
    FirstSizeLine bytes before line := by
  refine ⟨⟨[], ?_⟩, hbefore, hline⟩
  rw [Bytes.untilNul_of_not_mem hends.1, hends.2, List.append_nil]

theorem FirstSizeLine.unique (hfirst : FirstSizeLine bytes before line)
    (hother : FirstSizeLine bytes early other) : early = before ∧ other = line := by
  obtain ⟨⟨after, hlines⟩, hbefore, hline⟩ := hfirst
  obtain ⟨⟨rest, hsame⟩, hearly, hsizeLine⟩ := hother
  rw [hlines, List.map_append, List.map_singleton, List.append_assoc, List.singleton_append] at hsame
  have hpiece : ∀ found, Utf8.encode line = Utf8.encode found → IsSizeLine found :=
    fun found hfound => Utf8.encode_injective hfound ▸ hline
  obtain ⟨hearly, hfound⟩ := first_eq hsame hbefore hearly hpiece hsizeLine
  exact ⟨hearly, Utf8.encode_injective hfound⟩

/-- The line that the bytes do not end on is not touched by what follows them. -/
theorem FirstSizeLine.eq_of_append (hshort : FirstSizeLine bytes before line)
    (hends : ¬EndsOnLine bytes before line) (hlong : FirstSizeLine (bytes ++ more) early other) :
    other = line := by
  by_cases hnul : (0 : UInt8) ∈ bytes
  · have hsame : FirstSizeLine bytes early other := by
      unfold FirstSizeLine at hlong
      rwa [Bytes.untilNul_append_of_mem hnul] at hlong
    exact (hshort.unique hsame).2
  · obtain ⟨⟨after, hlines⟩, hbefore, hline⟩ := hshort
    rw [Bytes.untilNul_of_not_mem hnul] at hlines
    have hmore : after ≠ [] := by
      rintro rfl
      exact hends ⟨hnul, by rw [hlines, List.append_nil]⟩
    -- the lines up to this one are whole, and are cut off again
    obtain ⟨rest, hbytes, _⟩ := Text.of_pieces_eq_append hlines hmore
    have hfeeds : ∀ piece ∈ (before ++ [line]).map Utf8.encode, lineFeed ∉ piece := fun piece hpiece =>
      Text.not_mem_of_mem_pieces (hlines ▸ List.mem_append_left _ hpiece)
    have hlonger : FirstSizeLine (bytes ++ more) before line := by
      refine ⟨⟨Text.pieces lineFeed (rest ++ more.untilNul), ?_⟩, hbefore, hline⟩
      rw [Bytes.untilNul_append hnul, hbytes, List.append_assoc, Text.pieces_terminated hfeeds]
    exact (hlonger.unique hlong).2

/-- A line that declares a size is still a line with `HDR_SIZE` when it is continued. -/
theorem Declares.isSizeLine_append (hline : Declares line size) (tail : List Char) :
    IsSizeLine (line ++ tail) := by
  obtain ⟨numeral, others, hwords, _⟩ := hline
  rw [isSizeLine_iff_words]
  rcases Text.words_append_cases hwords tail with ⟨others, hsame⟩ | ⟨front, blank, rfl, hblank, hkey⟩
  · exact ⟨_, hsame⟩
  · rw [List.append_assoc, List.cons_append, Text.words_append_blank hblank, hkey]
    exact ⟨_, rfl⟩

/-- The line that the bytes end on is continued by what follows them. -/
theorem EndsOnLine.of_append (hends : EndsOnLine bytes before line)
    (hbefore : ∀ other ∈ before, ¬IsSizeLine other) (hdeclares : Declares line size)
    (hlong : FirstSizeLine (bytes ++ more) early other) :
    ∃ tail, other = line ++ tail ∧
      (Text.pieces lineFeed more.untilNul).head? = some (Utf8.encode tail) := by
  obtain ⟨hnul, hlines⟩ := hends
  obtain ⟨⟨after, hboth⟩, hearly, hother⟩ := hlong
  obtain ⟨parts, last, first, others, _, hpieces, hnext, happend⟩ :=
    Text.pieces_append lineFeed bytes more.untilNul
  rw [hlines, List.map_append, List.map_singleton] at hpieces
  obtain ⟨rfl, hlast⟩ := List.append_inj' hpieces rfl
  obtain rfl := (List.cons.inj hlast).1
  rw [Bytes.untilNul_append hnul, happend] at hboth
  have hpiece : ∀ found, Utf8.encode line ++ first = Utf8.encode found → IsSizeLine found := by
    intro found hfound
    obtain ⟨tail, rfl, _⟩ := Utf8.of_encode_append_eq hfound
    exact hdeclares.isSizeLine_append tail
  obtain ⟨_, hfound⟩ := first_eq hboth hbefore hearly hpiece hother
  obtain ⟨tail, htail, rfl⟩ := Utf8.of_encode_append_eq hfound.symm
  exact ⟨tail, htail, by rw [hnext, List.head?_cons]⟩

/-! ## Cutting the number -/

/-- The text ends within the number on its first line with `HDR_SIZE`, or right behind it. -/
def EndsInSize (text : List Char) : Prop :=
  ∃ before front blank numeral size, Text.pieces '\n' text = before ++ [front ++ blank :: numeral] ∧
    (∀ other ∈ before, ¬IsSizeLine other) ∧ Text.words front = [Key.headerSize.toList] ∧
    Text.isBlank blank = true ∧ Text.unsigned64? (String.ofList numeral) = some size

/-- The number on the first line with `HDR_SIZE` is cut: its first digits end the bytes
`leading`, the next one starts the bytes `following`. -/
def SizeCut (leading following : Bytes) : Prop :=
  ∃ text digit more, leading = Utf8.encode text ∧ '\x00' ∉ text ∧ EndsInSize text ∧
    following = Utf8.encodeChar digit ++ more ∧ Text.isDecimalDigit digit = true

theorem toNat_of_isDecimalDigit {digit : Char} (hdigit : Text.isDecimalDigit digit = true) :
    0x30 ≤ digit.toNat ∧ digit.toNat ≤ 0x39 := by
  simp only [Text.isDecimalDigit, Bool.and_eq_true, decide_eq_true_eq] at hdigit
  exact hdigit

theorem encodeChar_digit {digit : Char} (hdigit : Text.isDecimalDigit digit = true) :
    Utf8.encodeChar digit = [UInt8.ofNat digit.toNat] := by
  have hrange := toNat_of_isDecimalDigit hdigit
  exact Utf8.encodeChar_of_toNat_lt (by omega)

theorem SizeCut.exists_digit (hcut : SizeCut bytes more) :
    ∃ b rest, more = b :: rest ∧ 0x30 ≤ b.toNat ∧ b.toNat ≤ 0x39 := by
  obtain ⟨_, digit, rest, _, _, _, hmore, hdigit⟩ := hcut
  have hrange := toNat_of_isDecimalDigit hdigit
  have hbyte : (UInt8.ofNat digit.toNat).toNat = digit.toNat := Utf8.toNat_byte (by omega)
  rw [encodeChar_digit hdigit, List.singleton_append] at hmore
  exact ⟨_, rest, hmore, by omega, by omega⟩

/-- How much of what follows is there does not matter. -/
theorem sizeCut_take {reach : Nat} (hreach : 0 < reach) :
    SizeCut bytes (more.take reach) ↔ SizeCut bytes more := by
  obtain ⟨reach, rfl⟩ := Nat.exists_eq_succ_of_ne_zero (Nat.ne_of_gt hreach)
  constructor
  · rintro ⟨text, digit, rest, hbytes, hnul, hends, hmore, hdigit⟩
    refine ⟨text, digit, rest ++ more.drop (reach + 1), hbytes, hnul, hends, ?_, hdigit⟩
    rw [← List.append_assoc, ← hmore, List.take_append_drop]
  · rintro ⟨text, digit, rest, hbytes, hnul, hends, hmore, hdigit⟩
    refine ⟨text, digit, rest.take reach, hbytes, hnul, hends, ?_, hdigit⟩
    rw [hmore, encodeChar_digit hdigit, List.singleton_append, List.take_succ_cons,
      List.singleton_append]

theorem not_mem_singleton_digit {digit c : Char} (hdigit : Text.isDecimalDigit digit = true)
    (hc : Text.isDecimalDigit c = false) : c ∉ [digit] := by
  intro hmem
  rw [List.mem_singleton.mp hmem, hdigit] at hc
  simp at hc

/-- A digit that follows is the first character of what continues the line. -/
theorem exists_digit_iff {tail : List Char} {digit : Char}
    (htail : (Text.pieces lineFeed more.untilNul).head? = some (Utf8.encode tail))
    (hdigit : Text.isDecimalDigit digit = true) :
    (∃ rest, more = Utf8.encodeChar digit ++ rest) ↔ ∃ rest, tail = digit :: rest := by
  have hsingle : Utf8.encode [digit] = Utf8.encodeChar digit := by
    rw [Utf8.encode_cons, Utf8.encode, List.flatMap_nil, List.append_nil]
  constructor
  · rintro ⟨rest, rfl⟩
    have hnul : '\x00' ∉ [digit] := not_mem_singleton_digit hdigit (by decide)
    have hfeed : '\n' ∉ [digit] := not_mem_singleton_digit hdigit (by decide)
    rw [← hsingle, Utf8.untilNul_encode_append hnul,
      Text.pieces_append_of_not_mem (Utf8.lineFeed_not_mem_encode hfeed),
      List.head?_modifyHead] at htail
    obtain ⟨first, _, hfirst⟩ := Option.map_eq_some_iff.mp htail
    obtain ⟨behind, rfl, _⟩ := Utf8.of_encode_append_eq hfirst
    exact ⟨behind, rfl⟩
  · rintro ⟨rest, rfl⟩
    obtain ⟨behind, hbehind⟩ := Text.prefix_of_head?_pieces htail
    refine ⟨Utf8.encode rest ++ behind ++ more.dropWhile (· != 0), ?_⟩
    calc more
        = more.untilNul ++ more.dropWhile (· != 0) := List.takeWhile_append_dropWhile.symm
      _ = Utf8.encodeChar digit ++ (Utf8.encode rest ++ behind ++ more.dropWhile (· != 0)) := by
          rw [← hbehind, Utf8.encode_cons, List.append_assoc, List.append_assoc, List.append_assoc]

theorem EndsOnLine.of_encode {text : List Char} (hnul : '\x00' ∉ text)
    (hlines : Text.pieces '\n' text = before ++ [line]) :
    EndsOnLine (Utf8.encode text) before line := by
  refine ⟨fun hzero => hnul (Utf8.mem_of_mem_encode (by decide) hzero), ?_⟩
  rw [Utf8.pieces_encode, hlines]

/-- How the line that the bytes end on, and what continues it, look if the number is cut. -/
theorem sizeCut_iff {tail : List Char} (hends : EndsOnLine bytes before line)
    (hbefore : ∀ other ∈ before, ¬IsSizeLine other) (hdeclares : Declares line size)
    (htail : (Text.pieces lineFeed more.untilNul).head? = some (Utf8.encode tail)) :
    SizeCut bytes more ↔ NumberContinued line tail size := by
  constructor
  · rintro ⟨text, digit, following, rfl, hnul, ⟨early, front, blank, numeral, found, hlines, hearly,
      hfront, hblank, hnumber⟩, hmore, hdigit⟩
    have hsame : early ++ [front ++ blank :: numeral] = before ++ [line] := by
      rw [← hlines]
      apply (List.map_inj_right fun _ _ => Utf8.encode_injective).mp
      rw [← Utf8.pieces_encode, hends.2]
    obtain ⟨_, hline⟩ := List.append_inj' hsame rfl
    obtain rfl := (List.cons.inj hline).1
    obtain rfl := hdeclares.unique (declares_of_front hfront hblank hnumber)
    obtain ⟨rest, hrest⟩ := (exists_digit_iff htail hdigit).mp ⟨following, hmore⟩
    exact ⟨front, blank, numeral, digit, rest, rfl, hfront, hblank, hnumber, hrest, hdigit⟩
  · rintro ⟨front, blank, numeral, digit, rest, rfl, hfront, hblank, hnumber, hrest, hdigit⟩
    obtain ⟨text, rfl, hlines⟩ := Utf8.of_pieces_eq_map hends.2
    obtain ⟨following, hmore⟩ := (exists_digit_iff htail hdigit).mpr ⟨rest, hrest⟩
    have hnul : '\x00' ∉ text := by
      intro hmem
      exact hends.1 (List.mem_flatMap.mpr ⟨_, hmem, List.mem_singleton.mpr rfl⟩)
    exact ⟨text, digit, following, rfl, hnul,
      ⟨before, front, blank, numeral, size, hlines, hbefore, hfront, hblank, hnumber⟩, hmore, hdigit⟩

/-- **Reading on finds the same number, unless the number was cut.**  A number that was cut
is at least ten times as large when it is read on. -/
theorem declared_of_append (hshort : FirstSizeLine bytes before line)
    (hdeclares : Declares line size) (hlong : FirstSizeLine (bytes ++ more) early other)
    (hlonger : Declares other found) :
    (¬SizeCut bytes more ∧ found = size) ∨ (SizeCut bytes more ∧ 10 * size ≤ found) := by
  by_cases hends : EndsOnLine bytes before line
  · obtain ⟨tail, rfl, htail⟩ := hends.of_append hshort.2.1 hdeclares hlong
    rw [sizeCut_iff hends hshort.2.1 hdeclares htail]
    exact hdeclares.of_append hlonger
  · obtain rfl := hshort.eq_of_append hends hlong
    refine Or.inl ⟨?_, hlonger.unique hdeclares⟩
    rintro ⟨text, digit, following, rfl, hnul, ⟨_, front, blank, numeral, _, hlines, hearly, hfront,
      hblank, hnumber⟩, _⟩
    have hcutLine := EndsOnLine.of_encode hnul hlines
    have hfirst := hcutLine.firstSizeLine hearly
      (declares_of_front hfront hblank hnumber).isSizeLine
    obtain ⟨rfl, rfl⟩ := hshort.unique hfirst
    exact hends hcutLine

end Header

/-! ## Streams of which the first bytes are read -/

namespace Capture

variable {content : Bytes} {near far hint size found : Nat} {before early : List (List Char)}
  {line other : List Char}

/-- The first `reach` bytes of a stream end within the number that declares the size of its
header block. -/
def CutsSize (reach : Nat) (content : Bytes) : Prop :=
  Header.SizeCut (content.take reach) (content.drop reach)

theorem not_cutsSize {reach : Nat} {b : UInt8} {rest : Bytes} (hnext : content.drop reach = b :: rest)
    (hother : b.toNat < 0x30 ∨ 0x39 < b.toNat) : ¬CutsSize reach content := by
  intro hcut
  obtain ⟨digit, after, hdigit, hrange⟩ := hcut.exists_digit
  rw [hnext, List.cons.injEq] at hdigit
  rw [hdigit.1] at hother
  omega

/-- Reading further into a stream finds the same number, unless it was cut. -/
theorem declared_cases (hlt : near < far)
    (hnear : Header.FirstSizeLine (content.take near) before line)
    (hsize : Header.Declares line size)
    (hfar : Header.FirstSizeLine (content.take far) early other)
    (hfound : Header.Declares other found) :
    (¬CutsSize near content ∧ found = size) ∨ (CutsSize near content ∧ 10 * size ≤ found) := by
  have hsplit : content.take far = content.take near ++ (content.drop near).take (far - near) := by
    rw [← List.take_add, Nat.add_sub_cancel' (Nat.le_of_lt hlt)]
  have hmore : 0 < far - near := Nat.sub_pos_of_lt hlt
  rw [hsplit] at hfar
  rw [CutsSize, ← Header.sizeCut_take hmore]
  exact Header.declared_of_append hnear hsize hfar hfound

end Capture

end VoltageCapture
