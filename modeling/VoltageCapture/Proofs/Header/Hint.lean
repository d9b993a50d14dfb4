import Mathlib
import VoltageCapture.Proofs.Header.Cut

/-!
# Reading with a hint

A header block is read by a hint at its size: so many bytes are read at first, and the size
is looked for among them.  The hint does not change what is read, unless it ends within the
number that declares the size: `Header.readPrefixed_same_iff` says that this is the only way
in which two hints give different headers or payloads.

The size that was found and the size that the header declares may differ as well
(`Header.declaredSize_eq_of_readPrefixed`): if the number is cut by the hint, if it is cut by
the end of the block, or if lines of the block declare different sizes.
-/

namespace VoltageCapture

namespace Capture

variable {content : Bytes} {hint other size found : Nat}

/-- No single byte holds a line that declares a size. -/
theorem pos_of_headerSize (hsize : headerSize hint content = .ok size) : 0 < hint := by
  apply Nat.pos_of_ne_zero
  rintro rfl
  rw [headerSize, Nat.zero_max] at hsize
  obtain ⟨before, line, ⟨⟨after, hlines⟩, _, hline⟩, _⟩ := Header.exists_first_of_scanSize hsize
  obtain ⟨value, hfield⟩ := Header.isSizeLine_iff.mp hline
  have hmem : ∀ c ∈ Key.headerSize.toList, ∀ b ∈ Utf8.encodeChar c, b ∈ content.take 1 := by
    intro c hc b hb
    have hchar : c ∈ line := Field.mem_of_ofLine? hfield (Or.inl hc)
    have hpiece : Utf8.encode line ∈ Text.pieces Header.lineFeed (Bytes.untilNul (content.take 1)) := by
      rw [hlines, List.map_append]
      exact List.mem_append_left _ (List.mem_append_right _ List.mem_cons_self)
    exact (List.takeWhile_sublist _).subset
      (Text.mem_of_mem_pieces hpiece (List.mem_flatMap.mpr ⟨c, hchar, hb⟩))
  have hfirst := hmem 'H' (by decide) 0x48 (by decide)
  have hsecond := hmem 'D' (by decide) 0x44 (by decide)
  cases content with
  | nil => exact absurd hfirst List.not_mem_nil
  | cons b content =>
      rw [List.take_succ_cons, List.take_zero, List.mem_singleton] at hfirst hsecond
      exact absurd (hfirst.trans hsecond.symm) (by decide)

theorem headerSize_cases (hlt : hint < other) (hsize : headerSize hint content = .ok size)
    (hfound : headerSize other content = .ok found) :
    (¬CutsSize hint content ∧ found = size) ∨ (CutsSize hint content ∧ size < found) := by
  have hhint := pos_of_headerSize hsize
  rw [headerSize, Nat.max_eq_left (by omega)] at hsize hfound
  obtain ⟨_, _, hnear, hdeclares, hne⟩ := Header.exists_first_of_scanSize hsize
  obtain ⟨_, _, hfar, hlonger, _⟩ := Header.exists_first_of_scanSize hfound
  rcases declared_cases hlt hnear hdeclares hfar hlonger with hsame | ⟨hcut, hten⟩
  · exact Or.inl hsame
  · exact Or.inr ⟨hcut, by omega⟩

end Capture

namespace Header

variable {first second firstRest secondRest : Reader} {hint other size : Nat}
  {header found : Header} {extra more : Bytes}

/-! ## Two hints -/

private theorem readPrefixed_same_of_lt (hfirst : first.Reliable) (hsecond : second.Reliable)
    (hunread : second.unread = first.unread)
    (hread : readPrefixed first hint = (.ok (header, extra), firstRest))
    (hother : readPrefixed second other = (.ok (found, more), secondRest)) (hlt : hint < other) :
    (found = header ∧ more ++ secondRest.unread = extra ++ firstRest.unread) ↔
      ¬Capture.CutsSize hint first.unread := by
  obtain ⟨⟨size, hsize, hle⟩, hheader, hpayload, _⟩ := of_readPrefixed hfirst hread
  obtain ⟨⟨longer, hlonger, hmax⟩, hfound, hmore, _⟩ := of_readPrefixed hsecond hother
  rw [hunread] at hlonger hmax hfound hmore
  rw [hmore, hpayload, Capture.payload_eq hsize, Capture.payload_eq hlonger]
  rw [Capture.headerBlock_eq hsize] at hheader
  rw [Capture.headerBlock_eq hlonger] at hfound
  rcases Capture.headerSize_cases hlt hsize hlonger with ⟨hcut, rfl⟩ | ⟨hcut, hless⟩
  · rw [hheader] at hfound
    exact iff_of_true ⟨(Except.ok.inj hfound).symm, rfl⟩ hcut
  · -- the larger number leaves a shorter payload
    refine iff_of_false ?_ (not_not_intro hcut)
    rintro ⟨_, hsame⟩
    have hlength := congrArg List.length hsame
    rw [List.length_drop, List.length_drop] at hlength
    omega

/-- **A hint changes nothing, unless it cuts the size.**  Two hints give the same header and
the same payload exactly if the smaller one does not end within the number that declares the
size of the block. -/
theorem readPrefixed_same_iff (hfirst : first.Reliable) (hsecond : second.Reliable)
    (hunread : second.unread = first.unread)
    (hread : readPrefixed first hint = (.ok (header, extra), firstRest))
    (hother : readPrefixed second other = (.ok (found, more), secondRest)) :
    (found = header ∧ more ++ secondRest.unread = extra ++ firstRest.unread) ↔
      hint = other ∨ ¬Capture.CutsSize (min hint other) first.unread := by
  rcases Nat.lt_trichotomy hint other with hlt | rfl | hlt
  · rw [readPrefixed_same_of_lt hfirst hsecond hunread hread hother hlt,
      Nat.min_eq_left (Nat.le_of_lt hlt)]
    exact ⟨Or.inr, fun hcases => hcases.resolve_left (Nat.ne_of_lt hlt)⟩
  · obtain ⟨_, hheader, hpayload, _⟩ := of_readPrefixed hfirst hread
    obtain ⟨_, hfound, hmore, _⟩ := of_readPrefixed hsecond hother
    rw [hunread, hheader] at hfound
    rw [hunread, ← hpayload] at hmore
    exact iff_of_true ⟨(Except.ok.inj hfound).symm, hmore⟩ (Or.inl rfl)
  · have hiff := readPrefixed_same_of_lt hsecond hfirst hunread.symm hother hread hlt
    rw [hunread] at hiff
    rw [Nat.min_eq_right (Nat.le_of_lt hlt), eq_comm, @eq_comm _ (more ++ _), hiff]
    exact ⟨Or.inr, fun hcases => hcases.resolve_left (Nat.ne_of_gt hlt)⟩

/-- A capture whose size stands in the bytes nine and ten. -/
def sizedCapture : Bytes :=
  (Utf8.bytes "HDR_SIZE 64\nOBS_OFFSET 7\n").padTo 64 ++ Utf8.bytes "payload"

/-- A hint right behind the size and one that reaches to the end give the same. -/
theorem readPrefixed_same_sizedCapture :
    ∃ header extra more firstRest secondRest,
      readPrefixed (.stuttering sizedCapture 5 2) 11 = (.ok (header, extra), firstRest) ∧
        readPrefixed (.ofBytes sizedCapture) 71 = (.ok (header, more), secondRest) ∧
        more ++ secondRest.unread = extra ++ firstRest.unread := by
  have hread : (readPrefixed (.stuttering sizedCapture 5 2) 11).1 =
      .ok (⟨[⟨"HDR_SIZE", "64"⟩, ⟨"OBS_OFFSET", "7"⟩]⟩, []) := by cbv
  have hother : (readPrefixed (.ofBytes sizedCapture) 71).1 =
      .ok (⟨[⟨"HDR_SIZE", "64"⟩, ⟨"OBS_OFFSET", "7"⟩]⟩, Utf8.bytes "payload") := by cbv
  have hwhole : ¬Capture.CutsSize 11 sizedCapture :=
    Capture.not_cutsSize (show sizedCapture.drop 11 = 0x0A :: sizedCapture.drop 12 by decide) (by decide)
  have hsame := (readPrefixed_same_iff (.stuttering sizedCapture (by decide) 2) (.ofBytes sizedCapture) rfl
    (Prod.ext hread rfl) (Prod.ext hother rfl)).mpr (Or.inr hwhole)
  exact ⟨_, _, _, _, _, Prod.ext hread rfl, Prod.ext hother rfl, hsame.2⟩

/-- A hint of 10 bytes shows the first digit of the size only, and is read as a header of six
bytes. -/
theorem readPrefixed_hint_matters :
    ¬∀ (content : Bytes) (hint other : Nat) (header found : Header) (extra more : Bytes)
        (firstRest secondRest : Reader),
      readPrefixed (.ofBytes content) hint = (.ok (header, extra), firstRest) →
      readPrefixed (.ofBytes content) other = (.ok (found, more), secondRest) →
      found.fields = header.fields ∧ more ++ secondRest.unread = extra ++ firstRest.unread := by
  intro hall
  have hread : (readPrefixed (.ofBytes sizedCapture) 10).1 =
      .ok (⟨[⟨"HDR_SI", ""⟩]⟩, Utf8.bytes "ZE 6") := by cbv
  have hother : (readPrefixed (.ofBytes sizedCapture) 64).1 =
      .ok (⟨[⟨"HDR_SIZE", "64"⟩, ⟨"OBS_OFFSET", "7"⟩]⟩, []) := by cbv
  obtain ⟨hfields, _⟩ := hall _ _ _ _ _ _ _ _ _ (Prod.ext hread rfl) (Prod.ext hother rfl)
  exact absurd hfields (by decide)

/-! ## Two readings of the size -/

/-- The lines with `HDR_SIZE` in the text of a header block all declare the same size. -/
def SizesAgree (block : Bytes) : Prop :=
  ∃ text size, Utf8.decode block.untilNul = .ok text ∧
    ∀ line ∈ Text.pieces '\n' text, IsSizeLine line → Declares line size

/-- The size of a header is declared by some line of its block, so by the first one if they
agree. -/
theorem exists_first_of_ofBytes {block : Bytes} (hheader : ofBytes block = .ok header)
    (hsize : header.declaredSize = .ok size) (hagree : SizesAgree block) :
    ∃ before line, FirstSizeLine block before line ∧ Declares line size := by
  obtain ⟨text, agreed, htext, hagree⟩ := hagree
  have hparse : parse (String.ofList text) = .ok header := by
    rw [ofBytes, htext] at hheader
    exact hheader
  obtain ⟨value, hvalue, hnumber⟩ := of_unsigned64 hsize
  obtain ⟨field, hmem, hkey, rfl⟩ := exists_mem_of_value? hvalue
  obtain ⟨last, hlast, hparts, _⟩ := exists_line_of_parse hparse hmem
  rw [String.toList_ofList] at hlast
  rw [hkey] at hparts
  have hdeclares : Declares last size :=
    declares_of_ofLine? hparts (by rw [String.ofList_toList]; exact hnumber)
  obtain rfl := hdeclares.unique (hagree last hlast hdeclares.isSizeLine)
  -- the first line with the field is found by going through the lines
  cases hfind : (Text.pieces '\n' text).find? (IsSizeLine ·) with
  | none =>
      have hnone := List.find?_eq_none.mp hfind last hlast
      rw [decide_eq_true_eq] at hnone
      exact absurd hdeclares.isSizeLine hnone
  | some line =>
      obtain ⟨hline, before, after, hlines, hbefore⟩ := List.find?_eq_some_iff_append.mp hfind
      rw [decide_eq_true_eq] at hline
      refine ⟨before, line, ⟨⟨after.map Utf8.encode, ?_⟩, ?_, hline⟩, ?_⟩
      · rw [Utf8.decode_eq_ok.mp htext, Utf8.pieces_encode, hlines, List.map_append, List.map_append,
          List.map_cons, List.append_assoc]
        rfl
      · intro other hother
        have hnot := hbefore other hother
        rw [Bool.not_eq_true', decide_eq_false_iff_not] at hnot
        exact hnot
      · exact hagree line (hlines ▸ List.mem_append_right _ List.mem_cons_self) hline

/-- **The two readings of the size agree**, if the number is cut neither by the hint nor by
the end of the block, and the lines of the block that declare a size declare the same one.
The payload starts behind the size that was found in any case. -/
theorem declaredSize_eq_of_readPrefixed (hfirst : first.Reliable)
    (hread : readPrefixed first hint = (.ok (header, extra), firstRest))
    (hsize : header.declaredSize = .ok size) :
    ∃ taken, Capture.headerSize hint first.unread = .ok taken ∧ taken ≤ first.unread.length ∧
      ofBytes (first.unread.take taken) = .ok header ∧
      extra ++ firstRest.unread = first.unread.drop taken ∧
      (¬Capture.CutsSize hint first.unread → ¬Capture.CutsSize taken first.unread →
        SizesAgree (first.unread.take taken) → size = taken) := by
  obtain ⟨⟨taken, htaken, hle⟩, hheader, hpayload, _⟩ := of_readPrefixed hfirst hread
  rw [Capture.headerBlock_eq htaken] at hheader
  rw [Capture.payload_eq htaken] at hpayload
  refine ⟨taken, htaken, hle, hheader, hpayload, ?_⟩
  intro hwhole hend hagree
  have hhint := Capture.pos_of_headerSize htaken
  rw [Capture.headerSize, Nat.max_eq_left (by omega)] at htaken
  obtain ⟨_, _, hscanned, hfound, _⟩ := exists_first_of_scanSize htaken
  obtain ⟨_, _, hparsed, hdeclared⟩ := exists_first_of_ofBytes hheader hsize hagree
  rcases Nat.lt_trichotomy hint taken with hlt | rfl | hlt
  · rcases Capture.declared_cases hlt hscanned hfound hparsed hdeclared with ⟨_, hsame⟩ | ⟨hcut, _⟩
    · exact hsame
    · exact absurd hcut hwhole
  · obtain ⟨rfl, rfl⟩ := hscanned.unique hparsed
    exact hdeclared.unique hfound
  · rcases Capture.declared_cases hlt hparsed hdeclared hscanned hfound with ⟨_, hsame⟩ | ⟨hcut, _⟩
    · exact hsame.symm
    · exact absurd hcut hend

/-- A header that declares its size once, and is not cut, declares the size of its block. -/
theorem declaredSize_eq_sizedCapture :
    ∃ header extra rest size, readPrefixed (.ofBytes sizedCapture) 70 = (.ok (header, extra), rest) ∧
      header.declaredSize = .ok size ∧ extra ++ rest.unread = sizedCapture.drop size := by
  have hread : (readPrefixed (.ofBytes sizedCapture) 70).1 =
      .ok (⟨[⟨"HDR_SIZE", "64"⟩, ⟨"OBS_OFFSET", "7"⟩]⟩, Utf8.bytes "payloa") := by cbv
  have hsize : (Header.mk [⟨"HDR_SIZE", "64"⟩, ⟨"OBS_OFFSET", "7"⟩]).declaredSize = .ok 64 := by cbv
  have hscan : Capture.headerSize 70 sizedCapture = .ok 64 := by cbv
  obtain ⟨taken, htaken, _, _, hpayload, hsame⟩ :=
    declaredSize_eq_of_readPrefixed (.ofBytes sizedCapture) (Prod.ext hread rfl) hsize
  obtain rfl : 64 = taken := Except.ok.inj (hscan.symm.trans htaken)
  have hwhole : ¬Capture.CutsSize 70 sizedCapture :=
    Capture.not_cutsSize (show sizedCapture.drop 70 = [0x64] by decide) (by decide)
  have hend : ¬Capture.CutsSize 64 sizedCapture :=
    Capture.not_cutsSize (show sizedCapture.drop 64 = 0x70 :: sizedCapture.drop 65 by decide)
      (by decide)
  have hagree : SizesAgree (sizedCapture.take 64) := by
    refine ⟨"HDR_SIZE 64\nOBS_OFFSET 7\n".toList, 64, by cbv, ?_⟩
    have hlines : Text.pieces '\n' "HDR_SIZE 64\nOBS_OFFSET 7\n".toList =
        ["HDR_SIZE 64".toList, "OBS_OFFSET 7".toList, []] := by cbv
    rw [hlines]
    intro line hline hsizeLine
    rcases List.mem_cons.mp hline with rfl | hother
    · exact ⟨"64".toList, [], by cbv, by cbv⟩
    · have hnone : ∀ other ∈ ["OBS_OFFSET 7".toList, []], ¬IsSizeLine other := by decide
      exact absurd hsizeLine (hnone line hother)
  exact ⟨_, _, _, _, Prod.ext hread rfl, (hsame hwhole hend hagree) ▸ hsize, hpayload⟩

/-- A capture that declares its size twice. -/
def repeatedCapture : Bytes :=
  (Utf8.bytes "OBS_OFFSET 0\nHDR_SIZE 64\nHDR_SIZE 66\n").padTo 64 ++ Utf8.bytes "abcd"

/-- Of two lines with the size the first one is found and the last one counts, which puts the
start of the payload two bytes too far here. -/
theorem declaredSize_ne_repeatedCapture :
    ¬∀ (content : Bytes) (hint size : Nat) (header : Header) (extra : Bytes) (rest : Reader),
      readPrefixed (.ofBytes content) hint = (.ok (header, extra), rest) →
      header.declaredSize = .ok size →
      size ≤ content.length ∧ extra ++ rest.unread = content.drop size := by
  intro hall
  have hread : (readPrefixed (.ofBytes repeatedCapture) 68).1 =
      .ok (⟨[⟨"OBS_OFFSET", "0"⟩, ⟨"HDR_SIZE", "66"⟩]⟩, Utf8.bytes "abcd") := by cbv
  obtain ⟨_, hpayload⟩ := hall _ _ 66 _ _ _ (Prod.ext hread rfl) (by cbv)
  have hlength := congrArg List.length hpayload
  have hfour : (Utf8.bytes "abcd").length = 4 := by decide
  have htwo : (repeatedCapture.drop 66).length = 2 := by decide
  rw [List.length_append, hfour, htwo] at hlength
  omega

end Header

end VoltageCapture
