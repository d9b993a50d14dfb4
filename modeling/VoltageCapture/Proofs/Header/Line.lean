import VoltageCapture.Header.Prefixed
import VoltageCapture.Proofs.Text.Words

/-!
# Lines of a header

A line of header text is read in two ways.  `Field.ofLine?` takes it apart into a key and a
value; `Header.sizeOfLine?`, which is used before the size of the header is known, looks at
its words.  Both find the same key, and the words behind it are those of the value
(`Field.words_of_ofLine?`), so a line declares a size exactly if its key is `HDR_SIZE`.  A
key and a value of the form that lines give are read from every line on which they stand
between blanks (`Field.ofLine?_spaced`), so from the line that they are written as.
-/

namespace VoltageCapture

namespace Field

variable {line key value : List Char}

/-! ## The parts of a line -/

/-- What a line can have as its key: a word that does not make the line a comment. -/
structure IsKey (key : List Char) : Prop where
  ne_nil : key ≠ []
  isBlank_eq : ∀ c ∈ key, Text.isBlank c = false
  head_ne : key.head? ≠ some '#'

theorem isKey_of_ofLine? (hline : ofLine? line = some (key, value)) : IsKey key := by
  unfold ofLine? at hline
  split at hline
  · simp at hline
  · simp at hline
  · next c rest hcomment htrim =>
    simp only [Option.some.injEq, Prod.mk.injEq] at hline
    obtain ⟨rfl, _⟩ := hline
    have hc := (Text.trimmed_trim line).head c rest htrim
    have hword : Text.firstWord (c :: rest) = c :: Text.firstWord rest :=
      List.takeWhile_cons_of_pos (by simp [hc])
    refine ⟨?_, ?_, ?_⟩
    · rw [hword]
      exact List.cons_ne_nil _ _
    · intro d hd
      have hnot := (List.all_eq_true.mp List.all_takeWhile) d hd
      exact Bool.not_eq_true' _ ▸ hnot
    · rw [hword, List.head?_cons]
      rintro ⟨rfl⟩
      exact hcomment rfl

theorem trimmed_of_ofLine? (hline : ofLine? line = some (key, value)) : Text.Trimmed value := by
  unfold ofLine? at hline
  split at hline
  · simp at hline
  · simp at hline
  · simp only [Option.some.injEq, Prod.mk.injEq] at hline
    rw [← hline.2]
    exact Text.trimmed_trim _

theorem mem_of_ofLine? {c : Char} (hline : ofLine? line = some (key, value))
    (hmem : c ∈ key ∨ c ∈ value) : c ∈ line := by
  unfold ofLine? at hline
  split at hline
  · simp at hline
  · simp at hline
  · next htrim =>
    simp only [Option.some.injEq, Prod.mk.injEq] at hline
    obtain ⟨rfl, rfl⟩ := hline
    refine Text.mem_of_mem_trim (htrim ▸ ?_)
    rcases hmem with hkey | hvalue
    · exact (List.takeWhile_sublist _).subset hkey
    · exact (List.dropWhile_sublist _).subset (Text.mem_of_mem_trim hvalue)

/-- The first word of a line is its key, the others are the words of its value. -/
theorem words_of_ofLine? (hline : ofLine? line = some (key, value)) :
    Text.words line = key :: Text.words value := by
  unfold ofLine? at hline
  split at hline
  · simp at hline
  · simp at hline
  · next c rest _ htrim =>
    simp only [Option.some.injEq, Prod.mk.injEq] at hline
    obtain ⟨rfl, rfl⟩ := hline
    have hc := (Text.trimmed_trim line).head c rest htrim
    have hstart : Text.trimStart (c :: rest) = c :: rest :=
      List.dropWhile_cons_of_neg (by simp [hc])
    have hafter : Text.afterFirstWord (c :: rest) = Text.afterFirstWord rest :=
      List.dropWhile_cons_of_pos (by simp [hc])
    rw [← Text.words_trim, htrim, Text.words_of_trimStart_eq_cons hstart, Text.words_trim, hafter]

/-- A line that holds no field has no words, or starts with a word that makes it a comment. -/
theorem words_of_ofLine?_eq_none (hline : ofLine? line = none) :
    Text.words line = [] ∨ ∃ rest words, Text.words line = ('#' :: rest) :: words := by
  unfold ofLine? at hline
  split at hline
  · next htrim =>
    rw [← Text.words_trim, htrim]
    exact Or.inl (Text.words_of_trimStart_eq_nil rfl)
  · next rest htrim =>
    have hstart : Text.trimStart ('#' :: rest) = '#' :: rest := List.dropWhile_cons_of_neg (by decide)
    have hword : Text.firstWord ('#' :: rest) = '#' :: Text.firstWord rest :=
      List.takeWhile_cons_of_pos (by decide)
    rw [← Text.words_trim, htrim, Text.words_of_trimStart_eq_cons hstart, hword]
    exact Or.inr ⟨_, _, rfl⟩
  · simp at hline

/-! ## Writing a line -/

theorem ofLine?_of_trim_eq_cons {c : Char} {rest : List Char}
    (htrim : Text.trim line = c :: rest) (hc : c ≠ '#') :
    ofLine? line =
      some (Text.firstWord (c :: rest), Text.trim (Text.afterFirstWord (c :: rest))) := by
  unfold ofLine?
  split
  · next hnil =>
    rw [htrim] at hnil
    simp at hnil
  · next hcomment =>
    rw [htrim, List.cons.injEq] at hcomment
    exact absurd hcomment.1 hc
  · next hcons =>
    rw [htrim, List.cons.injEq] at hcons
    rw [hcons.1, hcons.2]

theorem IsKey.firstWord_eq (hkey : IsKey key) : Text.firstWord key = key := by
  have hall : ∀ c ∈ key, (!Text.isBlank c) = true := fun c hc => by simp [hkey.isBlank_eq c hc]
  rw [Text.firstWord, ← List.append_nil key, List.takeWhile_append_of_pos hall, List.takeWhile_nil]

theorem IsKey.afterFirstWord_eq (hkey : IsKey key) : Text.afterFirstWord key = [] := by
  have hall : ∀ c ∈ key, (!Text.isBlank c) = true := fun c hc => by simp [hkey.isBlank_eq c hc]
  rw [Text.afterFirstWord, ← List.append_nil key, List.dropWhile_append_of_pos hall,
    List.dropWhile_nil]

section Spaced

variable {lead gap trail : List Char} (hkey : IsKey key) (hvalue : Text.Trimmed value)
  (hlead : ∀ c ∈ lead, Text.isBlank c = true) (hgap : ∀ c ∈ gap, Text.isBlank c = true)
  (htrail : ∀ c ∈ trail, Text.isBlank c = true)

include hkey hvalue hlead hgap htrail

theorem trim_spaced :
    Text.trim (lead ++ (key ++ gap ++ value) ++ trail) =
      if value = [] then key else key ++ gap ++ value := by
  have hhead : ∀ c rest more, key ++ more = c :: rest → Text.isBlank c = false := by
    intro c rest more hcons
    obtain ⟨d, others, rfl⟩ := List.exists_cons_of_ne_nil hkey.ne_nil
    exact (List.cons.inj hcons).1 ▸ hkey.isBlank_eq d List.mem_cons_self
  split
  · next hempty =>
    have htrimmed : Text.Trimmed key :=
      ⟨fun c rest hcons => hhead c rest [] (by rw [List.append_nil, hcons]),
        fun front c happend =>
          hkey.isBlank_eq c (happend ▸ List.mem_append_right _ List.mem_cons_self)⟩
    rw [hempty, List.append_nil, ← List.append_assoc, List.append_assoc]
    exact Text.trim_of_trimmed htrimmed hlead (List.forall_mem_append.mpr ⟨hgap, htrail⟩)
  · next hne =>
    refine Text.trim_of_trimmed ⟨?_, ?_⟩ hlead htrail
    · intro c rest hcons
      rw [List.append_assoc] at hcons
      exact hhead c rest _ hcons
    · intro front c happend
      have hvalueEnd := List.dropLast_concat_getLast hne
      rw [← hvalueEnd, ← List.append_assoc] at happend
      have hlast := List.append_inj_right' happend rfl
      rw [List.cons.injEq] at hlast
      exact hvalue.last _ _ (hlast.1 ▸ hvalueEnd.symm)

/-- A key and a value are read from a line on which they stand between blanks. -/
theorem ofLine?_spaced (hapart : value ≠ [] → gap ≠ []) :
    ofLine? (lead ++ (key ++ gap ++ value) ++ trail) = some (key, value) := by
  have htrim := trim_spaced hkey hvalue hlead hgap htrail
  have hfirst := hkey.firstWord_eq
  have hafter := hkey.afterFirstWord_eq
  obtain ⟨c, rest, rfl⟩ := List.exists_cons_of_ne_nil hkey.ne_nil
  have hc : c ≠ '#' := by
    rintro rfl
    exact hkey.head_ne rfl
  by_cases hempty : value = []
  · rw [if_pos hempty] at htrim
    rw [ofLine?_of_trim_eq_cons htrim hc, hfirst, hafter, hempty]
    rfl
  · obtain ⟨blank, blanks, rfl⟩ := List.exists_cons_of_ne_nil (hapart hempty)
    have hstop : (!Text.isBlank blank) = false := by
      rw [hgap blank List.mem_cons_self, Bool.not_true]
    have hvalueTrim : Text.trim (blank :: (blanks ++ value)) = value := by
      have htrimmed := Text.trim_of_trimmed hvalue hgap (List.forall_mem_nil _)
      rwa [List.append_nil] at htrimmed
    have hline : Text.trim (lead ++ (c :: rest ++ blank :: blanks ++ value) ++ trail) =
        c :: (rest ++ blank :: (blanks ++ value)) := by
      rw [htrim, if_neg hempty, List.append_assoc]
      rfl
    rw [ofLine?_of_trim_eq_cons hline hc, ← List.cons_append, Text.firstWord,
      Text.takeWhile_append_stop hstop, Text.afterFirstWord, Text.dropWhile_append_stop hstop,
      ← Text.firstWord, ← Text.afterFirstWord, hfirst, hafter, List.nil_append, hvalueTrim]

end Spaced

/-- A key and a value are read back from the line that they are written as. -/
theorem ofLine?_written (hkey : IsKey key) (hvalue : Text.Trimmed value) :
    ofLine? (key ++ ' ' :: value) = some (key, value) := by
  have hblank : ∀ c ∈ [' '], Text.isBlank c = true := List.forall_mem_singleton.mpr (by decide)
  have hspaced := ofLine?_spaced hkey hvalue (List.forall_mem_nil _) hblank (List.forall_mem_nil _)
    fun _ => List.cons_ne_nil _ _
  rwa [List.nil_append, List.append_nil, List.append_assoc] at hspaced

end Field

namespace Header

variable {line value : List Char} {size : Nat}

/-! ## Lines that declare a size -/

/-- Whether the line holds the field `HDR_SIZE`. -/
def IsSizeLine (line : List Char) : Prop :=
  (Field.ofLine? line).map (·.1) = some Key.headerSize.toList

instance : DecidablePred IsSizeLine := fun _ => inferInstanceAs (Decidable (_ = _))

theorem isSizeLine_iff :
    IsSizeLine line ↔ ∃ value, Field.ofLine? line = some (Key.headerSize.toList, value) := by
  rw [IsSizeLine, Option.map_eq_some_iff]
  constructor
  · rintro ⟨⟨key, value⟩, hline, rfl⟩
    exact ⟨value, hline⟩
  · rintro ⟨value, hline⟩
    exact ⟨_, hline, rfl⟩

theorem sizeOfLine?_eq_none (hline : ¬IsSizeLine line) : sizeOfLine? line = none := by
  cases hfield : Field.ofLine? line with
  | none =>
      rcases Field.words_of_ofLine?_eq_none hfield with hwords | ⟨rest, words, hwords⟩
      · simp only [sizeOfLine?, hwords]
      · have hother : String.ofList ('#' :: rest) ≠ Key.headerSize := by
          intro heq
          have hlist := congrArg String.toList heq
          rw [String.toList_ofList] at hlist
          exact absurd (List.cons.inj hlist).1 (by decide)
        simp only [sizeOfLine?, hwords, if_neg hother]
  | some field =>
      have hother : String.ofList field.1 ≠ Key.headerSize := by
        intro heq
        refine hline (isSizeLine_iff.mpr ⟨field.2, ?_⟩)
        rw [hfield, ← heq, String.toList_ofList]
      simp only [sizeOfLine?, Field.words_of_ofLine? hfield, if_neg hother]

/-- A line with the field `HDR_SIZE` declares the number that the field's value denotes, or
is refused if that is zero. -/
theorem sizeOfLine?_of_ofLine? (hline : Field.ofLine? line = some (Key.headerSize.toList, value))
    (hvalue : Text.unsigned64? (String.ofList value) = some size) :
    ∃ result, sizeOfLine? line = some result ∧ (size ≠ 0 → result = .ok size) ∧
      ∀ found, result = .ok found → found = size := by
  obtain ⟨hne, hword⟩ := Text.word_of_natBelow? hvalue
  cases size with
  | zero =>
      refine ⟨.error (.validation Key.headerSize "header size must be non-zero"), ?_,
        fun hzero => absurd rfl hzero, fun _ hfound => nomatch hfound⟩
      simp only [sizeOfLine?, Field.words_of_ofLine? hline, Text.words_of_word hne hword,
        String.ofList_toList, if_pos, List.headD_cons, hvalue]
  | succ size =>
      refine ⟨.ok (size + 1), ?_, fun _ => rfl, fun _ hfound => (Except.ok.inj hfound).symm⟩
      simp only [sizeOfLine?, Field.words_of_ofLine? hline, Text.words_of_word hne hword,
        String.ofList_toList, if_pos, List.headD_cons, hvalue]

end Header

end VoltageCapture
