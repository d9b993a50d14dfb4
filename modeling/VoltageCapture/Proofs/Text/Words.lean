import VoltageCapture.Text.Numeral
import VoltageCapture.Text.Pieces

/-!
# Words and trimmed text

A blank between two texts keeps their words apart (`words_append_blank`), so blanks at the
ends of a text add none and `words_trim` follows.  A text that is continued keeps its words but the last
(`words_append_cases`).  `Trimmed` says that a text has no blanks at its ends; such a text is
what trimming leaves, whatever blanks stood around it.
-/

namespace VoltageCapture.Text

variable {c : Char} {text rest word lead trail : List Char}

/-! ## Words -/

theorem takeWhile_append_stop {p : Char → Bool} (hc : p c = false) (text rest : List Char) :
    (text ++ c :: rest).takeWhile p = text.takeWhile p := by
  induction text with
  | nil => rw [List.nil_append, List.takeWhile_cons_of_neg (by simp [hc]), List.takeWhile_nil]
  | cons d text ih => rw [List.cons_append, List.takeWhile_cons, List.takeWhile_cons, ih]

theorem dropWhile_append_stop {p : Char → Bool} (hc : p c = false) (text rest : List Char) :
    (text ++ c :: rest).dropWhile p = text.dropWhile p ++ c :: rest := by
  induction text with
  | nil => rw [List.nil_append, List.dropWhile_cons_of_neg (by simp [hc])]; rfl
  | cons d text ih =>
      rw [List.cons_append, List.dropWhile_cons, List.dropWhile_cons, ih]
      split
      · rfl
      · rfl

theorem isBlank_of_trimStart_eq_cons (hstart : trimStart text = c :: rest) : isBlank c = false := by
  have hhead := List.head?_dropWhile_not isBlank text
  rw [trimStart] at hstart
  rw [hstart] at hhead
  exact Bool.eq_false_iff.mpr fun hblank => by simp [hblank] at hhead

/-- Words are the first of them and those behind it. -/
theorem words_of_trimStart_eq_cons (hstart : trimStart text = c :: rest) :
    words text = firstWord (c :: rest) :: words (afterFirstWord rest) := by
  rw [words]
  split
  · next hnil =>
    rw [hnil] at hstart
    simp at hstart
  · next hcons =>
    rw [hstart, List.cons.injEq] at hcons
    rw [hcons.1, hcons.2]

theorem words_of_trimStart_eq_nil (hstart : trimStart text = []) : words text = [] := by
  rw [words]
  split
  · rfl
  · next hcons =>
    rw [hstart] at hcons
    simp at hcons

theorem words_trimStart (text : List Char) : words (trimStart text) = words text := by
  cases hstart : trimStart text with
  | nil =>
      rw [words_of_trimStart_eq_nil hstart]
      exact words_of_trimStart_eq_nil rfl
  | cons c rest =>
      rw [words_of_trimStart_eq_cons hstart]
      have hc := isBlank_of_trimStart_eq_cons hstart
      exact words_of_trimStart_eq_cons (List.dropWhile_cons_of_neg (by simp [hc]))

/-- A blank keeps the words on its sides apart. -/
theorem words_append_blank (hc : isBlank c = true) (text rest : List Char) :
    words (text ++ c :: rest) = words text ++ words rest := by
  induction hlength : text.length using Nat.strongRecOn generalizing text with
  | ind length ih =>
      cases hstart : trimStart text with
      | nil =>
          have hall : trimStart (text ++ c :: rest) = trimStart rest := by
            rw [trimStart, List.dropWhile_append, ← trimStart, hstart, List.isEmpty_nil, if_pos rfl,
              List.dropWhile_cons_of_pos hc, trimStart]
          rw [words_of_trimStart_eq_nil hstart, List.nil_append, ← words_trimStart, hall,
            words_trimStart]
      | cons d more =>
          have hall : trimStart (text ++ c :: rest) = d :: (more ++ c :: rest) := by
            rw [trimStart, List.dropWhile_append, ← trimStart, hstart]
            rfl
          have hstop : (!isBlank c) = false := by simp [hc]
          -- behind the first word the induction applies
          have hshort : (afterFirstWord more).length < length := by
            have hmore := (List.dropWhile_suffix (l := more) (!isBlank ·)).length_le
            have htext := (List.dropWhile_suffix (l := text) isBlank).length_le
            rw [trimStart] at hstart
            rw [hstart, List.length_cons] at htext
            rw [afterFirstWord]
            omega
          rw [words_of_trimStart_eq_cons hall, words_of_trimStart_eq_cons hstart, firstWord,
            ← List.cons_append, takeWhile_append_stop hstop, afterFirstWord,
            dropWhile_append_stop hstop, List.cons_append]
          exact congrArg _ (ih _ hshort _ rfl)

theorem words_of_blanks (hblanks : ∀ c ∈ text, isBlank c = true) : words text = [] := by
  induction text with
  | nil => exact words_of_trimStart_eq_nil rfl
  | cons c text ih =>
      have hrest := ih fun d hd => hblanks d (List.mem_cons_of_mem _ hd)
      have hsplit := words_append_blank (hblanks c List.mem_cons_self) [] text
      rw [List.nil_append] at hsplit
      rw [hsplit, hrest, List.append_nil]
      exact words_of_trimStart_eq_nil rfl

theorem words_append_blanks (htrail : ∀ c ∈ trail, isBlank c = true) (text : List Char) :
    words (text ++ trail) = words text := by
  cases trail with
  | nil => rw [List.append_nil]
  | cons c trail =>
      rw [words_append_blank (htrail c List.mem_cons_self),
        words_of_blanks fun d hd => htrail d (List.mem_cons_of_mem _ hd), List.append_nil]

theorem words_blanks_append (hlead : ∀ c ∈ lead, isBlank c = true) (text : List Char) :
    words (lead ++ text) = words text := by
  rw [← words_trimStart, trimStart, List.dropWhile_append_of_pos hlead, ← trimStart,
    words_trimStart]

theorem words_of_word (hne : word ≠ []) (hword : ∀ c ∈ word, isBlank c = false) :
    words word = [word] := by
  obtain ⟨c, rest, rfl⟩ := List.exists_cons_of_ne_nil hne
  have hstart : trimStart (c :: rest) = c :: rest :=
    List.dropWhile_cons_of_neg (by simp [hword c List.mem_cons_self])
  have hall : ∀ d ∈ c :: rest, (!isBlank d) = true := fun d hd => by simp [hword d hd]
  have htake : firstWord (c :: rest) = c :: rest := by
    rw [firstWord, ← List.append_nil (c :: rest), List.takeWhile_append_of_pos hall,
      List.takeWhile_nil]
  have hdrop : afterFirstWord rest = [] := by
    rw [afterFirstWord, ← List.append_nil rest,
      List.dropWhile_append_of_pos fun d hd => hall d (List.mem_cons_of_mem _ hd),
      List.dropWhile_nil]
  rw [words_of_trimStart_eq_cons hstart, htake, hdrop, words_of_trimStart_eq_nil rfl]

/-! ## Text that is continued -/

/-- A text is a word, possibly empty, behind a blank or behind nothing. -/
theorem exists_last_word (text : List Char) :
    ∃ front word, text = front ++ word ∧ (∀ c ∈ word, isBlank c = false) ∧
      (front = [] ∨ ∃ init blank, front = init ++ [blank] ∧ isBlank blank = true) := by
  refine ⟨(text.reverse.dropWhile (!isBlank ·)).reverse,
    (text.reverse.takeWhile (!isBlank ·)).reverse, ?_, ?_, ?_⟩
  · rw [← List.reverse_append, List.takeWhile_append_dropWhile, List.reverse_reverse]
  · intro c hc
    have hnot := (List.all_eq_true.mp List.all_takeWhile) c (List.mem_reverse.mp hc)
    exact Bool.not_eq_true' _ ▸ hnot
  · cases hfront : text.reverse.dropWhile (!isBlank ·) with
    | nil => exact Or.inl rfl
    | cons blank init =>
        have hhead := List.head?_dropWhile_not (!isBlank ·) text.reverse
        simp only [hfront, List.head?_cons, Bool.not_eq_false'] at hhead
        exact Or.inr ⟨init.reverse, blank, List.reverse_cons, hhead⟩

/-- Behind a blank, what is added continues the word up to the next blank. -/
theorem words_continued (hblank : isBlank c = true) (hne : word ≠ [])
    (hword : ∀ d ∈ word, isBlank d = false) (text rest : List Char) :
    words (text ++ c :: (word ++ rest)) =
      words text ++ (word ++ firstWord rest) :: words (afterFirstWord rest) := by
  obtain ⟨d, more, rfl⟩ := List.exists_cons_of_ne_nil hne
  have hall : ∀ e ∈ d :: more, (!isBlank e) = true := fun e he => by simp [hword e he]
  have hstart : trimStart (d :: more ++ rest) = d :: (more ++ rest) :=
    List.dropWhile_cons_of_neg (by simp [hword d List.mem_cons_self])
  have hfirst : firstWord (d :: (more ++ rest)) = d :: more ++ firstWord rest := by
    rw [← List.cons_append, firstWord, List.takeWhile_append_of_pos hall, firstWord]
  have hafter : afterFirstWord (more ++ rest) = afterFirstWord rest := by
    rw [afterFirstWord, List.dropWhile_append_of_pos fun e he => hall e (List.mem_cons_of_mem _ he),
      afterFirstWord]
  rw [words_append_blank hblank, words_of_trimStart_eq_cons hstart, hfirst, hafter]

/-- What is added to a line leaves its first two words, unless the line ends with the second
of them. -/
theorem words_append_cases {key value : List Char} {others : List (List Char)}
    (hwords : words text = key :: value :: others) (more : List Char) :
    (∃ others, words (text ++ more) = key :: value :: others) ∨
      ∃ front blank, text = front ++ blank :: value ∧ isBlank blank = true ∧ words front = [key] := by
  have hnone : words [] = [] := words_of_trimStart_eq_nil rfl
  obtain ⟨front, word, rfl, hword, rfl | ⟨init, blank, rfl, hblank⟩⟩ := exists_last_word text
  · -- a single word, or none
    rw [List.nil_append] at hwords
    by_cases hne : word = []
    · rw [hne, hnone] at hwords
      exact absurd hwords.symm (List.cons_ne_nil _ _)
    · rw [words_of_word hne hword, List.cons.injEq] at hwords
      exact absurd hwords.2.symm (List.cons_ne_nil _ _)
  · simp only [List.append_assoc, List.cons_append, List.nil_append] at hwords ⊢
    rw [words_append_blank hblank] at hwords ⊢
    by_cases hne : word = []
    · rw [hne, hnone, List.append_nil] at hwords
      rw [hwords]
      exact Or.inl ⟨_, rfl⟩
    · rw [words_of_word hne hword] at hwords
      match hinit : words init with
      | [] =>
          rw [hinit, List.nil_append, List.cons.injEq] at hwords
          exact absurd hwords.2.symm (List.cons_ne_nil _ _)
      | [first] =>
          rw [hinit, List.singleton_append, List.cons.injEq, List.cons.injEq] at hwords
          obtain ⟨rfl, rfl, _⟩ := hwords
          exact Or.inr ⟨init, blank, rfl, hblank, hinit⟩
      | first :: second :: behind =>
          rw [hinit, List.cons_append, List.cons_append, List.cons.injEq, List.cons.injEq] at hwords
          obtain ⟨rfl, rfl, _⟩ := hwords
          exact Or.inl ⟨_, rfl⟩

/-! ## Trimmed text -/

/-- Neither the first nor the last character of the text is blank. -/
structure Trimmed (text : List Char) : Prop where
  head : ∀ c rest, text = c :: rest → isBlank c = false
  last : ∀ front c, text = front ++ [c] → isBlank c = false

theorem Trimmed.nil : Trimmed [] :=
  ⟨fun _ _ hcons => absurd hcons.symm (List.cons_ne_nil _ _),
    fun _ _ happend => absurd happend.symm (List.append_ne_nil_of_right_ne_nil _
      (List.cons_ne_nil _ _))⟩

theorem exists_blanks_trim (text : List Char) :
    ∃ lead trail, text = lead ++ trim text ++ trail ∧ (∀ c ∈ lead, isBlank c = true) ∧
      (∀ c ∈ trail, isBlank c = true) := by
  refine ⟨text.takeWhile isBlank, ((trimStart text).reverse.takeWhile isBlank).reverse, ?_, ?_, ?_⟩
  · have hend : trim text ++ ((trimStart text).reverse.takeWhile isBlank).reverse =
        trimStart text := by
      rw [trim, trimEnd, ← List.reverse_append, List.takeWhile_append_dropWhile,
        List.reverse_reverse]
    rw [List.append_assoc, hend, trimStart, List.takeWhile_append_dropWhile]
  · intro c hc
    exact (List.all_eq_true.mp List.all_takeWhile) c hc
  · intro c hc
    exact (List.all_eq_true.mp List.all_takeWhile) c (List.mem_reverse.mp hc)

theorem mem_of_mem_trim (hmem : c ∈ trim text) : c ∈ text := by
  obtain ⟨lead, trail, htext, _⟩ := exists_blanks_trim text
  rw [htext]
  exact List.mem_append_left _ (List.mem_append_right _ hmem)

theorem trimmed_trim (text : List Char) : Trimmed (trim text) := by
  refine ⟨?_, ?_⟩
  · intro c rest hcons
    -- the first character is that of the text without its leading blanks
    obtain ⟨trail, htrail⟩ : ∃ trail, trimStart text = trim text ++ trail :=
      ⟨((trimStart text).reverse.takeWhile isBlank).reverse, by
        rw [trim, trimEnd, ← List.reverse_append, List.takeWhile_append_dropWhile,
          List.reverse_reverse]⟩
    rw [hcons, List.cons_append] at htrail
    exact isBlank_of_trimStart_eq_cons htrail
  · intro front c happend
    have hreverse := congrArg List.reverse happend
    rw [trim, trimEnd, List.reverse_reverse, List.reverse_append, List.reverse_singleton,
      List.singleton_append] at hreverse
    exact isBlank_of_trimStart_eq_cons hreverse

/-- Trimming takes the blanks away from the ends of a text, and nothing else. -/
theorem trim_of_trimmed (htrimmed : Trimmed text) (hlead : ∀ c ∈ lead, isBlank c = true)
    (htrail : ∀ c ∈ trail, isBlank c = true) : trim (lead ++ text ++ trail) = text := by
  have hblank : ∀ c ∈ trail.reverse, isBlank c = true := fun c hc =>
    htrail c (List.mem_reverse.mp hc)
  rw [trim, trimStart, List.append_assoc, List.dropWhile_append_of_pos hlead, trimEnd]
  cases text with
  | nil =>
      have hnone : trail.dropWhile isBlank = [] := by
        rw [← List.append_nil trail, List.dropWhile_append_of_pos htrail, List.dropWhile_nil]
      rw [List.nil_append, hnone, List.reverse_nil, List.dropWhile_nil, List.reverse_nil]
  | cons c rest =>
      have hc := htrimmed.head c rest rfl
      rw [List.cons_append, List.dropWhile_cons_of_neg (by simp [hc]), ← List.cons_append,
        List.reverse_append, List.dropWhile_append_of_pos hblank]
      cases hreverse : (c :: rest).reverse with
      | nil => simp at hreverse
      | cons d more =>
          have happend : c :: rest = more.reverse ++ [d] := by
            rw [← List.reverse_reverse (c :: rest), hreverse, List.reverse_cons]
          have hd := htrimmed.last _ _ happend
          rw [List.dropWhile_cons_of_neg (by simp [hd]), happend, List.reverse_cons]

/-- Trimming takes no word away. -/
theorem words_trim (text : List Char) : words (trim text) = words text := by
  obtain ⟨lead, trail, htext, hlead, htrail⟩ := exists_blanks_trim text
  calc words (trim text)
      = words (trim text ++ trail) := (words_append_blanks htrail _).symm
    _ = words (lead ++ (trim text ++ trail)) := (words_blanks_append hlead _).symm
    _ = words text := by rw [← List.append_assoc, ← htext]

/-! ## Numerals -/

theorem isBlank_of_isDecimalDigit (hdigit : isDecimalDigit c = true) : isBlank c = false := by
  have hrange : 48 ≤ c.toNat ∧ c.toNat ≤ 57 := by
    simp only [isDecimalDigit, Bool.and_eq_true, decide_eq_true_eq] at hdigit
    exact hdigit
  simp only [isBlank, inRanges, blankRanges, List.any_cons, List.any_nil, Bool.or_false,
    Bool.or_eq_false_iff, Bool.and_eq_false_iff, decide_eq_false_iff_not]
  omega

/-- A text that denotes a number is a word. -/
theorem word_of_natBelow? {bound n : Nat} (hnumber : natBelow? bound (String.ofList text) = some n) :
    text ≠ [] ∧ ∀ c ∈ text, isBlank c = false := by
  simp only [natBelow?, String.toList_ofList] at hnumber
  split at hnumber
  · next hdigits =>
    have hword : ∀ c ∈ dropPlus text, isBlank c = false := fun c hc =>
      isBlank_of_isDecimalDigit (List.all_eq_true.mp hdigits.2 c hc)
    have hcases : text = dropPlus text ∨ text = '+' :: dropPlus text := by
      unfold dropPlus
      split
      · exact Or.inr rfl
      · exact Or.inl rfl
    rcases hcases with hplain | hplus
    · rw [hplain]
      exact ⟨hdigits.1, hword⟩
    · rw [hplus]
      refine ⟨List.cons_ne_nil _ _, ?_⟩
      intro c hc
      rcases List.mem_cons.mp hc with rfl | hrest
      · decide
      · exact hword c hrest
  · simp at hnumber

theorem natBelow?_eq_some {bound n : Nat} (hbound : 0 < bound) :
    natBelow? bound (String.ofList text) = some n ↔
      (dropPlus text ≠ [] ∧ ∀ c ∈ dropPlus text, isDecimalDigit c = true) ∧
        digitsValue (dropPlus text) < bound ∧ digitsValue (dropPlus text) = n := by
  simp only [natBelow?, String.toList_ofList, digitsValueBelow?_eq hbound, List.all_eq_true,
    Option.ite_none_right_eq_some, Option.some.injEq]

theorem dropPlus_append (hne : dropPlus text ≠ []) (more : List Char) :
    dropPlus (text ++ more) = dropPlus text ++ more := by
  unfold dropPlus at hne ⊢
  split at hne
  · rfl
  · next hplus =>
    split
    · next hcons =>
      obtain ⟨d, rest, rfl⟩ := List.exists_cons_of_ne_nil hne
      exact absurd (List.cons.inj hcons).1 fun heq => hplus rest (heq ▸ rfl)
    · rfl

theorem digitsValue_append_cons (digits : List Char) (digit : Char) (more : List Char) :
    10 * digitsValue digits ≤ digitsValue (digits ++ digit :: more) := by
  have hmore := le_foldl_digits more (10 * digitsValue digits + digitValue digit)
  rw [digitsValue, digitsValue, List.foldl_append, List.foldl_cons]
  exact Nat.le_trans (Nat.le_add_right _ _) hmore

/-- A number that is continued and still a number is continued by digits, and has a tenth
place more for each. -/
theorem of_natBelow?_append {bound n m : Nat} {more : List Char}
    (hnumber : natBelow? bound (String.ofList text) = some n)
    (hlonger : natBelow? bound (String.ofList (text ++ more)) = some m) (hbound : 0 < bound) :
    (∀ c ∈ more, isDecimalDigit c = true) ∧ (more ≠ [] → 10 * n ≤ m) := by
  obtain ⟨⟨hne, _⟩, _, rfl⟩ := (natBelow?_eq_some hbound).mp hnumber
  obtain ⟨⟨_, hdigits⟩, _, rfl⟩ := (natBelow?_eq_some hbound).mp hlonger
  rw [dropPlus_append hne] at hdigits ⊢
  refine ⟨fun c hc => hdigits c (List.mem_append_right _ hc), ?_⟩
  intro hmore
  obtain ⟨c, rest, rfl⟩ := List.exists_cons_of_ne_nil hmore
  exact digitsValue_append_cons _ c rest

end VoltageCapture.Text
