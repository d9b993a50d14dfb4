import VoltageCapture.Text.Utf8

/-!
# UTF-8 is read as it is written

`decode_eq_ok` says that reading bytes gives a text exactly if the text is written as these
bytes.  It rests on the same statement about one character: `decodeFirst_encodeChar` for
the way there and `encodeChar_of_decodeFirst` for the way back.  Both go through the four
lengths that a character can have; the bounds that `decodeFirst` puts on the second byte are
what makes the number of the character fall into the range of its length.

A byte of a character below 128 only stands for that character (`eq_of_mem_encodeChar`), so
that text may be cut at such characters before or after it is written.
-/

namespace VoltageCapture.Utf8

variable {c : Char} {text : List Char} {lead b : UInt8} {rest after bytes : Bytes}

/-! ## Numbers of characters and bytes -/

theorem toNat_ofNat_of_isValidChar {n : Nat} (hvalid : n.isValidChar) :
    (Char.ofNat n).toNat = n := by
  rw [Char.ofNat, dif_pos hvalid]
  rfl

theorem isValidChar_toNat (c : Char) : c.toNat < 0xD800 ∨ 0xDFFF < c.toNat ∧ c.toNat < 0x110000 :=
  c.valid

theorem toNat_byte {n : Nat} (hn : n < 256) : (UInt8.ofNat n).toNat = n :=
  UInt8.toNat_ofNat_of_lt' hn

theorem byte_eq {n : Nat} (hn : n = b.toNat) : UInt8.ofNat n = b := by
  rw [hn, UInt8.ofNat_toNat]

theorem isContinuation_iff : isContinuation b = true ↔ 0x80 ≤ b.toNat ∧ b.toNat ≤ 0xBF := by
  rw [isContinuation, Bool.and_eq_true, decide_eq_true_iff, decide_eq_true_iff]
  rfl

theorem isSecond_iff :
    isSecond lead b = true ↔
      (0x80 ≤ b.toNat ∧ b.toNat ≤ 0xBF) ∧
        (lead.toNat = 0xE0 → 0xA0 ≤ b.toNat) ∧ (lead.toNat = 0xED → b.toNat ≤ 0x9F) ∧
        (lead.toNat = 0xF0 → 0x90 ≤ b.toNat) ∧ (lead.toNat = 0xF4 → b.toNat ≤ 0x8F) := by
  have hlead : ∀ n : UInt8, lead = n ↔ lead.toNat = n.toNat := fun _ => UInt8.toNat_inj.symm
  have hrange : ∀ n m : UInt8, (n ≤ b && b ≤ m) = true ↔ n.toNat ≤ b.toNat ∧ b.toNat ≤ m.toNat := by
    intro n m
    rw [Bool.and_eq_true, decide_eq_true_iff, decide_eq_true_iff]
    rfl
  unfold isSecond
  simp only [hlead, UInt8.reduceToNat]
  split
  · simp only [hrange, UInt8.reduceToNat]
    omega
  split
  · simp only [hrange, UInt8.reduceToNat]
    omega
  split
  · simp only [hrange, UInt8.reduceToNat]
    omega
  split
  · simp only [hrange, UInt8.reduceToNat]
    omega
  · rw [isContinuation_iff]
    omega

/-! ## Characters of each length -/

private theorem byte_lt_iff (n : UInt8) : b < n ↔ b.toNat < n.toNat :=
  Iff.rfl

private theorem byte_range_iff (n m : UInt8) :
    (n ≤ b && b ≤ m) = true ↔ n.toNat ≤ b.toNat ∧ b.toNat ≤ m.toNat := by
  rw [Bool.and_eq_true, decide_eq_true_iff, decide_eq_true_iff]
  rfl

theorem decodeFirst_one (hlead : lead.toNat < 0x80) :
    decodeFirst lead rest = .ok (Char.ofNat lead.toNat, rest) :=
  if_pos hlead

theorem decodeFirst_two {second : UInt8} (hlead : 0xC2 ≤ lead.toNat ∧ lead.toNat ≤ 0xDF)
    (hsecond : isContinuation second = true) :
    decodeFirst lead (second :: rest) =
      .ok (Char.ofNat (lead.toNat % 32 * 64 + payload second), rest) := by
  unfold decodeFirst
  simp only [byte_lt_iff, byte_range_iff, UInt8.reduceToNat]
  rw [if_neg (by omega), if_pos hlead, if_pos hsecond]

theorem decodeFirst_three {second third : UInt8} (hlead : 0xE0 ≤ lead.toNat ∧ lead.toNat ≤ 0xEF)
    (hsecond : isSecond lead second = true) (hthird : isContinuation third = true) :
    decodeFirst lead (second :: third :: rest) =
      .ok (Char.ofNat (lead.toNat % 16 * 4096 + payload second * 64 + payload third), rest) := by
  unfold decodeFirst
  simp only [byte_lt_iff, byte_range_iff, UInt8.reduceToNat]
  rw [if_neg (by omega), if_neg (by omega), if_pos hlead, if_pos hsecond, if_pos hthird]

theorem decodeFirst_four {second third fourth : UInt8}
    (hlead : 0xF0 ≤ lead.toNat ∧ lead.toNat ≤ 0xF4) (hsecond : isSecond lead second = true)
    (hthird : isContinuation third = true) (hfourth : isContinuation fourth = true) :
    decodeFirst lead (second :: third :: fourth :: rest) =
      .ok (Char.ofNat (lead.toNat % 8 * 262144 + payload second * 4096 + payload third * 64
        + payload fourth), rest) := by
  unfold decodeFirst
  simp only [byte_lt_iff, byte_range_iff, UInt8.reduceToNat]
  rw [if_neg (by omega), if_neg (by omega), if_neg (by omega), if_pos hlead, if_pos hsecond,
    if_pos hthird, if_pos hfourth]

/-- A character is read from one to four bytes, and from these only. -/
theorem of_decodeFirst (hfirst : decodeFirst lead rest = .ok (c, after)) :
    (lead.toNat < 0x80 ∧ after = rest ∧ c = Char.ofNat lead.toNat) ∨
    (∃ second, rest = second :: after ∧ (0xC2 ≤ lead.toNat ∧ lead.toNat ≤ 0xDF) ∧
      isContinuation second = true ∧
      c = Char.ofNat (lead.toNat % 32 * 64 + payload second)) ∨
    (∃ second third, rest = second :: third :: after ∧
      (0xE0 ≤ lead.toNat ∧ lead.toNat ≤ 0xEF) ∧ isSecond lead second = true ∧
      isContinuation third = true ∧
      c = Char.ofNat (lead.toNat % 16 * 4096 + payload second * 64 + payload third)) ∨
    (∃ second third fourth, rest = second :: third :: fourth :: after ∧
      (0xF0 ≤ lead.toNat ∧ lead.toNat ≤ 0xF4) ∧ isSecond lead second = true ∧
      isContinuation third = true ∧ isContinuation fourth = true ∧
      c = Char.ofNat (lead.toNat % 8 * 262144 + payload second * 4096 + payload third * 64
        + payload fourth)) := by
  unfold decodeFirst at hfirst
  simp only [byte_lt_iff, byte_range_iff, UInt8.reduceToNat] at hfirst
  repeat' split at hfirst
  all_goals
    simp only [Except.ok.injEq, Prod.mk.injEq, reduceCtorEq] at hfirst
  all_goals
    obtain ⟨rfl, rfl⟩ := hfirst
  · next hlead => exact Or.inl ⟨hlead, rfl, rfl⟩
  · next hlead _ second _ hsecond =>
    exact Or.inr (Or.inl ⟨second, rfl, hlead, hsecond, rfl⟩)
  · next hlead _ second hsecond _ third _ hthird =>
    exact Or.inr (Or.inr (Or.inl ⟨second, third, rfl, hlead, hsecond, hthird, rfl⟩))
  · next hlead _ second hsecond _ third hthird _ fourth _ hfourth =>
    exact Or.inr (Or.inr (Or.inr
      ⟨second, third, fourth, rfl, hlead, hsecond, hthird, hfourth, rfl⟩))

/-! ## One character -/

/-- What is read of a written character is the character. -/
theorem decodeFirst_encodeChar (c : Char) :
    ∃ lead tail, encodeChar c = lead :: tail ∧
      ∀ rest, decodeFirst lead (tail ++ rest) = .ok (c, rest) := by
  have hvalid := isValidChar_toNat c
  unfold encodeChar
  dsimp only
  split
  · next hone =>
    have hlead : (UInt8.ofNat c.toNat).toNat = c.toNat := toNat_byte (by omega)
    refine ⟨_, _, rfl, ?_⟩
    intro rest
    rw [decodeFirst_one (by omega), hlead, Char.ofNat_toNat]
    rfl
  split
  · next hone htwo =>
    have hlead : (UInt8.ofNat (0xC0 + c.toNat / 64)).toNat = 0xC0 + c.toNat / 64 :=
      toNat_byte (by omega)
    have hsecond : (UInt8.ofNat (0x80 + c.toNat % 64)).toNat = 0x80 + c.toNat % 64 :=
      toNat_byte (by omega)
    refine ⟨_, _, rfl, ?_⟩
    intro rest
    rw [List.cons_append, decodeFirst_two (by omega) (isContinuation_iff.mpr (by omega)), payload,
      hlead, hsecond]
    have hnumber : (0xC0 + c.toNat / 64) % 32 * 64 + (0x80 + c.toNat % 64) % 64 = c.toNat := by
      omega
    rw [hnumber, Char.ofNat_toNat]
    rfl
  split
  · next hone htwo hthree =>
    have hlead : (UInt8.ofNat (0xE0 + c.toNat / 4096)).toNat = 0xE0 + c.toNat / 4096 :=
      toNat_byte (by omega)
    have hsecond : (UInt8.ofNat (0x80 + c.toNat / 64 % 64)).toNat = 0x80 + c.toNat / 64 % 64 :=
      toNat_byte (by omega)
    have hthird : (UInt8.ofNat (0x80 + c.toNat % 64)).toNat = 0x80 + c.toNat % 64 :=
      toNat_byte (by omega)
    refine ⟨_, _, rfl, ?_⟩
    intro rest
    rw [List.cons_append, List.cons_append, decodeFirst_three (by omega)
      (isSecond_iff.mpr (by omega)) (isContinuation_iff.mpr (by omega)), payload, payload, hlead,
      hsecond, hthird]
    have hnumber : (0xE0 + c.toNat / 4096) % 16 * 4096 + (0x80 + c.toNat / 64 % 64) % 64 * 64
        + (0x80 + c.toNat % 64) % 64 = c.toNat := by
      omega
    rw [hnumber, Char.ofNat_toNat]
    rfl
  · next hone htwo hthree =>
    have hlead : (UInt8.ofNat (0xF0 + c.toNat / 262144)).toNat = 0xF0 + c.toNat / 262144 :=
      toNat_byte (by omega)
    have hsecond : (UInt8.ofNat (0x80 + c.toNat / 4096 % 64)).toNat = 0x80 + c.toNat / 4096 % 64 :=
      toNat_byte (by omega)
    have hthird : (UInt8.ofNat (0x80 + c.toNat / 64 % 64)).toNat = 0x80 + c.toNat / 64 % 64 :=
      toNat_byte (by omega)
    have hfourth : (UInt8.ofNat (0x80 + c.toNat % 64)).toNat = 0x80 + c.toNat % 64 :=
      toNat_byte (by omega)
    refine ⟨_, _, rfl, ?_⟩
    intro rest
    rw [List.cons_append, List.cons_append, List.cons_append, decodeFirst_four (by omega)
      (isSecond_iff.mpr (by omega)) (isContinuation_iff.mpr (by omega))
      (isContinuation_iff.mpr (by omega)), payload, payload, payload, hlead, hsecond, hthird,
      hfourth]
    have hnumber : (0xF0 + c.toNat / 262144) % 8 * 262144 + (0x80 + c.toNat / 4096 % 64) % 64 * 4096
        + (0x80 + c.toNat / 64 % 64) % 64 * 64 + (0x80 + c.toNat % 64) % 64 = c.toNat := by
      omega
    rw [hnumber, Char.ofNat_toNat]
    rfl

/-- A character that is read is written as the bytes that it was read from. -/
theorem encodeChar_of_decodeFirst (hfirst : decodeFirst lead rest = .ok (c, after)) :
    encodeChar c ++ after = lead :: rest := by
  rcases of_decodeFirst hfirst with ⟨hlead, rfl, rfl⟩ | ⟨second, rfl, hlead, hsecond, rfl⟩ |
    ⟨second, third, rfl, hlead, hsecond, hthird, rfl⟩ |
    ⟨second, third, fourth, rfl, hlead, hsecond, hthird, hfourth, rfl⟩
  · have hnumber := toNat_ofNat_of_isValidChar (n := lead.toNat) (by omega)
    rw [encodeChar, hnumber, if_pos hlead, UInt8.ofNat_toNat]
    rfl
  · rw [isContinuation_iff] at hsecond
    unfold payload
    generalize hn : lead.toNat % 32 * 64 + second.toNat % 64 = n
    have hnumber := toNat_ofNat_of_isValidChar (n := n) (by omega)
    rw [encodeChar, hnumber, if_neg (by omega), if_pos (by omega), byte_eq (b := lead) (by omega),
      byte_eq (b := second) (by omega)]
    rfl
  · rw [isSecond_iff] at hsecond
    rw [isContinuation_iff] at hthird
    unfold payload
    generalize hn : lead.toNat % 16 * 4096 + second.toNat % 64 * 64 + third.toNat % 64 = n
    have hnumber := toNat_ofNat_of_isValidChar (n := n) (by omega)
    rw [encodeChar, hnumber, if_neg (by omega), if_neg (by omega), if_pos (by omega),
      byte_eq (b := lead) (by omega), byte_eq (b := second) (by omega),
      byte_eq (b := third) (by omega)]
    rfl
  · rw [isSecond_iff] at hsecond
    rw [isContinuation_iff] at hthird hfourth
    unfold payload
    generalize hn : lead.toNat % 8 * 262144 + second.toNat % 64 * 4096 + third.toNat % 64 * 64
      + fourth.toNat % 64 = n
    have hnumber := toNat_ofNat_of_isValidChar (n := n) (by omega)
    rw [encodeChar, hnumber, if_neg (by omega), if_neg (by omega), if_neg (by omega),
      byte_eq (b := lead) (by omega), byte_eq (b := second) (by omega),
      byte_eq (b := third) (by omega), byte_eq (b := fourth) (by omega)]
    rfl

/-- A byte below 128 only occurs where it is the character. -/
theorem toNat_eq_of_mem_encodeChar (hmem : b ∈ encodeChar c) (hlow : b.toNat < 0x80) :
    c.toNat = b.toNat := by
  have hvalid := isValidChar_toNat c
  have hbyte : ∀ {n : Nat}, n < 256 → b = UInt8.ofNat n → b.toNat = n := by
    rintro n hn rfl
    exact toNat_byte hn
  unfold encodeChar at hmem
  dsimp only at hmem
  split at hmem
  · exact (hbyte (by omega) (List.mem_singleton.mp hmem)).symm
  -- all bytes of longer characters are 128 or more
  split at hmem
  · simp only [List.mem_cons, List.not_mem_nil, or_false] at hmem
    rcases hmem with hb | hb <;> have hn := hbyte (by omega) hb <;> omega
  split at hmem
  · simp only [List.mem_cons, List.not_mem_nil, or_false] at hmem
    rcases hmem with hb | hb | hb <;> have hn := hbyte (by omega) hb <;> omega
  · simp only [List.mem_cons, List.not_mem_nil, or_false] at hmem
    rcases hmem with hb | hb | hb | hb <;> have hn := hbyte (by omega) hb <;> omega

/-! ## Texts -/

theorem encode_append (first second : List Char) :
    encode (first ++ second) = encode first ++ encode second :=
  List.flatMap_append

theorem encode_cons (c : Char) (text : List Char) : encode (c :: text) = encodeChar c ++ encode text :=
  rfl

theorem mem_of_mem_encode (hlow : b.toNat < 0x80) (hmem : b ∈ encode text) :
    Char.ofNat b.toNat ∈ text := by
  obtain ⟨c, hc, hb⟩ := List.mem_flatMap.mp hmem
  rw [← toNat_eq_of_mem_encodeChar hb hlow, Char.ofNat_toNat]
  exact hc

theorem encodeChar_of_toNat_lt (hlow : c.toNat < 0x80) : encodeChar c = [UInt8.ofNat c.toNat] :=
  if_pos hlow

/-- Bytes that start with a text are only written for texts that start with it. -/
theorem of_encode_append_eq {first : List Char} (hsame : encode first ++ rest = encode text) :
    ∃ more, text = first ++ more ∧ rest = encode more := by
  induction first generalizing text with
  | nil => exact ⟨text, rfl, hsame⟩
  | cons c first ih =>
      obtain ⟨lead, tail, hchar, hfirst⟩ := decodeFirst_encodeChar c
      rw [encode_cons, hchar, List.cons_append, List.cons_append, List.append_assoc] at hsame
      cases text with
      | nil => exact absurd hsame (List.cons_ne_nil _ _)
      | cons d text =>
          obtain ⟨other, behind, hother, hsecond⟩ := decodeFirst_encodeChar d
          rw [encode_cons, hother, List.cons_append, List.cons.injEq] at hsame
          obtain ⟨rfl, htail⟩ := hsame
          -- the first character that is read is the same on both sides
          have hread := hfirst (encode first ++ rest)
          rw [htail, hsecond] at hread
          simp only [Except.ok.injEq, Prod.mk.injEq] at hread
          obtain ⟨rfl, hbehind⟩ := hread
          obtain ⟨more, rfl, hrest⟩ := ih hbehind.symm
          exact ⟨more, rfl, hrest⟩

/-- As `decode_encode`, for a text some characters of which have been read. -/
private theorem decodeFrom_encode (index : Nat) (decoded text : List Char) :
    decodeFrom index decoded (encode text) = .ok (decoded.reverse ++ text) := by
  induction text generalizing index decoded with
  | nil =>
      rw [encode, List.flatMap_nil, decodeFrom, List.append_nil]
  | cons c text ih =>
      obtain ⟨lead, tail, hchar, hfirst⟩ := decodeFirst_encodeChar c
      rw [encode_cons, hchar, List.cons_append, decodeFrom]
      split
      · next malformation herror =>
        rw [hfirst] at herror
        simp at herror
      · next found after hfound =>
        rw [hfirst] at hfound
        simp only [Except.ok.injEq, Prod.mk.injEq] at hfound
        obtain ⟨rfl, rfl⟩ := hfound
        rw [ih, List.reverse_cons, List.append_assoc]
        rfl

theorem decode_encode (text : List Char) : decode (encode text) = .ok text :=
  decodeFrom_encode 0 [] text

theorem encode_injective {first second : List Char} (hsame : encode first = encode second) :
    first = second := by
  have hdecode := decode_encode first
  rw [hsame, decode_encode] at hdecode
  exact (Except.ok.inj hdecode).symm

/-- One direction of `decode_eq_ok`, for bytes ahead of which some characters were read. -/
private theorem encode_of_decodeFrom {index : Nat} {decoded : List Char}
    (hdecode : decodeFrom index decoded bytes = .ok text) :
    encode decoded.reverse ++ bytes = encode text := by
  fun_induction decodeFrom index decoded bytes with
  | case1 index decoded =>
      rw [List.append_nil, Except.ok.inj hdecode]
  | case2 => simp at hdecode
  | case3 index decoded lead rest c after hfirst ih =>
      rw [← ih hdecode, List.reverse_cons, encode_append, List.append_assoc, encode_cons,
        ← encodeChar_of_decodeFirst hfirst]
      simp [encode]

/-- Bytes are read as a text exactly if the text is written as these bytes. -/
theorem decode_eq_ok : decode bytes = .ok text ↔ bytes = encode text := by
  constructor
  · intro hdecode
    exact encode_of_decodeFrom hdecode
  · rintro rfl
    exact decode_encode text

end VoltageCapture.Utf8
