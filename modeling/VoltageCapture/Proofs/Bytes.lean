import VoltageCapture.Bytes

/-!
# Lemmas on byte strings

What is written into a range of a buffer is found there again, and the bytes outside the range
are what they were.  In a buffer made up of pieces of one length every piece is found at its
multiple of that length, and the pieces determine the buffer.  An integer is read back from as many
of its digits in base 256 as it has, and the digits from the integer.
-/

namespace VoltageCapture.Bytes

variable {buffer bytes first second : Bytes} {offset length index : Nat}

/-! ## Ranges of a buffer -/

theorem length_overwrite (hfits : offset + bytes.length ≤ buffer.length) :
    (buffer.overwrite offset bytes).length = buffer.length := by
  simp only [overwrite, List.length_append, List.length_take, List.length_drop]
  omega

theorem getElem?_slice (buffer : Bytes) (offset : Nat) (hindex : index < length) :
    (buffer.slice offset length)[index]? = buffer[offset + index]? := by
  rw [slice, List.getElem?_take_of_lt hindex, List.getElem?_drop]

theorem length_slice (hfits : offset + length ≤ buffer.length) :
    (buffer.slice offset length).length = length := by
  rw [slice, List.length_take, List.length_drop]
  omega

theorem slice_overwrite_self (hfits : offset + bytes.length ≤ buffer.length) :
    (buffer.overwrite offset bytes).slice offset bytes.length = bytes := by
  have htake : (buffer.take offset).length = offset := by
    rw [List.length_take]
    omega
  rw [slice, overwrite, List.append_assoc, List.drop_left' htake, List.take_left]

theorem getElem?_overwrite_of_outside (hfits : offset + bytes.length ≤ buffer.length)
    (houtside : index < offset ∨ offset + bytes.length ≤ index) :
    (buffer.overwrite offset bytes)[index]? = buffer[index]? := by
  have htake : (buffer.take offset).length = offset := by
    rw [List.length_take]
    omega
  rw [overwrite, List.append_assoc]
  rcases houtside with hbefore | hbehind
  · rw [List.getElem?_append_left (by omega), List.getElem?_take_of_lt hbefore]
  · rw [List.getElem?_append_right (by omega), htake, List.getElem?_append_right (by omega),
      List.getElem?_drop]
    congr 1
    omega

/-- Bytes that reach up to the end of a buffer leave what stands ahead of them. -/
theorem overwrite_of_reaches_end (hend : buffer.length ≤ offset + bytes.length) :
    buffer.overwrite offset bytes = buffer.take offset ++ bytes := by
  rw [overwrite, List.drop_eq_nil_of_le hend, List.append_nil]

theorem take_overwrite (hoffset : offset ≤ buffer.length) (bytes : Bytes) :
    (buffer.overwrite offset bytes).take (offset + bytes.length) = buffer.take offset ++ bytes := by
  have htake : (buffer.take offset).length = offset := List.length_take_of_le hoffset
  rw [overwrite, List.take_left']
  rw [List.length_append, htake]

theorem take_overwrite_zero (hbytes : bytes.length = length) (buffer : Bytes) :
    (buffer.overwrite 0 bytes).take length = bytes := by
  rw [overwrite, List.take_zero, List.nil_append, List.take_left' hbytes]

theorem slice_append_left (hfits : offset + length ≤ first.length) (second : Bytes) :
    (first ++ second).slice offset length = first.slice offset length := by
  have hdrop : length ≤ (first.drop offset).length := by
    rw [List.length_drop]
    omega
  rw [slice, slice, List.drop_append_of_le_length (by omega), List.take_append_of_le_length hdrop]

/-! ## A piece between two others -/

theorem slice_append_drop (buffer : Bytes) (offset length : Nat) :
    buffer.slice offset length ++ buffer.drop (offset + length) = buffer.drop offset := by
  rw [slice, ← List.drop_drop, List.take_append_drop]

theorem slice_between (hfirst : first.length = offset) (hbytes : bytes.length = length)
    (second : Bytes) : (first ++ (bytes ++ second)).slice offset length = bytes := by
  rw [slice, List.drop_left' hfirst, List.take_left' hbytes]

theorem overwrite_between {new : Bytes} (hfirst : first.length = offset)
    (hnew : new.length = bytes.length) (second : Bytes) :
    (first ++ (bytes ++ second)).overwrite offset new = first ++ (new ++ second) := by
  rw [overwrite, ← List.drop_drop, List.take_left' hfirst, List.drop_left' hfirst,
    List.drop_left' hnew.symm, List.append_assoc]

/-! ## Pieces of one length -/

theorem eq_append_iff (hfirst : first.length = length) :
    bytes = first ++ second ↔ bytes.take length = first ∧ bytes.drop length = second := by
  constructor
  · rintro rfl
    exact ⟨List.take_left' hfirst, List.drop_left' hfirst⟩
  · rintro ⟨htake, hdrop⟩
    rw [← htake, ← hdrop, List.take_append_drop]

section Pieces

variable {piece : Nat → Bytes} (hpiece : ∀ number, (piece number).length = length)

include hpiece

theorem length_flatMap_range' (start count : Nat) :
    ((List.range' start count).flatMap piece).length = count * length := by
  rw [List.length_flatMap, List.map_congr_left fun number _ => hpiece number, List.map_const',
    List.length_range', List.sum_replicate_nat]

/-- A piece is found again among others of its length. -/
theorem slice_flatMap_range' (start : Nat) {index count : Nat} (hindex : index < count) :
    slice ((List.range' start count).flatMap piece) (index * length) length =
      piece (start + index) := by
  obtain ⟨more, rfl⟩ : ∃ more, count = index + (more + 1) :=
    Nat.exists_eq_add_of_lt hindex
  rw [slice, ← List.range'_append_1, List.flatMap_append, List.range'_succ, List.flatMap_cons,
    List.drop_left' (length_flatMap_range' hpiece start index), List.take_left' (hpiece _)]

end Pieces

/-- Strings of whole pieces are equal if their pieces are. -/
theorem eq_of_slices (hwhole : length ∣ first.length) (hlength : second.length = first.length)
    (hslices : ∀ index < first.length / length,
      first.slice (index * length) length = second.slice (index * length) length) :
    first = second := by
  apply List.ext_getElem?
  intro position
  by_cases hposition : position < first.length
  · have hpos : 0 < length := Nat.pos_of_dvd_of_pos hwhole (Nat.zero_lt_of_lt hposition)
    have hmod : position % length < length := Nat.mod_lt position hpos
    have hsame := hslices (position / length) (Nat.div_lt_div_of_lt_of_dvd hwhole hposition)
    rw [← Nat.div_add_mod' position length, ← getElem?_slice first _ hmod,
      ← getElem?_slice second _ hmod, hsame]
  · have hbeyond : first.length ≤ position := Nat.le_of_not_lt hposition
    rw [List.getElem?_eq_none hbeyond, List.getElem?_eq_none (hlength ▸ hbeyond)]

/-! ## Digits in base 256 -/

theorem ofLittleEndian_lt (bytes : Bytes) : ofLittleEndian bytes < Nat.pow 256 bytes.length := by
  induction bytes with
  | nil => exact Nat.zero_lt_one
  | cons byte bytes ih =>
      have hbyte := byte.toNat_lt
      have hpow : Nat.pow 256 (bytes.length + 1) = Nat.pow 256 bytes.length * 256 := rfl
      rw [ofLittleEndian, List.length_cons, hpow]
      omega

theorem ofLittleEndian_littleEndian {width number : Nat} (hnumber : number < Nat.pow 256 width) :
    ofLittleEndian (littleEndian width number) = number := by
  induction width generalizing number with
  | zero => exact (Nat.lt_one_iff.mp hnumber).symm
  | succ width ih =>
      have hpow : Nat.pow 256 (width + 1) = Nat.pow 256 width * 256 := rfl
      have hrest : number / 256 < Nat.pow 256 width := Nat.div_lt_of_lt_mul (by omega)
      have hdigit : (UInt8.ofNat (number % 256)).toNat = number % 256 :=
        UInt8.toNat_ofNat_of_lt' (Nat.mod_lt number (by decide))
      rw [littleEndian, ofLittleEndian, ih hrest, hdigit]
      exact Nat.mod_add_div number 256

theorem littleEndian_ofLittleEndian (bytes : Bytes) :
    littleEndian bytes.length (ofLittleEndian bytes) = bytes := by
  induction bytes with
  | nil => rfl
  | cons byte bytes ih =>
      have hbyte := byte.toNat_lt
      have hdigit : (byte.toNat + 256 * ofLittleEndian bytes) % 256 = byte.toNat := by omega
      have hrest : (byte.toNat + 256 * ofLittleEndian bytes) / 256 = ofLittleEndian bytes := by
        omega
      rw [List.length_cons, ofLittleEndian, littleEndian, hdigit, hrest, ih, UInt8.ofNat_toNat]

theorem ofBigEndian_lt (bytes : Bytes) : ofBigEndian bytes < Nat.pow 256 bytes.length := by
  have hlt := ofLittleEndian_lt bytes.reverse
  rwa [List.length_reverse] at hlt

theorem ofBigEndian_bigEndian {width number : Nat} (hnumber : number < Nat.pow 256 width) :
    ofBigEndian (bigEndian width number) = number := by
  rw [ofBigEndian, bigEndian, List.reverse_reverse, ofLittleEndian_littleEndian hnumber]

theorem bigEndian_ofBigEndian (bytes : Bytes) :
    bigEndian bytes.length (ofBigEndian bytes) = bytes := by
  rw [bigEndian, ofBigEndian, ← List.length_reverse, littleEndian_ofLittleEndian,
    List.reverse_reverse]

end VoltageCapture.Bytes
