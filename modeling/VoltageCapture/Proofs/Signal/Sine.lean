import VoltageCapture.Proofs.Bytes
import VoltageCapture.Proofs.Error
import VoltageCapture.Signal.Sine

/-!
# What a sine signal recognises

A sine signal fills a region by one walk over its values and tests it by another.  Both walks
meet the same values at the same places (`testWhole_fillWhole_iff`), but they part at the end of
the region: bytes that are too few for a value are left as they are by the one, and are not
accepted by the other.  A value itself is found again if it lies in the range of the width
(`SampleWidth.decode_encode_iff`).

Together these are the regions that pass the test once they are filled
(`SineSignal.passes_filled_iff`).
-/

namespace VoltageCapture

/-! ## Values -/

namespace SampleWidth

variable {width : SampleWidth} {value : Int}

/-- The value is one of the signed integers of the width. -/
def Fits (width : SampleWidth) (value : Int) : Prop :=
  -(width.codes / 2 : Nat) ≤ value ∧ value < (width.codes / 2 : Nat)

theorem eq_bits_of_ofBits? {bits : Nat} (hwidth : ofBits? bits = some width) :
    bits = width.bits := by
  unfold ofBits? at hwidth
  split at hwidth <;> cases hwidth <;> rfl

theorem bits_injective {other : SampleWidth} (hbits : width.bits = other.bits) :
    width = other := by
  revert hbits
  cases width <;> cases other <;> decide

theorem codes_eq_pow (width : SampleWidth) : width.codes = Nat.pow 256 width.bytes := by
  cases width <;> decide

/-- The codes of a width fall into two halves, for the values from zero on and for those
below. -/
theorem exists_half (width : SampleWidth) : ∃ half, 0 < half ∧ width.codes = 2 * half := by
  cases width with
  | bits8 => exact ⟨0x80, by decide, rfl⟩
  | bits16 => exact ⟨0x8000, by decide, rfl⟩
  | bits32 => exact ⟨0x80000000, by decide, rfl⟩

theorem fits_decode {bytes : Bytes} (hbytes : bytes.length = width.bytes) :
    width.Fits (width.decode bytes) := by
  have hcode := Bytes.ofBigEndian_lt bytes
  rw [hbytes, ← codes_eq_pow] at hcode
  obtain ⟨half, -, hcodes⟩ := width.exists_half
  simp only [Fits, decode, hcodes] at hcode ⊢
  split <;> omega

/-- The code of a value that fits is the value itself, or lies as far below the number of
codes as the value lies below zero. -/
theorem decode_encode (hfits : width.Fits value) : width.decode (width.encode value) = value := by
  obtain ⟨half, hpos, hcodes⟩ := width.exists_half
  have hcode : (value % width.codes).toNat < Nat.pow 256 width.bytes := by
    rw [← codes_eq_pow]
    have hlt := Int.emod_lt_of_pos value (show (0 : Int) < width.codes by omega)
    omega
  rw [Fits, hcodes] at hfits
  rw [decode, encode, Bytes.ofBigEndian_bigEndian hcode, hcodes]
  by_cases hsign : 0 ≤ value
  · have hmod : value % (2 * half : Nat) = value := Int.emod_eq_of_lt hsign (by omega)
    simp only [hmod]
    split <;> omega
  · have hmod : value % (2 * half : Nat) = value + (2 * half : Nat) := by
      rw [← Int.add_emod_right, Int.emod_eq_of_lt (by omega) (by omega)]
    simp only [hmod]
    split <;> omega

theorem decode_encode_iff : width.decode (width.encode value) = value ↔ width.Fits value := by
  constructor
  · intro hvalue
    rw [← hvalue]
    exact fits_decode (width.length_encode value)
  · exact decode_encode

theorem encode_decode {bytes : Bytes} (hbytes : bytes.length = width.bytes) :
    width.encode (width.decode bytes) = bytes := by
  have hcode := Bytes.ofBigEndian_lt bytes
  rw [hbytes, ← codes_eq_pow] at hcode
  have hmod : width.decode bytes % width.codes = Bytes.ofBigEndian bytes := by
    rw [decode]
    split
    · exact Int.emod_eq_of_lt (Int.natCast_nonneg _) (Int.ofNat_lt.mpr hcode)
    · rw [Int.sub_emod_right]
      exact Int.emod_eq_of_lt (Int.natCast_nonneg _) (Int.ofNat_lt.mpr hcode)
  rw [encode, hmod, Int.toNat_natCast, ← hbytes, Bytes.bigEndian_ofBigEndian]

/-- Bytes stand for a value exactly if they are its bytes and it fits. -/
theorem decode_eq_iff {bytes : Bytes} (hbytes : bytes.length = width.bytes) :
    width.decode bytes = value ↔ width.Fits value ∧ bytes = width.encode value := by
  constructor
  · rintro rfl
    exact ⟨fits_decode hbytes, (encode_decode hbytes).symm⟩
  · rintro ⟨hfits, rfl⟩
    exact decode_encode hfits

end SampleWidth

namespace SineSignal

/-! ## Configuration -/

theorem configure_eq_ok {signal configured : SineSignal} {header : Header} {layout : PacketLayout}
    (hconfigure : SignalModel.configure signal header layout = (.ok (), configured)) :
    ofHeader header layout = .ok configured := by
  simp only [SignalModel.configure] at hconfigure
  split at hconfigure
  · next hheader =>
    simp only [Prod.mk.injEq, true_and] at hconfigure
    rw [hheader, hconfigure]
  · simp at hconfigure

/-- A signal has the width and the period that the header asks for, and the samples of the
layout. -/
theorem of_ofHeader {signal : SineSignal} {header : Header} {layout : PacketLayout}
    (hsignal : ofHeader header layout = .ok signal) :
    header.unsigned32 Key.bits = .ok signal.width.bits ∧ periodOf header = .ok signal.period ∧
      signal.samples = layout.samples := by
  simp only [ofHeader, bind_eq_ok] at hsignal
  obtain ⟨bits, hbits, hsignal⟩ := hsignal
  split at hsignal
  · simp at hsignal
  · next width hwidth =>
    rw [bind_eq_ok] at hsignal
    obtain ⟨period, hperiod, hsignal⟩ := hsignal
    split at hsignal
    · simp at hsignal
    · split at hsignal
      · simp at hsignal
      · obtain rfl := Except.ok.inj hsignal
        exact ⟨SampleWidth.eq_bits_of_ofBits? hwidth ▸ hbits, hperiod, rfl⟩

/-! ## Walks over a buffer -/

section Walks

variable {width : Nat} {valueBytes : Nat → Bytes} {check : Nat → Bytes → Bool}

theorem slice_fillWhole (hvalue : ∀ index, (valueBytes index).length = width) {buffer : Bytes}
    {index : Nat} (hindex : index < buffer.length / width) :
    (fillWhole width valueBytes buffer).slice (index * width) width = valueBytes index := by
  have hlength := Bytes.length_flatMap_range' hvalue 0 (buffer.length / width)
  have hfits : index * width + width ≤ buffer.length / width * width :=
    calc index * width + width = (index + 1) * width := (Nat.succ_mul index width).symm
      _ ≤ buffer.length / width * width := Nat.mul_le_mul_right width hindex
  rw [fillWhole, List.range_eq_range', Bytes.slice_append_left (hlength ▸ hfits),
    Bytes.slice_flatMap_range' hvalue 0 hindex, Nat.zero_add]

/-- The walk of a test meets the values one by one, each behind those ahead of it. -/
theorem allValues_iff (width : Nat) (check : Nat → Bytes → Bool) (count start : Nat)
    (buffer : Bytes) :
    allValues width check count start buffer = true ↔
      ∀ index < count, check (start + index) (buffer.slice (index * width) width) = true := by
  induction count generalizing start buffer with
  | zero => simp [allValues]
  | succ count ih =>
      have hrest : ∀ index, Bytes.slice (buffer.drop width) (index * width) width =
          buffer.slice ((index + 1) * width) width := by
        intro index
        rw [Bytes.slice, Bytes.slice, List.drop_drop, Nat.succ_mul, Nat.add_comm width]
      rw [allValues, Bool.and_eq_true, ih]
      constructor
      · rintro ⟨hfirst, hall⟩ index hindex
        cases index with
        | zero => simpa [Bytes.slice] using hfirst
        | succ index =>
            have hvalue := hall index (Nat.lt_of_succ_lt_succ hindex)
            rwa [hrest, Nat.add_right_comm] at hvalue
      · intro hall
        refine ⟨by simpa [Bytes.slice] using hall 0 (Nat.succ_pos count), ?_⟩
        intro index hindex
        rw [hrest, Nat.add_right_comm]
        exact hall (index + 1) (Nat.succ_lt_succ hindex)

/-- A buffer passes if it holds whole values only and the check accepts each of them. -/
theorem testWhole_iff (width : Nat) (check : Nat → Bytes → Bool) (buffer : Bytes) :
    testWhole width check buffer = true ↔ width ∣ buffer.length ∧
      ∀ index < buffer.length / width, check index (buffer.slice (index * width) width) = true := by
  rw [testWhole, Bool.and_eq_true, allValues_iff, beq_iff_eq, Nat.dvd_iff_mod_eq_zero]
  simp only [Nat.zero_add]

/-- In a buffer that has been filled the check meets the values that were written. -/
theorem testWhole_fillWhole_iff (hvalue : ∀ index, (valueBytes index).length = width)
    (buffer : Bytes) :
    testWhole width check (fillWhole width valueBytes buffer) = true ↔
      width ∣ buffer.length ∧
        ∀ index < buffer.length / width, check index (valueBytes index) = true := by
  rw [testWhole_iff, length_fillWhole hvalue]
  refine and_congr_right fun _ => forall₂_congr fun index hindex => ?_
  rw [slice_fillWhole hvalue hindex]

/-- A buffer of whole values is one that has been filled exactly if it holds what is written. -/
theorem eq_fillWhole_iff (hvalue : ∀ index, (valueBytes index).length = width)
    {buffer original : Bytes} (hlength : original.length = buffer.length)
    (hwhole : width ∣ buffer.length) :
    buffer = fillWhole width valueBytes original ↔
      ∀ index < buffer.length / width, buffer.slice (index * width) width = valueBytes index := by
  constructor
  · intro hfilled index hindex
    rw [hfilled]
    exact slice_fillWhole hvalue (hlength ▸ hindex)
  · intro hslices
    apply Bytes.eq_of_slices hwhole ((length_fillWhole hvalue original).trans hlength)
    intro index hindex
    rw [hslices index hindex, slice_fillWhole hvalue (hlength ▸ hindex)]

end Walks

/-! ## Regions -/

/-- A region of `length` bytes passes the test once it has been filled: it holds whole scale
factors, or whole values that all lie in the range of the width. -/
def Recognises (signal : SineSignal) (region : Region) (packet length : Nat) : Prop :=
  match region with
  | .scales => scaleSize ∣ length
  | .weights => True
  | .data => signal.width.bytes ∣ length ∧
      ∀ index < length / signal.width.bytes, signal.width.Fits (signal.value packet index)

theorem passes_filled_iff (signal : SineSignal) (region : Region) (packet : Nat)
    (buffer : Bytes) :
    signal.passes region packet (signal.filled region packet buffer) = true ↔
      signal.Recognises region packet buffer.length := by
  cases region with
  | scales =>
      have hscale : ∀ index : Nat, ((fun _ => unitScale) index : Bytes).length = scaleSize :=
        fun _ => rfl
      rw [passes, filled]
      exact (testWhole_fillWhole_iff hscale buffer).trans
        (and_iff_left fun _ _ => beq_self_eq_true unitScale)
  | weights =>
      rw [passes, filled, List.all_replicate]
      simp [Recognises]
  | data =>
      rw [passes, filled, testWhole_fillWhole_iff fun _ => signal.width.length_encode _]
      simp only [beq_iff_eq, SampleWidth.decode_encode_iff, Recognises]

end SineSignal

end VoltageCapture
