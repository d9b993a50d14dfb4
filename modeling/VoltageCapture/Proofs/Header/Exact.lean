import Mathlib
import VoltageCapture.Proofs.Header.Prefixed

/-!
# Reading the header block, to the byte

Where the header block of a stream ends, and how reading it ends, depends on the bytes of the stream
and on the hint alone: `Header.ReadsAs` gives the outcome and the number of bytes taken for each
stream.  `Header.readPrefixed_exact` says that every reliable reader keeps to it, whatever its
deliveries are, and that the bytes it read past the block and those it has left are what stands
behind the block.

Each step takes a count of bytes off the reader (`Reader.Takes`), and the counts of the two steps
add up (`Reader.Takes.trans`).
-/

namespace VoltageCapture

namespace Header

variable {reader : Reader} {hint size count : Nat} {content leading : Bytes}
  {result : Except Error (Header × Bytes)}

/-! ## How reading ends -/

/-- What reading the header block of a stream gives, and how many bytes of the stream it takes. -/
inductive ReadsAs (hint : Nat) (content : Bytes) : Except Error (Header × Bytes) → Nat → Prop
  /-- There is nothing to read. -/
  | empty (hempty : content = []) : ReadsAs hint content (.error (.io "stream is empty" none)) 0
  /-- The first bytes do not say how long the block is. -/
  | unsized {error : Error} (hne : content ≠ [])
      (hsize : Capture.headerSize hint content = .error error) :
      ReadsAs hint content (.error error) (content.take (max hint 1)).length
  /-- The stream ends within the block. -/
  | truncated {size : Nat} (hne : content ≠ [])
      (hsize : Capture.headerSize hint content = .ok size) (hshort : content.length < size) :
      ReadsAs hint content (.error (.io
        s!"header truncated: HDR_SIZE is {size} but only {content.length} bytes available" none))
        content.length
  /-- No header stands in the block. -/
  | malformed {size : Nat} {error : Error} (hne : content ≠ [])
      (hsize : Capture.headerSize hint content = .ok size) (hfits : size ≤ content.length)
      (hheader : ofBytes (content.take size) = .error error) :
      ReadsAs hint content (.error error) (max size (content.take (max hint 1)).length)
  /-- The header is read, and perhaps some of the bytes behind the block. -/
  | header {size : Nat} {header : Header} (hne : content ≠ [])
      (hsize : Capture.headerSize hint content = .ok size) (hfits : size ≤ content.length)
      (hheader : ofBytes (content.take size) = .ok header) :
      ReadsAs hint content
        (.ok (header, content.slice size (max size (content.take (max hint 1)).length - size)))
        (max size (content.take (max hint 1)).length)

/-- A stream is read in one way only. -/
theorem ReadsAs.unique {found : Except Error (Header × Bytes)} {more : Nat}
    (hreads : ReadsAs hint content result count) (hother : ReadsAs hint content found more) :
    found = result ∧ more = count := by
  cases hreads <;> cases hother <;> simp_all <;> omega

/-! ## The two steps -/

/-- The second step takes what is missing of the block, or all there is. -/
theorem extendTo_of_takes (hreader : reader.Reliable) (hmax : size ≤ Bytes.maxLength)
    (hcontent : leading ++ reader.unread = content) :
    (size ≤ content.length → ∃ after,
      extendTo size leading reader = (.ok (content.take (max size leading.length)), after) ∧
        reader.Takes (max size leading.length - leading.length) after) ∧
    (content.length < size → ∃ after,
      extendTo size leading reader = (.error (.io
        s!"header truncated: HDR_SIZE is {size} but only {content.length} bytes available" none),
        after) ∧ reader.Takes reader.unread.length after) := by
  have hlength : content.length = leading.length + reader.unread.length := by
    rw [← hcontent, List.length_append]
  by_cases hle : size ≤ leading.length
  · refine ⟨fun _ => ⟨reader, ?_, ?_⟩, fun hshort => by omega⟩
    · rw [extendTo, if_pos hle, Nat.max_eq_right hle, ← hcontent, List.take_left]
    · rw [Nat.max_eq_right hle, Nat.sub_self]
      exact .zero reader
  · obtain ⟨after, hread, htakes, -⟩ := hreader.takes_readFull (size - leading.length)
    have htaken := List.length_take (i := size - leading.length) (l := reader.unread)
    have hextend : extendTo size leading reader =
        if leading.length + (reader.unread.take (size - leading.length)).length < size then
          (.error (.io s!"header truncated: HDR_SIZE is {size} but only {leading.length +
            (reader.unread.take (size - leading.length)).length} bytes available" none), after)
        else (.ok (leading ++ reader.unread.take (size - leading.length)), after) := by
      rw [extendTo, if_neg hle, if_neg (Nat.not_lt.mpr hmax), hread]
    constructor
    · intro hfits
      have htake : content.take size =
          leading ++ reader.unread.take (size - leading.length) := by
        rw [← hcontent, List.take_append, List.take_of_length_le (l := leading) (by omega)]
      refine ⟨after, ?_, ?_⟩
      · rw [hextend, if_neg (by omega), Nat.max_eq_left (by omega), htake]
      · rwa [Nat.max_eq_left (by omega), ← Nat.min_eq_left (a := size - leading.length)
          (b := reader.unread.length) (by omega), ← htaken]
    · intro hshort
      have hall : (reader.unread.take (size - leading.length)).length = reader.unread.length := by
        omega
      refine ⟨after, ?_, ?_⟩
      · rw [hextend, hall, if_pos (by omega), hlength]
      · rwa [hall] at htakes

theorem not_maxLength_lt (hhint : hint ≤ Bytes.maxLength) : ¬Bytes.maxLength < max hint 1 := by
  have hmax : 1 ≤ Bytes.maxLength := by decide
  omega

theorem readPrefixed_of_nil {after : Reader} (hhint : hint ≤ Bytes.maxLength)
    (hread : reader.readFull (max hint 1) = (.ok [], after)) :
    readPrefixed reader hint = (.error (.io "stream is empty" none), after) := by
  rw [readPrefixed, if_neg (not_maxLength_lt hhint), hread]

section SecondStep

variable {after rest : Reader} (hhint : hint ≤ Bytes.maxLength)
  (hread : reader.readFull (max hint 1) = (.ok leading, after)) (hne : leading ≠ [])

include hhint hread hne

theorem readPrefixed_of_scanSize_error {error : Error} (hscan : scanSize leading = .error error) :
    readPrefixed reader hint = (.error error, after) := by
  cases leading with
  | nil => exact absurd rfl hne
  | cons b leading => simp only [readPrefixed, hread, if_neg (not_maxLength_lt hhint), hscan]

theorem readPrefixed_of_extendTo_error {error : Error} (hscan : scanSize leading = .ok size)
    (hextend : extendTo size leading after = (.error error, rest)) :
    readPrefixed reader hint = (.error error, rest) := by
  cases leading with
  | nil => exact absurd rfl hne
  | cons b leading =>
      simp only [readPrefixed, hread, if_neg (not_maxLength_lt hhint), hscan, hextend]

theorem readPrefixed_of_extendTo_ok {bytes : Bytes} (hscan : scanSize leading = .ok size)
    (hextend : extendTo size leading after = (.ok bytes, rest)) :
    readPrefixed reader hint = (splitAtSize size bytes, rest) := by
  cases leading with
  | nil => exact absurd rfl hne
  | cons b leading =>
      simp only [readPrefixed, hread, if_neg (not_maxLength_lt hhint), hscan, hextend]

end SecondStep

/-! ## Both steps -/

theorem readsAs_splitAtSize (hne : content ≠ [])
    (hsize : Capture.headerSize hint content = .ok size)
    (hfits : size ≤ content.length) :
    ReadsAs hint content
      (splitAtSize size (content.take (max size (content.take (max hint 1)).length)))
      (max size (content.take (max hint 1)).length) := by
  have hblock : (content.take (max size (content.take (max hint 1)).length)).take size =
      content.take size := by
    rw [List.take_take, Nat.min_eq_left (Nat.le_max_left _ _)]
  cases hheader : ofBytes (content.take size) with
  | error error =>
      rw [splitAtSize_of_ofBytes_error (hblock ▸ hheader)]
      exact .malformed hne hsize hfits hheader
  | ok header =>
      rw [splitAtSize_of_ofBytes (hblock ▸ hheader), List.drop_take]
      exact .header hne hsize hfits hheader

theorem exists_readsAs (hreader : reader.Reliable) (hhint : hint ≤ Bytes.maxLength)
    (hmax : ∀ size, Capture.headerSize hint reader.unread = .ok size → size ≤ Bytes.maxLength) :
    ∃ result rest count, readPrefixed reader hint = (result, rest) ∧
      ReadsAs hint reader.unread result count ∧ reader.Takes count rest := by
  obtain ⟨after, hread, htakes, hafter⟩ := hreader.takes_readFull (max hint 1)
  by_cases hempty : reader.unread = []
  · rw [hempty, List.take_nil] at hread htakes
    exact ⟨_, after, 0, readPrefixed_of_nil hhint hread, .empty hempty, htakes⟩
  have hne : reader.unread.take (max hint 1) ≠ [] := by
    rw [Ne, List.take_eq_nil_iff]
    exact fun hnil => hnil.elim (by omega) hempty
  have hcontent : reader.unread.take (max hint 1) ++ after.unread = reader.unread := by
    rw [htakes.unread_eq, List.length_take, ← List.drop_eq_drop_min, List.take_append_drop]
  cases hsize : Capture.headerSize hint reader.unread with
  | error error =>
      exact ⟨_, after, _, readPrefixed_of_scanSize_error hhint hread hne hsize,
        .unsized hempty hsize, htakes⟩
  | ok size =>
      obtain ⟨hwhole, hcut⟩ := extendTo_of_takes hafter (hmax size hsize) hcontent
      by_cases hfits : size ≤ reader.unread.length
      · obtain ⟨rest, hextend, hmore⟩ := hwhole hfits
        have hcount := htakes.trans hmore
        rw [Nat.add_sub_cancel' (Nat.le_max_right _ _)] at hcount
        exact ⟨_, rest, _, readPrefixed_of_extendTo_ok hhint hread hne hsize hextend,
          readsAs_splitAtSize hempty hsize hfits, hcount⟩
      · obtain ⟨rest, hextend, hmore⟩ := hcut (Nat.lt_of_not_le hfits)
        have hcount := htakes.trans hmore
        rw [← List.length_append, hcontent] at hcount
        exact ⟨_, rest, _, readPrefixed_of_extendTo_error hhint hread hne hsize hextend,
          .truncated hempty hsize (Nat.lt_of_not_le hfits), hcount⟩

/-- **Reading the header block is exact.**  What it gives and how many bytes it takes is settled by
the bytes of the stream and the hint: every other reader of these bytes, however it delivers them,
gives the same and takes as many.  On success the bytes read past the block, and those that are left
in the reader, are what stands behind the block. -/
theorem readPrefixed_exact (hreader : reader.Reliable) (hhint : hint ≤ Bytes.maxLength)
    (hmax : ∀ size, Capture.headerSize hint reader.unread = .ok size → size ≤ Bytes.maxLength) :
    ∃ result rest count, readPrefixed reader hint = (result, rest) ∧
      ReadsAs hint reader.unread result count ∧ reader.Takes count rest ∧
      (∀ size header extra, Capture.headerSize hint reader.unread = .ok size →
        result = .ok (header, extra) → extra ++ rest.unread = reader.unread.drop size) ∧
      ∀ other : Reader, other.Reliable → other.unread = reader.unread →
        ∃ otherRest, readPrefixed other hint = (result, otherRest) ∧
          other.Takes count otherRest := by
  obtain ⟨result, rest, count, hread, hreads, htakes⟩ := exists_readsAs hreader hhint hmax
  refine ⟨result, rest, count, hread, hreads, htakes, ?_, ?_⟩
  · rintro size header extra hsize rfl
    obtain ⟨-, -, hpayload, -⟩ := of_readPrefixed hreader hread
    rw [hpayload, Capture.payload_eq hsize]
  · intro other hother hsame
    obtain ⟨found, otherRest, more, hotherRead, hotherReads, hotherTakes⟩ :=
      exists_readsAs hother hhint (hsame ▸ hmax)
    rw [hsame] at hotherReads
    obtain ⟨rfl, rfl⟩ := hreads.unique hotherReads
    exact ⟨otherRest, hotherRead, hotherTakes⟩

/-- A header block of 12 bytes with a payload of seven behind it. -/
def tightCapture : Bytes :=
  Utf8.bytes "HDR_SIZE 12\npayload"

/-- A hint of 16 reads four bytes too many, whether the reader stutters or not. -/
theorem readPrefixed_exact_tightCapture :
    ∃ rest otherRest,
      readPrefixed (.stuttering tightCapture 5 2) 16 =
        (.ok (⟨[⟨"HDR_SIZE", "12"⟩]⟩, Utf8.bytes "payl"), rest) ∧
      readPrefixed (.ofBytes tightCapture) 16 =
        (.ok (⟨[⟨"HDR_SIZE", "12"⟩]⟩, Utf8.bytes "payl"), otherRest) ∧
      rest.taken = 16 ∧ otherRest.taken = 16 ∧ rest.unread = Utf8.bytes "oad" := by
  have hsize : Capture.headerSize 16 tightCapture = .ok 12 := by cbv
  have hheader : ofBytes (tightCapture.take 12) = .ok ⟨[⟨"HDR_SIZE", "12"⟩]⟩ := by cbv
  have hreader : (Reader.stuttering tightCapture 5 2).Reliable :=
    .stuttering tightCapture (by decide) 2
  have hhint : 16 ≤ Bytes.maxLength := by decide
  have hmax : ∀ size, Capture.headerSize 16 tightCapture = .ok size → size ≤ Bytes.maxLength := by
    intro size hfound
    obtain rfl := Except.ok.inj (hsize.symm.trans hfound)
    decide
  obtain ⟨result, rest, count, hread, hreads, htakes, -, hothers⟩ :=
    readPrefixed_exact hreader hhint hmax
  obtain ⟨rfl, rfl⟩ := (ReadsAs.header (by decide) hsize (by decide) hheader).unique hreads
  obtain ⟨otherRest, hother, hotherTakes⟩ :=
    hothers (.ofBytes tightCapture) (.ofBytes tightCapture) rfl
  exact ⟨rest, otherRest, hread, hother, htakes.taken_eq, hotherTakes.taken_eq, htakes.unread_eq⟩

end Header

end VoltageCapture
