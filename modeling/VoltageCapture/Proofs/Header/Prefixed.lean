import VoltageCapture.Header.Prefixed
import VoltageCapture.Proofs.Reader

/-!
# The header block as a part of the stream

`Capture.headerSize` is the size that the first bytes of a stream declare for its
header block; the block is that many bytes and the payload is what follows.  The two
steps in which `Header.readPrefixed` reads, and the reader's own deliveries, move
neither border: from a reliable reader it gives the header in the block
(`of_readPrefixed`), and the bytes that it read past the block together with those
still in the reader are the payload.  Conversely `readPrefixed_of_headerSize` says when
reading succeeds.
-/

namespace VoltageCapture

namespace Capture

/-- The size of the header block of a stream, as its first bytes declare it. -/
def headerSize (hint : Nat) (content : Bytes) : Except Error Nat :=
  Header.scanSize (content.take (max hint 1))

/-- The header block of a stream, empty if no size is declared. -/
def headerBlock (hint : Nat) (content : Bytes) : Bytes :=
  match headerSize hint content with
  | .ok size => content.take size
  | .error _ => []

/-- The bytes behind the header block of a stream. -/
def payload (hint : Nat) (content : Bytes) : Bytes :=
  match headerSize hint content with
  | .ok size => content.drop size
  | .error _ => content

variable {hint size : Nat} {content : Bytes}

theorem headerBlock_eq (hsize : headerSize hint content = .ok size) :
    headerBlock hint content = content.take size := by
  rw [headerBlock, hsize]

theorem payload_eq (hsize : headerSize hint content = .ok size) :
    payload hint content = content.drop size := by
  rw [payload, hsize]

end Capture

namespace Header

variable {reader rest : Reader} {hint size : Nat} {header : Header} {leading bytes extra : Bytes}

/-! ## Completing the block -/

theorem of_extendTo (hreader : reader.Forthcoming)
    (hextend : extendTo size leading reader = (.ok bytes, rest)) :
    size ≤ bytes.length ∧ bytes ++ rest.unread = leading ++ reader.unread ∧
      rest.Succeeds reader := by
  unfold extendTo at hextend
  split at hextend
  · next hle =>
    simp only [Prod.mk.injEq, Except.ok.injEq] at hextend
    obtain ⟨rfl, rfl⟩ := hextend
    exact ⟨hle, rfl, .refl reader⟩
  split at hextend
  · simp at hextend
  split at hextend
  · simp at hextend
  next more after hread =>
  obtain ⟨rfl, hunread, hafter⟩ := hreader.of_readFull_ok hread
  simp only at hextend
  split at hextend
  · simp at hextend
  · next henough =>
    simp only [Prod.mk.injEq, Except.ok.injEq] at hextend
    obtain ⟨rfl, rfl⟩ := hextend
    refine ⟨?_, ?_, hafter⟩
    · rw [List.length_append]
      omega
    · rw [hunread, List.append_assoc, List.take_append_drop]

theorem extendTo_of_reliable (hreader : reader.Reliable) (hmax : size ≤ Bytes.maxLength)
    (leading : Bytes) (hle : size ≤ (leading ++ reader.unread).length) :
    ∃ bytes rest, extendTo size leading reader = (.ok bytes, rest) := by
  unfold extendTo
  split
  · exact ⟨_, _, rfl⟩
  · next hshort =>
    obtain ⟨after, hread, _, _⟩ := Reader.readFull_of_reliable hreader (size - leading.length)
    have hlength : size ≤ leading.length + (reader.unread.take (size - leading.length)).length := by
      rw [List.length_append] at hle
      rw [List.length_take]
      omega
    rw [if_neg (Nat.not_lt.mpr hmax)]
    simp only [hread, if_neg (Nat.not_lt.mpr hlength)]
    exact ⟨_, _, rfl⟩

/-! ## Splitting the stream -/

theorem of_splitAtSize (hsplit : splitAtSize size bytes = .ok (header, extra)) :
    ofBytes (bytes.take size) = .ok header ∧ extra = bytes.drop size := by
  unfold splitAtSize at hsplit
  cases hheader : ofBytes (bytes.take size) with
  | error error => simp [hheader, bind, Except.bind] at hsplit
  | ok found =>
      simp only [hheader, bind, Except.bind, pure, Except.pure, Except.ok.injEq,
        Prod.mk.injEq] at hsplit
      exact ⟨congrArg Except.ok hsplit.1, hsplit.2.symm⟩

theorem splitAtSize_of_ofBytes (hheader : ofBytes (bytes.take size) = .ok header) :
    splitAtSize size bytes = .ok (header, bytes.drop size) := by
  simp [splitAtSize, hheader, bind, Except.bind, pure, Except.pure]

theorem splitAtSize_of_ofBytes_error {error : Error}
    (hheader : ofBytes (bytes.take size) = .error error) :
    splitAtSize size bytes = .error error := by
  simp [splitAtSize, hheader, bind, Except.bind]

/-! ## Reading the block -/

/-- What reading the header block of a stream gives: the header in the block, and some
payload bytes ahead of those that are still in the reader. -/
theorem of_readPrefixed_of_forthcoming (hreader : reader.Forthcoming)
    (hread : readPrefixed reader hint = (.ok (header, extra), rest)) :
    (∃ size, Capture.headerSize hint reader.unread = .ok size ∧ size ≤ reader.unread.length) ∧
      ofBytes (Capture.headerBlock hint reader.unread) = .ok header ∧
      extra ++ rest.unread = Capture.payload hint reader.unread ∧ rest.Succeeds reader := by
  unfold readPrefixed at hread
  simp only at hread
  split at hread
  · simp at hread
  split at hread
  · simp at hread
  · simp at hread
  next leading after _ hfirst =>
  obtain ⟨rfl, hunread, hafter⟩ := hreader.of_readFull_ok hfirst
  split at hread
  · simp at hread
  next size hscan =>
  split at hread
  · simp at hread
  next bytes last hextend =>
  have hstart : reader.unread.take (max hint 1) ++ after.unread = reader.unread := by
    rw [hunread, List.take_append_drop]
  obtain ⟨hle, hbytes, hlast⟩ := of_extendTo (hafter.forthcoming hreader) hextend
  rw [hstart] at hbytes
  simp only [Prod.mk.injEq] at hread
  obtain ⟨hsplit, rfl⟩ := hread
  obtain ⟨hheader, rfl⟩ := of_splitAtSize hsplit
  have hsize : Capture.headerSize hint reader.unread = .ok size := hscan
  refine ⟨⟨size, hsize, ?_⟩, ?_, ?_, hlast.trans hafter⟩
  · rw [← hbytes, List.length_append]
    omega
  · rw [Capture.headerBlock_eq hsize, ← hbytes, List.take_append_of_le_length hle]
    exact hheader
  · rw [Capture.payload_eq hsize, ← hbytes, List.drop_append_of_le_length hle]

theorem of_readPrefixed (hreader : reader.Reliable)
    (hread : readPrefixed reader hint = (.ok (header, extra), rest)) :
    (∃ size, Capture.headerSize hint reader.unread = .ok size ∧ size ≤ reader.unread.length) ∧
      ofBytes (Capture.headerBlock hint reader.unread) = .ok header ∧
      extra ++ rest.unread = Capture.payload hint reader.unread ∧ rest.Reliable := by
  obtain ⟨hsize, hheader, hpayload, hrest⟩ :=
    of_readPrefixed_of_forthcoming hreader.forthcoming hread
  exact ⟨hsize, hheader, hpayload, hrest.reliable hreader⟩

/-- Reading the header block succeeds if its size is declared among the first bytes, the
stream holds all of it, buffers can, and a header stands in it. -/
theorem readPrefixed_of_headerSize (hreader : reader.Reliable) (hhint : hint ≤ Bytes.maxLength)
    (hmax : size ≤ Bytes.maxLength) (hsize : Capture.headerSize hint reader.unread = .ok size)
    (hle : size ≤ reader.unread.length) (hne : reader.unread ≠ [])
    (hheader : ofBytes (reader.unread.take size) = .ok header) :
    ∃ extra rest, readPrefixed reader hint = (.ok (header, extra), rest) := by
  obtain ⟨after, hfirst, hunread, hafter⟩ := Reader.readFull_of_reliable hreader (max hint 1)
  have hstart : reader.unread.take (max hint 1) ++ after.unread = reader.unread := by
    rw [hunread, List.take_append_drop]
  obtain ⟨bytes, rest, hextend⟩ :=
    extendTo_of_reliable hafter hmax (reader.unread.take (max hint 1)) (by rwa [hstart])
  obtain ⟨hlength, hbytes, _⟩ := of_extendTo hafter.forthcoming hextend
  have hsplit : splitAtSize size bytes = .ok (header, bytes.drop size) := by
    apply splitAtSize_of_ofBytes
    rw [← hheader, ← hstart, ← hbytes, List.take_append_of_le_length hlength]
  refine ⟨bytes.drop size, rest, ?_⟩
  unfold readPrefixed
  simp only [hfirst]
  split
  · next hlong =>
    have hmaxLength : 1 ≤ Bytes.maxLength := by decide
    omega
  split
  · next hcases => simp at hcases
  · next _ hcases =>
    -- the first step reads at least one byte
    simp only [Prod.mk.injEq, Except.ok.injEq, List.take_eq_nil_iff] at hcases
    rcases hcases.1 with hzero | hnil
    · omega
    · exact absurd hnil hne
  · next leading _ _ hcases =>
    simp only [Prod.mk.injEq, Except.ok.injEq] at hcases
    obtain ⟨rfl, rfl⟩ := hcases
    rw [Capture.headerSize] at hsize
    simp only [hsize, hextend, hsplit]

end Header

end VoltageCapture
