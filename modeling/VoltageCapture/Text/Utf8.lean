import VoltageCapture.Bytes

/-!
# UTF-8

Text is stored in UTF-8.  `encode` writes each character in the one to four bytes
of its shortest form; `decode` reads such bytes back and refuses everything else:
a stray or missing continuation byte, an overlong form, a surrogate and a code
point past U+10FFFF.

A refusal says at which byte the first malformed sequence starts and what is wrong
with it: either some number of bytes that no continuation can mend, or a sequence
that the end of the input cuts short.
-/

namespace VoltageCapture.Utf8

/-! ### Writing -/

/-- The bytes of one character. -/
def encodeChar (c : Char) : Bytes :=
  let n := c.toNat
  if n < 0x80 then
    [UInt8.ofNat n]
  else if n < 0x800 then
    [UInt8.ofNat (0xC0 + n / 64), UInt8.ofNat (0x80 + n % 64)]
  else if n < 0x10000 then
    [UInt8.ofNat (0xE0 + n / 4096), UInt8.ofNat (0x80 + n / 64 % 64), UInt8.ofNat (0x80 + n % 64)]
  else
    [UInt8.ofNat (0xF0 + n / 262144), UInt8.ofNat (0x80 + n / 4096 % 64),
      UInt8.ofNat (0x80 + n / 64 % 64), UInt8.ofNat (0x80 + n % 64)]

/-- The bytes of a text. -/
def encode (text : List Char) : Bytes :=
  text.flatMap encodeChar

/-- The bytes of a string. -/
def bytes (text : String) : Bytes :=
  encode text.toList

/-! ### Reading -/

/-- What is wrong with a byte sequence. -/
inductive Malformation where
  /-- Its first `length` bytes are part of no character. -/
  | invalid (length : Nat)
  /-- The input ends before the character is complete. -/
  | incomplete
deriving DecidableEq, Repr

/-- A malformed sequence and the index of its first byte. -/
structure DecodeError where
  index : Nat
  malformation : Malformation
deriving DecidableEq, Repr

/-- The text of a refusal. -/
def DecodeError.message (error : DecodeError) : String :=
  match error.malformation with
  | .invalid length => s!"invalid utf-8 sequence of {length} bytes from index {error.index}"
  | .incomplete => s!"incomplete utf-8 byte sequence from index {error.index}"

/-- Whether a byte continues a sequence. -/
def isContinuation (b : UInt8) : Bool :=
  0x80 ≤ b && b ≤ 0xBF

/-- Whether a byte may stand second in a sequence of three or four that starts with
`lead`.  The bounds shut out overlong forms, surrogates and code points that are
too large. -/
def isSecond (lead b : UInt8) : Bool :=
  if lead = 0xE0 then 0xA0 ≤ b && b ≤ 0xBF
  else if lead = 0xED then 0x80 ≤ b && b ≤ 0x9F
  else if lead = 0xF0 then 0x90 ≤ b && b ≤ 0xBF
  else if lead = 0xF4 then 0x80 ≤ b && b ≤ 0x8F
  else isContinuation b

/-- The six bits that a continuation byte carries. -/
def payload (b : UInt8) : Nat :=
  b.toNat % 64

/-- The first character of the bytes `lead :: rest`, and the bytes after it. -/
def decodeFirst (lead : UInt8) (rest : Bytes) : Except Malformation (Char × Bytes) :=
  if lead < 0x80 then
    .ok (Char.ofNat lead.toNat, rest)
  else if 0xC2 ≤ lead && lead ≤ 0xDF then
    match rest with
    | [] => .error .incomplete
    | second :: rest =>
      if isContinuation second then
        .ok (Char.ofNat (lead.toNat % 32 * 64 + payload second), rest)
      else .error (.invalid 1)
  else if 0xE0 ≤ lead && lead ≤ 0xEF then
    match rest with
    | [] => .error .incomplete
    | second :: rest =>
      if isSecond lead second then
        match rest with
        | [] => .error .incomplete
        | third :: rest =>
          if isContinuation third then
            .ok (Char.ofNat (lead.toNat % 16 * 4096 + payload second * 64 + payload third), rest)
          else .error (.invalid 2)
      else .error (.invalid 1)
  else if 0xF0 ≤ lead && lead ≤ 0xF4 then
    match rest with
    | [] => .error .incomplete
    | second :: rest =>
      if isSecond lead second then
        match rest with
        | [] => .error .incomplete
        | third :: rest =>
          if isContinuation third then
            match rest with
            | [] => .error .incomplete
            | fourth :: rest =>
              if isContinuation fourth then
                .ok (Char.ofNat (lead.toNat % 8 * 262144 + payload second * 4096
                  + payload third * 64 + payload fourth), rest)
              else .error (.invalid 3)
          else .error (.invalid 2)
      else .error (.invalid 1)
  else .error (.invalid 1)

/-- Reading a character uses up at least its lead byte. -/
theorem length_le_of_decodeFirst {lead : UInt8} {rest : Bytes} {c : Char} {after : Bytes}
    (h : decodeFirst lead rest = .ok (c, after)) : after.length ≤ rest.length := by
  unfold decodeFirst at h
  repeat' split at h
  all_goals
    simp only [Except.ok.injEq, Prod.mk.injEq, reduceCtorEq] at h
  all_goals
    obtain ⟨_, rfl⟩ := h
    grind

/-- Reads the characters of `bytes`, which start at `index` of the whole input;
`decoded` holds those read before, latest first. -/
def decodeFrom (index : Nat) (decoded : List Char) (bytes : Bytes) :
    Except DecodeError (List Char) :=
  match bytes with
  | [] => .ok decoded.reverse
  | lead :: rest =>
    match _h : decodeFirst lead rest with
    | .error malformation => .error ⟨index, malformation⟩
    | .ok (c, after) => decodeFrom (index + c.utf8Size) (c :: decoded) after
termination_by bytes.length
decreasing_by
  have := length_le_of_decodeFirst _h
  simp only [List.length_cons]
  omega

/-- The text that the bytes encode. -/
def decode (bytes : Bytes) : Except DecodeError (List Char) :=
  decodeFrom 0 [] bytes

end VoltageCapture.Utf8
