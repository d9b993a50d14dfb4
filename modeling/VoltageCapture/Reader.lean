import VoltageCapture.Error

/-!
# Readers

A reader hands over the bytes of a source in order, a few at a time.  What a caller
can observe of it is fixed by the data of `Reader`: how many bytes one call gives at
most, how often it is interrupted before each of its attempts, and whether it breaks
once a number of bytes has been taken.

`Reader.readFull` is the one way the library reads: it asks again after every short
or interrupted delivery, until it has all the bytes it wants or the source is
exhausted.  It ends because each call either delivers a byte or uses up one of
finitely many interruptions.
-/

namespace VoltageCapture

/-- A source of bytes that is read from front to back.  An attempt is a call that is
not interrupted; attempts are counted from zero. -/
structure Reader where
  /-- The bytes not yet handed over. -/
  unread : Bytes
  /-- The number of bytes handed over. -/
  taken : Nat := 0
  /-- The most bytes that an attempt hands over, if it is limited. -/
  limit : Nat → Option Nat := fun _ => none
  /-- The number of interrupted calls ahead of each attempt. -/
  interruptions : Nat → Nat := fun _ => 0
  /-- The index of the next attempt. -/
  attempt : Nat := 0
  /-- The interrupted calls that are still ahead of the next attempt. -/
  pending : Nat := 0
  /-- The number of bytes after which every attempt fails, and why it does. -/
  failure : Option (Nat × IoCause) := none

/-- What one call of a reader gives. -/
inductive Delivery where
  /-- The call was interrupted and may be repeated. -/
  | interrupted
  /-- The source failed. -/
  | failed (cause : IoCause)
  /-- Some bytes, none only at the end of the source. -/
  | bytes (delivered : Bytes)
deriving DecidableEq, Repr

namespace Reader

/-- A reader of the given bytes that never stalls, stops short or fails. -/
def ofBytes (bytes : Bytes) : Reader :=
  { unread := bytes }

/-- A reader whose every attempt fails. -/
def broken (cause : IoCause) : Reader :=
  { unread := [], failure := some (0, cause) }

/-- The reader at its next attempt. -/
def advance (reader : Reader) : Reader :=
  { reader with
    attempt := reader.attempt + 1
    pending := reader.interruptions (reader.attempt + 1) }

/-- The most bytes that the next attempt can give, whatever its limit: those ahead of
the failure, if there is one. -/
def reach (reader : Reader) : Option Nat :=
  reader.failure.map fun failure => failure.1 - reader.taken

/-- The smaller of a number and a bound, if there is a bound. -/
def atMost (bound : Option Nat) (n : Nat) : Nat :=
  match bound with
  | none => n
  | some bound => min bound n

/-- The number of bytes that the next attempt gives to a caller who wants `wanted`. -/
def share (reader : Reader) (wanted : Nat) : Nat :=
  atMost reader.reach (atMost (reader.limit reader.attempt) wanted)

/-- The cause of failure, if the next attempt fails. -/
def failureNow? (reader : Reader) : Option IoCause :=
  match reader.failure with
  | some (offset, cause) => if offset ≤ reader.taken then some cause else none
  | none => none

/-- Hands over the first bytes of the source. -/
def deliver (reader : Reader) (count : Nat) : Bytes × Reader :=
  let delivered := reader.unread.take count
  (delivered, { reader.advance with
    unread := reader.unread.drop count
    taken := reader.taken + delivered.length })

/-- One call: asks for up to `wanted` bytes. -/
def read (reader : Reader) (wanted : Nat) : Delivery × Reader :=
  match reader.pending with
  | pending + 1 => (.interrupted, { reader with pending })
  | 0 =>
    match reader.failureNow? with
    | some cause => (.failed cause, reader.advance)
    | none =>
      let (delivered, reader) := reader.deliver (reader.share wanted)
      (.bytes delivered, reader)

/-- An interrupted call leaves one interruption less. -/
theorem pending_lt_of_read {reader after : Reader} {wanted : Nat}
    (h : reader.read wanted = (.interrupted, after)) : after.pending < reader.pending := by
  unfold read at h
  split at h
  · next pending hpending =>
    simp only [Prod.mk.injEq, true_and] at h
    subst h
    simp [hpending]
  · split at h <;> simp at h

/-- Reads until `wanted` more bytes are there or the source is exhausted; `got` holds
the bytes read before, latest first. -/
def readFullFrom (reader : Reader) (wanted : Nat) (got : List UInt8) :
    Except IoCause Bytes × Reader :=
  if wanted = 0 then
    (.ok got.reverse, reader)
  else
    match _h : reader.read wanted with
    | (.interrupted, reader) => readFullFrom reader wanted got
    | (.failed cause, reader) => (.error cause, reader)
    | (.bytes [], reader) => (.ok got.reverse, reader)
    | (.bytes (b :: bs), reader) =>
      readFullFrom reader (wanted - (bs.length + 1)) ((b :: bs).reverse ++ got)
termination_by (wanted, reader.pending)
decreasing_by
  · exact Prod.Lex.right _ (pending_lt_of_read _h)
  · exact Prod.Lex.left _ _ (by omega)

/-- Reads `wanted` bytes, or as many as the source still has. -/
def readFull (reader : Reader) (wanted : Nat) : Except IoCause Bytes × Reader :=
  reader.readFullFrom wanted []

/-- An interrupted call hands over nothing. -/
theorem unread_of_read_interrupted {reader after : Reader} {wanted : Nat}
    (h : reader.read wanted = (.interrupted, after)) : after.unread = reader.unread := by
  unfold read at h
  split at h
  · simp only [Prod.mk.injEq, true_and] at h
    subst h
    rfl
  · split at h <;> simp at h

/-- What a call hands over, and what is left after it, is what there was before. -/
theorem unread_of_read_bytes {reader after : Reader} {wanted : Nat} {delivered : Bytes}
    (h : reader.read wanted = (.bytes delivered, after)) :
    delivered ++ after.unread = reader.unread := by
  unfold read at h
  split at h
  · simp at h
  · split at h
    · simp at h
    · simp only [deliver, Prod.mk.injEq, Delivery.bytes.injEq] at h
      rw [← h.1, ← h.2]
      exact List.take_append_drop _ _

/-- What is read, and what is left after it, is what there was before. -/
theorem unread_of_readFullFrom {reader after : Reader} {wanted : Nat} {got bytes : Bytes}
    (h : reader.readFullFrom wanted got = (.ok bytes, after)) :
    bytes ++ after.unread = got.reverse ++ reader.unread := by
  fun_induction readFullFrom reader wanted got with
  | case1 => grind
  | case2 reader wanted got _ reader' hread ih =>
    rw [ih h, unread_of_read_interrupted hread]
  | case3 => grind
  | case4 reader wanted got _ reader' hread =>
    have hunread := unread_of_read_bytes hread
    simp only [Prod.mk.injEq, Except.ok.injEq] at h
    rw [← h.1, ← h.2, ← hunread]
    rfl
  | case5 reader wanted got _ b bs reader' hread ih =>
    rw [ih h, ← unread_of_read_bytes hread]
    simp

/-- What is read, and what is left after it, is what there was before. -/
theorem unread_of_readFull {reader after : Reader} {wanted : Nat} {bytes : Bytes}
    (h : reader.readFull wanted = (.ok bytes, after)) : bytes ++ after.unread = reader.unread :=
  unread_of_readFullFrom h

end Reader

end VoltageCapture
