import VoltageCapture.Proofs.RandomSequence

/-!
# A sequence is a cursor over fixed bytes

A sequence may be called in any order: bytes are taken from it or compared with it, and it is
moved about.  A comparison stops at the first chunk that differs, so what has been read of the
hash by then depends on the bytes that were passed.  Still no call can be told apart from one to
a `Cursor`, which has nothing but a position in a string of bytes that never changes
(`run_eq_cursor`).  The step lemma `answer_eq_cursor` says so for one call; that the cursor moves past
all bytes also where they differ is what lets the next step start from the same position.
-/

namespace VoltageCapture.RandomSequence

/-! ## Calls -/

/-- A call to a sequence. -/
inductive Call where
  | generate (count : Nat)
  | validate (bytes : Bytes)
  | seek (position : Nat)
  | reset

/-- What a call gives back. -/
inductive Answer where
  | generated (bytes : Bytes)
  | validated (passed : Bool)
  | moved
deriving DecidableEq

/-- The answer to a call, and the sequence after it. -/
def answer (sequence : RandomSequence) : Call → Answer × RandomSequence
  | .generate count => (sequence.generate count).map .generated id
  | .validate bytes => (sequence.validate bytes).map .validated id
  | .seek position => (.moved, sequence.seek position)
  | .reset => (.moved, sequence.reset)

/-- The answers to some calls in turn, and the sequence after them. -/
def run (sequence : RandomSequence) : List Call → List Answer × RandomSequence
  | [] => ([], sequence)
  | call :: calls =>
    let (first, sequence) := sequence.answer call
    let (rest, sequence) := sequence.run calls
    (first :: rest, sequence)

/-! ## Cursors -/

/-- A position in an infinite string of bytes. -/
structure Cursor where
  content : Nat → UInt8
  position : Nat

namespace Cursor

/-- The next `count` bytes. -/
def next (cursor : Cursor) (count : Nat) : Bytes :=
  (List.range' cursor.position count).map cursor.content

/-- The cursor at another position. -/
def moveTo (cursor : Cursor) (position : Nat) : Cursor :=
  { cursor with position }

/-- The answer to a call, and the cursor after it. -/
def answer (cursor : Cursor) : Call → Answer × Cursor
  | .generate count => (.generated (cursor.next count), cursor.moveTo (cursor.position + count))
  | .validate bytes =>
    (.validated (bytes = cursor.next bytes.length),
      cursor.moveTo (cursor.position + bytes.length))
  | .seek position => (.moved, cursor.moveTo position)
  | .reset => (.moved, cursor.moveTo 0)

/-- The answers to some calls in turn, and the cursor after them. -/
def run (cursor : Cursor) : List Call → List Answer × Cursor
  | [] => ([], cursor)
  | call :: calls =>
    let (first, cursor) := cursor.answer call
    let (rest, cursor) := cursor.run calls
    (first :: rest, cursor)

end Cursor

/-! ## No call tells them apart -/

/-- The cursor at the position of a sequence, over the output of the hash with its key. -/
def cursor (sequence : RandomSequence) : Cursor where
  content := (Blake3.keyedHash sequence.key []).outputByte
  position := sequence.position

theorem next_cursor (sequence : RandomSequence) (count : Nat) :
    sequence.cursor.next count = bytesAt sequence.key sequence.position count :=
  (bytesAt_eq_map _ _ _).symm

/-- A call gives the answer of the cursor, and moves to where the cursor moves. -/
theorem answer_eq_cursor (sequence : RandomSequence) (call : Call) :
    (sequence.answer call).1 = (sequence.cursor.answer call).1 ∧
      (sequence.answer call).2 = sequence.seek (sequence.cursor.answer call).2.position ∧
      (sequence.cursor.answer call).2 = (sequence.answer call).2.cursor := by
  cases call with
  | generate count =>
      refine ⟨?_, rfl, rfl⟩
      show Answer.generated _ = Answer.generated _
      rw [next_cursor]
  | validate bytes =>
      simp only [answer, validate_eq, Cursor.answer, next_cursor]
      exact ⟨rfl, rfl, rfl⟩
  | seek position => exact ⟨rfl, rfl, rfl⟩
  | reset => exact ⟨rfl, rfl, rfl⟩

/-- However a sequence is called, its answers are those of the cursor.  The induction is on the
calls that are left. -/
theorem run_eq_cursor (sequence : RandomSequence) (calls : List Call) :
    (sequence.run calls).1 = (sequence.cursor.run calls).1 ∧
      (sequence.run calls).2 = sequence.seek (sequence.cursor.run calls).2.position := by
  induction calls generalizing sequence with
  | nil => exact ⟨rfl, rfl⟩
  | cons call calls ih =>
      obtain ⟨hanswer, hafter, hcursor⟩ := answer_eq_cursor sequence call
      obtain ⟨hrest, hlast⟩ := ih (sequence.answer call).2
      rw [← hcursor] at hrest hlast
      refine ⟨?_, ?_⟩
      · show (sequence.answer call).1 :: ((sequence.answer call).2.run calls).1 = _
        rw [hanswer, hrest]
        rfl
      · show ((sequence.answer call).2.run calls).2 = _
        rw [hlast, hafter]
        rfl

/-! ## Pieces and positions -/

/-- Bytes that are taken in two pieces are those of one call. -/
theorem generate_add (sequence : RandomSequence) (first second : Nat) :
    sequence.generate (first + second) =
      ((sequence.generate first).1 ++ ((sequence.generate first).2.generate second).1,
        ((sequence.generate first).2.generate second).2) := by
  have hposition : sequence.position + (first + second) = sequence.position + first + second :=
    (Nat.add_assoc _ _ _).symm
  simp only [generate, bytesAt_add, hposition]

/-- Moving to a position is as good as taking all bytes ahead of it. -/
theorem seek_eq_generate (sequence : RandomSequence) (position : Nat) :
    sequence.seek position = (sequence.reset.generate position).2 := by
  simp only [seek, reset, generate, Nat.zero_add]

/-- **A sequence is a cursor over one string of bytes.**  For a seed and a stream there is a
string of bytes, the one that single bytes can be taken from.  Whatever calls are made, their
answers are those of a cursor over it, and the seed and the position are what they should be.
From there on bytes may be taken in pieces, and a position may be reached by taking all bytes
ahead of it. -/
theorem cursor_over_content (seed : Nat) (stream : String) :
    ∃ content : Nat → UInt8,
      (∀ position, (((ofSeedAndStream seed stream).seek position).generate 1).1 =
        [content position]) ∧
      ∀ calls : List Call,
        let (answers, used) := (ofSeedAndStream seed stream).run calls
        let (expected, cursor) := (Cursor.mk content 0).run calls
        answers = expected ∧ used.seed = seed ∧ used.position = cursor.position ∧
          (∀ first second, used.generate (first + second) =
            ((used.generate first).1 ++ ((used.generate first).2.generate second).1,
              ((used.generate first).2.generate second).2)) ∧
          ∀ position, used.seek position = (used.reset.generate position).2 := by
  refine ⟨(ofSeedAndStream seed stream).cursor.content, ?_, ?_⟩
  · intro position
    exact bytesAt_eq_map _ _ _
  · intro calls
    obtain ⟨hanswers, hused⟩ := run_eq_cursor (ofSeedAndStream seed stream) calls
    refine ⟨hanswers, ?_, ?_, generate_add _, seek_eq_generate _⟩
    · rw [hused]
      rfl
    · rw [hused]
      rfl

end VoltageCapture.RandomSequence
