import Mathlib.Algebra.Order.BigOperators.Group.Finset
import VoltageCapture.Proofs.Bytes
import VoltageCapture.Proofs.Error
import VoltageCapture.Proofs.Reader

/-!
# Filling a buffer

Reading in full is a loop over the calls of a reader that fills a buffer from its front.  A
`Filling` is where the loop stands.  One turn of it makes at most one call, and a turn that does not
end the loop leaves fewer calls to be made: it uses up an interruption, or there is a byte less to
come (`Filling.callsLeft_step`).

* `Filling.isSome_run`: the loop ends, whatever the reader does.
* `Filling.Fills.run`: at any time the bytes taken off the reader are those at the front of the
  buffer, and the rest of the buffer is what it was.
* `Filling.endsAs_run`: `Reader.readFull` gives what the loop ends with.
* `Reader.readFull_exact`: how much of the buffer a forthcoming reader fills, and when it fails.
-/

namespace VoltageCapture

/-! ## The calls ahead -/

namespace Reader

variable {reader after : Reader} {wanted : Nat}

/-- The calls that it takes at most to be handed `count` bytes and then to be told that there are
no more: one for each byte and one at the end, and the interrupted ones ahead of each of these. -/
def callsFor (reader : Reader) (count : Nat) : Nat :=
  reader.pending + 1 +
    ∑ index ∈ Finset.range count, (reader.interruptions (reader.attempt + 1 + index) + 1)

theorem callsFor_mono (reader : Reader) {count more : Nat} (hle : count ≤ more) :
    reader.callsFor count ≤ reader.callsFor more :=
  Nat.add_le_add_left (Finset.sum_le_sum_of_subset (Finset.range_subset_range.mpr hle)) _

theorem callsFor_of_read_interrupted (hread : reader.read wanted = (.interrupted, after))
    (count : Nat) : after.callsFor count < reader.callsFor count := by
  unfold read at hread
  split at hread
  · next pending hpending =>
    obtain ⟨-, rfl⟩ := Prod.mk.inj hread
    simp only [callsFor, hpending]
    omega
  · split at hread <;> simp at hread

/-- An attempt is over, and so are the interruptions ahead of it. -/
theorem callsFor_of_read_bytes {delivered : Bytes}
    (hread : reader.read wanted = (.bytes delivered, after)) (count : Nat) :
    after.callsFor count < reader.callsFor (count + 1) := by
  unfold read at hread
  split at hread
  · simp at hread
  split at hread
  · simp at hread
  next hpending _ _ =>
  obtain ⟨-, rfl⟩ := Prod.mk.inj hread
  simp only [callsFor, advance, hpending, Finset.sum_range_succ', Nat.add_zero]
  simp only [Nat.add_assoc, Nat.add_comm 1]
  omega

end Reader

/-! ## The loop -/

/-- A buffer that is being filled from a reader, and the number of bytes that are there already. -/
structure Filling where
  reader : Reader
  buffer : Bytes
  filled : Nat

namespace Filling

variable {reader : Reader} {buffer bytes : Bytes} {count turns : Nat} {filling after : Filling}
  {result : Except IoCause Nat}

/-- A buffer that nothing has been read into. -/
def start (reader : Reader) (buffer : Bytes) : Filling :=
  ⟨reader, buffer, 0⟩

/-- The number of bytes that are not there yet. -/
def missing (filling : Filling) : Nat :=
  filling.buffer.length - filling.filled

/-- Puts what the reader has handed over behind the bytes that are there. -/
def put (filling : Filling) (reader : Reader) (bytes : Bytes) : Filling where
  reader := reader
  buffer := filling.buffer.overwrite filling.filled bytes
  filled := filling.filled + bytes.length

/-- One turn of the loop, and its result if it is the last.  A full buffer is not read for. -/
def step (filling : Filling) : Filling × Option (Except IoCause Nat) :=
  if filling.missing = 0 then
    (filling, some (.ok filling.filled))
  else
    match filling.reader.read filling.missing with
    | (.interrupted, reader) => ({ filling with reader }, none)
    | (.failed cause, reader) => ({ filling with reader }, some (.error cause))
    -- a delivery without a byte is the end of the source, not a reason to ask again
    | (.bytes [], reader) => ({ filling with reader }, some (.ok filling.filled))
    | (.bytes (b :: bs), reader) => (filling.put reader (b :: bs), none)

/-- The loop after so many turns, and its result if it has ended by then. -/
def run (filling : Filling) : Nat → Filling × Option (Except IoCause Nat)
  | 0 => (filling, none)
  | turns + 1 =>
    match filling.step.2 with
    | none => filling.step.1.run turns
    | some result => (filling.step.1, some result)

theorem put_nil (filling : Filling) (reader : Reader) :
    filling.put reader [] = { filling with reader } := by
  simp [put, Bytes.overwrite]

theorem missing_put (hpos : 0 < bytes.length) (hle : bytes.length ≤ filling.missing) :
    (filling.put reader bytes).missing = filling.missing - bytes.length := by
  simp only [missing, put] at hle ⊢
  rw [Bytes.length_overwrite (by omega)]
  omega

theorem take_put (hpos : 0 < bytes.length) (hle : bytes.length ≤ filling.missing) :
    (filling.put reader bytes).buffer.take (filling.put reader bytes).filled =
      filling.buffer.take filling.filled ++ bytes := by
  rw [missing] at hle
  exact Bytes.take_overwrite (by omega) bytes

/-! ## The loop ends -/

/-- The turns that the loop still takes at most. -/
def callsLeft (filling : Filling) : Nat :=
  filling.reader.callsFor (min filling.missing filling.reader.unread.length)

/-- A turn that does not end the loop brings its end nearer. -/
theorem callsLeft_step (filling : Filling) :
    filling.step.2 = none → filling.step.1.callsLeft < filling.callsLeft := by
  fun_cases step filling with
  | case1 | case3 | case4 => simp
  | case2 _ rest hread =>
      intro _
      simp only [callsLeft, missing, Reader.unread_of_read_interrupted hread]
      exact Reader.callsFor_of_read_interrupted hread _
  | case5 _ b bs rest hread =>
      intro _
      obtain ⟨htakes, -, hle⟩ := Reader.takes_of_read hread
      have hpos : 0 < (b :: bs).length := Nat.succ_pos _
      have hfits := htakes.le
      simp only [Delivery.handedOver] at hle hfits
      -- however many bytes came, at least one less is ahead
      have hless : min (filling.put rest (b :: bs)).missing rest.unread.length + 1 ≤
          min filling.missing filling.reader.unread.length := by
        rw [missing_put hpos hle, htakes.unread_eq, List.length_drop, Delivery.handedOver]
        omega
      calc (filling.put rest (b :: bs)).callsLeft
          < filling.reader.callsFor
              (min (filling.put rest (b :: bs)).missing rest.unread.length + 1) :=
            Reader.callsFor_of_read_bytes hread _
        _ ≤ filling.callsLeft := filling.reader.callsFor_mono hless

/-- The loop ends within the calls that are left. -/
theorem isSome_run (hturns : filling.callsLeft ≤ turns) : (filling.run turns).2.isSome := by
  induction turns generalizing filling with
  | zero => simp [callsLeft, Reader.callsFor] at hturns
  | succ turns ih =>
      rw [run]
      cases hstep : filling.step.2 with
      | none =>
          have hless := filling.callsLeft_step hstep
          exact ih (Nat.le_of_lt_succ (Nat.lt_of_lt_of_le hless hturns))
      | some result => rfl

/-- Once it has ended, more turns make no difference. -/
theorem run_eq_of_isSome {more : Nat} (hended : (filling.run turns).2.isSome)
    (hle : turns ≤ more) : filling.run more = filling.run turns := by
  induction turns generalizing filling more with
  | zero => simp [run] at hended
  | succ turns ih =>
      obtain ⟨more, rfl⟩ := Nat.exists_eq_add_one_of_ne_zero (Nat.ne_zero_of_lt hle)
      rw [run] at hended
      rw [run, run]
      cases hstep : filling.step.2 with
      | none =>
          rw [hstep] at hended
          exact ih hended (Nat.le_of_succ_le_succ hle)
      | some result => rfl

/-! ## What is in the buffer -/

/-- So many bytes were taken off a reader and stand at the front of a buffer, and the rest of the
buffer is what it was. -/
structure Fills (reader : Reader) (buffer : Bytes) (count : Nat) (filling : Filling) : Prop
    extends reader.Takes count filling.reader where
  fits : count ≤ buffer.length
  filled_eq : filling.filled = count
  buffer_eq : filling.buffer = reader.unread.take count ++ buffer.drop count

theorem Fills.start (reader : Reader) (buffer : Bytes) :
    Fills reader buffer 0 (Filling.start reader buffer) :=
  ⟨.zero reader, Nat.zero_le _, rfl, rfl⟩

theorem Fills.length_buffer (hfills : Fills reader buffer count filling) :
    filling.buffer.length = buffer.length := by
  have hle := hfills.le
  have hfits := hfills.fits
  rw [hfills.buffer_eq, List.length_append, List.length_take, List.length_drop]
  omega

/-- What a call hands over goes where the next bytes belong. -/
theorem Fills.put (hfills : Fills reader buffer count filling) {delivery : Delivery}
    {rest : Reader} (hread : filling.reader.read filling.missing = (delivery, rest)) :
    Fills reader buffer (count + delivery.handedOver.length)
      (filling.put rest delivery.handedOver) := by
  obtain ⟨htakes, hhanded, hle⟩ := Reader.takes_of_read hread
  have hfits := hfills.fits
  rw [missing, hfills.length_buffer, hfills.filled_eq] at hle
  have hfront : (reader.unread.take count).length = count := List.length_take_of_le hfills.le
  have hpart : (buffer.slice count delivery.handedOver.length).length =
      delivery.handedOver.length := Bytes.length_slice (by omega)
  refine ⟨hfills.toTakes.trans htakes, by omega, ?_, ?_⟩
  · rw [Filling.put, hfills.filled_eq]
  · rw [Filling.put, hfills.filled_eq, hfills.buffer_eq, ← Bytes.slice_append_drop,
      Bytes.overwrite_between hfront hpart.symm, List.take_add, ← hfills.unread_eq, ← hhanded,
      List.append_assoc]

theorem Fills.step (hfills : Fills reader buffer count filling) :
    ∃ more, Fills reader buffer more filling.step.1 := by
  fun_cases Filling.step filling with
  | case1 => exact ⟨count, hfills⟩
  -- a call without a delivery puts no bytes
  | case2 _ rest hread | case3 _ _ rest hread | case4 _ rest hread | case5 _ _ _ rest hread =>
      have hput := hfills.put hread
      simp only [Delivery.handedOver, put_nil] at hput
      exact ⟨_, hput⟩

theorem Fills.run (hfills : Fills reader buffer count filling) (turns : Nat) :
    ∃ more, Fills reader buffer more (filling.run turns).1 := by
  induction turns generalizing filling count with
  | zero => exact ⟨count, hfills⟩
  | succ turns ih =>
      obtain ⟨more, hmore⟩ := hfills.step
      rw [Filling.run]
      cases filling.step.2 with
      | none => exact ih hmore
      | some result => exact ⟨more, hmore⟩

/-! ## The result -/

/-- What reading in full gives from here on. -/
def readFull (filling : Filling) : Except IoCause Bytes × Reader :=
  filling.reader.readFullFrom filling.missing (filling.buffer.take filling.filled).reverse

/-- The loop ends with the number of bytes that are there, or with an error, and reading in full
gives just these bytes, or the same error. -/
structure EndsAs (filling : Filling) (result : Except IoCause Nat) (after : Filling) : Prop where
  readFull_eq : filling.readFull = (result.map after.buffer.take, after.reader)
  filled_eq : ∀ {count}, result = .ok count → count = after.filled

theorem readFull_step (filling : Filling) :
    filling.step.2 = none → filling.readFull = filling.step.1.readFull := by
  fun_cases step filling with
  | case1 | case3 | case4 => simp
  | case2 hroom rest hread =>
      intro _
      rw [readFull, Reader.readFullFrom_eq hroom, hread]
      rfl
  | case5 hroom b bs rest hread =>
      intro _
      have hpos : 0 < (b :: bs).length := Nat.succ_pos _
      obtain ⟨-, -, hle⟩ := Reader.takes_of_read hread
      simp only
      rw [readFull, Reader.readFullFrom_eq hroom, hread, readFull, take_put hpos hle,
        missing_put hpos hle, List.reverse_append]
      rfl

theorem endsAs_step (filling : Filling) :
    filling.step.2 = some result → filling.EndsAs result filling.step.1 := by
  fun_cases step filling with
  | case2 | case5 => simp
  | case1 hfull =>
      intro hresult
      obtain rfl := Option.some.inj hresult
      refine ⟨?_, fun hcount => (Except.ok.inj hcount).symm⟩
      rw [readFull, hfull, Reader.readFullFrom, if_pos rfl, List.reverse_reverse, Except.map]
  | case3 hroom cause rest hread =>
      intro hresult
      obtain rfl := Option.some.inj hresult
      refine ⟨?_, by simp⟩
      rw [readFull, Reader.readFullFrom_eq hroom, hread]
      rfl
  | case4 hroom rest hread =>
      intro hresult
      obtain rfl := Option.some.inj hresult
      refine ⟨?_, fun hcount => (Except.ok.inj hcount).symm⟩
      rw [readFull, Reader.readFullFrom_eq hroom, hread]
      simp only [List.reverse_reverse]
      rfl

theorem endsAs_run (hrun : filling.run turns = (after, some result)) :
    filling.EndsAs result after := by
  induction turns generalizing filling with
  | zero => simp [run] at hrun
  | succ turns ih =>
      rw [run] at hrun
      cases hstep : filling.step.2 with
      | none =>
          rw [hstep] at hrun
          obtain ⟨hread, hfilled⟩ := ih hrun
          exact ⟨(filling.readFull_step hstep).trans hread, hfilled⟩
      | some found =>
          rw [hstep] at hrun
          obtain ⟨rfl, hresult⟩ := Prod.mk.inj hrun
          exact filling.endsAs_step (hstep.trans hresult)

/-- The loop ends, with so many bytes, after any number of turns that is large enough. -/
theorem exists_endsAs (reader : Reader) (buffer : Bytes) :
    ∃ after result count,
      (∀ turns, reader.callsFor (min buffer.length reader.unread.length) ≤ turns →
        (start reader buffer).run turns = (after, some result)) ∧
      (start reader buffer).EndsAs result after ∧ Fills reader buffer count after := by
  have hended := (start reader buffer).isSome_run (Nat.le_refl _)
  obtain ⟨count, hfills⟩ := (Fills.start reader buffer).run (start reader buffer).callsLeft
  cases hrun : (start reader buffer).run (start reader buffer).callsLeft with
  | mk after ended =>
      rw [hrun] at hfills
      obtain ⟨result, rfl⟩ := Option.isSome_iff_exists.mp (hrun ▸ hended)
      refine ⟨after, result, count, ?_, endsAs_run hrun, hfills⟩
      intro turns hturns
      exact (run_eq_of_isSome hended hturns).trans hrun

/-- The place where the reader breaks settles how the loop ends, and after how many bytes. -/
theorem EndsAs.exact (hends : (Filling.start reader buffer).EndsAs result after)
    (hfills : Fills reader buffer count after) (hreader : reader.Forthcoming) :
    match reader.breakWithin? buffer.length with
    | none => result = .ok count ∧ count = min buffer.length reader.unread.length
    | some (broken, cause) => result = .error cause ∧ count = broken := by
  obtain ⟨hread, hfilled⟩ := hends
  have hfull : reader.readFull buffer.length = (result.map after.buffer.take, after.reader) := hread
  obtain ⟨-, hcases⟩ := Reader.readFull_of_forthcoming hreader buffer.length
  rw [hfull] at hcases
  cases hbreak : reader.breakWithin? buffer.length with
  | none =>
      rw [hbreak] at hcases
      obtain ⟨hresult, hunread⟩ := hcases
      obtain ⟨found, rfl, -⟩ := map_eq_ok.mp hresult
      rw [List.drop_eq_drop_min] at hunread
      refine ⟨?_, hfills.toTakes.eq_of_unread_eq (Nat.min_le_right _ _) hunread⟩
      rw [hfilled rfl, hfills.filled_eq]
  | some broken =>
      rw [hbreak] at hcases
      obtain ⟨hresult, hunread⟩ := hcases
      have hle := (Reader.lt_of_breakWithin? hbreak).2
      refine ⟨?_, hfills.toTakes.eq_of_unread_eq hle hunread⟩
      cases result with
      | ok found => exact nomatch hresult
      | error cause => exact congrArg Except.error (Except.error.inj hresult)

end Filling

/-! ## Reading in full -/

namespace Reader

variable {reader : Reader}

/-- **Reading in full is exact.**  Let a buffer be filled from a reader that never withholds a byte
that it has, however short its deliveries are and however often it is interrupted.  The loop ends.
It fails exactly if the reader breaks while bytes of the buffer are missing, at the latest behind
its own last byte, and the bytes ahead of that place are taken then.  In every other case it takes
as many bytes as the buffer has room for, or as there are.  The bytes taken are those at the front
of the buffer; the rest of the buffer is unchanged. -/
theorem readFull_exact (hreader : reader.Forthcoming) (buffer : Bytes) :
    ∃ after result,
      (∀ turns, reader.callsFor (min buffer.length reader.unread.length) ≤ turns →
        (Filling.start reader buffer).run turns = (after, some result)) ∧
      reader.readFull buffer.length = (result.map after.buffer.take, after.reader) ∧
      (∀ cause, result = .error cause ↔ ∃ count, reader.BreaksAfter count cause ∧
        count < buffer.length ∧ count ≤ reader.unread.length) ∧
      (∀ count cause, result = .error cause → reader.BreaksAfter count cause →
        Filling.Fills reader buffer count after) ∧
      ((∀ count cause, reader.BreaksAfter count cause →
          ¬(count < buffer.length ∧ count ≤ reader.unread.length)) →
        result = .ok (min buffer.length reader.unread.length) ∧
          Filling.Fills reader buffer (min buffer.length reader.unread.length) after) := by
  obtain ⟨after, result, count, hruns, hends, hfills⟩ := Filling.exists_endsAs reader buffer
  have hexact := hends.exact hfills hreader
  refine ⟨after, result, hruns, hends.readFull_eq, ?_⟩
  cases hbreak : reader.breakWithin? buffer.length with
  | none =>
      rw [hbreak] at hexact
      obtain ⟨rfl, rfl⟩ := hexact
      have hclear : ∀ count cause, ¬(reader.BreaksAfter count cause ∧ count < buffer.length ∧
          count ≤ reader.unread.length) := by
        intro count cause hwithin
        rw [breakWithin?_eq_some_iff.mpr hwithin] at hbreak
        exact nomatch hbreak
      refine ⟨fun cause => ⟨nofun, ?_⟩, nofun, fun _ => ⟨rfl, hfills⟩⟩
      rintro ⟨count, hwithin⟩
      exact absurd hwithin (hclear count cause)
  | some broken =>
      obtain ⟨place, reason⟩ := broken
      rw [hbreak] at hexact
      obtain ⟨rfl, rfl⟩ := hexact
      obtain ⟨hplace, hwithin⟩ := breakWithin?_eq_some_iff.mp hbreak
      refine ⟨fun cause => ⟨?_, ?_⟩, ?_, fun hclear => absurd hwithin (hclear _ _ hplace)⟩
      · intro hcause
        obtain rfl := Except.error.inj hcause
        exact ⟨count, hplace, hwithin⟩
      · rintro ⟨other, hother, -⟩
        rw [(hplace.unique hother).2]
      · intro other cause _ hother
        rw [(hplace.unique hother).1]
        exact hfills

/-- A source of seven bytes that breaks behind the fifth.  It hands over two at a time, and every
other call is interrupted. -/
def faultySource : Reader :=
  { Reader.stuttering [1, 2, 3, 4, 5, 6, 7] 2 1 with failure := some (5, .other "boom") }

/-- In a buffer of five bytes the fault does not show; in one of eight it does. -/
theorem readFull_exact_faultySource :
    (∃ after, (Filling.start faultySource (List.replicate 5 0xaa)).run 12 = (after, some (.ok 5)) ∧
      after.buffer = [1, 2, 3, 4, 5] ∧ after.reader.taken = 5 ∧ after.reader.unread = [6, 7]) ∧
    ∃ after, (Filling.start faultySource (List.replicate 8 0xaa)).run 16 =
        (after, some (.error (.other "boom"))) ∧
      after.buffer = [1, 2, 3, 4, 5, 0xaa, 0xaa, 0xaa] ∧ after.reader.taken = 5 ∧
      after.reader.unread = [6, 7] := by
  have hreader : faultySource.Forthcoming :=
    ⟨(Reliable.stuttering [1, 2, 3, 4, 5, 6, 7] (by decide) 1).limit_pos⟩
  have hbreaks : faultySource.BreaksAfter 5 (.other "boom") := ⟨5, rfl, rfl⟩
  constructor
  · obtain ⟨after, result, hruns, -, -, -, hclear⟩ :=
      readFull_exact hreader (List.replicate 5 0xaa)
    obtain ⟨rfl, hfills⟩ := hclear fun count cause hother hwithin => by
      obtain ⟨rfl, -⟩ := hbreaks.unique hother
      exact absurd hwithin.1 (by decide)
    exact ⟨after, hruns 12 (by decide), hfills.buffer_eq, hfills.taken_eq, hfills.unread_eq⟩
  · obtain ⟨after, result, hruns, -, herror, hbroken, -⟩ :=
      readFull_exact hreader (List.replicate 8 0xaa)
    obtain rfl := (herror (.other "boom")).mpr ⟨5, hbreaks, by decide, by decide⟩
    have hfills := hbroken 5 (.other "boom") rfl hbreaks
    exact ⟨after, hruns 16 (by decide), hfills.buffer_eq, hfills.taken_eq, hfills.unread_eq⟩

end Reader

end VoltageCapture
