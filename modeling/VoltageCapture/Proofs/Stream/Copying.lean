import Mathlib
import VoltageCapture.Stream.Copying
import VoltageCapture.Proofs.Error
import VoltageCapture.Proofs.Header.Prefixed
import VoltageCapture.Proofs.Stream.Part

/-!
# What a copying stream hands out

A copying stream keeps the payload in two places: bytes that were read along with the
header and bytes that are still in the reader.  The invariant `CopyingStream.Serves`
says that the former followed by the latter are the payload without what has been
handed out.  It holds when the stream is opened, and every call keeps it.

* `next_of_aheadBy`: the next block is the part of the payload that comes next, as long as the
  block size allows.  This is also so if bytes ahead of it were lost.
* `next_of_serves`: from a state that serves a payload, it starts where the last block ended.
* `delivers_afterCalls`: so it is after any calls that take blocks and change the block size,
  whatever deliveries and interruptions the reader is subject to.
-/

namespace VoltageCapture

namespace CopyingStream

variable {reader : Reader} {source : String} {blockSize hint : Nat} {payload : Bytes}
  {stream : CopyingStream}

/-- The stream has the payload left from where its last block ended. -/
structure Serves (stream : CopyingStream) (payload : Bytes) : Prop where
  reliable : stream.reader.Reliable
  delivered_le : stream.delivered ≤ payload.length
  unhanded : stream.pending ++ stream.reader.unread = payload.drop stream.delivered

/-- What the stream has left of the payload starts `lost` bytes behind the end of its last
block. -/
structure AheadBy (lost : Nat) (stream : CopyingStream) (payload : Bytes) : Prop where
  le_length : stream.delivered + lost ≤ payload.length
  unhanded : stream.pending ++ stream.reader.unread = payload.drop (stream.delivered + lost)

theorem Serves.aheadBy (hserves : stream.Serves payload) : stream.AheadBy 0 payload :=
  ⟨hserves.delivered_le, hserves.unhanded⟩

/-! ## Opening -/

theorem of_ofReader (hopen : ofReader reader source blockSize hint = .ok stream) :
    Header.readPrefixed reader hint = (.ok (stream.header, stream.pending), stream.reader) ∧
      stream.header.unsigned64 Key.obsOffset = .ok stream.obsOffset ∧
      stream.delivered = 0 ∧ stream.blockSize = blockSize ∧ blockSize ≤ Bytes.maxLength := by
  unfold ofReader at hopen
  split at hopen
  · simp at hopen
  · simp only [bind_eq_ok, pure_eq_ok, requireAllocatable_eq_ok] at hopen
    obtain ⟨⟨header, pending⟩, hheader, obsOffset, hoffset, _, hmax, rfl⟩ := hopen
    exact ⟨Prod.ext hheader rfl, hoffset, rfl, rfl, hmax⟩

/-- Opening a stream moves no payload byte out of its reach. -/
theorem aheadBy_of_ofReader (hreader : reader.Forthcoming)
    (hopen : ofReader reader source blockSize hint = .ok stream) :
    stream.AheadBy 0 (Capture.payload hint reader.unread) ∧ stream.reader.Succeeds reader := by
  obtain ⟨hread, _, hdelivered, _⟩ := of_ofReader hopen
  obtain ⟨_, _, hpayload, hrest⟩ := Header.of_readPrefixed_of_forthcoming hreader hread
  refine ⟨⟨?_, ?_⟩, hrest⟩
  · rw [hdelivered]
    exact Nat.zero_le _
  · rw [hpayload, hdelivered, List.drop_zero]

theorem serves_of_ofReader (hreader : reader.Reliable)
    (hopen : ofReader reader source blockSize hint = .ok stream) :
    stream.Serves (Capture.payload hint reader.unread) := by
  obtain ⟨hahead, hrest⟩ := aheadBy_of_ofReader hreader.forthcoming hopen
  exact ⟨hrest.reliable hreader, hahead.le_length, hahead.unhanded⟩

/-! ## Taking a block -/

/-- The bytes that the next block needs from the reader. -/
def wanted (stream : CopyingStream) : Nat :=
  stream.blockSize - stream.pending.length

theorem wanted_eq (stream : CopyingStream) :
    stream.blockSize - stream.pendingPart.length = stream.wanted := by
  rw [pendingPart, List.length_take, wanted]
  omega

/-- A stream that has put a block's worth of its bytes aside hands them out. -/
theorem handOut_of_left (stream : CopyingStream) {lost : Nat}
    (hle : stream.delivered + lost ≤ payload.length)
    (hleft : stream.pending ++ stream.reader.unread =
      payload.drop (stream.delivered + lost + stream.blockSize)) :
    ∃ after, stream.handOut (((payload.drop lost).drop stream.delivered).take stream.blockSize) =
        (.ok (.part (payload.drop lost) stream.obsOffset stream.delivered stream.blockSize), after) ∧
      after.AheadBy lost payload ∧ after.reader = stream.reader ∧
      after.delivered = stream.delivered +
        min stream.blockSize (payload.length - lost - stream.delivered) ∧
      after.blockSize = stream.blockSize ∧ after.obsOffset = stream.obsOffset := by
  have hlength : (((payload.drop lost).drop stream.delivered).take stream.blockSize).length =
      min stream.blockSize (payload.length - lost - stream.delivered) := by
    rw [List.length_take, List.length_drop, List.length_drop]
  simp only [handOut, Block.part]
  split
  -- an empty block can only be the end of the payload, since the block size is positive
  · next hempty =>
    rw [hempty, List.length_nil] at hlength
    have hsize := stream.blockSize_pos
    have hend : stream.delivered + lost = payload.length := by omega
    refine ⟨_, rfl, ⟨hle, ?_⟩, rfl, ?_, rfl, rfl⟩
    · rw [hleft, List.drop_of_length_le (by omega), List.drop_of_length_le (by omega)]
    · exact hlength ▸ rfl
  · refine ⟨_, rfl, ⟨?_, ?_⟩, rfl, ?_, rfl, rfl⟩
    · show stream.delivered + _ + lost ≤ payload.length
      omega
    · show stream.pending ++ stream.reader.unread = payload.drop (stream.delivered + _ + lost)
      rw [hleft, hlength]
      rcases Nat.le_total stream.blockSize (payload.length - lost - stream.delivered) with hle | hle
      · rw [Nat.min_eq_left hle, Nat.add_right_comm]
      · rw [List.drop_of_length_le (by omega), List.drop_of_length_le (by omega)]
    · show stream.delivered + _ = _
      rw [hlength]

/-- Unless the reader breaks, the next block holds the bytes that are left, as many as it may. -/
theorem next_of_aheadBy {lost : Nat} (hahead : stream.AheadBy lost payload)
    (hreader : stream.reader.Forthcoming)
    (hbreak : stream.reader.breakWithin? stream.wanted = none) :
    ∃ after, stream.next = (.ok (.part (payload.drop lost) stream.obsOffset stream.delivered
        stream.blockSize), after) ∧
      after.AheadBy lost payload ∧ after.reader.Succeeds stream.reader ∧
      after.delivered = stream.delivered +
        min stream.blockSize (payload.length - lost - stream.delivered) ∧
      after.blockSize = stream.blockSize ∧ after.obsOffset = stream.obsOffset := by
  obtain ⟨hrest, hcases⟩ := Reader.readFull_of_forthcoming hreader stream.wanted
  rw [hbreak] at hcases
  obtain ⟨hread, hunread⟩ := hcases
  have hfull : stream.reader.readFull stream.wanted =
      (.ok (stream.reader.unread.take stream.wanted),
        (stream.reader.readFull stream.wanted).2) := Prod.ext hread rfl
  -- pending bytes and bytes of the reader together make up the block
  have hblock : stream.pendingPart ++ stream.reader.unread.take stream.wanted =
      ((payload.drop lost).drop stream.delivered).take stream.blockSize := by
    rw [List.drop_drop, Nat.add_comm lost, ← hahead.unhanded, List.take_append, pendingPart, wanted]
  have hleft : stream.pending.drop stream.blockSize ++
      (stream.reader.readFull stream.wanted).2.unread =
        payload.drop (stream.delivered + lost + stream.blockSize) := by
    rw [← List.drop_drop, ← hahead.unhanded, List.drop_append, hunread, wanted]
  obtain ⟨after, hhanded, hafter, hreader, hsame⟩ := handOut_of_left
    { stream.takePending with reader := (stream.reader.readFull stream.wanted).2 }
    hahead.le_length hleft
  refine ⟨after, ?_, hafter, hreader ▸ hrest, hsame⟩
  unfold next
  rw [wanted_eq, hfull]
  simp only [hblock]
  exact hhanded

/-- The next block continues the payload, and the stream serves what is left. -/
theorem next_of_serves (hserves : stream.Serves payload) :
    ∃ after, stream.next =
        (.ok (.part payload stream.obsOffset stream.delivered stream.blockSize), after) ∧
      after.Serves payload ∧
      after.delivered = stream.delivered + min stream.blockSize (payload.length - stream.delivered) ∧
      after.blockSize = stream.blockSize ∧ after.obsOffset = stream.obsOffset := by
  obtain ⟨after, hnext, hafter, hreader, hdelivered, hsame⟩ := next_of_aheadBy hserves.aheadBy
    hserves.reliable.forthcoming hserves.reliable.breakWithin?_eq
  exact ⟨after, hnext, ⟨hreader.reliable hserves.reliable, hafter.le_length, hafter.unhanded⟩,
    hdelivered, hsame⟩

/-- The stream's next block starts at byte `start` of a payload, at its end at the latest,
and may hold `size` bytes. -/
structure ReadyAt (payload : Bytes) (obsOffset start size : Nat) (stream : CopyingStream) :
    Prop where
  serves : stream.Serves payload
  obsOffset_eq : stream.obsOffset = obsOffset
  delivered_eq : stream.delivered = min start payload.length
  blockSize_eq : stream.blockSize = size

theorem steady_readyAt (payload : Bytes) (obsOffset : Nat) :
    Steady payload obsOffset (ReadyAt payload obsOffset) := by
  intro start size stream hready
  obtain ⟨after, hnext, hserves, hdelivered, hsize, hoffset⟩ := next_of_serves hready.serves
  rw [hready.obsOffset_eq, hready.delivered_eq, hready.blockSize_eq, Block.part_min_length] at hnext
  refine ⟨after, hnext, hserves, hoffset.trans hready.obsOffset_eq, ?_,
    hsize.trans hready.blockSize_eq⟩
  rw [hdelivered, hready.delivered_eq, hready.blockSize_eq]
  omega

/-! ## Any calls -/

theorem setBlockSize_eq_ok {size : Nat} (hpos : 0 < size) (hmax : size ≤ Bytes.maxLength) :
    stream.setBlockSize size = (.ok (), { stream with blockSize := size, blockSize_pos := hpos }) := by
  rw [setBlockSize, dif_neg (Nat.ne_of_gt hpos), if_neg (Nat.not_lt.mpr hmax)]

/-- Setting the block size changes nothing else. -/
theorem setBlockSize_eq_self_with (stream : CopyingStream) (size : Nat) :
    ∃ blockSize blockSize_pos,
      (stream.setBlockSize size).2 = { stream with blockSize, blockSize_pos } := by
  by_cases hsize : 0 < size ∧ size ≤ Bytes.maxLength
  · rw [setBlockSize_eq_ok hsize.1 hsize.2]
    exact ⟨size, hsize.1, rfl⟩
  · refine ⟨stream.blockSize, stream.blockSize_pos, ?_⟩
    unfold setBlockSize
    split
    · rfl
    · rw [if_pos (by omega)]

/-- A call to a copying stream. -/
inductive Call where
  | next
  | setBlockSize (size : Nat)

/-- The stream after a call. -/
def afterCall (stream : CopyingStream) : Call → CopyingStream
  | .next => stream.next.2
  | .setBlockSize size => (stream.setBlockSize size).2

/-- The stream after some calls. -/
def afterCalls (stream : CopyingStream) (calls : List Call) : CopyingStream :=
  calls.foldl afterCall stream

/-- A call keeps the invariant, and takes back nothing that was handed out. -/
theorem serves_afterCall (hserves : stream.Serves payload) (call : Call) :
    (stream.afterCall call).Serves payload ∧
      (stream.afterCall call).obsOffset = stream.obsOffset ∧
      stream.delivered ≤ (stream.afterCall call).delivered := by
  cases call with
  | next =>
      obtain ⟨after, hnext, hafter, hdelivered, _, hoffset⟩ := next_of_serves hserves
      simp only [afterCall, hnext]
      exact ⟨hafter, hoffset, by omega⟩
  | setBlockSize size =>
      obtain ⟨blockSize, hpos, hset⟩ := stream.setBlockSize_eq_self_with size
      simp only [afterCall, hset]
      exact ⟨⟨hserves.reliable, hserves.delivered_le, hserves.unhanded⟩, trivial, Nat.le_refl _⟩

theorem serves_afterCalls (hserves : stream.Serves payload) (calls : List Call) :
    (stream.afterCalls calls).Serves payload ∧
      (stream.afterCalls calls).obsOffset = stream.obsOffset ∧
      stream.delivered ≤ (stream.afterCalls calls).delivered := by
  induction calls generalizing stream with
  | nil => exact ⟨hserves, rfl, Nat.le_refl _⟩
  | cons call calls ih =>
      obtain ⟨hcall, hoffset, hle⟩ := serves_afterCall hserves call
      obtain ⟨hcalls, hoffsets, hles⟩ := ih hcall
      exact ⟨hcalls, hoffsets.trans hoffset, Nat.le_trans hle hles⟩

theorem next_eq_endMark_of_serves (hserves : stream.Serves payload)
    (hdelivered : stream.delivered = payload.length) (calls : List Call) :
    (stream.afterCalls calls).next.1 = .ok .endMark := by
  obtain ⟨hcalls, _, hle⟩ := serves_afterCalls hserves calls
  obtain ⟨after, hnext, _⟩ := next_of_serves hcalls
  rw [hnext, Block.part_eq_endMark (by omega)]

/-- What the next block of a stream is, if the stream hands out a payload in order.  The
payload lies at `obsOffset` within the observation. -/
structure Delivers (stream : CopyingStream) (payload : Bytes) (obsOffset : Nat) (block : Block) :
    Prop where
  next_eq : stream.next.1 = .ok block
  delivered_le : stream.delivered ≤ payload.length
  bytes_eq : block.bytes = (payload.drop stream.delivered).take
    (min stream.blockSize (payload.length - stream.delivered))
  obsOffset_eq : block.isEnd = false → block.obsOffset = obsOffset + stream.delivered
  delivered_next : stream.next.2.delivered = stream.delivered + block.length
  endMark_iff : block = .endMark ↔ stream.delivered = payload.length
  ended : block = .endMark → ∀ calls, (stream.next.2.afterCalls calls).next.1 = .ok .endMark

theorem delivers_of_serves (hserves : stream.Serves payload) :
    stream.Delivers payload stream.obsOffset
      (.part payload stream.obsOffset stream.delivered stream.blockSize) := by
  obtain ⟨after, hnext, hafter, hdelivered, _⟩ := next_of_serves hserves
  have hend : Block.part payload stream.obsOffset stream.delivered stream.blockSize = .endMark ↔
      stream.delivered = payload.length := by
    have hle := hserves.delivered_le
    rw [Block.part_eq_endMark_iff stream.obsOffset stream.blockSize_pos]
    omega
  refine ⟨?_, hserves.delivered_le, ?_, Block.obsOffset_part, ?_, hend, ?_⟩
  · rw [hnext]
  · rw [Block.bytes_part, List.take_eq_take_min, List.length_drop]
  · rw [hnext, hdelivered, Block.length_part]
  · intro hmark calls
    have hall := hend.mp hmark
    rw [hnext]
    exact next_eq_endMark_of_serves hafter (by omega) calls

/-- **The payload is delivered without loss, duplication or reordering.**  Let a stream be
opened on a reliable reader.  After any calls, the next block holds the bytes of the payload
from the first that was not handed out, as many as the block size allows, and its offset is
that of the first of them.  It is the end mark exactly if all of the payload has been handed
out, and then for good. -/
theorem delivers_afterCalls (hreader : reader.Reliable)
    (hopen : ofReader reader source blockSize hint = .ok stream) :
    stream.header.unsigned64 Key.obsOffset = .ok stream.obsOffset ∧
      ∀ calls, ∃ block, (stream.afterCalls calls).Delivers (Capture.payload hint reader.unread)
        stream.obsOffset block := by
  obtain ⟨_, hoffset, _⟩ := of_ofReader hopen
  refine ⟨hoffset, ?_⟩
  intro calls
  obtain ⟨hserves, hsame, _⟩ := serves_afterCalls (serves_of_ofReader hreader hopen) calls
  exact ⟨_, hsame ▸ delivers_of_serves hserves⟩

/-- A capture of seven payload bytes, whose header block of 32 bytes puts the first of them
at offset 1000. -/
def numbered : Bytes :=
  (Utf8.bytes "HDR_SIZE 32\nOBS_OFFSET 1000\n").padTo 32 ++ [1, 2, 3, 4, 5, 6, 7]

/-- The capture in blocks of 4, with the block size set to 5 after the first of them.  The
reader gives at most 3 bytes at a time and is interrupted ahead of every attempt. -/
theorem delivers_numbered :
    ∃ stream, ofReader (.stuttering numbered 3 1) "memory" 4 16 = .ok stream ∧
      ∃ block, (stream.afterCalls [.next, .setBlockSize 5]).Delivers [1, 2, 3, 4, 5, 6, 7] 1000
        block := by
  have hopened : (·.obsOffset) <$> ofReader (.stuttering numbered 3 1) "memory" 4 16 = .ok 1000 := by
    cbv
  obtain ⟨stream, hopen, hoffset⟩ := map_eq_ok.mp hopened
  have hpayload : Capture.payload 16 numbered = [1, 2, 3, 4, 5, 6, 7] := by cbv
  refine ⟨stream, hopen, ?_⟩
  rw [← hpayload, ← hoffset]
  exact (delivers_afterCalls (.stuttering numbered (by decide) 1) hopen).2 _

end CopyingStream

end VoltageCapture
