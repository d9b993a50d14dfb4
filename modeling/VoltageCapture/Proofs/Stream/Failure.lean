import VoltageCapture.Proofs.Runs
import VoltageCapture.Proofs.Stream.Copying

/-!
# What a failed read costs

If the reader of a copying stream breaks while a block is collected, the step fails and the
stream is what it was, but for the bytes that it had collected by then.  Pending bytes and bytes
of the reader are gone alike, and none of them is counted as handed out.

A source may recover, or break again.  What it does within one call is what a reader does that
breaks at one place for good, so an `Event` is a call or a change of that place.

* `next_of_break`: a step that fails, byte by byte.
* `continues_afterEvents`: after any events the stream goes on with the payload behind all the
  bytes that failed steps have lost, and under offsets that do not count them.
* `failed_next_loses_pending`: three pending bytes are lost, and the block that follows has the
  offset of the first of them.
-/

namespace VoltageCapture

namespace CopyingStream

variable {reader : Reader} {source : String} {blockSize hint lost count : Nat} {payload : Bytes}
  {stream : CopyingStream} {cause : IoCause}

/-! ## One step -/

/-- The bytes that the next step collects and then loses, if its reader breaks. -/
def lostByNext (stream : CopyingStream) : Nat :=
  match stream.reader.breakWithin? stream.wanted with
  | none => 0
  | some (count, _) => stream.pending.length + count

/-- A step that fails leaves no pending bytes, and a reader that is behind those it has handed
over. -/
theorem next_of_break (hahead : stream.AheadBy lost payload)
    (hreader : stream.reader.Forthcoming)
    (hbreak : stream.reader.breakWithin? stream.wanted = some (count, cause)) :
    ∃ rest, stream.next = (.error (.atPath "Failed to read" stream.source cause),
        { stream with pending := [], reader := rest }) ∧
      rest.Succeeds stream.reader ∧
      AheadBy (lost + stream.lostByNext) { stream with pending := [], reader := rest } payload := by
  obtain ⟨hrest, hcases⟩ := Reader.readFull_of_forthcoming hreader stream.wanted
  rw [hbreak] at hcases
  obtain ⟨hread, hunread⟩ := hcases
  obtain ⟨hcount, hle⟩ := Reader.lt_of_breakWithin? hbreak
  rw [wanted] at hcount
  have hfull : stream.reader.readFull stream.wanted =
      (.error cause, (stream.reader.readFull stream.wanted).2) := Prod.ext hread rfl
  -- the reader is asked for bytes only if the pending ones do not fill the block
  have hpending : stream.pending.drop stream.blockSize = [] :=
    List.drop_of_length_le (by omega)
  have hlost : stream.lostByNext = stream.pending.length + count := by
    rw [lostByNext, hbreak]
  have hlength := congrArg List.length hahead.unhanded
  rw [List.length_append, List.length_drop] at hlength
  have hwithin := hahead.le_length
  refine ⟨(stream.reader.readFull stream.wanted).2, ?_, hrest, ?_, ?_⟩
  · unfold next
    rw [wanted_eq, hfull]
    simp only [takePending, hpending]
  · show stream.delivered + (lost + stream.lostByNext) ≤ payload.length
    omega
  · show [] ++ (stream.reader.readFull stream.wanted).2.unread =
      payload.drop (stream.delivered + (lost + stream.lostByNext))
    rw [List.nil_append, hunread, hlost, ← Nat.add_assoc, ← List.drop_drop, ← hahead.unhanded,
      List.drop_length_add_append]

/-- A stream that has lost bytes of a payload goes on behind them.  The next block is the part of
the payload without the lost bytes that comes next, under the offset that counts only what was
handed out.  A step that fails adds what it has collected to the bytes that are lost, and changes
nothing else. -/
structure Continues (lost : Nat) (stream : CopyingStream) (payload : Bytes) (obsOffset : Nat) :
    Prop extends AheadBy lost stream payload where
  ok : ∀ {block}, stream.next.1 = .ok block →
    block = .part (payload.drop lost) obsOffset stream.delivered stream.blockSize ∧
      stream.next.2.AheadBy lost payload
  error : ∀ {error}, stream.next.1 = .error error →
    (∃ rest, stream.next.2 = { stream with pending := [], reader := rest }) ∧
      stream.next.2.AheadBy (lost + stream.lostByNext) payload ∧
      (stream.next.2.pending ++ stream.next.2.reader.unread = payload.drop stream.delivered ↔
        lost = 0 ∧ stream.lostByNext = 0)

/-- Bytes that are left from a place on are left from no other. -/
theorem AheadBy.unhanded_iff (hahead : stream.AheadBy lost payload) :
    stream.pending ++ stream.reader.unread = payload.drop stream.delivered ↔ lost = 0 := by
  rw [hahead.unhanded]
  constructor
  · intro hsame
    have hlength := congrArg List.length hsame
    have hle := hahead.le_length
    rw [List.length_drop, List.length_drop] at hlength
    omega
  · rintro rfl
    rfl

theorem continues_of_aheadBy (hahead : stream.AheadBy lost payload)
    (hreader : stream.reader.Forthcoming) :
    stream.Continues lost payload stream.obsOffset := by
  cases hbreak : stream.reader.breakWithin? stream.wanted with
  | none =>
      obtain ⟨after, hnext, hafter, -⟩ := next_of_aheadBy hahead hreader hbreak
      refine ⟨hahead, ?_, ?_⟩
      · intro block hblock
        rw [hnext] at hblock ⊢
        exact ⟨(Except.ok.inj hblock).symm, hafter⟩
      · intro error herror
        rw [hnext] at herror
        exact nomatch herror
  | some broken =>
      obtain ⟨rest, hnext, -, hafter⟩ := next_of_break hahead hreader hbreak
      refine ⟨hahead, ?_, ?_⟩
      · intro block hblock
        rw [hnext] at hblock
        exact nomatch hblock
      · intro error _
        rw [hnext]
        exact ⟨⟨rest, rfl⟩, hafter, hafter.unhanded_iff.trans Nat.add_eq_zero_iff⟩

/-! ## Any events -/

/-- A call, or the source breaks at another place from now on, or nowhere. -/
inductive Event where
  | call (call : Call)
  | source (failure : Option (Nat × IoCause))

/-- The stream after an event. -/
def afterEvent (stream : CopyingStream) : Event → CopyingStream
  | .call call => stream.afterCall call
  | .source failure => { stream with reader := { stream.reader with failure } }

/-- The stream after some events. -/
def afterEvents (stream : CopyingStream) (events : List Event) : CopyingStream :=
  events.foldl afterEvent stream

/-- The bytes that an event loses. -/
def lostBy (stream : CopyingStream) : Event → Nat
  | .call .next => stream.lostByNext
  | .call (.setBlockSize _) | .source _ => 0

/-- The bytes lost by one event come on top of those lost before. -/
theorem aheadBy_afterEvent (hahead : stream.AheadBy lost payload)
    (hreader : stream.reader.Forthcoming) (event : Event) :
    (stream.afterEvent event).AheadBy (lost + stream.lostBy event) payload ∧
      (stream.afterEvent event).reader.Forthcoming ∧
      (stream.afterEvent event).obsOffset = stream.obsOffset := by
  cases event with
  | source failure => exact ⟨⟨hahead.le_length, hahead.unhanded⟩, ⟨hreader.limit_pos⟩, rfl⟩
  | call call =>
      cases call with
      | setBlockSize size =>
          obtain ⟨blockSize, hpos, hset⟩ := stream.setBlockSize_eq_self_with size
          simp only [afterEvent, afterCall, hset]
          exact ⟨⟨hahead.le_length, hahead.unhanded⟩, hreader, trivial⟩
      | next =>
          simp only [afterEvent, afterCall, lostBy]
          cases hbreak : stream.reader.breakWithin? stream.wanted with
          | none =>
              obtain ⟨after, hnext, hafter, hrest, -, -, hoffset⟩ :=
                next_of_aheadBy hahead hreader hbreak
              rw [hnext, lostByNext, hbreak]
              exact ⟨hafter, hrest.forthcoming hreader, hoffset⟩
          | some broken =>
              obtain ⟨rest, hnext, hrest, hafter⟩ := next_of_break hahead hreader hbreak
              rw [hnext]
              exact ⟨hafter, hrest.forthcoming hreader, rfl⟩

theorem aheadBy_afterEvents (hahead : stream.AheadBy lost payload)
    (hreader : stream.reader.Forthcoming) (events : List Event) :
    (stream.afterEvents events).AheadBy (lost + total afterEvent lostBy stream events) payload ∧
      (stream.afterEvents events).reader.Forthcoming ∧
      (stream.afterEvents events).obsOffset = stream.obsOffset := by
  induction events generalizing stream lost with
  | nil => exact ⟨hahead, hreader, rfl⟩
  | cons event events ih =>
      obtain ⟨hafter, hrest, hoffset⟩ := aheadBy_afterEvent hahead hreader event
      obtain ⟨hlast, hlastReader, hlastOffset⟩ := ih hafter hrest
      rw [total, ← Nat.add_assoc]
      exact ⟨hlast, hlastReader, hlastOffset.trans hoffset⟩

/-- **What failed reads cost.**  Let a stream be opened on a reader that may break.  After any
calls, with the source breaking and recovering in between, the bytes that are left are those of
the payload behind what was handed out and what failed steps had collected.  A failed step loses
nothing exactly if no step, itself included, has failed with any bytes collected. -/
theorem continues_afterEvents (hreader : reader.Forthcoming)
    (hopen : ofReader reader source blockSize hint = .ok stream) :
    stream.header.unsigned64 Key.obsOffset = .ok stream.obsOffset ∧
      ∀ events, (stream.afterEvents events).Continues (total afterEvent lostBy stream events)
        (Capture.payload hint reader.unread) stream.obsOffset := by
  obtain ⟨-, hoffset, -⟩ := of_ofReader hopen
  refine ⟨hoffset, ?_⟩
  intro events
  obtain ⟨hahead, hrest⟩ := aheadBy_of_ofReader hreader hopen
  obtain ⟨hafter, hafterReader, hsame⟩ :=
    aheadBy_afterEvents hahead (hrest.forthcoming hreader) events
  rw [Nat.zero_add] at hafter
  exact hsame ▸ continues_of_aheadBy hafter hafterReader

/-- The numbered capture, in a source that breaks behind its third payload byte. -/
def brokenSource : Reader :=
  { Reader.ofBytes numbered with failure := some (35, .other "boom") }

theorem brokenSource_forthcoming : brokenSource.Forthcoming :=
  ⟨fun _ _ hlimit => nomatch hlimit⟩

/-- The first step fails; the source recovers, and the stream goes on three bytes further. -/
theorem continues_brokenSource :
    ∃ stream, ofReader brokenSource "memory" 4 35 = .ok stream ∧
      (stream.afterEvents [.call .next, .source none]).Continues 3 [1, 2, 3, 4, 5, 6, 7] 1000 := by
  have hopened : (fun stream => (stream.obsOffset,
      total afterEvent lostBy stream [.call .next, .source none])) <$>
        ofReader brokenSource "memory" 4 35 = .ok (1000, 3) := by
    cbv
  obtain ⟨stream, hopen, hcosts⟩ := map_eq_ok.mp hopened
  obtain ⟨hoffset, hlost⟩ := Prod.mk.inj hcosts
  have hpayload : Capture.payload 35 brokenSource.unread = [1, 2, 3, 4, 5, 6, 7] := by cbv
  refine ⟨stream, hopen, ?_⟩
  rw [← hpayload, ← hoffset, ← hlost]
  exact (continues_afterEvents brokenSource_forthcoming hopen).2 _

/-- Three pending bytes are lost by a step that fails.  They cannot be had in a block of three
either, and once the source has recovered the fourth byte comes under the offset of the first. -/
theorem failed_next_loses_pending :
    ∃ stream, ofReader brokenSource "memory" 4 35 = .ok stream ∧
      stream.pending ++ stream.reader.unread = [1, 2, 3, 4, 5, 6, 7].drop stream.delivered ∧
      stream.next.1 = .error (.atPath "Failed to read" "memory" (.other "boom")) ∧
      ¬stream.next.2.pending ++ stream.next.2.reader.unread =
        [1, 2, 3, 4, 5, 6, 7].drop stream.next.2.delivered ∧
      (stream.afterCalls [.next, .setBlockSize 3]).next.1 =
        .error (.atPath "Failed to read" "memory" (.other "boom")) ∧
      (stream.afterEvents [.call .next, .source none]).next.1 = .ok ⟨[4, 5, 6, 7], 1000⟩ := by
  have hseen : (fun stream => (stream.pending ++ stream.reader.unread, stream.delivered,
      stream.next.1, stream.next.2.pending ++ stream.next.2.reader.unread,
      stream.next.2.delivered, (stream.afterCalls [.next, .setBlockSize 3]).next.1,
      (stream.afterEvents [.call .next, .source none]).next.1)) <$>
        ofReader brokenSource "memory" 4 35 =
      .ok ([1, 2, 3, 4, 5, 6, 7], 0, .error (.atPath "Failed to read" "memory" (.other "boom")),
        [4, 5, 6, 7], 0, .error (.atPath "Failed to read" "memory" (.other "boom")),
        .ok ⟨[4, 5, 6, 7], 1000⟩) := by
    cbv
  obtain ⟨stream, hopen, hseen⟩ := map_eq_ok.mp hseen
  simp only [Prod.mk.injEq] at hseen
  obtain ⟨hleft, hdelivered, hnext, hafter, hafterDelivered, hshorter, hrecovered⟩ := hseen
  refine ⟨stream, hopen, ?_, hnext, ?_, hshorter, hrecovered⟩
  · rw [hleft, hdelivered, List.drop_zero]
  · rw [hafter, hafterDelivered]
    decide

end CopyingStream

end VoltageCapture
