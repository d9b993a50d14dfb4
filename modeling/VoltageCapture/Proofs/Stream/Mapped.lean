import VoltageCapture.Stream.Mapped
import VoltageCapture.Proofs.Error
import VoltageCapture.Proofs.Stream.Part

/-!
# What a mapped stream hands out

A mapped stream hands out its whole payload as one block.  Seen from a reader of any
stream, this is a payload in order with blocks that may hold all of it.
-/

namespace VoltageCapture.MappedStream

variable {tree : FileTree} {config : StreamConfig} {stream : MappedStream}

theorem of_ofConfig (hopen : ofConfig tree config = .ok stream) :
    ∃ entry extra, config.validate = .ok () ∧ tree.openCapture config.path = .ok entry ∧
      (Header.readPrefixed entry.reader config.headerSizeHint).1 = .ok (stream.header, extra) ∧
      (∃ size, stream.header.declaredSize = .ok size ∧ size ≤ entry.content.length ∧
        stream.payload = entry.content.drop size) ∧
      stream.header.unsigned64 Key.obsOffset = .ok stream.obsOffset ∧
      stream.delivered = false := by
  simp only [ofConfig, ofContent, bind_eq_ok, pure_eq_ok, require_eq_ok] at hopen
  obtain ⟨_, hvalid, entry, hentry, ⟨header, extra⟩, hheader, size, hsize, obsOffset, hoffset, _, hle,
    rfl⟩ := hopen
  exact ⟨entry, extra, hvalid, hentry, hheader, ⟨size, hsize, hle, rfl⟩, hoffset, rfl⟩

/-- The stream's next block starts at byte `start` of a payload and may hold `size` bytes,
no fewer than the payload has. -/
structure ReadyAt (payload : Bytes) (obsOffset start size : Nat) (stream : MappedStream) :
    Prop where
  payload_eq : stream.payload = payload
  obsOffset_eq : stream.obsOffset = obsOffset
  length_le : payload.length ≤ size
  start_eq : (stream.delivered = false ∧ start = 0) ∨
    (stream.delivered = true ∧ payload.length ≤ start)

theorem steady_readyAt (payload : Bytes) (obsOffset : Nat) :
    Steady payload obsOffset (ReadyAt payload obsOffset) := by
  intro start size stream hready
  refine ⟨{ stream with delivered := true }, ?_, hready.payload_eq, hready.obsOffset_eq,
    hready.length_le, Or.inr ⟨rfl, Nat.le_trans hready.length_le (Nat.le_add_left _ _)⟩⟩
  show stream.next = _
  rcases hready.start_eq with ⟨hdelivered, rfl⟩ | ⟨hdelivered, hend⟩
  · have hwhole : (payload.drop 0).take size = payload := by
      rw [List.drop_zero, List.take_of_length_le hready.length_le]
    simp only [next, hdelivered, hready.payload_eq, hready.obsOffset_eq, Block.part, hwhole,
      Bool.false_eq_true, false_or, Nat.add_zero]
    split <;> rfl
  · rw [Block.part_eq_endMark hend, next, if_pos (Or.inl hdelivered)]

end VoltageCapture.MappedStream
