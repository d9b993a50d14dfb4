import VoltageCapture.Stream.Block

/-!
# Parts of a payload

However a stream gets at its bytes, what it hands out is a payload in order, block by
block.  `Block.part` is the block of some bytes of a payload, and `Steady` says of a kind
of stream that each of its blocks is the part that starts where the block before it ended.
-/

namespace VoltageCapture

/-- The block of the bytes of a payload from `start` on, at most `size` of them; the end
mark if there are none.  The payload lies at `obsOffset` within the observation. -/
def Block.part (payload : Bytes) (obsOffset start size : Nat) : Block :=
  if (payload.drop start).take size = [] then .endMark
  else ⟨(payload.drop start).take size, obsOffset + start⟩

namespace Block

variable {payload : Bytes} {obsOffset start size : Nat}

@[simp] theorem bytes_part :
    (part payload obsOffset start size).bytes = (payload.drop start).take size := by
  unfold part
  split
  · next hempty => exact hempty.symm
  · rfl

@[simp] theorem length_part :
    (part payload obsOffset start size).length = min size (payload.length - start) := by
  simp [length]

theorem part_eq_endMark (hstart : payload.length ≤ start) :
    part payload obsOffset start size = .endMark := by
  rw [part, if_pos]
  rw [List.drop_of_length_le hstart, List.take_nil]

/-- A part of a payload is an end mark exactly if the payload has ended where it starts. -/
theorem isEnd_part_iff (obsOffset : Nat) (hsize : 0 < size) :
    (part payload obsOffset start size).isEnd = true ↔ payload.length ≤ start := by
  rw [isEnd, bytes_part, List.isEmpty_iff, List.take_eq_nil_iff, List.drop_eq_nil_iff]
  omega

theorem part_eq_endMark_iff (obsOffset : Nat) (hsize : 0 < size) :
    part payload obsOffset start size = .endMark ↔ payload.length ≤ start := by
  refine ⟨?_, part_eq_endMark⟩
  intro hmark
  rw [← isEnd_part_iff obsOffset hsize, hmark]
  rfl

theorem obsOffset_part (hend : (part payload obsOffset start size).isEnd = false) :
    (part payload obsOffset start size).obsOffset = obsOffset + start := by
  rw [isEnd, bytes_part, List.isEmpty_eq_false_iff] at hend
  rw [part, if_neg hend]

/-- A part that may hold all of a payload does. -/
theorem part_zero (obsOffset : Nat) (hne : payload ≠ []) (hsize : payload.length ≤ size) :
    part payload obsOffset 0 size = ⟨payload, obsOffset⟩ := by
  rw [part, List.drop_zero, List.take_of_length_le hsize, if_neg hne, Nat.add_zero]

theorem part_min_length :
    part payload obsOffset (min start payload.length) size = part payload obsOffset start size := by
  rcases Nat.le_total start payload.length with hle | hge
  · rw [Nat.min_eq_left hle]
  · rw [Nat.min_eq_right hge, part_eq_endMark hge, part_eq_endMark (Nat.le_refl _)]

end Block

/-- A kind of stream hands out a payload in order.  `ready start size` holds of the streams
whose next block starts at byte `start` of the payload and may hold `size` bytes. -/
def Steady {S : Type} [BlockStream S] (payload : Bytes) (obsOffset : Nat)
    (ready : Nat → Nat → S → Prop) : Prop :=
  ∀ {start size : Nat} {stream : S}, ready start size stream →
    ∃ after, BlockStream.next stream = (.ok (.part payload obsOffset start size), after) ∧
      ready (start + size) size after

theorem Steady.sum {S T : Type} [BlockStream S] [BlockStream T] {payload : Bytes} {obsOffset : Nat}
    {first : Nat → Nat → S → Prop} {second : Nat → Nat → T → Prop}
    (hfirst : Steady payload obsOffset first) (hsecond : Steady payload obsOffset second) :
    Steady payload obsOffset fun start size => Sum.elim (first start size) (second start size) := by
  intro start size stream hready
  cases stream with
  | inl stream =>
      obtain ⟨after, hnext, hafter⟩ := hfirst hready
      exact ⟨.inl after, congrArg (Prod.map id Sum.inl) hnext, hafter⟩
  | inr stream =>
      obtain ⟨after, hnext, hafter⟩ := hsecond hready
      exact ⟨.inr after, congrArg (Prod.map id Sum.inr) hnext, hafter⟩

end VoltageCapture
