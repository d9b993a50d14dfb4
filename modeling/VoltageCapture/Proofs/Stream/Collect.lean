import VoltageCapture.Proofs.Error
import VoltageCapture.Proofs.Stream.Part

/-!
# All blocks of a stream

`FiniteStream.blocks` takes blocks of a stream until it comes to the end mark.  If the
stream hands out a payload in order (`Steady`), the blocks joined are the payload, none of
them is empty, and the first of them starts where the payload starts (`tiles_of_ready`).
-/

namespace VoltageCapture

/-- The blocks of a stream, up to its end mark. -/
def FiniteStream.blocks {S : Type} [FiniteStream S] (stream : S) : Except Error (List Block) :=
  match _hnext : BlockStream.next stream with
  | (.error error, _) => .error error
  | (.ok block, after) =>
    if _hend : block.isEnd then
      .ok []
    else
      (block :: ·) <$> FiniteStream.blocks after
termination_by FiniteStream.remaining stream
decreasing_by exact FiniteStream.remaining_next_lt _hnext (Bool.eq_false_iff.mpr _hend)

/-- Some blocks joined are a payload that lies at `obsOffset` within the observation. -/
structure Tiles (payload : Bytes) (obsOffset : Nat) (blocks : List Block) : Prop where
  bytes_eq : blocks.flatMap (·.bytes) = payload
  isEnd_eq : ∀ block ∈ blocks, block.isEnd = false
  head_eq : ∀ block, blocks.head? = some block → block.obsOffset = obsOffset

namespace FiniteStream

variable {S : Type} [FiniteStream S] {stream after : S} {block : Block} {payload : Bytes}
  {obsOffset start size : Nat} {ready : Nat → Nat → S → Prop}

theorem blocks_of_end (hnext : BlockStream.next stream = (.ok block, after))
    (hend : block.isEnd = true) : blocks stream = .ok [] := by
  rw [blocks]
  split
  · next herror =>
    rw [hnext] at herror
    simp at herror
  · next found _ hfound =>
    rw [hnext, Prod.mk.injEq, Except.ok.injEq] at hfound
    rw [dif_pos (hfound.1 ▸ hend)]

theorem blocks_of_block (hnext : BlockStream.next stream = (.ok block, after))
    (hend : block.isEnd = false) : blocks stream = (block :: ·) <$> blocks after := by
  rw [blocks]
  split
  · next herror =>
    rw [hnext] at herror
    simp at herror
  · next found rest hfound =>
    rw [hnext, Prod.mk.injEq, Except.ok.injEq] at hfound
    obtain ⟨rfl, rfl⟩ := hfound
    rw [dif_neg (by simp [hend])]

/-- The blocks of a stream that is at byte `start` of a payload are the payload from there
on.  The induction is on the bytes that are left. -/
theorem tiles_of_ready (hsteady : Steady payload obsOffset ready) (hsize : 0 < size)
    (hready : ready start size stream) :
    ∃ found, blocks stream = .ok found ∧ Tiles (payload.drop start) (obsOffset + start) found := by
  induction hleft : payload.length - start using Nat.strongRecOn generalizing start stream with
  | ind left ih =>
      obtain ⟨after, hnext, hafter⟩ := hsteady hready
      rcases Nat.lt_or_ge start payload.length with hlt | hdone
      · have hend : (Block.part payload obsOffset start size).isEnd = false := by
          rw [← Bool.not_eq_true, Block.isEnd_part_iff obsOffset hsize]
          exact Nat.not_le.mpr hlt
        obtain ⟨found, hfound, htiles⟩ := ih (payload.length - (start + size)) (by omega) hafter rfl
        refine ⟨.part payload obsOffset start size :: found, ?_, ?_, ?_, ?_⟩
        · rw [blocks_of_block hnext hend, hfound]
          rfl
        · rw [List.flatMap_cons, htiles.bytes_eq, Block.bytes_part, ← List.drop_drop,
            List.take_append_drop]
        · intro block hblock
          rcases List.mem_cons.mp hblock with rfl | hrest
          · exact hend
          · exact htiles.isEnd_eq block hrest
        · intro block hblock
          rw [List.head?_cons, Option.some.injEq] at hblock
          rw [← hblock, Block.obsOffset_part hend]
      · have hend : (Block.part payload obsOffset start size).isEnd = true :=
          (Block.isEnd_part_iff obsOffset hsize).mpr hdone
        refine ⟨[], blocks_of_end hnext hend, ?_, ?_, ?_⟩
        · rw [List.drop_of_length_le hdone, List.flatMap_nil]
        · exact fun block hblock => absurd hblock List.not_mem_nil
        · exact fun block hblock => nomatch hblock

end FiniteStream

end VoltageCapture
