import VoltageCapture.Proofs.Packet.Prepared
import VoltageCapture.Proofs.Runs

/-!
# Configured generators and their cursors

Where a generator stands is a matter of what was last done to it.  Its geometry is set by a header
that is accepted and given up when the model is replaced, so a configured generator goes by the
last header that was accepted, and still has the model that has accepted it
(`exists_configuredBy`).  Each of the cursors goes up by what is processed for its purpose, from
where both were last moved to (`countsPackets`).

Both follow from what one operation does, along a run that is split at the last operation of a
kind.  `configured_and_counted` adds what reaches the model in the meantime.
-/

namespace VoltageCapture

open PacketGenerator (Operation Purpose Buffers Reply)

namespace PacketGenerator

variable {M : Type} [SignalModel M] {generator after : PacketGenerator M}
  {operation : Operation M} {reply : Reply} {operations : List (Operation M)}

/-! ## The header that a generator goes by -/

/-- The generator is configured by the operation. -/
def Configures (generator : PacketGenerator M) (operation : Operation M) : Prop :=
  ∃ header, operation = .configure header ∧ (generator.configure header).1 = .ok ()

/-- Another model takes the place of the generator's own. -/
def ReplacesModel (_ : PacketGenerator M) (operation : Operation M) : Prop :=
  ∃ model, operation = .setModel model

/-- The geometry is set by a header that is accepted and given up with the model. -/
theorem Step.geometry_eq (hstep : generator.Step operation reply after)
    (hnone : ¬(generator.Configures operation ∨ generator.ReplacesModel operation)) :
    after.geometry? = generator.geometry? := by
  cases hstep with
  | accept hconfigure hpackets hmodel => exact absurd (.inl ⟨_, rfl, hconfigure⟩) hnone
  | replace model => exact absurd (.inr ⟨model, rfl⟩) hnone
  | refuse | seek | reset | reject => rfl
  | process purpose hcheck hanswer => cases purpose <;> rfl

/-- The last operation that configured the generator did so for a header, which the model has
accepted that the generator still has, and the geometry is that of the layout for this header. -/
structure ConfiguredBy (start : PacketGenerator M) (operations before : List (Operation M))
    (header : Header) (after : List (Operation M)) : Prop where
  last : SplitsAtLast afterOperation Configures start operations before (.configure header) after
  accepted : (SignalModel.configure (start.afterOperations before).model header start.layout).1 =
    .ok ()
  kept : NeverIn afterOperation ReplacesModel
    ((start.afterOperations before).afterOperation (.configure header)) after
  geometry_eq : ∃ packetsPerHeap, packetsFor start.layout header = .ok packetsPerHeap ∧
    geometry? (start.afterOperations operations) = some (.ofLayout start.layout packetsPerHeap)

theorem exists_configuredBy (layout : PacketLayout) (model : M)
    (hconfigured : ((make layout model).afterOperations operations).isConfigured = true) :
    ∃ before header after, ConfiguredBy (make layout model) operations before header after := by
  obtain ⟨geometry, hgeometry⟩ := Option.isSome_iff_exists.mp hconfigured
  rcases neverIn_or_exists_last afterOperation
    (fun generator operation => Configures generator operation ∨ ReplacesModel generator operation)
    (make layout model) operations with hnever | ⟨before, operation, after, hlast⟩
  · have hsame := hnever.foldl_eq PacketGenerator.geometry? (step _ _).geometry_eq
    exact absurd (hgeometry.symm.trans hsame) (by simp [make])
  · have hsame := hlast.never_after.foldl_eq PacketGenerator.geometry? (step _ _).geometry_eq
    rw [← hlast.foldl_eq] at hsame
    rcases hlast.happens with ⟨header, rfl, hconfigure⟩ | ⟨model, rfl⟩
    · have hconfigure : (((make layout model).afterOperations before).configure header).1 =
          .ok () := hconfigure
      obtain ⟨packetsPerHeap, configured, hpackets, hmodel, hafter⟩ := of_configure hconfigure
      rw [(laidOut_afterOperations (laidOut_make layout model) before).layout_eq]
        at hpackets hmodel hafter
      refine ⟨before, header, after, ⟨hlast.calls_eq, ⟨header, rfl, hconfigure⟩,
        hlast.never_after.mono .inl⟩, congrArg Prod.fst hmodel, hlast.never_after.mono .inr,
        packetsPerHeap, hpackets, hsame.trans ?_⟩
      exact congrArg PacketGenerator.geometry? hafter
    · exact absurd (hgeometry.symm.trans hsame) (by simp [afterOperation, setModel])

/-! ## The cursors -/

/-- Where an operation moves both cursors to, if it does. -/
def target? (generator : PacketGenerator M) : Operation M → Option Nat
  | .configure header =>
    match (generator.configure header).1 with
    | .ok () => some 0
    | .error _ => none
  | .seek packet => some packet
  | .reset => some 0
  | .setModel _ | .process _ _ => none

/-- The operation moves both cursors. -/
def Moves (generator : PacketGenerator M) (operation : Operation M) : Prop :=
  (generator.target? operation).isSome

/-- The number of packets in a heap, while the generator is configured. -/
def heapPackets (generator : PacketGenerator M) : Nat :=
  match generator.geometry? with
  | some geometry => geometry.packetsPerHeap
  | none => 0

/-- The number of packets that an operation processes for a purpose, if it succeeds. -/
def progress (purpose : Purpose) (generator : PacketGenerator M) : Operation M → Nat
  | .process other buffers =>
    match (generator.reply other buffers).result with
    | .ok _ => if other = purpose then buffers.packets generator.heapPackets else 0
    | .error _ => 0
  | .configure _ | .setModel _ | .seek _ | .reset => 0

theorem cursor_of_target? {packet : Nat} (htarget : generator.target? operation = some packet)
    (purpose : Purpose) : (generator.afterOperation operation).cursor purpose = packet := by
  cases operation with
  | configure header =>
      simp only [target?] at htarget
      split at htarget
      · next hconfigure =>
        obtain rfl := Option.some.inj htarget
        obtain ⟨hfilled, htested⟩ := cursors_of_configure hconfigure
        cases purpose with
        | fill => exact hfilled
        | test => exact htested
      · exact nomatch htarget
  | setModel model => exact nomatch htarget
  | seek target =>
      obtain rfl := Option.some.inj htarget
      cases purpose <;> rfl
  | reset =>
      obtain rfl := Option.some.inj htarget
      cases purpose <;> rfl
  | process other buffers => exact nomatch htarget

/-- What does not move both cursors moves each of them on by what is processed for its purpose. -/
theorem cursor_afterOperation (purpose : Purpose) (hmoves : ¬generator.Moves operation) :
    (generator.afterOperation operation).cursor purpose =
      generator.cursor purpose + generator.progress purpose operation := by
  cases operation with
  | configure header =>
      show (generator.configure header).2.cursor purpose = _
      cases hconfigure : (generator.configure header).1 with
      | error error =>
          obtain ⟨model, hafter, -⟩ := of_configure_eq_error hconfigure
          rw [hafter]
          cases purpose <;> rfl
      | ok done => exact absurd (by simp [Moves, target?, hconfigure]) hmoves
  | setModel model => cases purpose <;> rfl
  | seek packet | reset => exact absurd rfl hmoves
  | process other buffers =>
      show (generator.afterCall (buffers.call other)).cursor purpose = _
      cases hcheck : generator.check buffers with
      | error error =>
          obtain ⟨hreply, hafter⟩ := of_check_eq_error hcheck other
          rw [hafter, progress, hreply]
          rfl
      | ok geometry =>
          obtain ⟨hreply, hafter⟩ := of_check_eq_ok hcheck other
          obtain ⟨answer, hanswer⟩ := work_result generator geometry other buffers
          have hheap : generator.heapPackets = geometry.packetsPerHeap := by
            rw [heapPackets, geometry_of_check_eq_ok hcheck]
          rw [hafter, progress, hreply, hanswer]
          cases purpose <;> cases other <;> simp [hheap, movedOn, cursor]

/-- The cursors stand where they were last moved to, or at the first packet if they never were,
and each of them is further by what was processed for its purpose since. -/
inductive CountsPackets (start : PacketGenerator M) (operations : List (Operation M)) : Prop
  | unmoved (hnever : NeverIn afterOperation Moves start operations)
      (hcursor : ∀ purpose, (start.afterOperations operations).cursor purpose =
        start.cursor purpose + total afterOperation (progress purpose) start operations)
  | moved {before after : List (Operation M)} {operation : Operation M} {packet : Nat}
      (hlast : SplitsAtLast afterOperation Moves start operations before operation after)
      (htarget : (start.afterOperations before).target? operation = some packet)
      (hcursor : ∀ purpose, (start.afterOperations operations).cursor purpose =
        packet + total afterOperation (progress purpose)
          ((start.afterOperations before).afterOperation operation) after)

theorem countsPackets (start : PacketGenerator M) (operations : List (Operation M)) :
    CountsPackets start operations := by
  rcases neverIn_or_exists_last afterOperation Moves start operations with
    hnever | ⟨before, operation, after, hlast⟩
  · exact .unmoved hnever fun purpose =>
      hnever.foldl_eq_add_total (cursor · purpose) (cursor_afterOperation purpose)
  · obtain ⟨packet, htarget⟩ := Option.isSome_iff_exists.mp hlast.happens
    refine .moved hlast htarget fun purpose => ?_
    rw [← cursor_of_target? htarget purpose]
    exact (congrArg (cursor · purpose) hlast.foldl_eq).trans
      (hlast.never_after.foldl_eq_add_total (cursor · purpose) (cursor_afterOperation purpose))

/-! ## The two together -/

/-- **A configured generator has a configured model and exact cursors.**  This is about any
operations from the start on, with any models.

A configured generator goes by the last header that was accepted, and by a model that accepted it
and has not been replaced.  The cursors count what has been processed since they were last moved.
To keep a log of what reaches the present model makes no difference to any of this; and according
to the log, nothing is to be filled or tested by a model that has not accepted a header before.
In particular a random signal always has its sequences by then, whatever other models it takes
turns with. -/
theorem configured_and_counted {M : Type} [SignalModel M] (layout : PacketLayout) (model : M)
    (operations : List (Operation M)) :
    (((make layout model).afterOperations operations).isConfigured = true →
      ∃ before header after, ConfiguredBy (make layout model) operations before header after) ∧
    CountsPackets (make layout model) operations ∧
    (recordedAfter layout model operations).mapModel Recorded.model =
      (make layout model).afterOperations operations ∧
    (∀ {before entry after},
      (recordedAfter layout model operations).model.log = before ++ entry :: after →
      entry.2.IsUse → ∃ earlier ∈ before, Accepted earlier) ∧
    ∀ {N : Type} [SignalModel N] (layout : PacketLayout) (model : RandomSignal ⊕ N)
      (operations : List (Operation (RandomSignal ⊕ N))) (signal : RandomSignal)
      (request : ModelRequest),
      (.inl signal, request) ∈ (recordedAfter layout model operations).model.log →
        request.IsUse → signal.sequences?.isSome := by
  refine ⟨exists_configuredBy layout model, countsPackets _ _,
    mapModel_recordedAfter layout model operations, ?_, ?_⟩
  · intro before entry after hlog huse
    have hprepared := isPrepared_recordedAfter Recorded.prepares_orderly (fun _ => .nil) layout
      model operations
    exact hprepared.base.exists_accepted hlog huse
  · intro N _ layout model operations signal request hmem huse
    have hnone : ∀ model : RandomSignal ⊕ N, UsedReady HasSequences (Recorded.fresh model).log :=
      fun _ _ hmem => absurd hmem List.not_mem_nil
    have hprepared := isPrepared_recordedAfter RandomSignal.prepares_hasSequences.recorded
      (fun model => ⟨trivial, hnone model⟩) layout model operations
    exact hprepared.base.2 _ hmem huse

/-- Packet 0 is filled with a random signal, which is then replaced by a sine signal.  The next
packet is refused; after another header and a move to packet 5, a heap of two packets is tested. -/
def replacingSignal : List (Operation (RandomSignal ⊕ SineSignal)) :=
  [.configure seededHeader, .process .fill (.packet (List.replicate 7 0)),
    .setModel (.inr .standard), .process .fill (.packet (List.replicate 7 0)),
    .configure byteHeader, .seek 5, .process .test (.heap (List.replicate 12 0) (List.replicate 14 0))]

theorem configured_and_counted_replacingSignal :
    let start := make overlappingPacket (.inl .unconfigured)
    let generator := start.afterOperations replacingSignal
    (generator.isConfigured = true ∧
      ∃ before header after, ConfiguredBy start replacingSignal before header after) ∧
      generator.cursor .fill = 5 ∧ generator.cursor .test = 7 ∧
      CountsPackets start replacingSignal := by
  have hconfigured : ((make overlappingPacket (.inl .unconfigured)).afterOperations
      replacingSignal).isConfigured = true := by decide +kernel
  obtain ⟨hheader, hcounts, -⟩ :=
    configured_and_counted overlappingPacket (.inl .unconfigured) replacingSignal
  exact ⟨⟨hconfigured, hheader hconfigured⟩, by decide +kernel, by decide +kernel, hcounts⟩

end PacketGenerator

end VoltageCapture
