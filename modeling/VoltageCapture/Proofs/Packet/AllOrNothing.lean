import VoltageCapture.Proofs.Packet.Bounds
import VoltageCapture.Signal.Random
import VoltageCapture.Signal.Sine

/-!
# Operations are done or not done

An operation on a generator that fails has changed nothing: all checks come ahead of all work, and
a header is refused before anything is made of it.  What a generator cannot see to is that a model
stays as it was when it refuses a header itself (`SignalModel.Steadfast`), which random and sine
signals do.

`PacketGenerator.all_or_nothing` says so in whatever state a generator is, along with what decides
whether a call fails: whether the generator is configured, and then whether a buffer is too short.
-/

namespace VoltageCapture

open PacketGenerator (Operation Purpose Buffers Reply)

/-! ## Models that refuse a header -/

/-- Models that are not configured stay as they were. -/
def SignalModel.Steadfast (M : Type) [SignalModel M] : Prop :=
  ∀ {model configured : M} {header : Header} {layout : PacketLayout} {error : Error},
    SignalModel.configure model header layout = (.error error, configured) → configured = model

theorem RandomSignal.steadfast : SignalModel.Steadfast RandomSignal := by
  intro model configured header layout error hconfigure
  simp only [SignalModel.configure] at hconfigure
  split at hconfigure
  · simp at hconfigure
  · exact (Prod.mk.inj hconfigure).2.symm

theorem SineSignal.steadfast : SignalModel.Steadfast SineSignal := by
  intro model configured header layout error hconfigure
  simp only [SignalModel.configure] at hconfigure
  split at hconfigure
  · simp at hconfigure
  · exact (Prod.mk.inj hconfigure).2.symm

theorem SignalModel.Steadfast.sum {M N : Type} [SignalModel M] [SignalModel N]
    (hleft : Steadfast M) (hright : Steadfast N) : Steadfast (M ⊕ N) := by
  intro model configured header layout error hconfigure
  cases model with
  | inl model =>
      obtain ⟨houtcome, hmodel⟩ := Prod.mk.inj hconfigure
      exact hmodel.symm.trans (congrArg Sum.inl (hleft (Prod.ext houtcome rfl)))
  | inr model =>
      obtain ⟨houtcome, hmodel⟩ := Prod.mk.inj hconfigure
      exact hmodel.symm.trans (congrArg Sum.inr (hright (Prod.ext houtcome rfl)))

namespace PacketGenerator

variable {M : Type} [SignalModel M] {generator : PacketGenerator M} {layout : PacketLayout}
  {operation : Operation M} {reply : Reply} {after : PacketGenerator M} {error : Error}

/-! ## What an operation that fails leaves behind -/

/-- No buffer, no cursor and no part of the configuration is touched by an operation that
fails. -/
theorem Step.unchanged (hsteadfast : SignalModel.Steadfast M)
    (hstep : generator.Step operation reply after) (herror : reply.result = .error error) :
    reply.buffers = operation.passed ∧ after = generator := by
  cases hstep with
  | refuse hmodel =>
      rcases hmodel with rfl | hrefused
      · exact ⟨rfl, rfl⟩
      · obtain rfl := hsteadfast hrefused
        exact ⟨rfl, rfl⟩
  | reject purpose hcheck => exact ⟨rfl, rfl⟩
  | accept | replace | seek | reset => exact nomatch herror
  | process purpose hcheck hanswer => exact nomatch hanswer.symm.trans herror

/-! ## What decides whether a call fails -/

/-- The generator is configured, and none of the buffers is too short for it. -/
def Takes (generator : PacketGenerator M) (buffers : Buffers) : Prop :=
  ∃ geometry, generator.geometry? = some geometry ∧ buffers.Fit generator.layout geometry

/-- The generator is configured, and would overrun one of the buffers. -/
def Overruns (generator : PacketGenerator M) (buffers : Buffers) : Prop :=
  ∃ geometry, generator.geometry? = some geometry ∧ ¬buffers.Fit generator.layout geometry

/-- Which result a call has is decided by whether the generator is configured, and then by the
lengths of the buffers.  If it succeeds, no access on the way was out of range. -/
structure Sorts (generator : PacketGenerator M) (purpose : Purpose) (buffers : Buffers) :
    Prop where
  state_iff : (∃ message, (generator.reply purpose buffers).result = .error (.state message)) ↔
    generator.isConfigured = false
  validation_iff : (∃ field message,
      (generator.reply purpose buffers).result = .error (.validation field message)) ↔
    generator.Overruns buffers
  ok_iff : (∃ answer, (generator.reply purpose buffers).result = .ok answer) ↔
    generator.Takes buffers
  in_range : ∀ {geometry}, generator.geometry? = some geometry →
    buffers.Fit generator.layout geometry →
      generator.work? geometry purpose buffers = some (generator.reply purpose buffers,
        (generator.afterCall (buffers.call purpose)).model)

/-- The three results exclude each other, and so do the three conditions. -/
theorem sorts_of_laidOut (hlaid : generator.LaidOut layout) (hdata : 0 < layout.data.size)
    (hweights : 0 < layout.scales.size + layout.weights.size) (purpose : Purpose)
    (buffers : Buffers) : generator.Sorts purpose buffers := by
  cases hgeometry : generator.geometry? with
  | none =>
      have hreply := (of_check_eq_error (check_of_geometry_eq_none hgeometry buffers) purpose).1
      constructor
      · simp [hreply, isConfigured, hgeometry]
      · simp [hreply, Overruns, hgeometry]
      · simp [hreply, Takes, hgeometry]
      · simp [hgeometry]
  | some geometry =>
      obtain ⟨packetsPerHeap, rfl⟩ := hlaid.geometry_eq hgeometry
      obtain rfl := hlaid.layout_eq
      have hdecides := decides_check hgeometry
        (by rw [SplitGeometry.dataStride_ofLayout]; exact Nat.ne_of_gt hdata)
        (by rw [SplitGeometry.weightsStride_ofLayout]; exact Nat.ne_of_gt hweights) buffers
      cases hcheck : generator.check buffers with
      | error error =>
          have hshort : ¬buffers.Fit generator.layout
              (.ofLayout generator.layout packetsPerHeap) := by
            intro hfit
            obtain ⟨_, hok⟩ := hdecides.exists_ok_iff.mpr hfit
            simp [hok] at hcheck
          have hreply := (of_check_eq_error hcheck purpose).1
          obtain ⟨field, message, rfl, -⟩ := hdecides.of_error hcheck
          constructor
          · simp [hreply, isConfigured, hgeometry]
          · simp [hreply, Overruns, hgeometry, hshort]
          · simp [hreply, Takes, hgeometry, hshort]
          · simp [hgeometry, hshort]
      | ok found =>
          obtain ⟨hfit, rfl⟩ := hdecides.of_ok hcheck
          obtain ⟨hreply, hafter⟩ := of_check_eq_ok hcheck purpose
          obtain ⟨answer, hanswer⟩ := work_result generator
            (.ofLayout generator.layout packetsPerHeap) purpose buffers
          have hfit : buffers.Fit generator.layout (.ofLayout generator.layout packetsPerHeap) :=
            hfit
          constructor
          · simp [hreply, hanswer, isConfigured, hgeometry]
          · simp [hreply, hanswer, Overruns, hgeometry, hfit]
          · simp [hreply, hanswer, Takes, hgeometry, hfit]
          · intro geometry hfound _
            rw [hgeometry, Option.some.injEq] at hfound
            subst hfound
            rw [work?_eq hfit purpose, hreply, hafter]
            cases purpose <;> rfl

/-- **Operations are done or not done.**  Take a generator of random or sine packets through any
operations.  A call then fails with a state error if the generator is not configured, with a
validation error if it is but a buffer is too short, and otherwise succeeds, without an access out
of range.  An operation that fails leaves the buffers and the generator as they were, so whatever
is done next has the results that it would have had. -/
theorem all_or_nothing (layout : PacketLayout) (hdata : 0 < layout.data.size)
    (hweights : 0 < layout.scales.size + layout.weights.size) (model : RandomSignal ⊕ SineSignal)
    (operations : List (Operation (RandomSignal ⊕ SineSignal))) :
    let generator := (make layout model).afterOperations operations
    generator.LaidOut layout ∧ (∀ purpose buffers, generator.Sorts purpose buffers) ∧
      ∀ operation error, (generator.replyTo operation).result = .error error →
        (generator.replyTo operation).buffers = operation.passed ∧
          generator.afterOperation operation = generator ∧
          ∀ later, generator.replies (operation :: later) =
            generator.replyTo operation :: generator.replies later := by
  intro generator
  have hlaid : generator.LaidOut layout :=
    laidOut_afterOperations (laidOut_make layout model) operations
  refine ⟨hlaid, sorts_of_laidOut hlaid hdata hweights, ?_⟩
  intro operation error herror
  obtain ⟨hpassed, hafter⟩ :=
    (step generator operation).unchanged (RandomSignal.steadfast.sum SineSignal.steadfast) herror
  refine ⟨hpassed, hafter, fun later => ?_⟩
  rw [replies, hafter]

/-- A packet of seven bytes in which the regions overlap, the data first. -/
def overlappingPacket : PacketLayout where
  channels := 1
  samples := 1
  samplesPerWeight := 1
  scales := ⟨2, 4⟩
  weights := ⟨4, 3⟩
  data := ⟨0, 6⟩

/-- Two packets to a heap.  A sine signal also wants to know the width of a value. -/
def widthlessHeader : Header :=
  ⟨[⟨"NDIM", "2"⟩, ⟨"NPOL", "2"⟩, ⟨"NCHAN", "2"⟩]⟩

def byteHeader : Header :=
  ⟨[⟨"NDIM", "2"⟩, ⟨"NPOL", "2"⟩, ⟨"NCHAN", "2"⟩, ⟨"NBIT", "8"⟩]⟩

/-- After a packet has been filled, another header is refused and so is a heap that is a byte
short.  The generator is still configured for the first header, and the next packet is packet 1. -/
theorem all_or_nothing_overlappingPacket :
    (0 < overlappingPacket.data.size ∧
      0 < overlappingPacket.scales.size + overlappingPacket.weights.size) ∧
    let generator := (make overlappingPacket (.inr .standard :
        RandomSignal ⊕ SineSignal)).afterOperations
      [.configure byteHeader, .process .fill (.packet (List.replicate 7 0))]
    generator.filled = 1 ∧
      generator.afterOperation (.configure widthlessHeader) = generator ∧
      (∃ field message, (generator.reply .test
          (.heap (List.replicate 12 0) (List.replicate 13 0))).result =
        .error (.validation field message)) ∧
      ∃ answer, (generator.reply .fill (.packet (List.replicate 7 0))).result = .ok answer := by
  have hdata : 0 < overlappingPacket.data.size := by decide
  have hweights : 0 < overlappingPacket.scales.size + overlappingPacket.weights.size := by decide
  refine ⟨⟨hdata, hweights⟩, ?_⟩
  intro generator
  obtain ⟨-, hsorts, hunchanged⟩ := all_or_nothing overlappingPacket hdata hweights
    (.inr .standard) [.configure byteHeader, .process .fill (.packet (List.replicate 7 0))]
  have hgeometry : generator.geometry? = some (.ofLayout overlappingPacket 2) := rfl
  refine ⟨rfl, ?_, ?_, ?_⟩
  · exact (hunchanged (.configure widthlessHeader) _ rfl).2.1
  · refine (hsorts .test _).validation_iff.mpr ⟨_, hgeometry, fun hfit => ?_⟩
    exact absurd (Buffers.holdSplit_met_iff.mp hfit).weights_le (by decide)
  · refine (hsorts .fill _).ok_iff.mpr ⟨_, hgeometry, fun requirement hmem => ?_⟩
    rw [List.mem_singleton.mp hmem]
    exact Nat.le_refl 7

end PacketGenerator

end VoltageCapture
