import VoltageCapture.Proofs.Error
import VoltageCapture.Proofs.Packet.Regions

/-!
# Calls to a generator

What a generator does depends on its geometry and its cursors and on the state of its model,
which every call may change.  `PacketGenerator.Tracks` says that a generator has a certain
layout and geometry and that its model has a property; if no call makes the model lose it,
then no sequence of calls to the generator does (`tracks_afterCalls`), whatever buffers are
passed and wherever the cursors are moved.
-/

namespace VoltageCapture.PacketGenerator

variable {M : Type} {generator : PacketGenerator M} {geometry : SplitGeometry} {buffer : Bytes}

/-! ## Preparing a generator -/

/-- A configured generator has the geometry of its layout and stands at the first packet. -/
theorem of_configure [SignalModel M] {header : Header}
    (hconfigure : (generator.configure header).1 = .ok ()) :
    ∃ packetsPerHeap model, packetsFor generator.layout header = .ok packetsPerHeap ∧
      SignalModel.configure generator.model header generator.layout = (.ok (), model) ∧
      (generator.configure header).2 = {
        layout := generator.layout, model
        geometry? := some (.ofLayout generator.layout packetsPerHeap)
        filled := 0, tested := 0 } := by
  cases hpackets : packetsFor generator.layout header with
  | error error => simp [configure, hpackets] at hconfigure
  | ok packetsPerHeap =>
      cases hmodel : SignalModel.configure generator.model header generator.layout with
      | mk outcome model =>
          cases outcome with
          | error error => simp [configure, hpackets, hmodel] at hconfigure
          | ok done =>
              refine ⟨packetsPerHeap, model, rfl, rfl, ?_⟩
              simp only [configure, hpackets, hmodel]
              rfl

theorem cursors_of_configure [SignalModel M] {header : Header}
    (hconfigure : (generator.configure header).1 = .ok ()) :
    (generator.configure header).2.filled = 0 ∧ (generator.configure header).2.tested = 0 := by
  obtain ⟨_, _, -, -, hconfigured⟩ := of_configure hconfigure
  rw [hconfigured]
  exact ⟨rfl, rfl⟩

/-- The generator is one for packets of the layout, and accepts the header. -/
structure Accepts [SignalModel M] (layout : PacketLayout) (header : Header)
    (generator : PacketGenerator M) : Prop where
  layout_eq : generator.layout = layout
  configure_ok : (generator.configure header).1 = .ok ()

theorem checkPacket_eq_ok (hgeometry : generator.geometry? = some geometry)
    (hfits : generator.layout.packetSize ≤ buffer.length) :
    generator.checkPacket buffer = .ok () := by
  simp only [checkPacket, PacketGenerator.geometry, hgeometry, checkLength, bind_eq_ok,
    require_eq_ok]
  exact ⟨geometry, rfl, hfits⟩

/-! ## Any calls -/

/-- A call that fills or tests packets or moves the cursors. -/
inductive Call where
  | seek (packet : Nat)
  | reset
  | fillPacket (buffer : Bytes)
  | testPacket (buffer : Bytes)
  | fillSplit (data weights : Bytes)
  | testSplit (data weights : Bytes)
  | fillHeap (data weights : Bytes)
  | testHeap (data weights : Bytes)

variable [SignalModel M]

/-- The generator after a call, whether it succeeds or not. -/
def afterCall (generator : PacketGenerator M) : Call → PacketGenerator M
  | .seek packet => generator.seek packet
  | .reset => generator.reset
  | .fillPacket buffer => (generator.fillPacket buffer).2
  | .testPacket buffer => (generator.testPacket buffer).2
  | .fillSplit data weights => (generator.fillSplit data weights).2
  | .testSplit data weights => (generator.testSplit data weights).2
  | .fillHeap data weights => (generator.fillHeap data weights).2
  | .testHeap data weights => (generator.testHeap data weights).2

/-- The generator after some calls. -/
def afterCalls (generator : PacketGenerator M) (calls : List Call) : PacketGenerator M :=
  calls.foldl afterCall generator

/-- The generator is configured for packets of a layout, and `inv` holds of its model. -/
structure Tracks (inv : M → Prop) (layout : PacketLayout) (geometry : SplitGeometry)
    (generator : PacketGenerator M) : Prop where
  layout_eq : generator.layout = layout
  geometry_eq : generator.geometry? = some geometry
  model : inv generator.model

variable {inv : M → Prop} {layout : PacketLayout}

section Keeps

variable (hkeeps : SignalModel.Keeps inv)

include hkeeps

/-- A call that fails changes nothing; one that succeeds changes the model and a cursor. -/
theorem tracks_afterCall (htracks : generator.Tracks inv layout geometry) (call : Call) :
    (generator.afterCall call).Tracks inv layout geometry := by
  cases call with
  | seek packet | reset => exact ⟨htracks.layout_eq, htracks.geometry_eq, htracks.model⟩
  | fillPacket buffer =>
      show (generator.fillPacket buffer).2.Tracks inv layout geometry
      unfold fillPacket
      split
      · exact htracks
      · exact ⟨htracks.layout_eq, htracks.geometry_eq,
          hkeeps.fillWholePacket _ _ _ htracks.model⟩
  | testPacket buffer =>
      show (generator.testPacket buffer).2.Tracks inv layout geometry
      unfold testPacket
      split
      · exact htracks
      · exact ⟨htracks.layout_eq, htracks.geometry_eq, hkeeps.testRegions _ _ htracks.model⟩
  | fillSplit data weights =>
      show (generator.fillSplit data weights).2.Tracks inv layout geometry
      unfold fillSplit
      split
      · exact htracks
      · exact ⟨htracks.layout_eq, htracks.geometry_eq,
          hkeeps.fillSplitPacket _ _ _ _ htracks.model⟩
  | testSplit data weights =>
      show (generator.testSplit data weights).2.Tracks inv layout geometry
      unfold testSplit
      split
      · exact htracks
      · exact ⟨htracks.layout_eq, htracks.geometry_eq, hkeeps.testRegions _ _ htracks.model⟩
  | fillHeap data weights =>
      show (generator.fillHeap data weights).2.Tracks inv layout geometry
      unfold fillHeap
      split
      · exact htracks
      · exact ⟨htracks.layout_eq, htracks.geometry_eq,
          hkeeps.fillSplitPackets _ _ _ _ _ htracks.model⟩
  | testHeap data weights =>
      show (generator.testHeap data weights).2.Tracks inv layout geometry
      unfold testHeap
      split
      · exact htracks
      · exact ⟨htracks.layout_eq, htracks.geometry_eq,
          hkeeps.testSplitPackets _ _ _ _ _ htracks.model⟩

theorem tracks_afterCalls (htracks : generator.Tracks inv layout geometry) (calls : List Call) :
    (generator.afterCalls calls).Tracks inv layout geometry := by
  induction calls generalizing generator with
  | nil => exact htracks
  | cons call calls ih => exact ih (tracks_afterCall hkeeps htracks call)

/-- What a header makes of a model is kept through any calls to the generator. -/
theorem Accepts.tracks {header : Header} (haccepts : generator.Accepts layout header)
    (hmodel : ∀ model configured,
      SignalModel.configure model header layout = (.ok (), configured) → inv configured) :
    ∃ geometry, ∀ calls,
      ((generator.configure header).2.afterCalls calls).Tracks inv layout geometry := by
  obtain ⟨rfl, hconfigure⟩ := haccepts
  obtain ⟨packetsPerHeap, model, -, hconfigured, hafter⟩ := of_configure hconfigure
  refine ⟨.ofLayout generator.layout packetsPerHeap, fun calls => ?_⟩
  apply tracks_afterCalls hkeeps
  rw [hafter]
  exact ⟨rfl, rfl, hmodel generator.model model hconfigured⟩

end Keeps

/-! ## Whole packets -/

section WholePackets

variable {content : Region → Nat → Nat → Bytes} (hdetermines : SignalModel.Determines inv content)
  (htracks : generator.Tracks inv layout geometry)
  (hfits : layout.packetSize ≤ buffer.length)

include htracks hfits

/-- Which packet is filled is a matter of the cursor, and what it holds one of the model. -/
theorem fillPacket_eq_ok : (generator.fillPacket buffer).1 =
    .ok (fillWholePacket generator.model layout generator.filled buffer).1 := by
  obtain ⟨rfl, hgeometry, -⟩ := htracks
  simp only [fillPacket, checkPacket_eq_ok hgeometry hfits]

theorem testPacket_eq_ok : (generator.testPacket buffer).1 =
    .ok (testWholePacket generator.model layout generator.tested buffer).1 := by
  obtain ⟨rfl, hgeometry, -⟩ := htracks
  simp only [testPacket, checkPacket_eq_ok hgeometry hfits]

include hdetermines

theorem exists_fillPacket_filled (hapart : ∀ {region other}, region ≠ other →
      (layout.extent region).Apart (layout.extent other)) :
    ∃ filled, (generator.fillPacket buffer).1 = .ok filled ∧
      layout.Filled [.data, .weights, .scales]
        (fun region => content region generator.filled (layout.extent region).size)
        buffer filled :=
  ⟨_, fillPacket_eq_ok htracks hfits,
    fillWholePacket_filled hdetermines generator.filled htracks.model hapart hfits⟩

theorem exists_testPacket_iff :
    ∃ passed, (generator.testPacket buffer).1 = .ok passed ∧
      (passed = true ↔ ∀ region, (layout.extent region).of buffer =
        content region generator.tested (layout.extent region).size) :=
  ⟨_, testPacket_eq_ok htracks hfits,
    testWholePacket_iff hdetermines generator.tested htracks.model hfits⟩

end WholePackets

end VoltageCapture.PacketGenerator
