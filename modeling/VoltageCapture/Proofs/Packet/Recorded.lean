import VoltageCapture.Proofs.Packet.Operations

/-!
# Models that record their requests

A generator asks its model to be configured, to fill regions and to test them, and shows nothing
of that to its caller.  `Recorded M` is a model of type `M` that keeps a log of these requests, so
that what reaches a model can be read off a generator's state.

Keeping a log makes no difference: the generator with the log left out is the one that never kept
any (`mapModel_recordedAfter`).  This holds of any map between models that commutes with their
operations.
-/

namespace VoltageCapture

open PacketGenerator (Operation Purpose Buffers)

/-! ## Maps between models -/

/-- It makes no difference whether a model is mapped before it does its work or after. -/
structure SignalModel.Commutes {M N : Type} [SignalModel M] [SignalModel N] (f : M → N) :
    Prop where
  configure : ∀ (model : M) (header : Header) (layout : PacketLayout),
    SignalModel.configure (f model) header layout =
      (SignalModel.configure model header layout).map id f
  fill : ∀ (model : M) (region : Region) (packet : Nat) (buffer : Bytes),
    SignalModel.fill (f model) region packet buffer =
      (SignalModel.fill model region packet buffer).map id f
  test : ∀ (model : M) (region : Region) (packet : Nat) (buffer : Bytes),
    SignalModel.test (f model) region packet buffer =
      (SignalModel.test model region packet buffer).map id f

namespace PacketGenerator

variable {M N : Type}

/-- The generator with another model in place of its own. -/
def mapModel (f : M → N) (generator : PacketGenerator M) : PacketGenerator N where
  layout := generator.layout
  model := f generator.model
  geometry? := generator.geometry?
  filled := generator.filled
  tested := generator.tested

/-- The operation with another model in place of the one that is passed to it. -/
def Operation.map (f : M → N) : Operation M → Operation N
  | .configure header => .configure header
  | .setModel model => .setModel (f model)
  | .seek packet => .seek packet
  | .reset => .reset
  | .process purpose buffers => .process purpose buffers

theorem check_mapModel (f : M → N) (generator : PacketGenerator M) (buffers : Buffers) :
    (generator.mapModel f).check buffers = generator.check buffers := by
  cases buffers <;> rfl

end PacketGenerator

section Commutes

variable {M N : Type} [SignalModel M] [SignalModel N] {f : M → N}
  (hcommutes : SignalModel.Commutes f)

include hcommutes

theorem fillRegion_map (model : M) (region : Region) (extent : Extent) (packet : Nat)
    (buffer : Bytes) :
    fillRegion (f model) region extent packet buffer =
      (fillRegion model region extent packet buffer).map id f := by
  simp only [fillRegion, hcommutes.fill]
  rfl

theorem fillWholePacket_map (model : M) (layout : PacketLayout) (packet : Nat) (buffer : Bytes) :
    fillWholePacket (f model) layout packet buffer =
      (fillWholePacket model layout packet buffer).map id f := by
  simp only [fillWholePacket, fillRegion_map hcommutes, Prod.map_fst, Prod.map_snd, id_eq]

theorem fillSplitPacket_map (model : M) (geometry : SplitGeometry) (packet : Nat)
    (data weights : Bytes) :
    fillSplitPacket (f model) geometry packet data weights =
      (fillSplitPacket model geometry packet data weights).map id f := by
  simp only [fillSplitPacket, fillRegion_map hcommutes, Prod.map_fst, Prod.map_snd, id_eq]
  rfl

theorem fillSplitPackets_map (model : M) (geometry : SplitGeometry) (count packet : Nat)
    (data weights : Bytes) :
    fillSplitPackets (f model) geometry count packet data weights =
      (fillSplitPackets model geometry count packet data weights).map id f := by
  induction count generalizing model packet data weights with
  | zero => rfl
  | succ count ih =>
      simp only [fillSplitPackets, fillSplitPacket_map hcommutes, Prod.map_fst, Prod.map_snd, id_eq,
        ih]
      rfl

theorem testRegions_map (model : M) (packet : Nat) (parts : List (Region × Bytes)) :
    testRegions (f model) packet parts = (testRegions model packet parts).map id f := by
  induction parts generalizing model with
  | nil => rfl
  | cons part parts ih =>
      simp only [testRegions, hcommutes.test]
      cases SignalModel.test model part.1 packet part.2 with
      | mk passed model =>
          cases passed with
          | true => exact ih model
          | false => rfl

theorem testSplitPackets_map (model : M) (geometry : SplitGeometry) (count packet : Nat)
    (data weights : Bytes) :
    testSplitPackets (f model) geometry count packet data weights =
      (testSplitPackets model geometry count packet data weights).map id f := by
  induction count generalizing model packet data weights with
  | zero => rfl
  | succ count ih =>
      simp only [testSplitPackets, testSplitPacket, testRegions_map hcommutes]
      cases testRegions model packet _ with
      | mk passed model =>
          cases passed with
          | true => exact ih model _ _ _
          | false => rfl

namespace PacketGenerator

theorem work_mapModel (generator : PacketGenerator M) (geometry : SplitGeometry)
    (purpose : Purpose) (buffers : Buffers) :
    (generator.mapModel f).work geometry purpose buffers =
      (generator.work geometry purpose buffers).map id f := by
  cases purpose <;> cases buffers <;>
    simp only [work, mapModel, fillWholePacket_map hcommutes, fillSplitPacket_map hcommutes,
      fillSplitPackets_map hcommutes, testWholePacket, testSplitPacket, testRegions_map hcommutes,
      testSplitPackets_map hcommutes] <;>
    rfl

theorem configure_mapModel (generator : PacketGenerator M) (header : Header) :
    (generator.mapModel f).configure header =
      (generator.configure header).map id (mapModel f) := by
  simp only [configure, mapModel, hcommutes.configure]
  cases packetsFor generator.layout header with
  | error error => rfl
  | ok packetsPerHeap =>
      cases SignalModel.configure generator.model header generator.layout with
      | mk outcome model =>
          cases outcome with
          | error error => rfl
          | ok done => rfl

theorem afterOperation_mapModel (generator : PacketGenerator M) (operation : Operation M) :
    (generator.mapModel f).afterOperation (operation.map f) =
      (generator.afterOperation operation).mapModel f := by
  cases operation with
  | configure header => exact congrArg Prod.snd (configure_mapModel hcommutes generator header)
  | setModel model | seek packet | reset => rfl
  | process purpose buffers =>
      show (generator.mapModel f).afterCall (buffers.call purpose) =
        (generator.afterCall (buffers.call purpose)).mapModel f
      cases hcheck : generator.check buffers with
      | error error =>
          rw [(of_check_eq_error hcheck purpose).2]
          exact (of_check_eq_error ((check_mapModel f generator buffers).trans hcheck) purpose).2
      | ok geometry =>
          rw [(of_check_eq_ok hcheck purpose).2,
            (of_check_eq_ok ((check_mapModel f generator buffers).trans hcheck) purpose).2,
            work_mapModel hcommutes]
          cases purpose <;> rfl

theorem afterOperations_mapModel (generator : PacketGenerator M)
    (operations : List (Operation M)) :
    (generator.mapModel f).afterOperations (operations.map (Operation.map f)) =
      (generator.afterOperations operations).mapModel f := by
  induction operations generalizing generator with
  | nil => rfl
  | cons operation operations ih =>
      show ((generator.mapModel f).afterOperation (operation.map f)).afterOperations _ = _
      rw [afterOperation_mapModel hcommutes, ih]
      rfl

end PacketGenerator

end Commutes

/-! ## Keeping a log -/

/-- What a model is asked to do. -/
inductive ModelRequest where
  | configure (header : Header) (layout : PacketLayout)
  | fill (region : Region) (packet : Nat) (buffer : Bytes)
  | test (region : Region) (packet : Nat) (buffer : Bytes)

/-- The request is for a model that has been configured. -/
def ModelRequest.IsUse : ModelRequest → Prop
  | .configure _ _ => False
  | .fill _ _ _ | .test _ _ _ => True

/-- A model and the requests to it so far, each with the state of the model that it came to. -/
structure Recorded (M : Type) where
  model : M
  log : List (M × ModelRequest) := []

namespace Recorded

variable {M : Type}

/-- A model without any requests so far. -/
def fresh (model : M) : Recorded M := { model }

/-- A request has been made, which leaves the model in another state. -/
def after (recorded : Recorded M) (request : ModelRequest) (model : M) : Recorded M where
  model
  log := recorded.log ++ [(recorded.model, request)]

instance [SignalModel M] : SignalModel (Recorded M) where
  name recorded := SignalModel.name recorded.model
  configure recorded header layout :=
    (SignalModel.configure recorded.model header layout).map id
      (recorded.after (.configure header layout))
  fill recorded region packet buffer :=
    (SignalModel.fill recorded.model region packet buffer).map id
      (recorded.after (.fill region packet buffer))
  test recorded region packet buffer :=
    (SignalModel.test recorded.model region packet buffer).map id
      (recorded.after (.test region packet buffer))
  length_fill recorded region packet buffer :=
    SignalModel.length_fill recorded.model region packet buffer

theorem commutes_model [SignalModel M] :
    SignalModel.Commutes (Recorded.model : Recorded M → M) where
  configure _ _ _ := rfl
  fill _ _ _ _ := rfl
  test _ _ _ _ := rfl

end Recorded

namespace PacketGenerator

variable {M : Type}

theorem Operation.map_model_map_fresh (operation : Operation M) :
    (operation.map Recorded.fresh).map Recorded.model = operation := by
  cases operation <;> rfl

variable [SignalModel M]

/-- The generator after some operations, with the requests to its present model. -/
def recordedAfter (layout : PacketLayout) (model : M) (operations : List (Operation M)) :
    PacketGenerator (Recorded M) :=
  (make layout (Recorded.fresh model)).afterOperations (operations.map (.map .fresh))

/-- Without the log it is the generator that never kept any. -/
theorem mapModel_recordedAfter (layout : PacketLayout) (model : M)
    (operations : List (Operation M)) :
    (recordedAfter layout model operations).mapModel Recorded.model =
      (make layout model).afterOperations operations := by
  have hmap : (operations.map (Operation.map Recorded.fresh)).map (.map Recorded.model) =
      operations := by
    rw [List.map_map]
    exact (List.map_congr_left fun operation _ => operation.map_model_map_fresh).trans
      (List.map_id operations)
  rw [recordedAfter, ← afterOperations_mapModel Recorded.commutes_model, hmap]
  rfl

end PacketGenerator

end VoltageCapture
