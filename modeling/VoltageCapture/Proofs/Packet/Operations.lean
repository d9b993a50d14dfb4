import VoltageCapture.Proofs.Packet.Calls
import VoltageCapture.Proofs.Requirement

/-!
# What an operation does to a generator

Packets are filled or tested, in three forms: a whole packet, a split one, or a heap of split
ones.  Whatever the form, there are checks ahead of the work, that the generator is configured
and that the buffers are long enough (`decides_check`).  A call that they refuse changes nothing
(`of_check_eq_error`); in any other the model does its work and a cursor moves on
(`of_check_eq_ok`).

`Operation` adds what else can be done to a generator, and `Step` says all that an operation can
do.  What every step keeps holds after any operations: the layout never changes, and the geometry
is always one of the layout (`laidOut_afterOperations`).
-/

namespace VoltageCapture

/-! ## Room for packets -/

namespace SplitGeometry

/-- Two buffers have room for a number of split packets. -/
structure HasRoom (geometry : SplitGeometry) (count : Nat) (data weights : Bytes) : Prop where
  data_le : count * geometry.dataStride ≤ data.length
  weights_le : count * geometry.weightsStride ≤ weights.length

variable {geometry : SplitGeometry} {count : Nat} {data weights : Bytes}

/-- There is a piece of a packet's size at the start of either buffer. -/
theorem HasRoom.pieces (hroom : geometry.HasRoom (count + 1) data weights) :
    geometry.dataStride ≤ data.length ∧ geometry.weightsStride ≤ weights.length := by
  obtain ⟨hdata, hweights⟩ := hroom
  rw [Nat.succ_mul] at hdata hweights
  omega

theorem HasRoom.first (hroom : geometry.HasRoom (count + 1) data weights) :
    geometry.HasRoom 1 (data.take geometry.dataStride) (weights.take geometry.weightsStride) := by
  obtain ⟨hdata, hweights⟩ := hroom.pieces
  constructor <;> rw [Nat.one_mul, List.length_take] <;> omega

theorem HasRoom.rest (hroom : geometry.HasRoom (count + 1) data weights) :
    geometry.HasRoom count (data.drop geometry.dataStride)
      (weights.drop geometry.weightsStride) := by
  obtain ⟨hdata, hweights⟩ := hroom
  rw [Nat.succ_mul] at hdata hweights
  constructor <;> rw [List.length_drop] <;> omega

/-- The regions of a split packet lie within a packet's bytes of the two buffers. -/
theorem HasRoom.limits_le {layout : PacketLayout} {packetsPerHeap : Nat}
    (hroom : (ofLayout layout packetsPerHeap).HasRoom 1 data weights) :
    (ofLayout layout packetsPerHeap).scales.limit ≤ weights.length ∧
      (ofLayout layout packetsPerHeap).weights.limit ≤ weights.length ∧
      (ofLayout layout packetsPerHeap).data.limit ≤ data.length := by
  obtain ⟨hdata, hweights⟩ := hroom
  rw [Nat.one_mul] at hdata hweights
  refine ⟨?_, hweights, hdata⟩
  rw [weightsStride_ofLayout] at hweights
  simp only [ofLayout, Extent.limit]
  omega

end SplitGeometry

namespace PacketGenerator

variable {M : Type}

/-! ## Filling and testing -/

/-- What packets are processed for.  There is a cursor for each. -/
inductive Purpose where
  | fill
  | test
deriving DecidableEq

/-- The cursor for a purpose. -/
def cursor (generator : PacketGenerator M) : Purpose → Nat
  | .fill => generator.filled
  | .test => generator.tested

/-- The buffers that are passed to a call, by the form of what is in them. -/
inductive Buffers where
  | packet (buffer : Bytes)
  | split (data weights : Bytes)
  | heap (data weights : Bytes)

namespace Buffers

def contents : Buffers → List Bytes
  | .packet buffer => [buffer]
  | .split data weights | .heap data weights => [data, weights]

/-- The number of packets that the buffers are meant for. -/
def packets (packetsPerHeap : Nat) : Buffers → Nat
  | .packet _ | .split _ _ => 1
  | .heap _ _ => packetsPerHeap

/-- What two buffers have to be long enough for, to hold a number of split packets. -/
def holdSplit (geometry : SplitGeometry) (count : Nat) (data weights : Bytes) :
    List Requirement :=
  [⟨"data", count * geometry.dataStride ≤ data.length⟩,
    ⟨"weights", count * geometry.weightsStride ≤ weights.length⟩]

/-- What the buffers have to be long enough for. -/
def requirements (layout : PacketLayout) (geometry : SplitGeometry) : Buffers → List Requirement
  | .packet buffer => [⟨"packet", layout.packetSize ≤ buffer.length⟩]
  | .split data weights => holdSplit geometry 1 data weights
  | .heap data weights => holdSplit geometry geometry.packetsPerHeap data weights

/-- No buffer is too short. -/
def Fit (layout : PacketLayout) (geometry : SplitGeometry) (buffers : Buffers) : Prop :=
  ∀ requirement ∈ buffers.requirements layout geometry, requirement.met

theorem holdSplit_met_iff {geometry : SplitGeometry} {count : Nat} {data weights : Bytes} :
    (∀ requirement ∈ holdSplit geometry count data weights, requirement.met) ↔
      geometry.HasRoom count data weights := by
  simp only [holdSplit, List.forall_mem_cons, List.not_mem_nil, false_implies, implies_true,
    and_true]
  exact ⟨fun ⟨hdata, hweights⟩ => ⟨hdata, hweights⟩, fun ⟨hdata, hweights⟩ => ⟨hdata, hweights⟩⟩

/-- The call that processes the packets in the buffers. -/
def call : Purpose → Buffers → Call
  | .fill, .packet buffer => .fillPacket buffer
  | .test, .packet buffer => .testPacket buffer
  | .fill, .split data weights => .fillSplit data weights
  | .test, .split data weights => .testSplit data weights
  | .fill, .heap data weights => .fillHeap data weights
  | .test, .heap data weights => .testHeap data weights

end Buffers

/-- What an operation gives back, and what is in the buffers that were passed to it.  Only a
test that succeeds gives back anything, which is whether the packets have passed. -/
structure Reply where
  result : Except Error (Option Bool)
  buffers : List Bytes

namespace Reply

/-- The reply to filling: buffers are written to only if that succeeds. -/
def ofFill (buffers : Buffers) : Except Error (List Bytes) → Reply
  | .ok filled => ⟨.ok none, filled⟩
  | .error error => ⟨.error error, buffers.contents⟩

/-- The reply to testing, which writes to no buffer. -/
def ofTest (buffers : Buffers) (outcome : Except Error Bool) : Reply :=
  ⟨outcome.map some, buffers.contents⟩

end Reply

/-- Two buffers that have been filled. -/
def bothBuffers (filled : Bytes × Bytes) : List Bytes :=
  [filled.1, filled.2]

/-! ## The checks ahead -/

/-- The checks ahead of a call, and the geometry that it goes by. -/
def check (generator : PacketGenerator M) : Buffers → Except Error SplitGeometry
  | .packet buffer => do
    generator.checkPacket buffer
    generator.geometry
  | .split data weights => generator.checkSplit data weights
  | .heap data weights => generator.checkHeap data weights

variable {generator : PacketGenerator M} {geometry : SplitGeometry} {buffers : Buffers}

theorem check_of_geometry_eq_none (hgeometry : generator.geometry? = none) (buffers : Buffers) :
    generator.check buffers = .error (.state "packet generator used before configure") := by
  cases buffers <;>
    simp only [check, checkPacket, checkSplit, checkHeap, PacketGenerator.geometry, hgeometry] <;>
    rfl

theorem geometry_of_check_eq_ok (hcheck : generator.check buffers = .ok geometry) :
    generator.geometry? = some geometry := by
  cases hgeometry : generator.geometry? with
  | none => simp [check_of_geometry_eq_none hgeometry buffers] at hcheck
  | some found =>
      -- whatever else is checked, the geometry is passed on as it was found
      cases buffers with
      | packet buffer =>
          simp only [check, PacketGenerator.geometry, hgeometry, bind_eq_ok] at hcheck
          obtain ⟨_, -, hfound⟩ := hcheck
          rw [Except.ok.inj hfound]
      | split data weights =>
          simp only [check, checkSplit, PacketGenerator.geometry, hgeometry, bind_eq_ok,
            pure_eq_ok, Except.ok.injEq] at hcheck
          obtain ⟨_, rfl, _, -, rfl⟩ := hcheck
          rfl
      | heap data weights =>
          simp only [check, checkHeap, PacketGenerator.geometry, hgeometry, bind_eq_ok,
            pure_eq_ok, Except.ok.injEq] at hcheck
          obtain ⟨_, rfl, _, -, _, -, rfl⟩ := hcheck
          rfl

theorem check_packet_eq_ok {buffer : Bytes} : generator.check (.packet buffer) = .ok geometry ↔
    generator.geometry? = some geometry ∧ generator.checkPacket buffer = .ok () := by
  cases hgeometry : generator.geometry? with
  | none => simp [check_of_geometry_eq_none hgeometry]
  | some found =>
      simp only [check, PacketGenerator.geometry, hgeometry, bind_eq_ok, Except.ok.injEq,
        Option.some.injEq]
      constructor
      · rintro ⟨_, hpacket, hfound⟩
        exact ⟨hfound, hpacket⟩
      · rintro ⟨hfound, hpacket⟩
        exact ⟨(), hpacket, hfound⟩

theorem check_packet_eq_error {buffer : Bytes} {error : Error} :
    generator.check (.packet buffer) = .error error ↔
      generator.checkPacket buffer = .error error := by
  cases hgeometry : generator.geometry? with
  | none =>
      simp [check_of_geometry_eq_none hgeometry, checkPacket, PacketGenerator.geometry, hgeometry,
        bind_eq_error]
  | some found => simp [check, PacketGenerator.geometry, hgeometry, bind_eq_error]

theorem decides_checkLength (name : String) (actual required : Nat) :
    Decides (checkLength name actual required) [⟨name, required ≤ actual⟩] fun _ => True := by
  apply Decides.single
  · intro hfits
    exact ⟨(), require_eq_ok.mpr hfits, trivial⟩
  · intro hshort
    exact ⟨_, require_eq_error.mpr ⟨hshort, rfl⟩⟩

theorem decides_checkBuffers (geometry : SplitGeometry) (count : Nat) (data weights : Bytes) :
    Decides (checkBuffers count geometry data weights)
      (Buffers.holdSplit geometry count data weights) fun _ => True :=
  (decides_checkLength "data" _ _).bind fun _ _ => decides_checkLength "weights" _ _

/-- A configured generator takes the buffers exactly if none is too short, and names the first
one that is. -/
theorem decides_check (hgeometry : generator.geometry? = some geometry)
    (hdata : geometry.dataStride ≠ 0) (hweights : geometry.weightsStride ≠ 0)
    (buffers : Buffers) :
    Decides (generator.check buffers) (buffers.requirements generator.layout geometry)
      (· = geometry) := by
  have hfound : generator.geometry = .ok geometry := by
    simp only [PacketGenerator.geometry, hgeometry]
  cases buffers with
  | packet buffer =>
      simp only [check, checkPacket, hfound]
      exact (decides_checkLength "packet" _ _).bind fun _ _ => .pure rfl
  | split data weights =>
      simp only [check, checkSplit, hfound]
      exact (decides_checkBuffers geometry 1 data weights).bind fun _ _ => .pure rfl
  | heap data weights =>
      simp only [check, checkHeap, hfound]
      refine (decides_checkBuffers geometry geometry.packetsPerHeap data weights).bind fun _ _ => ?_
      exact .require_bind ⟨hdata, hweights⟩ (.pure rfl)

theorem check_of_fit (hgeometry : generator.geometry? = some geometry)
    (hdata : geometry.dataStride ≠ 0) (hweights : geometry.weightsStride ≠ 0)
    (hfit : buffers.Fit generator.layout geometry) : generator.check buffers = .ok geometry := by
  have hdecides := decides_check hgeometry hdata hweights buffers
  obtain ⟨found, hcheck⟩ := hdecides.exists_ok_iff.mpr hfit
  rw [hcheck, (hdecides.of_ok hcheck).2]

/-! ## The geometry -/

/-- The generator is one for packets of the layout, and goes by no other when it is configured. -/
structure LaidOut (layout : PacketLayout) (generator : PacketGenerator M) : Prop where
  layout_eq : generator.layout = layout
  geometry_eq : ∀ {geometry}, generator.geometry? = some geometry →
    ∃ packetsPerHeap, geometry = .ofLayout layout packetsPerHeap

theorem laidOut_make (layout : PacketLayout) (model : M) : (make layout model).LaidOut layout :=
  ⟨rfl, nofun⟩

/-! ## What a call does -/

variable [SignalModel M]

/-- What is done once the checks have passed: the reply, and the model afterwards. -/
def work (generator : PacketGenerator M) (geometry : SplitGeometry) : Purpose → Buffers → Reply × M
  | .fill, .packet buffer =>
    (fillWholePacket generator.model generator.layout generator.filled buffer).map
      (fun filled => ⟨.ok none, [filled]⟩) id
  | .test, .packet buffer =>
    (testWholePacket generator.model generator.layout generator.tested buffer).map
      (fun passed => ⟨.ok (some passed), [buffer]⟩) id
  | .fill, .split data weights =>
    (fillSplitPacket generator.model geometry generator.filled data weights).map
      (fun filled => ⟨.ok none, bothBuffers filled⟩) id
  | .test, .split data weights =>
    (testSplitPacket generator.model geometry generator.tested data weights).map
      (fun passed => ⟨.ok (some passed), [data, weights]⟩) id
  | .fill, .heap data weights =>
    (fillSplitPackets generator.model geometry geometry.packetsPerHeap generator.filled data
      weights).map (fun filled => ⟨.ok none, bothBuffers filled⟩) id
  | .test, .heap data weights =>
    (testSplitPackets generator.model geometry geometry.packetsPerHeap generator.tested data
      weights).map (fun passed => ⟨.ok (some passed), [data, weights]⟩) id

/-- The reply to a call that processes packets. -/
def reply (generator : PacketGenerator M) : Purpose → Buffers → Reply
  | .fill, .packet buffer =>
    .ofFill (.packet buffer) ((generator.fillPacket buffer).1.map fun filled => [filled])
  | .test, .packet buffer => .ofTest (.packet buffer) (generator.testPacket buffer).1
  | .fill, .split data weights =>
    .ofFill (.split data weights) ((generator.fillSplit data weights).1.map bothBuffers)
  | .test, .split data weights => .ofTest (.split data weights) (generator.testSplit data weights).1
  | .fill, .heap data weights =>
    .ofFill (.heap data weights) ((generator.fillHeap data weights).1.map bothBuffers)
  | .test, .heap data weights => .ofTest (.heap data weights) (generator.testHeap data weights).1

/-- The generator has processed packets for a purpose, which has left it with a model. -/
def movedOn (generator : PacketGenerator M) (model : M) (packets : Nat) :
    Purpose → PacketGenerator M
  | .fill => { generator with model, filled := generator.filled + packets }
  | .test => { generator with model, tested := generator.tested + packets }

/-- A call that is refused by its checks changes nothing. -/
theorem of_check_eq_error {error : Error} (hcheck : generator.check buffers = .error error)
    (purpose : Purpose) :
    generator.reply purpose buffers = ⟨.error error, buffers.contents⟩ ∧
      generator.afterCall (buffers.call purpose) = generator := by
  cases buffers with
  | packet buffer =>
      rw [check_packet_eq_error] at hcheck
      cases purpose <;>
        simp only [reply, fillPacket, testPacket, hcheck, afterCall, Buffers.call] <;>
        exact ⟨rfl, trivial⟩
  | split data weights =>
      simp only [check] at hcheck
      cases purpose <;>
        simp only [reply, fillSplit, testSplit, hcheck, afterCall, Buffers.call] <;>
        exact ⟨rfl, trivial⟩
  | heap data weights =>
      simp only [check] at hcheck
      cases purpose <;>
        simp only [reply, fillHeap, testHeap, hcheck, afterCall, Buffers.call] <;>
        exact ⟨rfl, trivial⟩

/-- In a call that is not refused the model does its work, and one cursor moves on. -/
theorem of_check_eq_ok (hcheck : generator.check buffers = .ok geometry) (purpose : Purpose) :
    generator.reply purpose buffers = (generator.work geometry purpose buffers).1 ∧
      generator.afterCall (buffers.call purpose) =
        generator.movedOn (generator.work geometry purpose buffers).2
          (buffers.packets geometry.packetsPerHeap) purpose := by
  cases buffers with
  | packet buffer =>
      obtain ⟨-, hpacket⟩ := check_packet_eq_ok.mp hcheck
      cases purpose <;>
        simp only [reply, fillPacket, testPacket, hpacket, afterCall, Buffers.call] <;>
        exact ⟨rfl, rfl⟩
  | split data weights =>
      simp only [check] at hcheck
      cases purpose <;>
        simp only [reply, fillSplit, testSplit, hcheck, afterCall, Buffers.call] <;>
        exact ⟨rfl, rfl⟩
  | heap data weights =>
      simp only [check] at hcheck
      cases purpose <;>
        simp only [reply, fillHeap, testHeap, hcheck, afterCall, Buffers.call] <;>
        exact ⟨rfl, rfl⟩

/-- Work that is done succeeds, whatever a test finds. -/
theorem work_result (generator : PacketGenerator M) (geometry : SplitGeometry) (purpose : Purpose)
    (buffers : Buffers) :
    ∃ answer, (generator.work geometry purpose buffers).1.result = .ok answer := by
  cases purpose <;> cases buffers <;> exact ⟨_, rfl⟩

/-! ## Any operations -/

/-- What can be done to a generator. -/
inductive Operation (M : Type) where
  | configure (header : Header)
  | setModel (model : M)
  | seek (packet : Nat)
  | reset
  | process (purpose : Purpose) (buffers : Buffers)

/-- What is in the buffers that are passed to an operation. -/
def Operation.passed : Operation M → List Bytes
  | .configure _ | .setModel _ | .seek _ | .reset => []
  | .process _ buffers => buffers.contents

/-- The reply to an operation. -/
def replyTo (generator : PacketGenerator M) : Operation M → Reply
  | .configure header => ⟨(generator.configure header).1.map fun _ => none, []⟩
  | .setModel _ | .seek _ | .reset => ⟨.ok none, []⟩
  | .process purpose buffers => generator.reply purpose buffers

/-- The generator after an operation, whether it succeeds or not. -/
def afterOperation (generator : PacketGenerator M) : Operation M → PacketGenerator M
  | .configure header => (generator.configure header).2
  | .setModel model => generator.setModel model
  | .seek packet => generator.seek packet
  | .reset => generator.reset
  | .process purpose buffers => generator.afterCall (buffers.call purpose)

/-- The generator after some operations. -/
def afterOperations (generator : PacketGenerator M) (operations : List (Operation M)) :
    PacketGenerator M :=
  operations.foldl afterOperation generator

/-- The replies to some operations, one after the other. -/
def replies (generator : PacketGenerator M) : List (Operation M) → List Reply
  | [] => []
  | operation :: operations =>
    generator.replyTo operation :: (generator.afterOperation operation).replies operations

/-- A header that is refused leaves all but the model as it was, and that is for the model to
say. -/
theorem of_configure_eq_error {header : Header} {error : Error}
    (hconfigure : (generator.configure header).1 = .error error) :
    ∃ model, (generator.configure header).2 = { generator with model } ∧
      (model = generator.model ∨
        SignalModel.configure generator.model header generator.layout = (.error error, model)) := by
  cases hpackets : packetsFor generator.layout header with
  | error refused =>
      refine ⟨generator.model, ?_, .inl rfl⟩
      simp only [configure, hpackets]
  | ok packetsPerHeap =>
      cases hmodel : SignalModel.configure generator.model header generator.layout with
      | mk outcome model =>
          cases outcome with
          | error refused =>
              simp only [configure, hpackets, hmodel] at hconfigure ⊢
              exact ⟨model, rfl, .inr (by rw [hconfigure])⟩
          | ok done => simp [configure, hpackets, hmodel] at hconfigure

/-- What an operation can do: the reply to it, and the generator afterwards. -/
inductive Step (generator : PacketGenerator M) : Operation M → Reply → PacketGenerator M → Prop
  | accept {header : Header} {packetsPerHeap : Nat} {model : M}
      (hconfigure : (generator.configure header).1 = .ok ())
      (hpackets : packetsFor generator.layout header = .ok packetsPerHeap)
      (hmodel : SignalModel.configure generator.model header generator.layout = (.ok (), model)) :
      Step generator (.configure header) ⟨.ok none, []⟩
        { layout := generator.layout, model
          geometry? := some (.ofLayout generator.layout packetsPerHeap)
          filled := 0, tested := 0 }
  | refuse {header : Header} {error : Error} {model : M}
      (hmodel : model = generator.model ∨
        SignalModel.configure generator.model header generator.layout = (.error error, model)) :
      Step generator (.configure header) ⟨.error error, []⟩ { generator with model }
  | replace (model : M) : Step generator (.setModel model) ⟨.ok none, []⟩ (generator.setModel model)
  | seek (packet : Nat) : Step generator (.seek packet) ⟨.ok none, []⟩ (generator.seek packet)
  | reset : Step generator .reset ⟨.ok none, []⟩ generator.reset
  | reject {buffers : Buffers} {error : Error} (purpose : Purpose)
      (hcheck : generator.check buffers = .error error) :
      Step generator (.process purpose buffers) ⟨.error error, buffers.contents⟩ generator
  | process {buffers : Buffers} {geometry : SplitGeometry} {answer : Option Bool}
      (purpose : Purpose) (hcheck : generator.check buffers = .ok geometry)
      (hanswer : (generator.work geometry purpose buffers).1.result = .ok answer) :
      Step generator (.process purpose buffers) (generator.work geometry purpose buffers).1
        (generator.movedOn (generator.work geometry purpose buffers).2
          (buffers.packets geometry.packetsPerHeap) purpose)

theorem step (generator : PacketGenerator M) (operation : Operation M) :
    generator.Step operation (generator.replyTo operation)
      (generator.afterOperation operation) := by
  cases operation with
  | configure header =>
      rw [replyTo, afterOperation]
      cases hconfigure : (generator.configure header).1 with
      | error error =>
          obtain ⟨model, hafter, hmodel⟩ := of_configure_eq_error hconfigure
          rw [hafter]
          exact .refuse hmodel
      | ok done =>
          obtain ⟨packetsPerHeap, model, hpackets, hmodel, hafter⟩ := of_configure hconfigure
          rw [hafter]
          exact .accept hconfigure hpackets hmodel
  | setModel model => exact .replace model
  | seek packet => exact .seek packet
  | reset => exact .reset
  | process purpose buffers =>
      rw [replyTo, afterOperation]
      cases hcheck : generator.check buffers with
      | error error =>
          obtain ⟨hreply, hafter⟩ := of_check_eq_error hcheck purpose
          rw [hreply, hafter]
          exact .reject purpose hcheck
      | ok geometry =>
          obtain ⟨hreply, hafter⟩ := of_check_eq_ok hcheck purpose
          obtain ⟨answer, hanswer⟩ := work_result generator geometry purpose buffers
          rw [hreply, hafter]
          exact .process purpose hcheck hanswer

/-! ## What every step keeps -/

variable {layout : PacketLayout} {operation : Operation M} {reply : Reply}
  {after : PacketGenerator M}

theorem Step.laidOut (hstep : generator.Step operation reply after)
    (hlaid : generator.LaidOut layout) : after.LaidOut layout := by
  obtain rfl := hlaid.layout_eq
  cases hstep with
  | accept hconfigure hpackets hmodel =>
      exact ⟨rfl, fun hgeometry => ⟨_, (Option.some.inj hgeometry).symm⟩⟩
  | replace model => exact ⟨rfl, nofun⟩
  | refuse | seek | reset | reject => exact ⟨rfl, hlaid.geometry_eq⟩
  | process purpose hcheck hanswer => cases purpose <;> exact ⟨rfl, hlaid.geometry_eq⟩

theorem laidOut_afterOperations (hlaid : generator.LaidOut layout)
    (operations : List (Operation M)) : (generator.afterOperations operations).LaidOut layout := by
  induction operations generalizing generator with
  | nil => exact hlaid
  | cons operation operations ih => exact ih ((step generator operation).laidOut hlaid)

end PacketGenerator

end VoltageCapture
