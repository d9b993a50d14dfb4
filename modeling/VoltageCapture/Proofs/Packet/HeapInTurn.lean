import Mathlib
import VoltageCapture.Proofs.Packet.AllOrNothing
import VoltageCapture.Proofs.Packet.Recorded

/-!
# Heaps, packet by packet

A heap is filled and tested by one call.  Its packets could as well be filled and tested by a call
each, on the pieces of the two buffers that belong to them (`inTurn`).  Filled in turn, they leave
what the one call leaves (`fillSplitPackets_inTurn`); tested in turn, they find what it finds, but
the one call stops at the first packet that fails and still moves on by the whole heap
(`testSplitPackets_inTurn`).

The statements are about the generator afterwards, its model included, and about models of any
kind.  With one that keeps a log of its requests, they say that these are the same as well.
-/

namespace VoltageCapture

open PacketGenerator (Operation Purpose Buffers Reply bothBuffers)

/-! ## Pieces of two buffers -/

namespace SplitGeometry

/-- The pieces of two buffers, one after the other, for `count` packets. -/
def pieces (geometry : SplitGeometry) (count : Nat) (data weights : Bytes) :
    List (Bytes × Bytes) :=
  (List.range count).map fun index =>
    (data.slice (index * geometry.dataStride) geometry.dataStride,
      weights.slice (index * geometry.weightsStride) geometry.weightsStride)

theorem pieces_succ (geometry : SplitGeometry) (count : Nat) (data weights : Bytes) :
    geometry.pieces (count + 1) data weights =
      (data.take geometry.dataStride, weights.take geometry.weightsStride) ::
        geometry.pieces count (data.drop geometry.dataStride)
          (weights.drop geometry.weightsStride) := by
  have hslice : ∀ (buffer : Bytes) (stride index : Nat),
      buffer.slice ((index + 1) * stride) stride =
        Bytes.slice (buffer.drop stride) (index * stride) stride := by
    intro buffer stride index
    rw [Bytes.slice, Bytes.slice, List.drop_drop, Nat.succ_mul, Nat.add_comm]
  rw [pieces, List.range_succ_eq_map, List.map_cons, List.map_map, Nat.zero_mul, Nat.zero_mul]
  refine congrArg _ (List.map_congr_left fun index _ => ?_)
  simp only [Function.comp_apply, hslice]

end SplitGeometry

namespace PacketGenerator

variable {M : Type} {generator : PacketGenerator M} {geometry : SplitGeometry} {count : Nat}
  {data weights : Bytes}

/-- Packets are processed one after the other, each in a piece of either buffer. -/
def inTurn (purpose : Purpose) (pieces : List (Bytes × Bytes)) : List (Operation M) :=
  pieces.map fun piece => .process purpose (.split piece.1 piece.2)

theorem movedOn_movedOn (generator : PacketGenerator M) (first last : M) (count : Nat)
    (purpose : Purpose) :
    (generator.movedOn first 1 purpose).movedOn last count purpose =
      generator.movedOn last (count + 1) purpose := by
  cases purpose <;> simp only [movedOn, Nat.add_assoc, Nat.add_comm 1]

theorem check_split_eq_ok (hgeometry : generator.geometry? = some geometry)
    (hdata : geometry.dataStride ≠ 0) (hweights : geometry.weightsStride ≠ 0)
    (hroom : geometry.HasRoom 1 data weights) :
    generator.check (.split data weights) = .ok geometry :=
  check_of_fit hgeometry hdata hweights (Buffers.holdSplit_met_iff.mpr hroom)

theorem check_heap_eq_ok (hgeometry : generator.geometry? = some geometry)
    (hdata : geometry.dataStride ≠ 0) (hweights : geometry.weightsStride ≠ 0)
    (hroom : geometry.HasRoom geometry.packetsPerHeap data weights) :
    generator.check (.heap data weights) = .ok geometry :=
  check_of_fit hgeometry hdata hweights (Buffers.holdSplit_met_iff.mpr hroom)

variable [SignalModel M]

/-- What some operations give back, one after the other. -/
def results (generator : PacketGenerator M) (operations : List (Operation M)) :
    List (Except Error (Option Bool)) :=
  (generator.replies operations).map Reply.result

/-! ## Filling -/

/-- The packets of two buffers have been filled in turn.  The buffers of a heap hold the same: all
packets, and behind them what was there. -/
structure FilledInTurn (generator : PacketGenerator M) (geometry : SplitGeometry) (count : Nat)
    (data weights : Bytes) (filled : List (Bytes × Bytes)) (heap : Bytes × Bytes) : Prop where
  replies_eq : generator.replies (inTurn .fill (geometry.pieces count data weights)) =
    filled.map fun piece => ⟨.ok none, bothBuffers piece⟩
  count_eq : filled.length = count
  length_eq : ∀ piece ∈ filled,
    piece.1.length = geometry.dataStride ∧ piece.2.length = geometry.weightsStride
  data_eq : heap.1 = filled.flatMap Prod.fst ++ data.drop (count * geometry.dataStride)
  weights_eq : heap.2 = filled.flatMap Prod.snd ++ weights.drop (count * geometry.weightsStride)

theorem length_flatMap_of_length_eq {filled : List (Bytes × Bytes)} {side : Bytes × Bytes → Bytes}
    {stride : Nat} (hlength : ∀ piece ∈ filled, (side piece).length = stride) :
    (filled.flatMap side).length = filled.length * stride := by
  rw [List.length_flatMap, List.map_congr_left hlength, List.map_const', List.sum_replicate_nat]

/-- The packets take up the heap and no more. -/
theorem FilledInTurn.beyond_eq {filled : List (Bytes × Bytes)} {heap : Bytes × Bytes}
    (hfilled : generator.FilledInTurn geometry count data weights filled heap) :
    heap.1.drop (count * geometry.dataStride) = data.drop (count * geometry.dataStride) ∧
      heap.2.drop (count * geometry.weightsStride) =
        weights.drop (count * geometry.weightsStride) := by
  rw [hfilled.data_eq, hfilled.weights_eq, ← hfilled.count_eq]
  constructor
  · exact List.drop_left' (length_flatMap_of_length_eq fun piece hmem =>
      (hfilled.length_eq piece hmem).1)
  · exact List.drop_left' (length_flatMap_of_length_eq fun piece hmem =>
      (hfilled.length_eq piece hmem).2)

theorem length_fillSplitPacket {layout : PacketLayout} {packetsPerHeap : Nat}
    (hroom : (SplitGeometry.ofLayout layout packetsPerHeap).HasRoom 1 data weights) (model : M)
    (packet : Nat) :
    (fillSplitPacket model (.ofLayout layout packetsPerHeap) packet data weights).1.1.length =
        data.length ∧
      (fillSplitPacket model (.ofLayout layout packetsPerHeap) packet data weights).1.2.length =
        weights.length := by
  obtain ⟨hscales, hweights, hdata⟩ := hroom.limits_le
  have hlength := length_fillRegion model .scales packet hscales
  rw [← hlength] at hweights
  exact ⟨length_fillRegion _ .data packet hdata,
    (length_fillRegion _ .weights packet hweights).trans hlength⟩

/-- The induction is on the packets that are left: the first one is filled by a call of its own,
and what is left of the heap starts where that call has moved the generator to. -/
theorem fillSplitPackets_inTurn {layout : PacketLayout} {packetsPerHeap : Nat}
    (hlayout : geometry = .ofLayout layout packetsPerHeap)
    (hgeometry : generator.geometry? = some geometry) (hdata : geometry.dataStride ≠ 0)
    (hweights : geometry.weightsStride ≠ 0) (hroom : geometry.HasRoom count data weights) :
    (∃ filled, generator.FilledInTurn geometry count data weights filled
      (fillSplitPackets generator.model geometry count generator.filled data weights).1) ∧
      generator.afterOperations (inTurn .fill (geometry.pieces count data weights)) =
        generator.movedOn
          (fillSplitPackets generator.model geometry count generator.filled data weights).2
          count .fill := by
  induction count generalizing generator data weights with
  | zero =>
      refine ⟨⟨[], rfl, rfl, nofun, ?_, ?_⟩, rfl⟩
      · rw [Nat.zero_mul]
        rfl
      · rw [Nat.zero_mul]
        rfl
  | succ count ih =>
      obtain ⟨hreply, hafter⟩ :=
        of_check_eq_ok (check_split_eq_ok hgeometry hdata hweights hroom.first) .fill
      let first := fillSplitPacket generator.model geometry generator.filled
        (data.take geometry.dataStride) (weights.take geometry.weightsStride)
      have hmoved : geometry? (generator.movedOn first.2 1 .fill) = some geometry := hgeometry
      obtain ⟨⟨filled, hfilled⟩, hlast⟩ := ih hmoved hroom.rest
      have hlength : first.1.1.length = geometry.dataStride ∧
          first.1.2.length = geometry.weightsStride := by
        subst hlayout
        obtain ⟨hfirstData, hfirstWeights⟩ :=
          length_fillSplitPacket hroom.first generator.model generator.filled
        exact ⟨hfirstData.trans (List.length_take_of_le hroom.pieces.1),
          hfirstWeights.trans (List.length_take_of_le hroom.pieces.2)⟩
      have hdrop : ∀ (buffer : Bytes) (stride : Nat), buffer.drop ((count + 1) * stride) =
          (buffer.drop stride).drop (count * stride) := by
        intro buffer stride
        rw [List.drop_drop, Nat.succ_mul, Nat.add_comm]
      rw [SplitGeometry.pieces_succ]
      refine ⟨⟨first.1 :: filled, ?_, congrArg Nat.succ hfilled.count_eq,
        List.forall_mem_cons.mpr ⟨hlength, hfilled.length_eq⟩, ?_, ?_⟩, ?_⟩
      · rw [SplitGeometry.pieces_succ]
        exact List.cons_eq_cons.mpr
          ⟨hreply, (congrArg (replies · _) hafter).trans hfilled.replies_eq⟩
      · rw [List.flatMap_cons, List.append_assoc, hdrop, ← hfilled.data_eq]
        rfl
      · rw [List.flatMap_cons, List.append_assoc, hdrop, ← hfilled.weights_eq]
        rfl
      · refine (congrArg (afterOperations · _) hafter).trans (hlast.trans ?_)
        exact movedOn_movedOn generator first.2 _ count .fill

/-! ## Testing -/

/-- The packets of two buffers have been tested in turn, until one of them failed, and the cursor
has moved by all of them either way. -/
inductive TestedInTurn (generator : PacketGenerator M) (geometry : SplitGeometry) (count : Nat)
    (data weights : Bytes) (passed : Bool) (after : PacketGenerator M) : Prop
  | passes (hpassed : passed = true)
      (hresults : generator.results (inTurn .test (geometry.pieces count data weights)) =
        List.replicate count (.ok (some true)))
      (hafter : after =
        generator.afterOperations (inTurn .test (geometry.pieces count data weights)))
  | fails {first : Nat} (hfirst : first < count) (hpassed : passed = false)
      (hresults : generator.results
          (inTurn .test ((geometry.pieces count data weights).take (first + 1))) =
        List.replicate first (.ok (some true)) ++ [.ok (some false)])
      (hafter : after = { generator.afterOperations
          (inTurn .test ((geometry.pieces count data weights).take (first + 1))) with
        tested := generator.tested + count })

section Steps

variable {passed : Bool} {model : M} {after : PacketGenerator M}

/-- A first packet that passes leaves the others to be tested. -/
theorem TestedInTurn.cons
    (hreply : (generator.reply .test (.split (data.take geometry.dataStride)
      (weights.take geometry.weightsStride))).result = .ok (some true))
    (hnext : generator.afterOperation (.process .test (.split (data.take geometry.dataStride)
      (weights.take geometry.weightsStride))) = generator.movedOn model 1 .test)
    (hrest : (generator.movedOn model 1 .test).TestedInTurn geometry count
      (data.drop geometry.dataStride) (weights.drop geometry.weightsStride) passed after) :
    generator.TestedInTurn geometry (count + 1) data weights passed after := by
  have hcursor : (generator.movedOn model 1 .test).tested + count =
      generator.tested + (count + 1) := by
    simp only [movedOn, Nat.add_assoc, Nat.add_comm 1]
  rw [← hnext] at hrest hcursor
  cases hrest with
  | passes hpassed hresults hafter =>
      refine .passes hpassed ?_ ?_
      · rw [SplitGeometry.pieces_succ]
        exact List.cons_eq_cons.mpr ⟨hreply, hresults⟩
      · rw [SplitGeometry.pieces_succ, hafter]
        rfl
  | fails hfirst hpassed hresults hafter =>
      refine .fails (Nat.succ_lt_succ hfirst) hpassed ?_ ?_
      · rw [SplitGeometry.pieces_succ]
        exact List.cons_eq_cons.mpr ⟨hreply, hresults⟩
      · rw [SplitGeometry.pieces_succ, hafter, hcursor]
        rfl

/-- After a first packet that fails no other is looked at. -/
theorem TestedInTurn.of_first
    (hreply : (generator.reply .test (.split (data.take geometry.dataStride)
      (weights.take geometry.weightsStride))).result = .ok (some false))
    (hnext : generator.afterOperation (.process .test (.split (data.take geometry.dataStride)
      (weights.take geometry.weightsStride))) = generator.movedOn model 1 .test) (count : Nat) :
    generator.TestedInTurn geometry (count + 1) data weights false
      (generator.movedOn model (count + 1) .test) := by
  refine .fails (Nat.succ_pos count) rfl ?_ ?_
  · rw [SplitGeometry.pieces_succ]
    exact List.cons_eq_cons.mpr ⟨hreply, rfl⟩
  · have hafter : generator.movedOn model (count + 1) .test =
        { generator.movedOn model 1 .test with tested := generator.tested + (count + 1) } := rfl
    rw [SplitGeometry.pieces_succ, hafter, ← hnext]
    rfl

end Steps

theorem testSplitPackets_inTurn (hgeometry : generator.geometry? = some geometry)
    (hdata : geometry.dataStride ≠ 0) (hweights : geometry.weightsStride ≠ 0)
    (hroom : geometry.HasRoom count data weights) :
    generator.TestedInTurn geometry count data weights
      (testSplitPackets generator.model geometry count generator.tested data weights).1
      (generator.movedOn
        (testSplitPackets generator.model geometry count generator.tested data weights).2
        count .test) := by
  induction count generalizing generator data weights with
  | zero => exact .passes rfl rfl rfl
  | succ count ih =>
      obtain ⟨hreply, hnext⟩ :=
        of_check_eq_ok (check_split_eq_ok hgeometry hdata hweights hroom.first) .test
      have hresult := congrArg Reply.result hreply
      simp only [work] at hresult hnext
      rw [testSplitPackets]
      cases hfirst : testSplitPacket generator.model geometry generator.tested
        (data.take geometry.dataStride) (weights.take geometry.weightsStride) with
      | mk passed model =>
          rw [hfirst] at hresult hnext
          cases passed with
          | true =>
              have hmoved : geometry? (generator.movedOn model 1 .test) = some geometry := hgeometry
              have hrest := ih hmoved hroom.rest
              rw [movedOn_movedOn] at hrest
              exact .cons hresult hnext hrest
          | false => exact .of_first hresult hnext count

/-! ## Heaps -/

theorem replies_take (generator : PacketGenerator M) (operations : List (Operation M))
    (count : Nat) :
    (generator.replies operations).take count = generator.replies (operations.take count) := by
  induction operations generalizing generator count with
  | nil => simp only [replies, List.take_nil]
  | cons operation operations ih =>
      cases count with
      | zero => rfl
      | succ count => exact congrArg _ (ih _ count)

theorem results_inTurn_take (generator : PacketGenerator M) (purpose : Purpose)
    (pieces : List (Bytes × Bytes)) (count : Nat) :
    generator.results (inTurn purpose (pieces.take count)) =
      (generator.results (inTurn purpose pieces)).take count := by
  rw [inTurn, List.map_take, results, ← replies_take, List.map_take]
  rfl

/-- The verdict on a heap is that on all of its packets. -/
theorem TestedInTurn.passed_iff {passed : Bool} {after : PacketGenerator M}
    (htested : generator.TestedInTurn geometry count data weights passed after) :
    passed = true ↔
      ∀ result ∈ generator.results (inTurn .test (geometry.pieces count data weights)),
        result = .ok (some true) := by
  cases htested with
  | passes hpassed hresults _ =>
      rw [hresults]
      exact iff_of_true hpassed fun result hmem => List.eq_of_mem_replicate hmem
  | fails hfirst hpassed hresults _ =>
      rw [results_inTurn_take] at hresults
      -- the packet that failed is among those that would have been tested
      have hmem := List.mem_of_mem_take (hresults ▸ List.mem_append_right _ List.mem_cons_self)
      exact iff_of_false (by simp [hpassed]) fun hall => nomatch hall _ hmem

/-- **A heap is its packets, one after the other.**  Take a generator through any operations that
leave it configured, and buffers with room for a heap.

Filling the heap leaves the buffers, the cursors and the model as filling its packets in turn does,
and behind the packets it leaves the buffers as they were.  Testing the heap does to the model what
testing the packets in turn does, up to the first that fails; it passes exactly if all of them
would, and moves its cursor by a heap in either case. -/
theorem heap_packet_by_packet (layout : PacketLayout) (hdata : 0 < layout.data.size)
    (hweights : 0 < layout.scales.size + layout.weights.size) (model : M)
    (operations : List (Operation M))
    (hgeometry : geometry? ((make layout model).afterOperations operations) = some geometry)
    (hroom : geometry.HasRoom geometry.packetsPerHeap data weights) :
    let generator := (make layout model).afterOperations operations
    let count := geometry.packetsPerHeap
    let pieces := geometry.pieces count data weights
    (∃ filled heap, generator.FilledInTurn geometry count data weights filled heap ∧
      generator.fillHeap data weights =
        (.ok heap, generator.afterOperations (inTurn .fill pieces)) ∧
      heap.1.drop (count * geometry.dataStride) = data.drop (count * geometry.dataStride) ∧
      heap.2.drop (count * geometry.weightsStride) =
        weights.drop (count * geometry.weightsStride)) ∧
    ∃ passed after, generator.TestedInTurn geometry count data weights passed after ∧
      generator.testHeap data weights = (.ok passed, after) ∧
      (passed = true ↔ ∀ result ∈ generator.results (inTurn .test pieces),
        result = .ok (some true)) ∧
      after.tested = generator.tested + count ∧ after.filled = generator.filled := by
  intro generator count pieces
  obtain ⟨packetsPerHeap, hlayout⟩ :=
    (laidOut_afterOperations (laidOut_make layout model) operations).geometry_eq hgeometry
  have hdataStride : geometry.dataStride ≠ 0 := by
    rw [hlayout, SplitGeometry.dataStride_ofLayout]
    exact Nat.ne_of_gt hdata
  have hweightsStride : geometry.weightsStride ≠ 0 := by
    rw [hlayout, SplitGeometry.weightsStride_ofLayout]
    exact Nat.ne_of_gt hweights
  have hcheck : generator.checkHeap data weights = .ok geometry :=
    check_heap_eq_ok hgeometry hdataStride hweightsStride hroom
  constructor
  · obtain ⟨⟨filled, hfilled⟩, hafter⟩ :=
      fillSplitPackets_inTurn hlayout hgeometry hdataStride hweightsStride hroom
    refine ⟨filled, _, hfilled, ?_, hfilled.beyond_eq⟩
    rw [hafter, fillHeap, hcheck]
    rfl
  · have htested := testSplitPackets_inTurn hgeometry hdataStride hweightsStride hroom
    refine ⟨_, _, htested, ?_, htested.passed_iff, rfl, rfl⟩
    rw [testHeap, hcheck]
    rfl

/-- Packets 5 and 6 of a heap, in buffers with three and with two bytes to spare.  The zeros in
them fail with the scale factors of packet 5, which is all that the model is asked about. -/
theorem heap_packet_by_packet_zeros :
    let generator := (make overlappingPacket (Recorded.fresh SineSignal.standard)).afterOperations
      [.configure byteHeader, .seek 5]
    let geometry := SplitGeometry.ofLayout overlappingPacket 2
    let data : Bytes := List.replicate 15 0
    let weights : Bytes := List.replicate 16 0
    generator.geometry? = some geometry ∧ geometry.HasRoom 2 data weights ∧
      (∃ heap, (generator.fillHeap data weights).1 = .ok heap ∧
        heap.1.drop 12 = [0, 0, 0] ∧ heap.2.drop 14 = [0, 0]) ∧
      ∃ after, generator.testHeap data weights = (.ok false, after) ∧ after.tested = 7 ∧
        after.filled = 5 ∧ after.model.log.map Prod.snd =
          [.configure byteHeader overlappingPacket, .test .scales 5 [0, 0, 0, 0]] := by
  intro generator geometry data weights
  have hgeometry : generator.geometry? = some geometry := rfl
  have hroom : geometry.HasRoom geometry.packetsPerHeap data weights := ⟨by decide, by decide⟩
  obtain ⟨⟨_, heap, -, hfill, hdata, hweights⟩, passed, after, -, htest, -, htested, hfilled⟩ :=
    heap_packet_by_packet overlappingPacket (by decide) (by decide)
      (Recorded.fresh SineSignal.standard) [.configure byteHeader, .seek 5] hgeometry hroom
  have hverdict : (generator.testHeap data weights).1 = .ok false := by cbv
  have hlog : (generator.testHeap data weights).2.model.log.map Prod.snd =
      [.configure byteHeader overlappingPacket, .test .scales 5 [0, 0, 0, 0]] := by cbv
  rw [show generator.testHeap data weights = (.ok passed, after) from htest] at hverdict hlog
  obtain rfl := Except.ok.inj hverdict
  exact ⟨hgeometry, hroom, ⟨heap, congrArg Prod.fst hfill, hdata, hweights⟩, after, htest, htested,
    hfilled, hlog⟩

end PacketGenerator

end VoltageCapture
