import VoltageCapture.Header.Prefixed
import VoltageCapture.Wire
import VoltageCapture.Heap.Layout
import VoltageCapture.RandomSequence
import VoltageCapture.Signal.Random
import VoltageCapture.Signal.Sine
import VoltageCapture.Packet.Generator
import VoltageCapture.Stream.Copying
import VoltageCapture.Stream.Segment
import VoltageCapture.Capture.Writer
import VoltageCapture.Capture.Integrity
import VoltageCapture.Error.Report
import VoltageCapture.Command.Run
import VoltageCapture.Main
import VoltageCapture.Proofs.Header.Prefixed
import VoltageCapture.Proofs.Stream.Copying
import VoltageCapture.Proofs.Heap.Layout
import VoltageCapture.Proofs.Stream.Aligned
import VoltageCapture.Proofs.Stream.PairRun
import VoltageCapture.Proofs.Stream.Mapped
import VoltageCapture.Proofs.Capture.FileTree
import VoltageCapture.Proofs.Capture.RoundTrip
import VoltageCapture.Proofs.Stream.Paired
import VoltageCapture.Proofs.RandomSequence
import VoltageCapture.Proofs.Packet.Extent
import VoltageCapture.Proofs.Packet.Regions
import VoltageCapture.Proofs.Packet.Calls
import VoltageCapture.Proofs.Packet.Random
import VoltageCapture.Proofs.Packet.Heaps
import VoltageCapture.Proofs.Heap.Packets
import VoltageCapture.Proofs.Capture.Verify
import VoltageCapture.Proofs.Header.Hint
import VoltageCapture.Proofs.Stream.PairCalls
import VoltageCapture.Proofs.Capture.Generate
import VoltageCapture.Proofs.Header.Canonical
import VoltageCapture.Proofs.RandomSequence.Cursor
import VoltageCapture.Proofs.Stream.PairState
import VoltageCapture.Proofs.Signal.Sine
import VoltageCapture.Proofs.Packet.RoundTrip
import VoltageCapture.Proofs.Stream.Failure
import VoltageCapture.Proofs.Packet.AllOrNothing
import VoltageCapture.Proofs.Packet.Configured
import VoltageCapture.Proofs.Packet.HeapInTurn
import VoltageCapture.Proofs.Packet.Forms
import VoltageCapture.Proofs.Header.Exact
import VoltageCapture.Proofs.Header.Grammar
import VoltageCapture.Proofs.Stream.Segment
import VoltageCapture.Proofs.Heap.Tiling
import VoltageCapture.Proofs.Signal.Tone
import VoltageCapture.Proofs.Signal.Acceptance
import VoltageCapture.Proofs.Capture.Untouched
import VoltageCapture.Proofs.Reader.Filling
