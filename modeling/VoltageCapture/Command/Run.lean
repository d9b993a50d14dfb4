import VoltageCapture.Capture.Integrity
import VoltageCapture.Command.Invocation
import VoltageCapture.Error.Report
import VoltageCapture.Heap.Layout

/-!
# The command line

A task of the command line reads files of a tree, may write one, and ends with an
outcome: an exit code and what it prints.  An error ends the task with the exit code 1
and a report; so does a capture that differs from its random sequence, but without a
report.
-/

namespace VoltageCapture

/-- The version of the program. -/
def version : String := "0.1.0"

/-- How a task ends. -/
structure Outcome where
  code : Nat
  /-- What is printed. -/
  stdout : String := ""
  /-- What is reported. -/
  stderr : String := ""
deriving DecidableEq, Repr

namespace Outcome

/-- A task that prints some text. -/
def success (text : String) : Outcome :=
  { code := 0, stdout := text }

/-- A task that an error has stopped. -/
def failure : Error → Outcome
  | .fault reason => { code := 101, stderr := (Error.fault reason).message ++ "\n" }
  | error => { code := 1, stderr := "Error: " ++ error.report ++ "\n" }

/-- The outcome of a task that prints some text if nothing goes wrong. -/
def ofResult : Except Error String → Outcome
  | .ok text => success text
  | .error error => failure error

end Outcome

namespace Command

/-- Reads an argument that must be an unsigned integer of 64 bits. -/
def count (name value : String) : Except Error Nat :=
  match Text.unsigned64? value with
  | some count => .ok count
  | none => .error (.validation name s!"invalid value '{value}'")

/-- Lines of text, each with its line feed. -/
def lines (texts : List String) : String :=
  String.join (texts.map (· ++ "\n"))

/-! ### Tasks -/

/-- Shows the header of a capture and the size of its payload. -/
def showHeader (tree : FileTree) (file : String) : Except Error String := do
  let stream ← MappedStream.ofPath tree file
  return stream.header.render ++ lines [s!"# payload {stream.payloadSize} bytes"]

/-- A heap layout as a table. -/
def layoutTable (layout : HeapLayout) : String :=
  lines [
    "Heap layout:",
    s!"  Packets per heap:      {layout.packetsPerHeap}",
    s!"  Channels per packet:   {layout.packet.channels}",
    s!"  Samples per packet:    {layout.packet.samples}",
    s!"  Data packet stride:    {layout.dataPacketStride} bytes",
    s!"  Weights packet stride: {layout.weightsPacketStride} bytes",
    s!"    scales  @ {layout.packetScales.offset} ({layout.packetScales.size} bytes)",
    s!"    weights @ {layout.packetWeights.offset} ({layout.packetWeights.size} bytes)",
    s!"  Data heap stride:      {layout.dataHeapStride} bytes",
    s!"  Weights heap stride:   {layout.weightsHeapStride} bytes"]

/-- Shows the heap layout of two headers. -/
def showLayout (tree : FileTree) (data weights : String) (json : Bool) : Except Error String := do
  let dataHeader ← tree.loadHeader data
  let weightsHeader ← tree.loadHeader weights
  let layout ← HeapLayout.configure dataHeader weightsHeader
  return if json then lines [layout.toJson.indented ""] else layoutTable layout

/-- Writes a test capture; gives what to print and the file tree with the capture. -/
def generate (tree : FileTree) (header output bytes : String) :
    Except Error (String × FileTree) := do
  let header ← tree.loadHeader header
  let bytes ← count "bytes" bytes
  let (written, tree) ← Capture.generate tree header.completed output bytes
  return (lines [s!"Wrote {written} payload bytes to {output}"], tree)

/-- Opens the capture to verify, in place or for copying. -/
def openCapture (tree : FileTree) (file : String) (copy : Bool) (blockSize : Option String) :
    Except Error (MappedStream ⊕ CopyingStream) :=
  if copy then do
    let config := StreamConfig.ofPath file
    match blockSize with
    | none => .inr <$> CopyingStream.ofConfig tree config
    | some value => do
      let blockSize ← count "block_size" value
      .inr <$> CopyingStream.ofConfig tree { config with blockSize }
  else
    .inl <$> MappedStream.ofPath tree file

/-- The outcome of verifying a capture. -/
def verdictOutcome : Capture.Verdict → Outcome
  | .intact count => .success (lines [s!"OK: {count} bytes verified"])
  | .differs offset =>
    { code := 1
      stdout := lines [s!"FAILED: block at observation offset {offset} does not match"] }

/-- Verifies a test capture. -/
def verify (tree : FileTree) (file : String) (copy : Bool) (blockSize : Option String) :
    Except Error Capture.Verdict := do
  let stream ← openCapture tree file copy blockSize
  Capture.verify stream

/-- Shows the version and what the program supports. -/
def info : String :=
  lines [
    s!"voltcap {version}",
    s!"Supported data NBIT: {renderNumbers supportedBits}",
    s!"Default header size: {Header.defaultSize} bytes"]

/-- The version of the program.  A task has no version of its own: only its name is
shown. -/
def versionLine : Option String → String
  | none => lines [s!"voltcap-cli {version}"]
  | some task => lines [s!"voltcap-cli-{task} "]

/-- Carries out a task; gives its outcome and the file tree after it. -/
def perform (tree : FileTree) : Invocation → Outcome × FileTree
  | .idle => (.success (lines ["Use --help for usage information"]), tree)
  | .header file => (.ofResult (showHeader tree file), tree)
  | .layout data weights json => (.ofResult (showLayout tree data weights json), tree)
  | .generate header output bytes =>
    match generate tree header output bytes with
    | .ok (text, tree) => (.success text, tree)
    | .error error => (.failure error, tree)
  | .verify file copy blockSize =>
    match verify tree file copy blockSize with
    | .ok verdict => (verdictOutcome verdict, tree)
    | .error error => (.failure error, tree)
  | .info => (.success info, tree)
  | .version task => (.success (versionLine task), tree)

/-- Carries out what the arguments ask for. -/
def run (tree : FileTree) (arguments : List String) : Outcome × FileTree :=
  match Invocation.ofArguments arguments with
  | some invocation => perform tree invocation
  | none => ({ code := 1, stderr := "error: the arguments are not understood\n" }, tree)

end Command

end VoltageCapture
