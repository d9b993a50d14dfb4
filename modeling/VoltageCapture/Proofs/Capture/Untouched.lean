import VoltageCapture.Proofs.Capture.Generate
import VoltageCapture.Proofs.Header.Grammar

/-!
# A capture that cannot be written leaves the files alone

Creating a file empties what stood there, which may be an older capture or the header file itself.
`Command.generate` gives a new file tree or none, so it does not say when that happens.  Here the
task is told step by step (`Command.generateInOrder`), as `TreeWork`: work that may stop at any step
and leaves the tree as the steps before have made it.

Checks ahead of a step that does all or nothing are part of such a step (`TreeWork.look_bind`), and
so is what comes after it, as long as that cannot fail (`TreeWork.atOnce_bind`).  The task is made up
in this way, because it asks everything before it creates the file; so it is all or nothing as a
whole, and the same as `Command.generate` (`Command.generateInOrder_eq`).  It remains to show that
each reason not to write the capture stops the task (`Command.generate_unwritable`).
-/

namespace VoltageCapture

variable {α β : Type}

/-! ## Work on a file tree -/

/-- Work on a file tree that may fail.  What it has done to the tree by then stays done. -/
def TreeWork (α : Type) : Type :=
  FileTree → Except Error α × FileTree

namespace TreeWork

instance : Monad TreeWork where
  pure value := fun tree => (.ok value, tree)
  bind work next := fun tree =>
    match work tree with
    | (.ok value, after) => next value after
    | (.error error, after) => (.error error, after)

/-- A check, which may look at the tree but does nothing to it. -/
def look (check : FileTree → Except Error α) : TreeWork α :=
  fun tree => (check tree, tree)

/-- A step that cannot fail. -/
def sure (step : FileTree → α × FileTree) : TreeWork α :=
  fun tree => (.ok (step tree).1, (step tree).2)

/-- A step that does all of its work or nothing. -/
def atOnce (step : FileTree → Except Error (α × FileTree)) : TreeWork α :=
  fun tree =>
    match step tree with
    | .ok (value, after) => (.ok value, after)
    | .error error => (.error error, tree)

theorem sure_eq_atOnce (step : FileTree → α × FileTree) :
    sure step = atOnce fun tree => .ok (step tree) :=
  rfl

theorem look_bind (check : FileTree → Except Error α)
    (next : α → FileTree → Except Error (β × FileTree)) :
    (look check >>= fun value => atOnce (next value)) =
      atOnce fun tree => check tree >>= fun value => next value tree := by
  funext tree
  simp only [bind, look, atOnce]
  cases check tree with
  | error error => rfl
  | ok value => rfl

theorem atOnce_bind (step : FileTree → Except Error (α × FileTree))
    (next : α → FileTree → β × FileTree) :
    (atOnce step >>= fun value => sure (next value)) =
      atOnce fun tree => step tree >>= fun result => .ok (next result.1 result.2) := by
  funext tree
  simp only [bind, atOnce]
  cases step tree with
  | error error => rfl
  | ok result => rfl

theorem eq_of_atOnce_error {step : FileTree → Except Error (α × FileTree)} {tree after : FileTree}
    {error : Error} (hwork : atOnce step tree = (.error error, after)) : after = tree := by
  unfold atOnce at hwork
  split at hwork
  · simp at hwork
  · exact (congrArg Prod.snd hwork).symm

end TreeWork

/-! ## The task in the order of its steps -/

/-- Creates a capture file: the header block must be in order before the place of the file is
looked up, and only then is the file emptied. -/
def CaptureWriter.createInOrder (path : String) (header : Header) : TreeWork CaptureWriter := do
  let content ← TreeWork.look fun _ => header.toBlock
  let location ← TreeWork.look fun tree =>
    (tree.locateNew path).mapError (.atPath "Failed to create" path)
  TreeWork.sure fun tree => ({ path, location, content }, tree.put location (.file []))

theorem CaptureWriter.createInOrder_eq (path : String) (header : Header) :
    createInOrder path header = TreeWork.atOnce fun tree => create tree path header := by
  simp only [createInOrder, TreeWork.sure_eq_atOnce, TreeWork.look_bind]
  congr 1
  funext tree
  simp only [create]
  cases header.toBlock with
  | error error => rfl
  | ok content =>
      cases tree.locateNew path with
      | error cause => rfl
      | ok location => rfl

namespace Command

variable {tree after : FileTree} {arguments : List String} {source output bytes : String}

/-- Writes a test capture: reads the header file and the number of bytes, completes the header,
makes its random sequence, creates the file and writes it. -/
def generateInOrder (source output bytes : String) : TreeWork String := do
  let header ← TreeWork.look fun tree => tree.loadHeader source
  let count ← TreeWork.look fun _ => count "bytes" bytes
  let sequence ← TreeWork.look fun _ => Capture.payloadSequence header.completed
  let writer ← CaptureWriter.createInOrder output header.completed
  TreeWork.sure fun tree =>
    let (written, tree) := (Capture.writeSequence writer sequence count).finish tree
    (lines [s!"Wrote {written} payload bytes to {output}"], tree)

/-- Step by step, the task does the same as at once. -/
theorem generateInOrder_eq (source output bytes : String) :
    generateInOrder source output bytes =
      TreeWork.atOnce fun tree => generate tree source output bytes := by
  simp only [generateInOrder, CaptureWriter.createInOrder_eq, TreeWork.atOnce_bind,
    TreeWork.look_bind]
  congr 1
  funext tree
  simp only [generate, Capture.generate, bind_assoc]
  rfl

/-- What a run of the task leaves behind is what its steps have left behind, also if one of them
fails. -/
theorem run_generateInOrder
    (harguments : Invocation.ofArguments arguments = some (.generate source output bytes))
    (tree : FileTree) :
    run tree arguments = (.ofResult (generateInOrder source output bytes tree).1,
      (generateInOrder source output bytes tree).2) := by
  rw [generateInOrder_eq, TreeWork.atOnce]
  simp only [run, harguments, perform]
  cases generate tree source output bytes with
  | error error => rfl
  | ok result => rfl

end Command

/-! ## What the header must give -/

namespace Header

variable {header : Header} {key value : String} {bytes : Bytes} {seed : Nat}

theorem contains_eq_isSome (header : Header) (key : String) :
    header.contains key = (header.value? key).isSome := by
  rw [value?, Option.isSome_map, List.isSome_find?, contains]

theorem value?_setMissing (header : Header) (key value other : String) :
    (if header.contains key then header else header.set key value).value? other =
      (header.value? other).or (if key = other then some value else none) := by
  rw [contains_eq_isSome]
  by_cases hsame : key = other
  · subst hsame
    cases hvalue : header.value? key with
    | none => simp [value?_set]
    | some found => simp [hvalue]
  · rw [if_neg hsame, Option.or_none]
    split
    · rfl
    · rw [value?_set, if_neg hsame]

/-- A field that the header has keeps its value when the header is completed. -/
theorem value?_completed_of_some (hvalue : header.value? key = some value) :
    header.completed.value? key = some value := by
  simp only [completed, value?_setMissing, hvalue, Option.some_or]

theorem value?_completed_of_ne (hsize : Key.headerSize ≠ key) (hoffset : Key.obsOffset ≠ key) :
    header.completed.value? key = header.value? key := by
  simp only [completed, value?_setMissing, if_neg hsize, if_neg hoffset, Option.or_none]

theorem number_of_completed {number : Nat} (hvalue : header.value? key = some value)
    (hnumber : header.completed.unsigned64 key = .ok number) :
    Text.unsigned64? value = some number := by
  obtain ⟨found, hfound, hparsed⟩ := of_unsigned64 hnumber
  obtain rfl := Option.some.inj ((value?_completed_of_some hvalue).symm.trans hfound)
  exact hparsed

/-- The seed is the number in its field, or else there is a start time. -/
theorem of_sequenceSeed (hseed : header.sequenceSeed = .ok seed) :
    header.unsigned64 Key.seed = .ok seed ∨
      header.value? Key.seed = none ∧ header.value? Key.utcStart ≠ none := by
  unfold sequenceSeed at hseed
  split at hseed
  · exact Or.inl hseed
  · next hnone =>
    split at hseed
    · next htime =>
      rw [contains_eq_isSome] at hnone htime
      exact Or.inr ⟨by simpa using hnone, by simpa [Option.isSome_iff_ne_none] using htime⟩
    · simp at hseed

theorem text_of_ofBytes (hread : ofBytes bytes = .ok header) :
    ∃ text, Utf8.encode text = bytes.untilNul ∧ parse (String.ofList text) = .ok header := by
  unfold ofBytes at hread
  split at hread
  · next text htext => exact ⟨text, (Utf8.decode_eq_ok.mp htext).symm, hread⟩
  · simp at hread

end Header

theorem FileTree.content_of_loadHeader {tree : FileTree} {path : String} {header : Header}
    (hload : tree.loadHeader path = .ok header) :
    ∃ content, tree.read path = .ok content ∧ Header.ofBytes content = .ok header := by
  unfold loadHeader at hload
  split at hload
  · simp at hload
  · next content hread => exact ⟨content, hread, hload⟩

/-! ## Reasons not to write -/

namespace Command

variable {tree : FileTree} {arguments : List String} {source output bytes : String}

/-- Why no capture can be written: the header file, the number of bytes or the header itself. -/
inductive Unwritable (tree : FileTree) (source bytes : String) : Prop
  /-- The header file is missing, or cannot be read. -/
  | unreadable {cause : IoCause} (hread : tree.read source = .error cause)
  /-- Its content is not text. -/
  | notText {content : Bytes} (hread : tree.read source = .ok content)
      (htext : ∀ text, Utf8.encode text ≠ content.untilNul)
  /-- A key in it is not ASCII. -/
  | notAscii {content : Bytes} {text : List Char} {fields : List (List Char × List Char)}
      {field : List Char × List Char} (hread : tree.read source = .ok content)
      (htext : Utf8.encode text = content.untilNul) (hfields : Header.HasFields text fields)
      (hmem : field ∈ fields) (hkey : Header.isAscii field.1 = false)
  /-- The number of bytes is no unsigned integer of 64 bits. -/
  | notCount (hcount : Text.unsigned64? bytes = none)
  /-- A number that the header gives is none. -/
  | notNumber {header : Header} {key value : String} (hload : tree.loadHeader source = .ok header)
      (hkey : key ∈ [Key.seed, Key.obsOffset, Key.headerSize])
      (hvalue : header.value? key = some value) (hnumber : Text.unsigned64? value = none)
  /-- The header has neither a seed nor a start time. -/
  | noSeed {header : Header} (hload : tree.loadHeader source = .ok header)
      (hseed : header.value? Key.seed = none) (htime : header.value? Key.utcStart = none)
  /-- The completed header is longer than its block. -/
  | tooLong {header : Header} {size : Nat} (hload : tree.loadHeader source = .ok header)
      (hsize : header.completed.declaredSize = .ok size)
      (hlong : size < (Utf8.bytes header.completed.render).length)

/-- The numbers that a header gave are numbers if a capture with it was written. -/
theorem exists_number_of_stamped {after : FileTree} {header : Header} {sequence : RandomSequence}
    {size obsOffset count : Nat} {key value : String}
    (hstamped : Capture.Stamped after output header.completed sequence size obsOffset count)
    (hkey : key ∈ [Key.seed, Key.obsOffset, Key.headerSize])
    (hvalue : header.value? key = some value) : ∃ number, Text.unsigned64? value = some number := by
  simp only [List.mem_cons, List.not_mem_nil, or_false] at hkey
  rcases hkey with rfl | rfl | rfl
  · obtain ⟨seed, hseed, -⟩ := map_eq_ok.mp hstamped.sequence_eq
    rcases Header.of_sequenceSeed hseed with hnumber | ⟨hnone, -⟩
    · exact ⟨seed, Header.number_of_completed hvalue hnumber⟩
    · rw [Header.value?_completed_of_some hvalue] at hnone
      cases hnone
  · exact ⟨obsOffset, Header.number_of_completed hvalue hstamped.obsOffset_eq⟩
  · exact ⟨size, Header.number_of_completed hvalue hstamped.size_eq⟩

theorem code_ne_zero_of_unwritable
    (harguments : Invocation.ofArguments arguments = some (.generate source output bytes))
    (hunwritable : Unwritable tree source bytes) : (run tree arguments).1.code ≠ 0 := by
  intro hcode
  obtain ⟨header, count, written, hload, hcount, hgenerate⟩ := of_run_generate harguments rfl hcode
  obtain ⟨-, sequence, size, obsOffset, hstamped⟩ := Capture.stamped_of_generate hgenerate
  obtain ⟨content, hread, hparsed⟩ := FileTree.content_of_loadHeader hload
  obtain ⟨text, htext, hfound⟩ := Header.text_of_ofBytes hparsed
  cases hunwritable with
  | unreadable hother =>
      rw [hread] at hother
      cases hother
  | notText hother hnone =>
      obtain rfl := Except.ok.inj (hread.symm.trans hother)
      exact hnone text htext
  | notAscii hother hsame hfields hmem hkey =>
      obtain rfl := Except.ok.inj (hread.symm.trans hother)
      obtain rfl := Utf8.encode_injective (hsame.trans htext.symm)
      rw [Header.parse, String.toList_ofList, ← Header.hasFields_iff.mp hfields] at hfound
      exact absurd (Header.isAscii_of_foldlM hfound _ hmem) (Bool.eq_false_iff.mp hkey)
  | notCount hnone =>
      rw [hcount] at hnone
      cases hnone
  | notNumber hother hkey hvalue hnone =>
      obtain rfl := Except.ok.inj (hload.symm.trans hother)
      obtain ⟨number, hnumber⟩ := exists_number_of_stamped hstamped hkey hvalue
      rw [hnumber] at hnone
      cases hnone
  | noSeed hother hnone htime =>
      obtain rfl := Except.ok.inj (hload.symm.trans hother)
      rw [← Header.value?_completed_of_ne (by decide) (by decide)] at hnone htime
      obtain ⟨seed, hseed, -⟩ := map_eq_ok.mp hstamped.sequence_eq
      rcases Header.of_sequenceSeed hseed with hnumber | ⟨-, hsome⟩
      · obtain ⟨value, hvalue, -⟩ := Header.of_unsigned64 hnumber
        rw [hvalue] at hnone
        cases hnone
      · exact hsome htime
  | tooLong hother hsize hlong =>
      obtain rfl := Except.ok.inj (hload.symm.trans hother)
      obtain rfl := Except.ok.inj (hstamped.size_eq.symm.trans hsize)
      exact absurd hstamped.fits (Nat.not_le.mpr hlong)

/-- **A capture that cannot be written leaves the files alone.**  Let there be a reason not to write
it.  Then the task fails, and its steps up to there have changed nothing in the file tree: neither
the header file nor a file at the path of the capture, be it another one or the same, and no file
is new. -/
theorem generate_unwritable
    (harguments : Invocation.ofArguments arguments = some (.generate source output bytes))
    (hunwritable : Unwritable tree source bytes) :
    ∃ error, generateInOrder source output bytes tree = (.error error, tree) ∧
      run tree arguments = (.failure error, tree) ∧ (Outcome.failure error).code ≠ 0 := by
  have hcode := code_ne_zero_of_unwritable harguments hunwritable
  have hrun := run_generateInOrder harguments tree
  cases hwork : generateInOrder source output bytes tree with
  | mk result after =>
      rw [hwork] at hrun
      cases result with
      | ok text =>
          rw [hrun] at hcode
          exact absurd rfl hcode
      | error error =>
          rw [generateInOrder_eq] at hwork
          obtain rfl := TreeWork.eq_of_atOnce_error hwork
          exact ⟨error, rfl, hrun, failure_code_ne error⟩

/-- A header file that is also where the capture goes, with a header too long for its block. -/
def tightTree : FileTree where
  home := []
  entries := [(["seed"], .file (Utf8.bytes "HDR_SIZE 8\nSEED 7\n"))]

/-- Nothing is written over the header file. -/
theorem generate_unwritable_tightTree :
    let arguments := ["generate", "--header", "seed", "-o", "seed", "-b5"]
    (run tightTree arguments).1.code ≠ 0 ∧ (run tightTree arguments).2 = tightTree := by
  intro arguments
  have harguments : Invocation.ofArguments arguments = some (.generate "seed" "seed" "5") := rfl
  have hload : tightTree.loadHeader "seed" = .ok ⟨[⟨"HDR_SIZE", "8"⟩, ⟨"SEED", "7"⟩]⟩ := by cbv
  have hsize : (Header.completed ⟨[⟨"HDR_SIZE", "8"⟩, ⟨"SEED", "7"⟩]⟩).declaredSize = .ok 8 := rfl
  obtain ⟨error, -, hrun, hcode⟩ :=
    generate_unwritable harguments (.tooLong hload hsize (by decide))
  rw [hrun]
  exact ⟨hcode, rfl⟩

end Command

end VoltageCapture
