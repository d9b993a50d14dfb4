/-!
# Invocations

The command line names one of five tasks and gives it options.  An option is written
with one dash and a letter or with two dashes and a word; its value is the next argument,
or what follows in the same argument behind a letter or an equals sign.  Every option may
be given once, and what a task needs must be given.  An option that is given without its
value takes its default, if it has one.

Two dashes alone end the options.  As no task takes other arguments, nothing may follow.

The program and each task can also be asked for the version.  That ends the reading, and
what is wrong with the options ahead of it or behind it no longer matters.
-/

namespace VoltageCapture

/-- What the command line asks for. -/
inductive Invocation where
  /-- Nothing. -/
  | idle
  /-- Show the header of a capture. -/
  | header (file : String)
  /-- Compute the heap layout of two headers. -/
  | layout (data weights : String) (json : Bool)
  /-- Write a test capture. -/
  | generate (header output bytes : String)
  /-- Verify a test capture. -/
  | verify (file : String) (copy : Bool) (blockSize : Option String)
  /-- Show the version and what the program supports. -/
  | info
  /-- Show the version of the program, or of one of its tasks. -/
  | version (task : Option String)
deriving DecidableEq, Repr

/-- An option that a task has. -/
structure OptionRule where
  /-- The letter of the short form, if there is one. -/
  letter : Option Char
  /-- The word of the long form. -/
  word : String
  hasValue : Bool := true
  /-- The value of an option that is given without one. -/
  default : Option String := none
deriving DecidableEq, Repr

/-- An option as it is given. -/
structure GivenOption where
  rule : OptionRule
  /-- The value that is written with it. -/
  value : Option String
deriving DecidableEq, Repr

namespace Invocation

/-! ### Reading options -/

/-- The option that asks for the version. -/
def versionRule : OptionRule :=
  { letter := some 'V', word := "version", hasValue := false }

/-- An argument that is not the value of the option ahead of it. -/
def startsOption : List Char → Bool
  | '-' :: _ :: _ => true
  | _ => false

/-- Splits an argument into the option that it names and the value that it holds. -/
def nameOption (rules : List OptionRule) : List Char → Option (OptionRule × Option (List Char))
  | '-' :: '-' :: rest =>
    let name := rest.dropWhile (· == '-')
    let word := name.takeWhile (· != '=')
    let value? := if word.length < name.length then some (name.drop word.length) else none
    (rules.find? (·.word.toList == word)).map fun rule => (rule, value?)
  | '-' :: letter :: rest =>
    let value? := if rest.isEmpty then none else some rest
    (rules.find? (·.letter == some letter)).map fun rule => (rule, value?)
  | _ => none

/-- The options that the arguments of a task give, up to the one that asks for the
version. -/
def readOptions (rules : List OptionRule) : List String → Option (List GivenOption)
  | [] => some []
  | ["--"] => some []
  | argument :: arguments =>
    match nameOption rules argument.toList with
    | none => none
    | some (rule, some value) =>
      if rule = versionRule then some [⟨rule, none⟩]
      else
        let value := String.ofList (value.dropWhile (· == '='))
        (⟨rule, some value⟩ :: ·) <$> readOptions rules arguments
    | some (rule, none) =>
      if rule = versionRule then some [⟨rule, none⟩]
      else
        match arguments with
        | [] => some [⟨rule, none⟩]
        | value :: rest =>
          if rule.hasValue ∧ startsOption value.toList = false then
            (⟨rule, some value⟩ :: ·) <$> readOptions rules rest
          else
            (⟨rule, none⟩ :: ·) <$> readOptions rules (value :: rest)

/-! ### Values of options -/

/-- The options of a task by their words, each with its value, which is empty if it has
none. -/
abbrev Options := List (String × String)

/-- The value of an option. -/
def valueOf? (options : Options) (word : String) : Option String :=
  (options.find? (·.1 == word)).map (·.2)

/-- Adds an option that must be new. -/
def addOption (options : Options) (word value : String) : Option Options :=
  if (valueOf? options word).isSome then none else some ((word, value) :: options)

/-- The value of an option as it is given, or else its default. -/
def givenValue (option : GivenOption) : Option String :=
  if option.rule.hasValue then option.value.or option.rule.default else some ""

/-- Settles the values of the options that are given, each of which must be new. -/
def settle : List GivenOption → Option Options
  | [] => some []
  | option :: given => do
    addOption (← settle given) option.rule.word (← givenValue option)

/-! ### The tasks -/

/-- The payload bytes of a test capture, if nothing else is asked for. -/
def defaultBytes : String := "1048576"

/-- The options of the task `header`. -/
def headerRules : List OptionRule :=
  [{ letter := some 'f', word := "file" }]

/-- The options of the task `layout`. -/
def layoutRules : List OptionRule :=
  [{ letter := some 'd', word := "data" }, { letter := some 'w', word := "weights" },
    { letter := none, word := "json", hasValue := false }]

/-- The options of the task `generate`. -/
def generateRules : List OptionRule :=
  [{ letter := none, word := "header" }, { letter := some 'o', word := "output" },
    { letter := some 'b', word := "bytes", default := some defaultBytes }]

/-- The options of the task `verify`. -/
def verifyRules : List OptionRule :=
  [{ letter := some 'f', word := "file" }, { letter := none, word := "copy", hasValue := false },
    { letter := some 'b', word := "block-size" }]

/-- Reads the arguments of a task, or those of the program if it is given none, and
makes what they ask for of the options. -/
def ofOptions (task : Option String) (rules : List OptionRule) (arguments : List String)
    (make : Options → Option Invocation) : Option Invocation := do
  let given ← readOptions (versionRule :: rules) arguments
  if given.any (·.rule = versionRule) then return .version task
  make (← settle given)

/-- Reads the arguments of a command line. -/
def ofArguments : List String → Option Invocation
  | "header" :: arguments => ofOptions "header" headerRules arguments fun options =>
    return .header (← valueOf? options "file")
  | "layout" :: arguments => ofOptions "layout" layoutRules arguments fun options =>
    return .layout (← valueOf? options "data") (← valueOf? options "weights")
      (valueOf? options "json").isSome
  | "generate" :: arguments => ofOptions "generate" generateRules arguments fun options =>
    return .generate (← valueOf? options "header") (← valueOf? options "output")
      ((valueOf? options "bytes").getD defaultBytes)
  | "verify" :: arguments => ofOptions "verify" verifyRules arguments fun options =>
    return .verify (← valueOf? options "file") (valueOf? options "copy").isSome
      (valueOf? options "block-size")
  | "info" :: arguments => ofOptions "info" [] arguments fun _ => return .info
  | arguments => ofOptions none [] arguments fun _ => return .idle

/-- The paths that a task looks at. -/
def paths : Invocation → List String
  | .header file => [file]
  | .layout data weights _ => [data, weights]
  | .generate source output _ => [source, output]
  | .verify file _ _ => [file]
  | _ => []

end Invocation

end VoltageCapture
