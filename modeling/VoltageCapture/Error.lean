import VoltageCapture.Bytes

/-!
# What can go wrong

Every operation of this library fails with an `Error`, sorted by what the caller
can do about it.

* `Error.io`: a source or a file could not be read or written.  The cause, where
  there is one, is kept beside the message.
* `Error.validation`: a header field, an argument or a buffer is missing, out of
  range or at odds with another; the offending field is named.
* `Error.state`: an operation came before the step that prepares it.
* `Error.fault`: a limit of the machine was passed, which no message is given
  for because no caller is meant to handle it.

The end of a stream is not an error: it is an empty block.
-/

namespace VoltageCapture

/-- A failure reported by the operating system. -/
structure SystemError where
  /-- The number of the failure. -/
  code : Nat
  /-- The class of the failure, in one word. -/
  kind : String
  /-- The system's own words for it. -/
  description : String
deriving DecidableEq, Repr

namespace SystemError

/-- The path, or a directory on the way to it, does not exist. -/
def notFound : SystemError := ⟨2, "NotFound", "No such file or directory"⟩

/-- A component on the way to the path is a file. -/
def notADirectory : SystemError := ⟨20, "NotADirectory", "Not a directory"⟩

/-- A name, or the whole path, is longer than names and paths may be. -/
def nameTooLong : SystemError := ⟨36, "InvalidFilename", "File name too long"⟩

/-- The path names a directory where a file is needed. -/
def isADirectory : SystemError := ⟨21, "IsADirectory", "Is a directory"⟩

end SystemError

/-- Why an input or output operation failed. -/
inductive IoCause where
  /-- The operating system refused. -/
  | system (error : SystemError)
  /-- The source itself failed, with a text of its own. -/
  | other (text : String)
deriving DecidableEq, Repr

/-- The text of a cause; that of a system failure ends with its number. -/
def IoCause.message : IoCause → String
  | .system error => s!"{error.description} (os error {error.code})"
  | .other text => text

/-- A limit of the machine that an operation ran into. -/
inductive Fault where
  /-- A buffer longer than any that can be allocated was asked for. -/
  | allocation (length : Nat)
  /-- An integer was read from, or written to, fewer bytes than it takes. -/
  | shortBuffer (width length : Nat)
  /-- A heap was to be cut into packets that hold no bytes. -/
  | emptyPacket
  /-- The declared header is longer than the file that holds it. -/
  | headerBeyondFile (headerSize fileSize : Nat)
deriving DecidableEq, Repr

/-- Why an operation failed. -/
inductive Error where
  | io (message : String) (cause : Option IoCause)
  | validation (field message : String)
  | state (message : String)
  | fault (reason : Fault)
deriving DecidableEq, Repr

namespace Error

/-- The failure of an operation, described by `context`, for the given cause. -/
def ofCause (cause : IoCause) (context : String) : Error :=
  .io s!"{context}: {cause.message}" (some cause)

/-- The failure of an operation of which nothing else is known. -/
def ofBareCause (cause : IoCause) : Error :=
  ofCause cause "I/O operation failed"

/-- The failure to do what `action` says to a path, for the given cause. -/
def atPath (action path : String) (cause : IoCause) : Error :=
  ofCause cause s!"{action} {path}"

/-- The data header and the weights header differ in `field`. -/
def inconsistent (field : String) : Error :=
  .validation field s!"inconsistent {field}"

/-- A buffer of `length` bytes cannot be allocated. -/
def allocation (length : Nat) : Error :=
  .fault (.allocation length)

/-- The field that a validation error names. -/
def field? : Error → Option String
  | .validation field _ => some field
  | _ => none

/-- The cause behind an input or output error, if one is known. -/
def cause? : Error → Option IoCause
  | .io _ cause => cause
  | _ => none

/-- The text of an error: its class, then what happened. -/
def message : Error → String
  | .io message _ => s!"I/O error: {message}"
  | .validation field message => s!"Validation error: {field} - {message}"
  | .state message => s!"State error: {message}"
  | .fault _ => "machine limit reached"

end Error

/-- Passes if the condition holds and fails with the given error otherwise. -/
def require (condition : Prop) [Decidable condition] (error : Error) : Except Error Unit :=
  if condition then .ok () else .error error

/-- Passes if a buffer of `length` bytes can be allocated. -/
def requireAllocatable (length : Nat) : Except Error Unit :=
  require (length ≤ Bytes.maxLength) (.allocation length)

end VoltageCapture
