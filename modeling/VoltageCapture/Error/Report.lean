import VoltageCapture.Error
import VoltageCapture.Text.Quoted

/-!
# Error reports

The command line ends with a report of the error that stopped it.  A report shows the
constructor of the error and its fields by name, all texts between quotation marks, so
that nothing of the error is lost.
-/

namespace VoltageCapture

/-- Fields by name, as they stand in a report behind the name of a constructor. -/
def reportFields (name : String) (fields : List (String × String)) : String :=
  name ++ " \x7b " ++ ", ".intercalate (fields.map fun field => field.1 ++ ": " ++ field.2)
    ++ " \x7d"

/-- The report of a cause. -/
def IoCause.report : IoCause → String
  | .system error =>
    reportFields "Os" [("code", toString error.code), ("kind", error.kind),
      ("message", Text.quote error.description)]
  | .other text => reportFields "Custom" [("kind", "Other"), ("error", Text.quote text)]

/-- The report of a cause that may not be known. -/
def IoCause.report? : Option IoCause → String
  | none => "None"
  | some cause => "Some(" ++ cause.report ++ ")"

/-- The report of an error. -/
def Error.report : Error → String
  | .io message cause =>
    reportFields "Io" [("message", Text.quote message), ("source", IoCause.report? cause)]
  | .validation field message =>
    reportFields "Validation" [("field", Text.quote field), ("message", Text.quote message)]
  | .state message => reportFields "State" [("message", Text.quote message)]
  | error@(.fault _) => error.message

end VoltageCapture
