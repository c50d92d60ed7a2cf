/-!
# Usage faults

Why arguments are not those of the program.
-/

namespace CallCheck.Probe

/-- Why the arguments cannot be used; also the two requests to tell about the program. -/
inductive UsageFault
  /-- An option has no value, or one that it cannot have. -/
  | invalidValue
  /-- A value is not of the right form. -/
  | valueValidation
  /-- There is no such option. -/
  | unknownArgument
  /-- Options exclude each other, or one is given twice. -/
  | argumentConflict
  /-- An option that has no value is given one. -/
  | tooManyValues
  /-- The options are asked for. -/
  | displayHelp
  /-- The version is asked for. -/
  | displayVersion
  deriving DecidableEq, Repr

namespace UsageFault

/-- The name of a fault. -/
def name : UsageFault → String
  | .invalidValue => "InvalidValue"
  | .valueValidation => "ValueValidation"
  | .unknownArgument => "UnknownArgument"
  | .argumentConflict => "ArgumentConflict"
  | .tooManyValues => "TooManyValues"
  | .displayHelp => "DisplayHelp"
  | .displayVersion => "DisplayVersion"

/-- What is said about a fault. -/
def message : UsageFault → String
  | .invalidValue => "an option lacks its value or has one that it cannot have"
  | .valueValidation => "the value of an option is malformed"
  | .unknownArgument => "there is an argument that is not known"
  | .argumentConflict => "an option cannot be used here or not twice"
  | .tooManyValues => "an option has a value but takes none"
  | .displayHelp => ""
  | .displayVersion => ""

end UsageFault

end CallCheck.Probe
