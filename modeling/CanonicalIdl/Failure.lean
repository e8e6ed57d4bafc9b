import CanonicalIdl.Json.Fault

/-!
# Errors of a run

Why an interface cannot be read or normalized, with the wording of each cause.
-/

namespace CanonicalIdl

/-- Why a file cannot be read or written. -/
inductive FileFault where
  | missing
  | directory
  | notDirectory
  | nameTooLong
  | nulInName
  /-- The content is not UTF-8. -/
  | notText
  /-- A fault of the operating system, by its description and number. -/
  | system (description : String) (number : Nat)
  deriving Repr, DecidableEq

/-- The wording of a file fault. -/
def FileFault.message : FileFault → String
  | .missing => "No such file or directory (os error 2)"
  | .directory => "Is a directory (os error 21)"
  | .notDirectory => "Not a directory (os error 20)"
  | .nameTooLong => "File name too long (os error 36)"
  | .nulInName => "file name contained an unexpected NUL byte"
  | .notText => "stream did not contain valid UTF-8"
  | .system description number =>
    description ++ " (os error " ++ String.ofList (Text.decimal number) ++ ")"

/-- Why a run fails. -/
inductive Failure where
  | io (path : String) (fault : FileFault)
  | json (path : String) (fault : Json.Fault)
  | invalidConfig (field reason : String)
  | unknownGenerator (origin : String)
  | unknownInstruction (name : String)
  deriving Repr, DecidableEq

/-- The wording of an error. -/
def Failure.message : Failure → String
  | .io path fault => "IO error at " ++ path ++ ": " ++ fault.message
  | .json path fault => "Failed to parse JSON in " ++ path ++ ": " ++ fault.message
  | .invalidConfig field reason => "Invalid config field `" ++ field ++ "`: " ++ reason
  | .unknownGenerator origin =>
    "Unknown IDL generator `" ++ origin ++ "` (expected `anchor` or `shank`)"
  | .unknownInstruction name => "Instruction `" ++ name ++ "` not found in the IDL"

end CanonicalIdl
