import CanonicalIdl.CommandLine.Run

/-!
# The program

The command line, run on the files of the system.
-/

namespace CanonicalIdl

/-- The fault that the system reports by a number. -/
def FileFault.ofNumber (description : String) : Nat → FileFault
  | 2 => .missing
  | 20 => .notDirectory
  | 21 => .directory
  | 36 => .nameTooLong
  | number => .system description number

/-- The number of an error of the system, which may be given with its sign changed. -/
def errorNumber (number : UInt32) : Nat :=
  if number < 0x80000000 then number.toNat else (0 - number).toNat

/-- The fault that an error of the system stands for. -/
def FileFault.ofError : IO.Error → FileFault
  | .noFileOrDirectory _ _ _ => .missing
  | .inappropriateType _ number details => .ofNumber details (errorNumber number)
  | .invalidArgument _ number details => .ofNumber details (errorNumber number)
  | .permissionDenied _ number _ => .system "Permission denied" (errorNumber number)
  | .otherError number details => .ofNumber details (errorNumber number)
  | error => .system error.toString 5

/-- A fault of the system, if there was one. -/
def faultOf {α : Type} : Except IO.Error α → Except FileFault α
  | .ok a => .ok a
  | .error error => .error (.ofError error)

instance : FileAccess IO where
  readText path := do
    if path.toList.contains (Char.ofNat 0) then return .error .nulInName
    match faultOf (← (IO.FS.readBinFile path).toBaseIO) with
    | .error fault => return .error fault
    | .ok bytes => return Files.textOf bytes
  writeText path text := do
    return faultOf (← (IO.FS.writeFile path text).toBaseIO)

end CanonicalIdl

open CanonicalIdl CommandLine

/-- Answer the command line. -/
def main (arguments : List String) : IO UInt32 := do
  let reply : Reply ← Reply.ofArguments arguments
  IO.print reply.output
  if reply.complaint ≠ "" then IO.eprintln reply.complaint
  return reply.status.toUInt32
