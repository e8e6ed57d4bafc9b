import CanonicalIdl.CommandLine.Arguments
import CanonicalIdl.Workspace.Adapt

/-!
# Running a command line

A command line is answered by a text on the output, or by a message on the error output,
and by a status: 0 when the request was carried out, 1 when it failed, and 2 when the
words made no request.
-/

namespace CanonicalIdl.CommandLine

open Json

/-- The answer to a command line. -/
inductive Reply where
  | printed (text : String)
  | failed (error : Failure)
  | refused (error : UsageError)
  deriving Repr, DecidableEq

/-- The name and version of the program. -/
def versionText : String := "idl-adapt 0.8.0\n"

/-- What the program can be asked for. -/
def helpText : String :=
  "Normalize anchor and shank IDLs for client generation\n\n" ++
    "idl-adapt adapt --config <CONFIG>\n" ++
    "idl-adapt resolve [--float-as-bytes] <TY>\n" ++
    "idl-adapt discriminator <--account <NAME>|--instruction <NAME>>\n" ++
    "idl-adapt accounts --config <CONFIG> --instruction <INSTRUCTION>\n"

/-- A number in a message. -/
def count {α : Type} (items : List α) : String :=
  String.ofList (Text.decimal items.length)

/-- The report on an adapted interface. -/
def adaptedText (interface : Interface) : String :=
  "Adapted IDL with " ++ count interface.instructions ++ " instruction(s), " ++
    count interface.accounts ++ " account(s) and " ++ count interface.types ++ " type(s)\n"

/-- A value on lines of its own. -/
def valueText (value : Json) : String :=
  value.pretty ++ "\n"

/-- The two spellings of a discriminator. -/
def discriminatorText (d : Discriminator) : String :=
  d.display ++ "\n0x" ++ d.hex ++ "\n"

/-- The tree of an expression under one of the two primitive tables. -/
def resolvedTree (expression : String) (floatAsBytes : Bool) : TypeTree :=
  (Chain.plain (if floatAsBytes then .floatAsBytes else .standard)).resolved expression

variable {m : Type → Type} [Monad m] [FileAccess m]

/-- Carry out a command; the result is what it prints. -/
def Command.run : Command → Workspace m String
  | .adapt config => adaptedText <$> Workspace.adaptFile config
  | .resolve expression floatAsBytes =>
    return valueText (resolvedTree expression floatAsBytes).toJson
  | .accountDiscriminator name => return discriminatorText (.ofAccount name)
  | .instructionDiscriminator name => return discriminatorText (.ofInstruction name)
  | .accounts config instruction =>
    (fun plan => valueText plan.toJson) <$> Workspace.planInstructionFile config instruction

namespace Reply

/-- The answer that a stop makes. -/
def ofStop : Stop → Reply
  | .help => .printed helpText
  | .version => .printed versionText
  | .usage error => .refused error

/-- The answer to the words of a command line. -/
def ofArguments (arguments : List String) : m Reply :=
  match Command.ofArguments arguments with
  | .error stop => return ofStop stop
  | .ok command => do
    match ← command.run.run with
    | .ok text => return .printed text
    | .error error => return .failed error

/-- The status. -/
def status : Reply → UInt8
  | .printed _ => 0
  | .failed _ => 1
  | .refused _ => 2

/-- What stands on the output. -/
def output : Reply → String
  | .printed text => text
  | _ => ""

/-- The line on the error output. -/
def complaint : Reply → String
  | .printed _ => ""
  | .failed error => "Error: " ++ error.message
  | .refused error => "error: " ++ error.message

end Reply

end CanonicalIdl.CommandLine
