import CanonicalIdl.Json.Shortest
import CanonicalIdl.Text.Quoted

/-!
# What can be wrong with a JSON text

A text is *malformed* when it is not JSON, or *mismatched* when it is JSON of another
shape than the reader asks for.  A malformed text that only ends too early is told
apart from the others.
-/

namespace CanonicalIdl.Json

/-- Why a text is not JSON. -/
inductive Malformation where
  | endInList
  | endInObject
  | endInString
  | endInValue
  /-- The text ends within a word or a number. -/
  | endInToken
  | expectedColon
  | expectedListEnd
  | expectedObjectEnd
  | expectedWord
  | expectedValue
  | keyNotString
  | invalidEscape
  | invalidNumber
  | numberOutOfRange
  | controlInString
  | loneSurrogate
  | unpairedSurrogate
  | trailingComma
  | trailingText
  | tooDeep
  deriving Repr, DecidableEq, Inhabited

/-- The text ends before its value does. -/
def Malformation.isEnd : Malformation → Bool
  | .endInList | .endInObject | .endInString | .endInValue | .endInToken => true
  | _ => false

/-- The wording of a malformation. -/
def Malformation.message : Malformation → String
  | .endInList => "EOF while parsing a list"
  | .endInObject => "EOF while parsing an object"
  | .endInString => "EOF while parsing a string"
  | .endInValue | .endInToken => "EOF while parsing a value"
  | .expectedColon => "expected `:`"
  | .expectedListEnd => "expected `,` or `]`"
  | .expectedObjectEnd => "expected `,` or `\x7d`"
  | .expectedWord => "expected ident"
  | .expectedValue => "expected value"
  | .keyNotString => "key must be a string"
  | .invalidEscape => "invalid escape"
  | .invalidNumber => "invalid number"
  | .numberOutOfRange => "number out of range"
  | .controlInString => "control character (\\u0000-\\u001F) found while parsing a string"
  | .loneSurrogate => "lone leading surrogate in hex escape"
  | .unpairedSurrogate => "unexpected end of hex escape"
  | .trailingComma => "trailing comma"
  | .trailingText => "trailing characters"
  | .tooDeep => "recursion limit exceeded"

/-- What a reader found where it asked for something else. -/
inductive Found where
  | null
  | bool (b : Bool)
  | int (n : Int)
  | double (x : Double)
  | string (s : String)
  | sequence
  | map
  deriving Repr, DecidableEq

/-- A word or number between grave accents. -/
def ticked (text : String) : String :=
  "`" ++ text ++ "`"

/-- The wording of what was found. -/
def Found.message : Found → String
  | .null => "null"
  | .bool b => "boolean " ++ ticked (if b then "true" else "false")
  | .int n => "integer " ++ ticked (String.ofList (Text.signedDecimal n))
  | .double x => "floating point " ++ ticked (String.ofList x.text)
  | .string s => "string " ++ Text.quoted s
  | .sequence => "sequence"
  | .map => "map"

/-- Why a JSON value is not of the shape asked for. -/
inductive Mismatch where
  | invalidType (found : Found) (expected : String)
  | invalidValue (found : Found) (expected : String)
  | invalidLength (length : Nat) (expected : String)
  | missingField (name : String)
  | duplicateField (name : String)
  | unknownVariant (name : String) (expected : List String)
  | noVariant (choice : String)
  deriving Repr, DecidableEq

/-- The choices that a message offers. -/
def offered : List String → String
  | [a] => ticked a
  | [a, b] => ticked a ++ " or " ++ ticked b
  | names => "one of " ++ ", ".intercalate (names.map ticked)

/-- The wording of a mismatch. -/
def Mismatch.message : Mismatch → String
  | .invalidType found expected => "invalid type: " ++ found.message ++ ", expected " ++ expected
  | .invalidValue found expected => "invalid value: " ++ found.message ++ ", expected " ++ expected
  | .invalidLength length expected =>
    "invalid length " ++ String.ofList (Text.decimal length) ++ ", expected " ++ expected
  | .missingField name => "missing field " ++ ticked name
  | .duplicateField name => "duplicate field " ++ ticked name
  | .unknownVariant name expected =>
    "unknown variant " ++ ticked name ++ ", expected " ++ offered expected
  | .noVariant choice => "data did not match any variant of untagged enum " ++ choice

/-- Why a text cannot be read. -/
inductive Fault where
  | malformed (m : Malformation)
  | mismatch (m : Mismatch)
  deriving Repr, DecidableEq

/-- The three kinds of faults. -/
inductive FaultCategory where
  | eof
  | syntactic
  | data
  deriving Repr, DecidableEq

/-- The kind of a fault. -/
def Fault.category : Fault → FaultCategory
  | .malformed m => if m.isEnd then .eof else .syntactic
  | .mismatch _ => .data

/-- The wording of a fault. -/
def Fault.message : Fault → String
  | .malformed m => m.message
  | .mismatch m => m.message

end CanonicalIdl.Json
