import CanonicalIdl.Json.Shortest
import CanonicalIdl.Json.Value

/-!
# Writing JSON

A value is written either compactly or on several lines with two spaces for each
level.  Strings escape the quotation mark, the backslash and control characters only;
an empty array or object stays on one line.
-/

namespace CanonicalIdl.Json

open Text

/-- One character as a JSON string writes it. -/
def escapedChar (c : Char) : List Char :=
  if c == '"' then ['\\', '"']
  else if c == '\\' then ['\\', '\\']
  else if c == '\n' then ['\\', 'n']
  else if c == '\r' then ['\\', 'r']
  else if c == '\t' then ['\\', 't']
  else if c.toNat == 8 then ['\\', 'b']
  else if c.toNat == 12 then ['\\', 'f']
  else if c.toNat < 0x20 then
    ['\\', 'u', '0', '0', Nat.digitChar (c.toNat / 16), Nat.digitChar (c.toNat % 16)]
  else [c]

/-- A string between quotation marks. -/
def stringText (s : String) : List Char :=
  ['"'] ++ s.toList.flatMap escapedChar ++ ['"']

mutual

/-- The value on one line without blanks. -/
def compactText : Json → List Char
  | .null => ['n', 'u', 'l', 'l']
  | .bool true => ['t', 'r', 'u', 'e']
  | .bool false => ['f', 'a', 'l', 's', 'e']
  | .int n => signedDecimal n
  | .double x => x.text
  | .string s => stringText s
  | .array items => ['['] ++ compactItems items ++ [']']
  | .object members => ['\x7b'] ++ compactMembers members ++ ['\x7d']

/-- The items of an array between commas. -/
def compactItems : List Json → List Char
  | [] => []
  | [item] => compactText item
  | item :: next :: rest => compactText item ++ [','] ++ compactItems (next :: rest)

/-- The members of an object between commas. -/
def compactMembers : List (String × Json) → List Char
  | [] => []
  | [(key, value)] => stringText key ++ [':'] ++ compactText value
  | (key, value) :: next :: rest =>
    stringText key ++ [':'] ++ compactText value ++ [','] ++ compactMembers (next :: rest)

end

/-- The line break in front of a line at some level. -/
def lineBreak (level : Nat) : List Char :=
  '\n' :: List.replicate (2 * level) ' '

mutual

/-- The value on several lines, where its own first line stands at `level`. -/
def prettyText (level : Nat) : Json → List Char
  | .null => ['n', 'u', 'l', 'l']
  | .bool true => ['t', 'r', 'u', 'e']
  | .bool false => ['f', 'a', 'l', 's', 'e']
  | .int n => signedDecimal n
  | .double x => x.text
  | .string s => stringText s
  | .array [] => ['[', ']']
  | .array (item :: rest) =>
    ['['] ++ lineBreak (level + 1) ++ prettyText (level + 1) item ++
      prettyItems (level + 1) rest ++ lineBreak level ++ [']']
  | .object [] => ['\x7b', '\x7d']
  | .object ((key, value) :: rest) =>
    ['\x7b'] ++ lineBreak (level + 1) ++ stringText key ++ [':', ' '] ++
      prettyText (level + 1) value ++ prettyMembers (level + 1) rest ++ lineBreak level ++ ['\x7d']

/-- The further items of an array, each after a comma and on its own line. -/
def prettyItems (level : Nat) : List Json → List Char
  | [] => []
  | item :: rest =>
    [','] ++ lineBreak level ++ prettyText level item ++ prettyItems level rest

/-- The further members of an object, each after a comma and on its own line. -/
def prettyMembers (level : Nat) : List (String × Json) → List Char
  | [] => []
  | (key, value) :: rest =>
    [','] ++ lineBreak level ++ stringText key ++ [':', ' '] ++ prettyText level value ++
      prettyMembers level rest

end

/-- The text of a value on one line. -/
def compact (value : Json) : String :=
  String.ofList (compactText value)

/-- The text of a value on several lines. -/
def pretty (value : Json) : String :=
  String.ofList (prettyText 0 value)

/-- A character that is neither a control, a quotation mark nor a backslash stands for itself. -/
theorem escapedChar_of_plain {c : Char} (mark : c ≠ '"') (slash : c ≠ '\\')
    (control : 0x20 ≤ c.toNat) : escapedChar c = [c] := by
  have hn : c ≠ '\n' := by rintro rfl; simp at control
  have hr : c ≠ '\r' := by rintro rfl; simp at control
  have ht : c ≠ '\t' := by rintro rfl; simp at control
  have h8 : c.toNat ≠ 8 := by omega
  have h12 : c.toNat ≠ 12 := by omega
  have hc : ¬ c.toNat < 32 := by omega
  simp [escapedChar, mark, slash, hn, hr, ht, h8, h12, hc]

end CanonicalIdl.Json
