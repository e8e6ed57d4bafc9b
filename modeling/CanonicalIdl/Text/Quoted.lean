import CanonicalIdl.Text.Printable

/-!
# Quotations in messages

A message quotes a text between double quotation marks.  The mark itself, the
backslash and the usual control characters get a backslash form; every other
character that does not print as itself is given by its code in braces.
-/

namespace CanonicalIdl.Text

/-- One character as a quotation writes it. -/
def quotedChar (c : Char) : List Char :=
  if c.toNat == 0 then ['\\', '0']
  else if c == '\t' then ['\\', 't']
  else if c == '\r' then ['\\', 'r']
  else if c == '\n' then ['\\', 'n']
  else if c == '\\' then ['\\', '\\']
  else if c == '"' then ['\\', '"']
  else if isPrintable c then [c]
  else ['\\', 'u', '\x7b'] ++ Nat.toDigits 16 c.toNat ++ ['\x7d']

/-- The text between quotation marks. -/
def quoted (text : String) : String :=
  String.ofList (['"'] ++ text.toList.flatMap quotedChar ++ ['"'])

end CanonicalIdl.Text
