import CanonicalIdl.Text.CaseMapping

/-!
# Names of fields, arguments and accounts

A canonical name is in camel case: the whole name is made small, then every `-` or
`_` in front of an ASCII letter or digit is dropped and that character made capital.
Humps of the declared name are therefore not kept (`myField` becomes `myfield`).

Main results:

- Theorem `joinHumps_of_no_separator`: a name without separators is only made small.
-/

namespace CanonicalIdl

open Text

/-- The two characters that separate the words of a declared name. -/
def isSeparator (c : Char) : Bool :=
  c == '-' || c == '_'

/-- A separator in front of such a character is dropped. -/
def takesHump (c : Char) : Bool :=
  c.isLower || c.isDigit

/-- Drop each separator in front of a small ASCII letter or a digit and make that
character capital.  A character so treated is not looked at again. -/
def joinHumps : List Char → List Char
  | [] => []
  | [c] => [c]
  | c :: next :: rest =>
    if isSeparator c && takesHump next then next.toUpper :: joinHumps rest
    else c :: joinHumps (next :: rest)

/-- The canonical spelling of a declared name. -/
def camelName (name : String) : String :=
  String.ofList (joinHumps (lowered name.toList))

/-- The name with its first character capital and the others unchanged. -/
def capitalized (name : String) : String :=
  match name.toList with
  | [] => ""
  | c :: rest => String.ofList (upperForm c ++ rest)

/-- The name of an account that stands in a collection: `signers` and `first` give
`signersItemFirst`. -/
def memberName (collection member : String) : String :=
  collection ++ "Item" ++ capitalized member

/-! ## Small facts -/

/-- A name without separators keeps all its characters. -/
theorem joinHumps_of_no_separator {name : List Char}
    (h : ∀ c ∈ name, isSeparator c = false) : joinHumps name = name := by
  fun_induction joinHumps name with
  | case1 => rfl
  | case2 => rfl
  | case3 c next rest hsep => simp [h c (by simp)] at hsep
  | case4 c next rest _ ih => rw [ih fun d hd => h d (List.mem_cons_of_mem c hd)]

@[simp] theorem capitalized_empty : capitalized "" = "" := by decide

end CanonicalIdl
