import CanonicalIdl.Text.Alphanumeric
import CanonicalIdl.Text.CaseMapping

/-!
# Words of a name

A name is cut into words at every character that is not alphanumeric, at every hump
where a small letter is followed by a capital, and before the last capital of a run
of capitals that a small letter follows (`XMLHttp` holds `XML` and `Http`).  The
words are then joined again in snake case or in upper camel case.

Digits have no case of their own: they carry on the case of the letter before them.
-/

namespace CanonicalIdl.Text

/-- The case of the last cased character of the word so far. -/
inductive WordMode where
  | uncased
  | lower
  | upper
  deriving Repr, DecidableEq

/-- The case of a word after one more character. -/
def WordMode.after (mode : WordMode) (c : Char) : WordMode :=
  if isLowercase c then .lower else if isUppercase c then .upper else mode

/-- Put a character in front of the first word. -/
def consWord (c : Char) : List (List Char) → List (List Char)
  | [] => [[c]]
  | word :: rest => (c :: word) :: rest

/-- Cut a run of alphanumeric characters at its humps.  The first word of the result
continues the word whose case so far is `mode`. -/
def humps (mode : WordMode) : List Char → List (List Char)
  | [] => []
  | [c] => [[c]]
  | c :: next :: rest =>
    if mode.after c = .lower ∧ isUppercase next = true then
      [c] :: humps .uncased (next :: rest)
    else if mode = .upper ∧ isUppercase c = true ∧ isLowercase next = true then
      [] :: consWord c (humps .uncased (next :: rest))
    else
      consWord c (humps (mode.after c) (next :: rest))

/-- Cut a text at every character that is not alphanumeric. -/
def alphanumericRuns : List Char → List (List Char)
  | [] => [[]]
  | c :: rest =>
    if isAlphanumeric c then consWord c (alphanumericRuns rest)
    else [] :: alphanumericRuns rest

/-- The words of a name, none of them empty. -/
def nameWords (name : List Char) : List (List Char) :=
  (alphanumericRuns name).flatMap (humps .uncased)

/-- The small form of a word; a capital sigma is final only as its last character. -/
def loweredWord : List Char → List Char
  | [] => []
  | [c] => if c == capitalSigma then [finalSigma] else lowerForm c
  | c :: next :: rest => lowerForm c ++ loweredWord (next :: rest)

/-- The word with its first character capital and the others small. -/
def capitalizedWord : List Char → List Char
  | [] => []
  | c :: rest => upperForm c ++ loweredWord rest

/-- The words of the name in small letters, joined by underscores. -/
def snakeCase (name : List Char) : List Char :=
  List.intercalate ['_'] ((nameWords name).map loweredWord)

/-- The words of the name, each capitalized, without a separator. -/
def upperCamelCase (name : List Char) : List Char :=
  (nameWords name).flatMap capitalizedWord

end CanonicalIdl.Text
