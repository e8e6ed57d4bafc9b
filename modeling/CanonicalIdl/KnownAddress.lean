import CanonicalIdl.Json.Value
import CanonicalIdl.Naming

/-!
# Known addresses

Some accounts have an address that nobody needs to supply: well-known programs and system
variables, and the program that the instruction is sent to.  They are recognized by name,
whatever its case and separators.

Main results:

- Theorem `ofName?_of_fold_eq`: only the folded name matters.
-/

namespace CanonicalIdl

/-- Where the address of an account comes from when it is not supplied. -/
inductive KnownAddress where
  | fixed (address : String)
  | programId
  deriving Repr, DecidableEq

namespace KnownAddress

/-- The address itself, for an instruction of a program. -/
def address : KnownAddress → String → String
  | .fixed address, _ => address
  | .programId, program => program

/-- The name in small ASCII letters and without separators. -/
def fold (name : List Char) : List Char :=
  (name.filter fun c => !isSeparator c).map Char.toLower

/-- The well-known accounts. -/
def wellKnown : List (String × String) :=
  [("systemProgram", "11111111111111111111111111111111"),
   ("tokenProgram", "TokenkegQfeZyiNwAJbNbGKPFXCWuBvf9Ss623VQ5DA"),
   ("ataProgram", "ATokenGPvbdGVxr1b2hvZbsiqW5xWH25efTNsLJA8knL"),
   ("associatedTokenProgram", "ATokenGPvbdGVxr1b2hvZbsiqW5xWH25efTNsLJA8knL"),
   ("rent", "SysvarRent111111111111111111111111111111111"),
   ("clock", "SysvarC1ock11111111111111111111111111111111")]

/-- The account that stands for the instruction's own program. -/
def programAccount : String := "programId"

/-- The known address of a folded name. -/
def ofFolded? (folded : List Char) : Option KnownAddress :=
  if folded = fold programAccount.toList then some .programId
  else (wellKnown.find? fun known => fold known.1.toList == folded).map fun known =>
    .fixed known.2

/-- The known address of an account's name. -/
def ofName? (name : String) : Option KnownAddress :=
  ofFolded? (fold name.toList)

/-- The JSON form of a known address. -/
def toJson : KnownAddress → Json
  | .fixed address => .object [("kind", .string "fixed"), ("address", .string address)]
  | .programId => .object [("kind", .string "programId")]

/-- Names that fold to the same text have the same known address. -/
theorem ofName?_of_fold_eq {a b : String} (h : fold a.toList = fold b.toList) :
    ofName? a = ofName? b := by
  simp [ofName?, h]

end KnownAddress

end CanonicalIdl
