import CanonicalIdl.Json.Value

/-!
# Supplied accounts

A caller supplies addresses by the names of account keys, and further accounts that are
sent behind the declared ones.

Main results:

- Theorem `get?_insert`: the address supplied last counts.
-/

namespace CanonicalIdl

/-- An account as an instruction sends it. -/
structure AccountMeta where
  address : String
  writable : Bool
  signer : Bool
  deriving Repr, DecidableEq

/-- The JSON form of a sent account. -/
def AccountMeta.toJson (account : AccountMeta) : Json :=
  .object [("pubkey", .string account.address), ("isWritable", .bool account.writable),
    ("isSigner", .bool account.signer)]

/-- What a caller supplies; of several addresses for one name the first in the list counts. -/
structure Supplied where
  addresses : List (String × String)
  remaining : List AccountMeta
  deriving Repr, DecidableEq

namespace Supplied

/-- Nothing is supplied. -/
def empty : Supplied := ⟨[], []⟩

/-- Supply an address, in exchange for an earlier one of the same name. -/
def insert (supplied : Supplied) (name address : String) : Supplied :=
  { supplied with addresses := (name, address) :: supplied.addresses }

/-- The address supplied for a name. -/
def get? (supplied : Supplied) (name : String) : Option String :=
  supplied.addresses.lookup name

/-- Whether an address is supplied for a name. -/
def contains (supplied : Supplied) (name : String) : Bool :=
  (supplied.get? name).isSome

/-- The address supplied last counts. -/
theorem get?_insert (supplied : Supplied) (name address other : String) :
    (supplied.insert name address).get? other =
      if other = name then some address else supplied.get? other := by
  simp only [get?, insert, List.lookup_cons]
  by_cases h : other = name
  · simp [h]
  · have hb : (other == name) = false := by simpa using h
    simp [h, hb]

end Supplied

end CanonicalIdl
