import CanonicalIdl.Json.Fault
import CanonicalIdl.Json.Value

/-!
# Documents: JSON texts with their faults in place

A document is what a scan makes of a text: a value in which every place that cannot be
read holds its fault.  A reader walks a document from left to right and stops at the
first fault that it meets, so which of two faults is reported depends on what the reader
asks for.

A place may be unreadable and yet skippable: a number out of range, a string with an
unpaired surrogate or a value nested too deeply does no harm where nobody reads it.

Main results:

- Theorem `read_ofJson`: a value seen as a document reads as itself.
-/

namespace CanonicalIdl.Json

/-- How an array or object goes on after its last item. -/
inductive Ending where
  | closed
  | broken (whenRead whenSkipped : Malformation)
  deriving Repr, DecidableEq

/-- A JSON text with its faults in place. -/
inductive Document where
  | null
  | bool (b : Bool)
  | int (n : Int)
  | double (x : Double)
  | string (s : String)
  | array (items : List Document) (ending : Ending)
  /-- Members with their keys.  Where a key should stand and no string does, the member
  holds what stands there. -/
  | object (members : List (Except Malformation String × Document)) (ending : Ending)
  /-- A place that cannot be read, and can be skipped if it has no second fault. -/
  | unreadable (whenRead : Malformation) (whenSkipped : Option Malformation)
  deriving Inhabited

namespace Ending

/-- Read past the end. -/
def read : Ending → Except Fault Unit
  | .closed => .ok ()
  | .broken fault _ => .error (.malformed fault)

/-- Skip past the end. -/
def skip : Ending → Except Malformation Unit
  | .closed => .ok ()
  | .broken _ fault => .error fault

end Ending

namespace Document

mutual

/-- The first fault that stops a reader which only skips the value. -/
def skip : Document → Except Malformation Unit
  | .array items ending =>
    match skipItems items with
    | .error fault => .error fault
    | .ok _ => ending.skip
  | .object members ending =>
    match skipMembers members with
    | .error fault => .error fault
    | .ok _ => ending.skip
  | .unreadable _ (some fault) => .error fault
  | _ => .ok ()

/-- Skip the items of an array. -/
def skipItems : List Document → Except Malformation Unit
  | [] => .ok ()
  | item :: rest =>
    match skip item with
    | .error fault => .error fault
    | .ok _ => skipItems rest

/-- Skip the members of an object, whatever the strings that are their keys. -/
def skipMembers : List (Except Malformation String × Document) → Except Malformation Unit
  | [] => .ok ()
  | (.error .keyNotString, _) :: _ => .error .keyNotString
  | (_, value) :: rest =>
    match skip value with
    | .error fault => .error fault
    | .ok _ => skipMembers rest

end

mutual

/-- The whole value, or the first fault in it. -/
def read : Document → Except Fault Json
  | .null => .ok .null
  | .bool b => .ok (.bool b)
  | .int n => .ok (.int n)
  | .double x => .ok (.double x)
  | .string s => .ok (.string s)
  | .array items ending => do
    let values ← readItems items
    ending.read
    return .array values
  | .object members ending => do
    let values ← readMembers members
    ending.read
    return .object values
  | .unreadable fault _ => .error (.malformed fault)

/-- The items of an array. -/
def readItems : List Document → Except Fault (List Json)
  | [] => .ok []
  | item :: rest => do
    let value ← read item
    let values ← readItems rest
    return value :: values

/-- The members of an object in their order, repeated keys included. -/
def readMembers :
    List (Except Malformation String × Document) → Except Fault (List (String × Json))
  | [] => .ok []
  | (.error fault, _) :: _ => .error (.malformed fault)
  | (.ok key, item) :: rest => do
    let value ← read item
    let values ← readMembers rest
    return (key, value) :: values

end

mutual

/-- A value as a document without faults. -/
def ofJson : Json → Document
  | .null => .null
  | .bool b => .bool b
  | .int n => .int n
  | .double x => .double x
  | .string s => .string s
  | .array items => .array (ofItems items) .closed
  | .object members => .object (ofMembers members) .closed

/-- The items of an array as documents. -/
def ofItems : List Json → List Document
  | [] => []
  | item :: rest => ofJson item :: ofItems rest

/-- The members of an object as documents. -/
def ofMembers : List (String × Json) → List (Except Malformation String × Document)
  | [] => []
  | (key, value) :: rest => (.ok key, ofJson value) :: ofMembers rest

end

/-- What a reader reports that finds the document where it asked for something else.  Of
an array or object only the first character is looked at. -/
def found : Document → Except Malformation Found
  | .null => .ok .null
  | .bool b => .ok (.bool b)
  | .int n => .ok (.int n)
  | .double x => .ok (.double x)
  | .string s => .ok (.string s)
  | .array _ _ => .ok .sequence
  | .object _ _ => .ok .map
  | .unreadable fault _ => .error fault

/-- The fault of a document that is not `expected`. -/
def unexpected (document : Document) (expected : String) : Fault :=
  match document.found with
  | .ok found => .mismatch (.invalidType found expected)
  | .error fault => .malformed fault

mutual

/-- A value seen as a document reads as itself. -/
theorem read_ofJson : (value : Json) → read (ofJson value) = .ok value
  | .null | .bool _ | .int _ | .double _ | .string _ => rfl
  | .array items => by
    simp [ofJson, read, readItems_ofItems items, Ending.read, bind, Except.bind, pure, Except.pure]
  | .object members => by
    simp [ofJson, read, readMembers_ofMembers members, Ending.read, bind, Except.bind, pure,
      Except.pure]

theorem readItems_ofItems : (items : List Json) → readItems (ofItems items) = .ok items
  | [] => rfl
  | item :: rest => by
    simp [ofItems, readItems, read_ofJson item, readItems_ofItems rest, bind, Except.bind, pure,
      Except.pure]

theorem readMembers_ofMembers :
    (members : List (String × Json)) → readMembers (ofMembers members) = .ok members
  | [] => rfl
  | (key, value) :: rest => by
    simp [ofMembers, readMembers, read_ofJson value, readMembers_ofMembers rest, bind, Except.bind,
      pure, Except.pure]

end

end Document

end CanonicalIdl.Json
