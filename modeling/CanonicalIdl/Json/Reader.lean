import CanonicalIdl.Json.Document

/-!
# Readers of records

A reader turns a document into a value of the domain, or stops at the first fault that
it meets.  A record is read from an object, member by member in the order of the text;
some records can also be read from a list of their fields.

A field given twice is a fault at its second key.  A missing field is a fault at the end
of the object.
-/

namespace CanonicalIdl.Json

/-- The result of a reader. -/
abbrev Reading := Except Fault

namespace Document

/-- A string. -/
def text : Document → Reading String
  | .string s => .ok s
  | d => .error (d.unexpected "a string")

/-- A boolean. -/
def flag : Document → Reading Bool
  | .bool b => .ok b
  | d => .error (d.unexpected "a boolean")

/-- A number below `bound`, whose kind the messages call `kind`. -/
def natBelow (bound : Nat) (kind : String) : Document → Reading Nat
  | .int n =>
    if 0 ≤ n ∧ n < bound then .ok n.toNat
    else .error (.mismatch (.invalidValue (.int n) kind))
  | d => .error (d.unexpected kind)

/-- A byte. -/
def byte (d : Document) : Reading UInt8 :=
  (d.natBelow UInt8.size "u8").map UInt8.ofNat

/-- A 32-bit word. -/
def word32 (d : Document) : Reading UInt32 :=
  (d.natBelow UInt32.size "u32").map UInt32.ofNat

/-- Nothing for `null`, else what `read` makes of the value. -/
def orNull {α : Type} (read : Document → Reading α) : Document → Reading (Option α)
  | .null => .ok none
  | d => (read d).map some

/-- What `read` makes of one item after another. -/
def readEach {α : Type} (read : Document → Reading α) : List Document → Reading (List α)
  | [] => .ok []
  | item :: rest => do
    let value ← read item
    let values ← readEach read rest
    return value :: values

/-- A list of values. -/
def list {α : Type} (read : Document → Reading α) : Document → Reading (List α)
  | .array items ending => do
    let values ← readEach read items
    ending.read
    return values
  | d => .error (d.unexpected "a sequence")

/-- Let the value pass unread. -/
def ignore (d : Document) : Reading Unit :=
  match d.skip with
  | .ok _ => .ok ()
  | .error fault => .error (.malformed fault)

/-! ## Objects -/

/-- Pass the members of an object to `step`, which builds up a record field by field. -/
def foldMembers {σ : Type} (step : σ → String → Document → Reading σ) :
    σ → List (Except Malformation String × Document) → Reading σ
  | state, [] => .ok state
  | _, (.error fault, _) :: _ => .error (.malformed fault)
  | state, (.ok key, value) :: rest => do
    let state ← step state key value
    foldMembers step state rest

/-- The members of an object, up to its end. -/
def members {σ : Type} (step : σ → String → Document → Reading σ) (start : σ)
    (members : List (Except Malformation String × Document)) (ending : Ending) : Reading σ := do
  let state ← foldMembers step start members
  ending.read
  return state

/-- A field of a record, unless it has been given before. -/
def once {α : Type} (field : Option α) (name : String) (read : Reading α) :
    Reading (Option α) :=
  match field with
  | some _ => .error (.mismatch (.duplicateField name))
  | none => read.map some

/-- A field that a record must have. -/
def required {α : Type} (field : Option α) (name : String) : Reading α :=
  match field with
  | some a => .ok a
  | none => .error (.mismatch (.missingField name))

/-! ## Lists of fields -/

/-- What is left of a list of fields. -/
structure Elements where
  items : List Document
  ending : Ending

/-- A reader that takes fields from a list. -/
abbrev FieldReader := StateT Elements Reading

/-- The next field, if the list has one. -/
def nextField? {α : Type} (read : Document → Reading α) : FieldReader (Option α) := fun rest =>
  match rest.items with
  | [] => rest.ending.read.map fun _ => (none, rest)
  | item :: items => (read item).map fun a => (some a, { rest with items })

/-- The next field, which must be there: it has `position` and the list is to hold what
`expected` says. -/
def nextField {α : Type} (position : Nat) (expected : String) (read : Document → Reading α) :
    FieldReader α := do
  match ← nextField? read with
  | some a => return a
  | none => throw (.mismatch (.invalidLength position expected))

/-- The next field, or a default for a list that has ended. -/
def nextFieldOr {α : Type} (default : α) (read : Document → Reading α) : FieldReader α := do
  return (← nextField? read).getD default

/-- The end of a list of fields in a text. -/
def endOfFields (rest : Elements) : Reading Unit :=
  match rest.items, rest.ending with
  | [], .closed => .ok ()
  | [], .broken .endInList _ => .error (.malformed .endInList)
  | [], .broken .trailingComma _ => .error (.malformed .trailingComma)
  | _, _ => .error (.malformed .trailingText)

/-- The end of a list of fields that has been read as a whole before, after `count` fields. -/
def endOfBufferedFields (count : Nat) (rest : Elements) : Reading Unit :=
  if rest.items.isEmpty then .ok ()
  else
    .error (.mismatch (.invalidLength (count + rest.items.length)
      (String.ofList (Text.decimal count) ++
        (if count = 1 then " element in sequence" else " elements in sequence"))))

/-- Take fields from a list and finish it by `atEnd`. -/
def fields {α : Type} (reader : FieldReader α) (atEnd : Elements → Reading Unit)
    (items : List Document) (ending : Ending) : Reading α := do
  let (a, rest) ← reader.run { items, ending }
  atEnd rest
  return a

/-! ## Values with a tag -/

/-- The one of several variants that a name stands for. -/
def variantNamed {τ : Type} (variants : List (String × τ)) (name : String) : Reading τ :=
  match variants.lookup name with
  | some variant => .ok variant
  | none => .error (.mismatch (.unknownVariant name (variants.map (·.1))))

/-- The tag of a value. -/
def variantTag {τ : Type} (variants : List (String × τ)) : Document → Reading τ
  | .string name => variantNamed variants name
  | d => .error (d.unexpected "variant identifier")

/-- A value with a tag: the tag and all else. -/
structure Tagged (τ : Type) where
  tag : Option τ
  rest : List (String × Json)

/-- One member of a value with a tag under the key `kind`. -/
def taggedStep {τ : Type} (variants : List (String × τ)) (state : Tagged τ) (key : String)
    (value : Document) : Reading (Tagged τ) :=
  if key = "kind" then do
    let tag ← once state.tag "kind" (variantTag variants value)
    return { state with tag }
  else do
    let value ← value.read
    return { state with rest := state.rest ++ [(key, value)] }

/-- A value that names its variant under the key `kind`, or as the first item of a list.
All else is read as a whole. -/
def tagged {τ : Type} (expected : String) (variants : List (String × τ)) :
    Document → Reading (τ × Json)
  | .array [] ending => do
    ending.read
    throw (.mismatch (.missingField "kind"))
  | .array (item :: items) ending => do
    let tag ← variantTag variants item
    let rest ← readItems items
    ending.read
    return (tag, .array rest)
  | .object ms ending => do
    let state ← members (taggedStep variants) { tag := none, rest := [] } ms ending
    let tag ← required state.tag "kind"
    return (tag, .object state.rest)
  | d => .error (d.unexpected expected)

end Document

end CanonicalIdl.Json
