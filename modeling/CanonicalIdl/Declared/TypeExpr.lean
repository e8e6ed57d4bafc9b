import CanonicalIdl.Json.Value
import CanonicalIdl.Text.Numeral

/-!
# Types as a generator writes them

A declared type is a text, or an object with one key that names its shape.  A `defined`
type is given by its name alone, or by its name and arguments.

A value is read as the first shape that fits it, in the order of the constructors below.
Keys of other shapes and unknown keys do no harm; a key given twice does.

Main results:

- Theorem `ofJson?_toJson`: a written type reads back as itself.
-/

namespace CanonicalIdl.Declared

mutual

/-- A type occurrence as written. -/
inductive TypeExpr where
  | named (name : String)
  | option (inner : TypeExpr)
  | coption (inner : TypeExpr)
  | vec (inner : TypeExpr)
  | array (element : TypeExpr) (length : UInt64)
  | tuple (items : List TypeExpr)
  | hashMap (key value : TypeExpr)
  | bTreeMap (key value : TypeExpr)
  /-- A `defined` type given by its name alone. -/
  | defined (name : String)
  /-- A `defined` type given by its name and arguments. -/
  | applied (name : String) (arguments : List GenericArgument)
  /-- A parameter of the enclosing definition. -/
  | generic (name : String)

/-- An argument of a `defined` type. -/
inductive GenericArgument where
  | type (type : TypeExpr)
  | const (value : String)

end

instance : Inhabited TypeExpr := ⟨.named ""⟩

namespace TypeExpr

/-! ## Writing -/

mutual

/-- The JSON form of a declared type. -/
def toJson : TypeExpr → Json
  | .named name => .string name
  | .option inner => .object [("option", toJson inner)]
  | .coption inner => .object [("coption", toJson inner)]
  | .vec inner => .object [("vec", toJson inner)]
  | .array element length => .object [("array", .array [toJson element, .ofNat length.toNat])]
  | .tuple items => .object [("tuple", .array (toJsonItems items))]
  | .hashMap key value => .object [("hashMap", .array [toJson key, toJson value])]
  | .bTreeMap key value => .object [("bTreeMap", .array [toJson key, toJson value])]
  | .defined name => .object [("defined", .string name)]
  | .applied name arguments =>
    .object [("defined", .object (("name", .string name) ::
      (if arguments.isEmpty then [] else [("generics", .array (toJsonArguments arguments))])))]
  | .generic name => .object [("generic", .string name)]

/-- The JSON forms of the items of a tuple. -/
def toJsonItems : List TypeExpr → List Json
  | [] => []
  | item :: rest => toJson item :: toJsonItems rest

/-- The JSON form of an argument. -/
def toJsonArgument : GenericArgument → Json
  | .type type => .object [("kind", .string "type"), ("type", toJson type)]
  | .const value => .object [("kind", .string "const"), ("value", .string value)]

/-- The JSON forms of the arguments. -/
def toJsonArguments : List GenericArgument → List Json
  | [] => []
  | argument :: rest => toJsonArgument argument :: toJsonArguments rest

end

/-! ## Reading -/

/-- Whether some member has the key. -/
def hasKey (key : String) (members : List (String × Json)) : Bool :=
  members.any (·.1 == key)

/-- The only member of a key. -/
def only? (key : String) : List (String × Json) → Option Json
  | [] => none
  | (k, value) :: rest =>
    if k = key then if hasKey key rest then none else some value else only? key rest

/-- A string. -/
def string? : Json → Option String
  | .string s => some s
  | _ => none

/-- A length of 64 bits. -/
def length? : Json → Option UInt64
  | .int n => if 0 ≤ n then Text.word? n.toNat else none
  | _ => none

/-- A tag is its name or its number among the tags. -/
def isTag (name : String) (number : Int) : Json → Bool
  | .string s => s == name
  | .int n => n == number
  | _ => false

mutual

/-- The declared type that a value stands for. -/
def ofJson? : Json → Option TypeExpr
  | .string name => some (.named name)
  | .object members =>
    match single? "option" members with
    | some inner => some (.option inner)
    | none =>
      match single? "coption" members with
      | some inner => some (.coption inner)
      | none =>
        match single? "vec" members with
        | some inner => some (.vec inner)
        | none =>
          match sized? members with
          | some (element, length) => some (.array element length)
          | none =>
            match several? members with
            | some items => some (.tuple items)
            | none =>
              match pair? "hashMap" members with
              | some (key, value) => some (.hashMap key value)
              | none =>
                match pair? "bTreeMap" members with
                | some (key, value) => some (.bTreeMap key value)
                | none =>
                  match defined? members with
                  | some type => some type
                  | none => ((only? "generic" members).bind string?).map .generic
  | _ => none

/-- A type under the only member of a key. -/
def single? (key : String) : List (String × Json) → Option TypeExpr
  | [] => none
  | (k, value) :: rest =>
    if k = key then if hasKey key rest then none else ofJson? value else single? key rest

/-- A type and a length under the key of arrays. -/
def sized? : List (String × Json) → Option (TypeExpr × UInt64)
  | [] => none
  | (k, value) :: rest =>
    if k = "array" then
      if hasKey "array" rest then none
      else match value with
        | .array [element, length] =>
          match ofJson? element, length? length with
          | some element, some length => some (element, length)
          | _, _ => none
        | _ => none
    else sized? rest

/-- A list of types under the key of tuples. -/
def several? : List (String × Json) → Option (List TypeExpr)
  | [] => none
  | (k, value) :: rest =>
    if k = "tuple" then
      if hasKey "tuple" rest then none
      else match value with
        | .array items => ofJsonItems? items
        | _ => none
    else several? rest

/-- Two types under the only member of a key. -/
def pair? (key : String) : List (String × Json) → Option (TypeExpr × TypeExpr)
  | [] => none
  | (k, value) :: rest =>
    if k = key then
      if hasKey key rest then none
      else match value with
        | .array [first, second] =>
          match ofJson? first, ofJson? second with
          | some first, some second => some (first, second)
          | _, _ => none
        | _ => none
    else pair? key rest

/-- A `defined` type. -/
def defined? : List (String × Json) → Option TypeExpr
  | [] => none
  | (k, value) :: rest =>
    if k = "defined" then
      if hasKey "defined" rest then none
      else match value with
        | .string name => some (.defined name)
        | .object inner =>
          match (only? "name" inner).bind string?, arguments? inner with
          | some name, some arguments => some (.applied name arguments)
          | _, _ => none
        | _ => none
    else defined? rest

/-- The arguments among the members of a `defined` type: none if there is no such member. -/
def arguments? : List (String × Json) → Option (List GenericArgument)
  | [] => some []
  | (k, value) :: rest =>
    if k = "generics" then
      if hasKey "generics" rest then none
      else match value with
        | .array items => ofJsonArguments? items
        | _ => none
    else arguments? rest

/-- A list of types. -/
def ofJsonItems? : List Json → Option (List TypeExpr)
  | [] => some []
  | item :: rest =>
    match ofJson? item, ofJsonItems? rest with
    | some item, some rest => some (item :: rest)
    | _, _ => none

/-- A list of arguments. -/
def ofJsonArguments? : List Json → Option (List GenericArgument)
  | [] => some []
  | item :: rest =>
    match ofJsonArgument? item, ofJsonArguments? rest with
    | some item, some rest => some (item :: rest)
    | _, _ => none

/-- An argument, with its tag as a member or as the first item of a list. -/
def ofJsonArgument? : Json → Option GenericArgument
  | .array [tag, value] =>
    if isTag "type" 0 tag then (ofJson? value).map .type
    else if isTag "const" 1 tag then (string? value).map .const
    else none
  | .object members =>
    match only? "kind" members with
    | none => none
    | some tag =>
      if isTag "type" 0 tag then (single? "type" members).map .type
      else if isTag "const" 1 tag then ((only? "value" members).bind string?).map .const
      else none
  | _ => none

end

/-! ## Reading back -/

@[simp] theorem length?_ofNat (length : UInt64) : length? (.ofNat length.toNat) = some length := by
  simp [length?, Json.ofNat]

mutual

/-- A written type reads back as itself. -/
theorem ofJson?_toJson : (type : TypeExpr) → ofJson? (toJson type) = some type
  | .named _ => by simp [toJson, ofJson?]
  | .option inner => by simp [toJson, ofJson?, single?, hasKey, ofJson?_toJson inner]
  | .coption inner => by simp [toJson, ofJson?, single?, hasKey, ofJson?_toJson inner]
  | .vec inner => by simp [toJson, ofJson?, single?, hasKey, ofJson?_toJson inner]
  | .array element length => by
    simp [toJson, ofJson?, single?, sized?, hasKey, ofJson?_toJson element]
  | .tuple items => by
    simp [toJson, ofJson?, single?, sized?, several?, hasKey, ofJsonItems?_toJsonItems items]
  | .hashMap key value => by
    simp [toJson, ofJson?, single?, sized?, several?, pair?, hasKey, ofJson?_toJson key,
      ofJson?_toJson value]
  | .bTreeMap key value => by
    simp [toJson, ofJson?, single?, sized?, several?, pair?, hasKey, ofJson?_toJson key,
      ofJson?_toJson value]
  | .defined _ => by
    simp [toJson, ofJson?, single?, sized?, several?, pair?, defined?, hasKey]
  | .applied name arguments => by
    cases arguments with
    | nil =>
      simp [toJson, ofJson?, single?, sized?, several?, pair?, defined?, arguments?, only?, hasKey,
        string?]
    | cons argument rest =>
      simp [toJson, ofJson?, single?, sized?, several?, pair?, defined?, arguments?, only?, hasKey,
        string?, ofJsonArguments?_toJsonArguments (argument :: rest)]
  | .generic _ => by
    simp [toJson, ofJson?, single?, sized?, several?, pair?, defined?, only?, hasKey, string?]

theorem ofJsonItems?_toJsonItems :
    (items : List TypeExpr) → ofJsonItems? (toJsonItems items) = some items
  | [] => rfl
  | item :: rest => by
    simp [toJsonItems, ofJsonItems?, ofJson?_toJson item, ofJsonItems?_toJsonItems rest]

theorem ofJsonArgument?_toJsonArgument :
    (argument : GenericArgument) → ofJsonArgument? (toJsonArgument argument) = some argument
  | .type type => by
    simp [toJsonArgument, ofJsonArgument?, only?, hasKey, isTag, single?, ofJson?_toJson type]
  | .const _ => by simp [toJsonArgument, ofJsonArgument?, only?, hasKey, isTag, string?]

theorem ofJsonArguments?_toJsonArguments :
    (arguments : List GenericArgument) →
      ofJsonArguments? (toJsonArguments arguments) = some arguments
  | [] => rfl
  | argument :: rest => by
    simp [toJsonArguments, ofJsonArguments?, ofJsonArgument?_toJsonArgument argument,
      ofJsonArguments?_toJsonArguments rest]

end

end TypeExpr

end CanonicalIdl.Declared
