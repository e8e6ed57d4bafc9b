import CanonicalIdl.Json.Extra

/-!
# Parts of an interface

The records of which both a declared and a canonical interface are made.  They differ in
what stands for a type: records with fields take that as a parameter.

Main results:

- Theorem `Body.types_map`: changing the types of a body changes the list of its types.
-/

namespace CanonicalIdl

open Json

/-- A parameter of a generic type definition. -/
inductive GenericParameter where
  | type (name : String)
  | const (name type : String)
  deriving Repr, DecidableEq

/-- The name of a parameter. -/
def GenericParameter.name : GenericParameter → String
  | .type name => name
  | .const name _ => name

/-- A named field of a struct or variant, or an argument of an instruction. -/
structure Field (τ : Type) where
  name : String
  docs : List String
  type : τ
  deriving Repr, DecidableEq

/-- Named or positional fields. -/
inductive Fields (τ : Type) where
  | named (fields : List (Field τ))
  | tuple (types : List τ)
  deriving Repr, DecidableEq

/-- A variant of an enumeration. -/
structure Variant (τ : Type) where
  name : String
  fields : Option (Fields τ)
  deriving Repr, DecidableEq

/-- What a type definition or an account consists of. -/
inductive Body (τ : Type) where
  | struct (fields : Fields τ)
  | enum (variants : List (Variant τ))
  | aliasOf (type : τ)
  deriving Repr, DecidableEq

/-- A named type. -/
structure TypeDefinition (τ : Type) where
  name : String
  docs : List String
  generics : List GenericParameter
  body : Body τ
  extra : Extra
  deriving Repr

/-- A single account slot of an instruction.  The address is one that the interface pins. -/
structure AccountReference where
  name : String
  writable : Bool
  signer : Bool
  optional : Bool
  docs : List String
  address : Option String
  extra : Extra
  deriving Repr

/-- An account slot, or a named collection of further items. -/
inductive AccountItem where
  | reference (slot : AccountReference)
  | collection (name : String) (members : List AccountItem)
  deriving Repr

/-- The name of an account item. -/
def AccountItem.name : AccountItem → String
  | .reference slot => slot.name
  | .collection name _ => name

/-- An error that the program may return. -/
structure ErrorCode where
  code : UInt32
  name : String
  message : Option String
  deriving Repr, DecidableEq

/-- What is recorded about the program and about the tool that made the interface. -/
structure Metadata where
  address : Option String
  origin : Option String
  binaryVersion : Option String
  libVersion : Option String
  extra : Extra
  deriving Repr

/-- Nothing recorded. -/
def Metadata.empty : Metadata := ⟨none, none, none, none, .empty⟩

/-- The struct without fields. -/
def Body.emptyStruct {τ : Type} : Body τ := .struct (.named [])

/-- A definition with nothing but a name and a body. -/
def TypeDefinition.simple {τ : Type} (name : String) (body : Body τ) : TypeDefinition τ :=
  { name, docs := [], generics := [], body, extra := .empty }

/-! ## The types in a body -/

/-- The types of some fields. -/
def Fields.types {τ : Type} : Fields τ → List τ
  | .named fields => fields.map (·.type)
  | .tuple types => types

/-- The types of a variant. -/
def Variant.types {τ : Type} (variant : Variant τ) : List τ :=
  match variant.fields with
  | some fields => fields.types
  | none => []

/-- The types of a body, in order. -/
def Body.types {τ : Type} : Body τ → List τ
  | .struct fields => fields.types
  | .enum variants => variants.flatMap Variant.types
  | .aliasOf type => [type]

/-- The same field with another type. -/
def Field.map {σ τ : Type} (f : σ → τ) (field : Field σ) : Field τ :=
  { name := field.name, docs := field.docs, type := f field.type }

/-- The same fields with other types. -/
def Fields.map {σ τ : Type} (f : σ → τ) : Fields σ → Fields τ
  | .named fields => .named (fields.map (Field.map f))
  | .tuple types => .tuple (types.map f)

/-- The same variant with other types. -/
def Variant.map {σ τ : Type} (f : σ → τ) (variant : Variant σ) : Variant τ :=
  { name := variant.name, fields := variant.fields.map (Fields.map f) }

/-- The same body with other types. -/
def Body.map {σ τ : Type} (f : σ → τ) : Body σ → Body τ
  | .struct fields => .struct (fields.map f)
  | .enum variants => .enum (variants.map (Variant.map f))
  | .aliasOf type => .aliasOf (f type)

theorem Fields.types_map {σ τ : Type} (f : σ → τ) (fields : Fields σ) :
    (fields.map f).types = fields.types.map f := by
  cases fields <;> simp [Fields.map, Fields.types, Field.map, Function.comp_def]

theorem Variant.types_map {σ τ : Type} (f : σ → τ) (variant : Variant σ) :
    (variant.map f).types = variant.types.map f := by
  cases variant with
  | mk name fields => cases fields <;> simp [Variant.map, Variant.types, Fields.types_map]

/-- Changing the types of a body changes the list of its types. -/
theorem Body.types_map {σ τ : Type} (f : σ → τ) (body : Body σ) :
    (body.map f).types = body.types.map f := by
  cases body with
  | struct fields => simp [Body.map, Body.types, Fields.types_map]
  | enum variants =>
    simp [Body.map, Body.types, List.flatMap_map, List.map_flatMap, Variant.types_map]
  | aliasOf type => simp [Body.map, Body.types]

end CanonicalIdl
