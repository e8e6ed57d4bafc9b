import CanonicalIdl.Normalization.Anchor
import CanonicalIdl.Proofs.Declared.ReadInterfaces
import CanonicalIdl.Proofs.Resolution.Configured

/-!
# What conversion brings about

Conversion resolves type occurrences and renames, and does nothing else: it registers no
definition, it keeps the shape of every body, and whatever could be read back still can.

Main results:

- Theorem `isSilent_convert`: converting an interface registers nothing by itself.
- Theorem `value_body`: what a body is converted to.
- Theorem `types_value_body`: the trees of a converted body are those of its types.
- Theorem `isReadable_value_body`: a converted body can be read back if it could before.
-/

namespace CanonicalIdl

open Declared (TypeExpr GenericArgument)

/-! ## Silence -/

namespace Conversion

mutual

/-- Converting a type registers nothing by itself. -/
theorem isSilent_type : (t : TypeExpr) → (type t).IsSilent
  | .named _ | .defined _ => fun _ => trivial
  | .generic _ => trivial
  | .option inner | .coption inner | .vec inner | .array inner _ =>
    (isSilent_type inner).bind fun _ => trivial
  | .tuple items => (isSilent_types items).bind fun _ => trivial
  | .hashMap key value | .bTreeMap key value =>
    (isSilent_type key).bind fun _ => (isSilent_type value).bind fun _ => trivial
  | .applied name args => by
    have harguments := isSilent_arguments args
    refine Script.IsSilent.bind (fun _ => trivial) fun tree => ?_
    split
    · split
      · trivial
      · exact harguments.bind fun _ => trivial
    · trivial

theorem isSilent_types : (items : List TypeExpr) → (types items).IsSilent
  | [] => trivial
  | item :: rest => (isSilent_type item).bind fun _ => (isSilent_types rest).bind fun _ => trivial

theorem isSilent_argument : (item : GenericArgument) → (argument item).IsSilent
  | .type item => (isSilent_type item).bind fun _ => trivial
  | .const _ => trivial

theorem isSilent_arguments : (items : List GenericArgument) → (arguments items).IsSilent
  | [] => trivial
  | item :: rest =>
    (isSilent_argument item).bind fun _ => (isSilent_arguments rest).bind fun _ => trivial

end

variable (rename : String → String)

/-- So it is with a field, whose type is all that is resolved. -/
theorem isSilent_field (f : Field TypeExpr) : (field rename f).IsSilent :=
  (isSilent_type f.type).bind fun _ => trivial

/-- So it is with the fields of a body or a variant. -/
theorem isSilent_fields (f : Fields TypeExpr) : (fields rename f).IsSilent := by
  cases f with
  | named items => exact (Script.IsSilent.each (isSilent_field rename) items).bind fun _ => trivial
  | tuple items => exact (Script.IsSilent.each isSilent_type items).bind fun _ => trivial

theorem isSilent_variant (v : Variant TypeExpr) : (variant rename v).IsSilent := by
  obtain ⟨name, content⟩ := v
  cases content with
  | none => trivial
  | some items => exact (isSilent_fields rename items).bind fun _ => trivial

/-- So it is with a body. -/
theorem isSilent_body (b : Body TypeExpr) : (body rename b).IsSilent := by
  cases b with
  | struct items => exact (isSilent_fields rename items).bind fun _ => trivial
  | enum variants =>
    exact (Script.IsSilent.each (isSilent_variant rename) variants).bind fun _ => trivial
  | aliasOf item => exact (isSilent_type item).bind fun _ => trivial

/-- So it is with a definition. -/
theorem isSilent_definition (d : Declared.Definition) : (definition rename d).IsSilent :=
  (isSilent_body rename d.body).bind fun _ => trivial

/-- So it is with the body that an account was declared with. -/
theorem isSilent_accountBody (account : Declared.Account) :
    (accountBody rename account).IsSilent := by
  unfold accountBody
  split
  · exact isSilent_body rename _
  · trivial

/-- So it is with an instruction. -/
theorem isSilent_instruction (discriminator : Option Discriminator)
    (i : Declared.Instruction) : (instruction rename discriminator i).IsSilent :=
  (Script.IsSilent.each (isSilent_field rename) i.args).bind fun _ => trivial

end Conversion

namespace Anchor

open Conversion

/-- An account finds its body or converts its own, and registers nothing by itself. -/
theorem isSilent_account (types : Definitions) (declared : Declared.Account) :
    (account types declared).IsSilent := by
  unfold account
  split
  · trivial
  · exact (isSilent_accountBody camelName declared).bind fun _ => trivial

/-- So it is with several accounts, one after the other. -/
theorem isSilent_accounts (types : Definitions) (declared : List Declared.Account) :
    (accounts types declared).IsSilent := by
  induction declared generalizing types with
  | nil => trivial
  | cons first rest ih =>
    exact (isSilent_account types first).bind fun (_, types) => (ih types).bind fun _ => trivial

/-- Converting an interface registers nothing by itself. -/
theorem isSilent_convert (declared : Declared.Interface) : (convert declared).IsSilent := by
  refine Script.IsSilent.bind ?_ fun types => ?_
  · exact (Script.IsSilent.each (isSilent_definition camelName) declared.types).bind
      fun _ => trivial
  · refine (isSilent_accounts types declared.accounts).bind fun (_, types) => ?_
    exact (Script.IsSilent.each (fun i => isSilent_instruction camelName _ i)
      declared.instructions).bind fun _ => trivial

end Anchor

/-! ## Renamed and mapped parts -/

/-- The same fields with the names of the named ones in another spelling. -/
def Fields.renamed {τ : Type} (f : String → String) : Fields τ → Fields τ
  | .named fields => .named (fields.map fun field => { field with name := f field.name })
  | .tuple types => .tuple types

/-- The same body with the names of its fields in another spelling. -/
def Body.renamed {τ : Type} (f : String → String) : Body τ → Body τ
  | .struct fields => .struct (fields.renamed f)
  | .enum variants => .enum (variants.map fun variant =>
      { variant with fields := variant.fields.map (Fields.renamed f) })
  | .aliasOf type => .aliasOf type

section Parts

variable {σ τ : Type} {f : String → String} {g : σ → τ}

/-- Renaming leaves the types in fields as they are. -/
theorem Fields.types_renamed (fields : Fields τ) : (fields.renamed f).types = fields.types := by
  cases fields <;> simp [renamed, types, Function.comp_def]

/-- So it does in a body. -/
theorem Body.types_renamed (body : Body τ) : (body.renamed f).types = body.types := by
  cases body with
  | struct fields => exact fields.types_renamed
  | enum variants =>
    rw [renamed, types, types, List.flatMap_map]
    refine congrArg (List.flatMap · variants) (funext fun variant => ?_)
    obtain ⟨name, content⟩ := variant
    cases content with
    | none => rfl
    | some fields => exact fields.types_renamed
  | aliasOf type => rfl

/-- Fields under their own names are the same fields. -/
theorem Fields.renamed_id (fields : Fields τ) : fields.renamed id = fields := by
  cases fields <;> simp [renamed]

/-- So it is with a body. -/
theorem Body.renamed_id (body : Body τ) : body.renamed id = body := by
  have hfields : Fields.renamed (τ := τ) id = id := funext Fields.renamed_id
  cases body <;> simp [renamed, Fields.renamed_id, hfields]

/-- Positional fields hold a type under whatever names. -/
theorem Fields.isReadable_renamed {fields : Fields τ} (h : fields.IsReadable) :
    (fields.renamed f).IsReadable := by
  cases fields with
  | named items => trivial
  | tuple items => exact h

/-- A body can be read back under other names if it can be read back. -/
theorem Body.isReadable_renamed {body : Body τ} (h : body.IsReadable) :
    (body.renamed f).IsReadable := by
  cases body with
  | struct fields => exact Fields.isReadable_renamed h
  | enum variants =>
    simp only [renamed, IsReadable, List.forall_mem_map]
    intro variant hvariant fields hfields
    obtain ⟨given, hgiven, rfl⟩ := Option.map_eq_some_iff.mp hfields
    exact Fields.isReadable_renamed (h variant hvariant given hgiven)
  | aliasOf type => trivial

/-- Positional fields hold a type whatever is made of it. -/
theorem Fields.isReadable_map {fields : Fields σ} (h : fields.IsReadable) :
    (fields.map g).IsReadable := by
  cases fields with
  | named items => trivial
  | tuple items => simpa [Fields.map, Fields.IsReadable] using h

/-- A body can be read back with other types if it can be read back. -/
theorem Body.isReadable_map {body : Body σ} (h : body.IsReadable) : (body.map g).IsReadable := by
  cases body with
  | struct fields => exact Fields.isReadable_map h
  | enum variants =>
    simp only [Body.map, Body.IsReadable, List.forall_mem_map]
    intro variant hvariant fields hfields
    obtain ⟨given, hgiven, rfl⟩ := Option.map_eq_some_iff.mp hfields
    exact Fields.isReadable_map (h variant hvariant given hgiven)
  | aliasOf type => trivial

end Parts

/-! ## Converted parts -/

namespace Conversion

section Values

variable (rename : String → String) (read : List Char → TypeTree)

theorem value_fields (f : Fields TypeExpr) :
    (fields rename f).value read = (f.renamed rename).map fun t => (type t).value read := by
  cases f <;> simp [fields, field, Fields.renamed, Fields.map, Field.map, Function.comp_def]

theorem value_variant (v : Variant TypeExpr) :
    (variant rename v).value read =
      Variant.map (fun t => (type t).value read)
        { v with fields := v.fields.map (Fields.renamed rename) } := by
  obtain ⟨name, content⟩ := v
  cases content <;> simp [variant, Variant.map, value_fields]

/-- A body is converted to the one of the same shape whose named fields are renamed and whose
types are the trees of its types. -/
theorem value_body (b : Body TypeExpr) :
    (body rename b).value read = (b.renamed rename).map fun t => (type t).value read := by
  cases b with
  | struct items => simp [body, Body.renamed, Body.map, value_fields]
  | enum variants =>
    simp [body, Body.renamed, Body.map, value_variant, Function.comp_def]
  | aliasOf item => simp [body, Body.renamed, Body.map]

/-- The trees of a converted body are those of its types. -/
theorem types_value_body (b : Body TypeExpr) :
    ((body rename b).value read).types = b.types.map fun t => (type t).value read := by
  rw [value_body, Body.types_map, Body.types_renamed]

/-- A converted body can be read back if it could before. -/
theorem isReadable_value_body {b : Body TypeExpr} (h : b.IsReadable) :
    ((body rename b).value read).IsReadable := by
  rw [value_body]
  exact Body.isReadable_map (Body.isReadable_renamed h)

/-- A definition keeps its name, comments, parameters and whatever else it holds. -/
theorem value_definition (d : Declared.Definition) :
    (definition rename d).value read =
      { name := d.name, docs := d.docs, generics := d.generics,
        body := (body rename d.body).value read, extra := d.extra } := by
  simp [definition]

/-- An instruction has its names converted and its arguments resolved. -/
theorem value_instruction (discriminator : Option Discriminator) (i : Declared.Instruction) :
    (instruction rename discriminator i).value read =
      { name := rename i.name, docs := i.docs, discriminator,
        accounts := AccountItem.renameItems rename i.accounts,
        args := i.args.map fun f => (field rename f).value read,
        omitsMissing := i.omitsMissing, extra := i.extra } := by
  simp [instruction]

end Values

/-! ## Settled trees -/

section Settled

variable {table : PrimitiveWords} {read : List Char → TypeTree}

mutual

/-- Where every text is read as a settled tree, so is every type. -/
theorem isSettled_value_type (hread : ∀ text, (read text).IsSettled table) :
    (t : TypeExpr) → ((type t).value read).IsSettled table
  | .named name | .defined name => by simpa [type] using hread name.toList
  | .generic name => by simp [type]
  | .option inner | .coption inner => by simpa [type] using isSettled_value_type hread inner
  | .vec inner => by simpa [type] using isSettled_value_type hread inner
  | .array inner _ => by simpa [type] using isSettled_value_type hread inner
  | .tuple items => by simpa [type] using isSettled_value_types hread items
  | .hashMap key value | .bTreeMap key value => by
    simpa [type] using ⟨isSettled_value_type hread key, isSettled_value_type hread value⟩
  | .applied name args => by
    have harguments := isSettled_value_arguments hread args
    simp only [type, Script.value_bind, Script.value_ask]
    have htree := hread name.toList
    split
    · split
      · next hname _ => exact htree
      · simpa using harguments
    · exact htree

theorem isSettled_value_types (hread : ∀ text, (read text).IsSettled table) :
    (items : List TypeExpr) → ∀ tree ∈ (types items).value read, tree.IsSettled table
  | [] => by simp [types]
  | item :: rest => by
    simpa [types] using ⟨isSettled_value_type hread item, isSettled_value_types hread rest⟩

theorem isSettled_value_argument (hread : ∀ text, (read text).IsSettled table) :
    (item : GenericArgument) → ∀ tree ∈ (argument item).value read, tree.IsSettled table
  | .type item => by simpa [argument] using isSettled_value_type hread item
  | .const _ => by simp [argument]

/-- So are the arguments of an applied type that are types. -/
theorem isSettled_value_arguments (hread : ∀ text, (read text).IsSettled table) :
    (items : List GenericArgument) → ∀ tree ∈ (arguments items).value read, tree.IsSettled table
  | [] => by simp [arguments]
  | item :: rest => by
    have hitem := isSettled_value_argument hread item
    have hrest := isSettled_value_arguments hread rest
    simp only [arguments, Script.value_bind, Script.value_done, List.forall_mem_append]
    exact ⟨by simpa using hitem, hrest⟩

end

end Settled

end Conversion

end CanonicalIdl
