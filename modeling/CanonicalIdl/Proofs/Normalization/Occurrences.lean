import CanonicalIdl.Normalization.Anchor
import CanonicalIdl.Proofs.Normalization.LastWriter
import CanonicalIdl.Proofs.Resolution.Registrations

/-!
# Texts that are resolved

Converting a declared interface has the names in it resolved, in a fixed order: those in the types,
in the inline bodies of the accounts that stand alone, and in the arguments of the instructions.
An account that is lifted from a type is not looked into, and arguments are looked at only where
the name in front of them is a reference.  Conversion registers nothing by itself, so what an
interface registers is what these texts register, one after another.

Main results:

- Theorem `registrations_type`: a declared type registers what its texts do.
- Theorem `Anchor.registrations_convert`: so does an interface.
-/

namespace CanonicalIdl

open Declared (TypeExpr GenericArgument)

/-- Whether a tree is a reference. -/
def TypeTree.isReference : TypeTree → Bool
  | .reference _ _ => true
  | _ => false

/-! ## The texts -/

namespace Declared

section Texts

variable (read : List Char → TypeTree)

mutual

/-- The texts that are resolved where a declared type is converted, in order. -/
def TypeExpr.texts : TypeExpr → List (List Char)
  | .named name | .defined name => [name.toList]
  | .option inner | .coption inner | .vec inner | .array inner _ => TypeExpr.texts inner
  | .tuple items => TypeExpr.textsOf items
  | .hashMap key value | .bTreeMap key value => TypeExpr.texts key ++ TypeExpr.texts value
  | .applied name arguments =>
    name.toList ::
      if (read name.toList).isReference then TypeExpr.argumentTexts arguments else []
  | .generic _ => []

/-- The texts of declared types. -/
def TypeExpr.textsOf : List TypeExpr → List (List Char)
  | [] => []
  | item :: rest => TypeExpr.texts item ++ TypeExpr.textsOf rest

/-- The texts of the arguments that are types. -/
def TypeExpr.argumentTexts : List GenericArgument → List (List Char)
  | [] => []
  | .type item :: rest => TypeExpr.texts item ++ TypeExpr.argumentTexts rest
  | .const _ :: rest => TypeExpr.argumentTexts rest

end

/-- The texts of a body. -/
def bodyTexts (body : Body TypeExpr) : List (List Char) :=
  body.types.flatMap (TypeExpr.texts read)

/-- The accounts that stand alone where types have the given names: each name is taken by the first
account that has it. -/
def standingAlone (names : List String) : List Account → List Account
  | [] => []
  | account :: rest =>
    if account.name ∈ names then standingAlone (names.filter (· ≠ account.name)) rest
    else account :: standingAlone names rest

/-- The texts of an interface, in the order in which they are resolved. -/
def Interface.texts (declared : Interface) : List (List Char) :=
  declared.types.flatMap (fun d => bodyTexts read d.body) ++
    (standingAlone (declared.types.map (·.name)) declared.accounts).flatMap
      (fun account => account.body.toList.flatMap (bodyTexts read)) ++
    declared.instructions.flatMap fun i => i.args.flatMap fun f => f.type.texts read

end Texts

end Declared

/-! ## What they register -/

open Declared (bodyTexts standingAlone)

section Registrations

variable (read : List Char → TypeTree) (inside : List Char → List Definition)

namespace Conversion

mutual

/-- A declared type registers what its texts do. -/
theorem registrations_type : (t : TypeExpr) →
    (type t).registrations read inside = (t.texts read).flatMap inside
  | .named name | .defined name => by simp [type, TypeExpr.texts]
  | .generic _ => by simp [type, TypeExpr.texts]
  | .option inner | .coption inner | .vec inner | .array inner _ => by
    simpa [type, TypeExpr.texts] using registrations_type inner
  | .tuple items => by simpa [type, TypeExpr.texts] using registrations_types items
  | .hashMap key value | .bTreeMap key value => by
    simp [type, TypeExpr.texts, registrations_type key, registrations_type value]
  | .applied name args => by
    have harguments := registrations_arguments args
    rw [type, Script.registrations_bind, Script.registrations_ask, Script.value_ask,
      TypeExpr.texts, List.flatMap_cons]
    congr 1
    cases read name.toList with
    | reference found own =>
      cases args with
      | nil => rfl
      | cons first rest => simpa [TypeTree.isReference] using harguments
    | _ => rfl

theorem registrations_types : (items : List TypeExpr) →
    (types items).registrations read inside = (TypeExpr.textsOf read items).flatMap inside
  | [] => rfl
  | item :: rest => by
    simp [types, TypeExpr.textsOf, registrations_type item, registrations_types rest]

theorem registrations_arguments : (items : List GenericArgument) →
    (arguments items).registrations read inside =
      (TypeExpr.argumentTexts read items).flatMap inside
  | [] => rfl
  | .type item :: rest => by
    simp [arguments, argument, TypeExpr.argumentTexts, registrations_type item,
      registrations_arguments rest]
  | .const _ :: rest => by
    simp [arguments, argument, TypeExpr.argumentTexts, registrations_arguments rest]

end

variable (rename : String → String)

/-- Converting fields registers what their types do, in order. -/
theorem registrations_fields (f : Fields TypeExpr) :
    (fields rename f).registrations read inside =
      (f.types.flatMap (TypeExpr.texts read)).flatMap inside := by
  cases f <;>
    simp [fields, field, Fields.types, registrations_type, List.flatMap_assoc, List.flatMap_map]

/-- So it is with the fields of a variant. -/
theorem registrations_variant (v : Variant TypeExpr) :
    (variant rename v).registrations read inside =
      (v.types.flatMap (TypeExpr.texts read)).flatMap inside := by
  obtain ⟨name, content⟩ := v
  cases content <;> simp [variant, Variant.types, registrations_fields]

/-- The body of a type or an account registers what its texts do. -/
theorem registrations_body (b : Body TypeExpr) :
    (body rename b).registrations read inside = (bodyTexts read b).flatMap inside := by
  cases b with
  | struct items => simp [body, bodyTexts, Body.types, registrations_fields]
  | enum variants =>
    simp [body, bodyTexts, Body.types, registrations_variant, List.flatMap_assoc]
  | aliasOf item => simp [body, bodyTexts, Body.types, registrations_type]

/-- An account without a body registers nothing. -/
theorem registrations_accountBody (account : Declared.Account) :
    (accountBody rename account).registrations read inside =
      (account.body.toList.flatMap (bodyTexts read)).flatMap inside := by
  unfold accountBody
  cases account.body <;> simp [registrations_body]

end Conversion

namespace Anchor

open Conversion

/-- Accounts register what the texts of those do that stand alone. -/
theorem registrations_accounts {types : Definitions} (hnodup : types.names.Nodup)
    {names : List String} (hnames : ∀ name, name ∈ types.names ↔ name ∈ names)
    (declared : List Declared.Account) :
    (accounts types declared).registrations read inside =
      ((standingAlone names declared).flatMap
        (fun account => account.body.toList.flatMap (bodyTexts read))).flatMap inside := by
  induction declared generalizing types names with
  | nil => rfl
  | cons first rest ih =>
    rw [standingAlone]
    cases hget : types.get? first.name with
    | some definition =>
      have hmem : first.name ∈ types.names :=
        Definitions.name_of_get? hget ▸ List.mem_map_of_mem (List.mem_of_find?_eq_some hget)
      have hleft : ∀ name, name ∈ (types.erase first.name).names ↔
          name ∈ names.filter (· ≠ first.name) := by
        intro name
        rw [Definitions.names_erase hnodup, List.mem_filter, List.mem_filter, hnames]
      rw [if_pos ((hnames _).mp hmem), ← ih (Definitions.nodup_names_erase _ hnodup) hleft]
      simp [accounts, account, hget]
    | none =>
      have hmem : first.name ∉ types.names := by
        intro hmem
        obtain ⟨definition, hdefinition, hname⟩ := List.mem_map.mp hmem
        simpa [hname] using List.find?_eq_none.mp hget definition hdefinition
      rw [if_neg (mt (hnames _).mpr hmem), List.flatMap_cons, List.flatMap_append,
        ← ih hnodup hnames]
      simp [accounts, account, hget, registrations_accountBody]

/-- Definitions are converted one after the other. -/
theorem registrations_definitions (declared : List Declared.Definition) :
    (definitions declared).registrations read inside =
      (declared.flatMap fun d => bodyTexts read d.body).flatMap inside := by
  simp [definitions, definition, registrations_body, List.flatMap_assoc]

/-- Of an instruction only the arguments are resolved. -/
theorem registrations_instruction (declared : Declared.Instruction) :
    (instruction declared).registrations read inside =
      (declared.args.flatMap fun f => f.type.texts read).flatMap inside := by
  simp [instruction, Conversion.instruction, field, registrations_type, List.flatMap_assoc]

/-- An interface registers what its texts do, one after another. -/
theorem registrations_convert (declared : Declared.Interface) :
    (convert declared).registrations read inside = (declared.texts read).flatMap inside := by
  have hnames : ∀ name, name ∈ ((definitions declared.types).value read).names ↔
      name ∈ declared.types.map (·.name) := by
    intro name
    simp [definitions, (Definitions.names_get?_ofList _).1, definition]
  have hnodup : ((definitions declared.types).value read).names.Nodup := by
    simpa [definitions] using Definitions.nodup_names_ofList _
  have haccounts := registrations_accounts read inside hnodup hnames declared.accounts
  simp only [convert, Script.registrations_do, Script.registrations_each,
    Script.registrations_pure, registrations_definitions, haccounts, registrations_instruction,
    Declared.Interface.texts, List.flatMap_append, List.flatMap_assoc, List.append_nil,
    List.append_assoc]

end Anchor

end Registrations

end CanonicalIdl
