import CanonicalIdl.Proofs.Interface.Rereading
import CanonicalIdl.Proofs.Normalization.Conversions
import CanonicalIdl.Proofs.Normalization.Lifting
import CanonicalIdl.Proofs.Text.Trimming

/-!
# Settled interfaces

A canonical interface is settled if its names are spelled as normalization spells them and if
the names in its trees are read as the references that they stand for.  Normalizing what a
settled interface declares gives it back: the trees are written out, no account has a type to
be lifted from, and every discriminator is declared.

Main results:

- Theorem `TypeTree.value_type_declared`: a tree that was written out is read as it was.
- Theorem `Anchor.normalize_declared`: normalization gives a settled interface back.
-/

namespace CanonicalIdl

open Declared (TypeExpr GenericArgument)

/-! ## Names and trees of an interface -/

/-- The names of named fields. -/
def Fields.names {τ : Type} : Fields τ → List String
  | .named fields => fields.map (·.name)
  | .tuple _ => []

/-- The names of the named fields of a variant. -/
def Variant.fieldNames {τ : Type} (variant : Variant τ) : List String :=
  match variant.fields with
  | some fields => fields.names
  | none => []

/-- The names of the named fields of a body. -/
def Body.fieldNames {τ : Type} : Body τ → List String
  | .struct fields => fields.names
  | .enum variants => variants.flatMap Variant.fieldNames
  | .aliasOf _ => []

mutual

/-- The names in an account item, at every depth. -/
def AccountItem.names : AccountItem → List String
  | .reference slot => [slot.name]
  | .collection name members => name :: AccountItem.namesOf members

/-- The names in some account items, at every depth. -/
def AccountItem.namesOf : List AccountItem → List String
  | [] => []
  | item :: rest => AccountItem.names item ++ AccountItem.namesOf rest

end

/-- The names of an instruction that are renamed: its own, and those of its arguments and
account items. -/
def Instruction.renamedNames (instruction : Instruction) : List String :=
  instruction.name :: instruction.args.map (·.name) ++ AccountItem.namesOf instruction.accounts

/-- All names of an interface that are renamed. -/
def Interface.renamedNames (interface : Interface) : List String :=
  interface.instructions.flatMap Instruction.renamedNames ++
    interface.accounts.flatMap (·.body.fieldNames) ++ interface.types.flatMap (·.body.fieldNames)

/-- All trees of an interface: those of arguments, accounts and types. -/
def Interface.trees (interface : Interface) : List TypeTree :=
  interface.instructions.flatMap (·.args.map (·.type)) ++
    interface.accounts.flatMap (·.body.types) ++ interface.types.flatMap (·.body.types)

/-- The names of all references of an interface. -/
def Interface.referenceNames (interface : Interface) : List String :=
  interface.trees.flatMap TypeTree.names

/-! ## Trees -/

namespace TypeTree

/-- A primitive or a reference that is read as what it is. -/
def NodeIsReread (read : List Char → TypeTree) : TypeTree → Prop
  | .primitive p => read p.spelling.toList = .primitive p
  | .reference name _ => read name.toList = .bare name
  | _ => True

/-- Every primitive and every reference in the tree is read as what it is. -/
def IsReread (read : List Char → TypeTree) (tree : TypeTree) : Prop :=
  ∀ node ∈ tree.walk, node.NodeIsReread read

/-- A tree is read back if its primitives and its names are. -/
theorem isReread_of_names {read : List Char → TypeTree} {tree : TypeTree}
    (hprimitive : ∀ p, .primitive p ∈ tree.walk → read p.spelling.toList = .primitive p)
    (hnames : ∀ name ∈ tree.names, read name.toList = .bare name) : tree.IsReread read := by
  intro node hnode
  cases node with
  | primitive p => exact hprimitive p hnode
  | reference name arguments =>
    exact hnames name (List.mem_filterMap.mpr ⟨_, hnode, rfl⟩)
  | _ => trivial

mutual

/-- A tree that was written out is read as it was. -/
theorem value_type_declared {read : List Char → TypeTree} : (tree : TypeTree) →
    tree.IsReread read → (Conversion.type tree.declared).value read = tree
  | .primitive p, h => h _ (.head _)
  | .option inner, h => by
    have hinner := value_type_declared inner fun node hnode => h node (.tail _ hnode)
    simp [declared, Conversion.type, hinner]
  | .vec inner, h => by
    have hinner := value_type_declared inner fun node hnode => h node (.tail _ hnode)
    simp [declared, Conversion.type, hinner]
  | .array element length, h => by
    have helement := value_type_declared element fun node hnode => h node (.tail _ hnode)
    simp [declared, Conversion.type, helement]
  | .tuple items, h => by
    have hitems := value_types_declared items fun node hnode => h node (.tail _ hnode)
    simp [declared, Conversion.type, hitems]
  | .hashMap key value, h => by
    have hkey := value_type_declared key fun node hnode =>
      h node (.tail _ (List.mem_append_left _ hnode))
    have hvalue := value_type_declared value fun node hnode =>
      h node (.tail _ (List.mem_append_right _ hnode))
    simp [declared, Conversion.type, hkey, hvalue]
  | .bTreeMap key value, h => by
    have hkey := value_type_declared key fun node hnode =>
      h node (.tail _ (List.mem_append_left _ hnode))
    have hvalue := value_type_declared value fun node hnode =>
      h node (.tail _ (List.mem_append_right _ hnode))
    simp [declared, Conversion.type, hkey, hvalue]
  | .reference name arguments, h => by
    have hname : read name.toList = .bare name := h _ (.head _)
    have harguments := value_arguments_declared arguments fun node hnode => h node (.tail _ hnode)
    cases arguments with
    | nil => simp [declared, declaredArguments, Conversion.type, hname]
    | cons argument rest =>
      simp only [declared, Conversion.type, Script.value_bind, Script.value_ask, hname]
      simp [isEmpty_declaredArguments, harguments]

/-- Items that are read back are converted to themselves. -/
theorem value_types_declared {read : List Char → TypeTree} : (items : List TypeTree) →
    (∀ node ∈ walkItems items, node.NodeIsReread read) →
    (Conversion.types (declaredItems items)).value read = items
  | [], _ => rfl
  | item :: rest, h => by
    have hitem := value_type_declared item fun node hnode =>
      h node (List.mem_append_left _ hnode)
    have hrest := value_types_declared rest fun node hnode =>
      h node (List.mem_append_right _ hnode)
    simp [declaredItems, Conversion.types, hitem, hrest]

theorem value_arguments_declared {read : List Char → TypeTree} : (items : List TypeTree) →
    (∀ node ∈ walkItems items, node.NodeIsReread read) →
    (Conversion.arguments (declaredArguments items)).value read = items
  | [], _ => rfl
  | item :: rest, h => by
    have hitem := value_type_declared item fun node hnode =>
      h node (List.mem_append_left _ hnode)
    have hrest := value_arguments_declared rest fun node hnode =>
      h node (List.mem_append_right _ hnode)
    simp [declaredArguments, Conversion.arguments, Conversion.argument, hitem, hrest]

end

end TypeTree

/-! ## Parts -/

/-- A list of which every item is kept is kept. -/
theorem map_eq_self {α : Type} {f : α → α} {items : List α} (h : ∀ item ∈ items, f item = item) :
    items.map f = items :=
  (List.map_congr_left h).trans (List.map_id' items)

section Parts

variable {rename : String → String} {read : List Char → TypeTree}

/-- A field whose name stays and whose tree is read back comes out as it was. -/
theorem value_field_declared {field : Field TypeTree} (hname : rename field.name = field.name)
    (htree : field.type.IsReread read) :
    (Conversion.field rename (field.map TypeTree.declared)).value read = field := by
  simp [Conversion.field, Field.map, TypeTree.value_type_declared _ htree, hname]

theorem value_eachField_declared {fields : List (Field TypeTree)}
    (hnames : ∀ name ∈ fields.map (·.name), rename name = name)
    (htrees : ∀ tree ∈ fields.map (·.type), tree.IsReread read) :
    (Script.each (Conversion.field rename) (fields.map (Field.map TypeTree.declared))).value read =
      fields := by
  rw [Script.value_each, List.map_map]
  exact map_eq_self fun field hfield => value_field_declared
    (hnames _ (List.mem_map_of_mem hfield)) (htrees _ (List.mem_map_of_mem hfield))

/-- So do fields. -/
theorem value_fields_declared {fields : Fields TypeTree}
    (hnames : ∀ name ∈ fields.names, rename name = name)
    (htrees : ∀ tree ∈ fields.types, tree.IsReread read) :
    (Conversion.fields rename (fields.map TypeTree.declared)).value read = fields := by
  cases fields with
  | named items =>
    simp only [Fields.map, Conversion.fields, Script.value_do, Script.value_pure,
      value_eachField_declared hnames htrees]
  | tuple items =>
    simp only [Fields.map, Conversion.fields, Script.value_do, Script.value_pure,
      Script.value_each, List.map_map]
    exact congrArg Fields.tuple
      (map_eq_self fun item hitem => TypeTree.value_type_declared item (htrees item hitem))

/-- So does a variant. -/
theorem value_variant_declared {variant : Variant TypeTree}
    (hnames : ∀ name ∈ variant.fieldNames, rename name = name)
    (htrees : ∀ tree ∈ variant.types, tree.IsReread read) :
    (Conversion.variant rename (variant.map TypeTree.declared)).value read = variant := by
  obtain ⟨name, fields⟩ := variant
  cases fields with
  | none => rfl
  | some fields =>
    simp [Conversion.variant, Variant.map, value_fields_declared hnames htrees]

/-- So does a body. -/
theorem value_body_declared {body : Body TypeTree}
    (hnames : ∀ name ∈ body.fieldNames, rename name = name)
    (htrees : ∀ tree ∈ body.types, tree.IsReread read) :
    (Conversion.body rename (body.map TypeTree.declared)).value read = body := by
  cases body with
  | struct fields => simp [Conversion.body, Body.map, value_fields_declared hnames htrees]
  | enum variants =>
    simp only [Conversion.body, Body.map, Script.value_do, Script.value_pure, Script.value_each,
      List.map_map]
    refine congrArg Body.enum (map_eq_self fun variant hvariant => value_variant_declared ?_ ?_)
    · exact fun name hname => hnames name (List.mem_flatMap.mpr ⟨variant, hvariant, hname⟩)
    · exact fun tree htree => htrees tree (List.mem_flatMap.mpr ⟨variant, hvariant, htree⟩)
  | aliasOf tree =>
    simp [Conversion.body, Body.map, TypeTree.value_type_declared tree (htrees tree (.head _))]

end Parts

mutual

/-- An item all of whose names stay is left as it was. -/
theorem AccountItem.rename_eq_self {f : String → String} : (item : AccountItem) →
    (∀ name ∈ item.names, f name = name) → item.rename f = item
  | .reference slot, h => by
    rw [AccountItem.rename, h slot.name (.head _)]
  | .collection name members, h => by
    rw [AccountItem.rename, h name (.head _),
      AccountItem.renameItems_eq_self members fun name hname => h name (.tail _ hname)]

theorem AccountItem.renameItems_eq_self {f : String → String} : (items : List AccountItem) →
    (∀ name ∈ AccountItem.namesOf items, f name = name) → AccountItem.renameItems f items = items
  | [], _ => rfl
  | item :: rest, h => by
    rw [AccountItem.renameItems,
      AccountItem.rename_eq_self item fun name hname => h name (List.mem_append_left _ hname),
      AccountItem.renameItems_eq_self rest fun name hname => h name (List.mem_append_right _ hname)]

end

/-! ## Interfaces -/

/-- An interface in which nothing is left to normalize. -/
structure Interface.IsSettled (interface : Interface) (read : List Char → TypeTree) : Prop where
  names : ∀ name ∈ interface.renamedNames, camelName name = name
  trees : ∀ tree ∈ interface.trees, tree.IsReread read
  instructionTags : ∀ instruction ∈ interface.instructions, instruction.discriminator.isSome = true
  accountTags : ∀ account ∈ interface.accounts, account.discriminator.isSome = true
  types : (interface.types.map (·.name)).Nodup
  lifted : ∀ account ∈ interface.accounts, account.name ∉ interface.types.map (·.name)

namespace Definitions

/-- A definition of another name is put at the end. -/
theorem put_of_not_mem {definition : Definition} {items : List Definition}
    (h : definition.name ∉ items.map (·.name)) : put definition items = items ++ [definition] := by
  induction items with
  | nil => rfl
  | cons first rest ih =>
    rw [List.map_cons, List.mem_cons, not_or] at h
    obtain ⟨hne, hrest⟩ := h
    rw [put, if_neg (Ne.symm hne), ih hrest, List.cons_append]

/-- Definitions of different names are put in as they stand. -/
theorem ofList_of_nodup {definitions : List Definition}
    (h : (definitions.map (·.name)).Nodup) : ofList definitions = ⟨definitions⟩ := by
  induction definitions using List.reverseRecOn with
  | nil => rfl
  | append_singleton front definition ih =>
    rw [List.map_append, List.map_singleton] at h
    have hfresh : definition.name ∉ front.map (·.name) :=
      fun hmem => List.disjoint_of_nodup_append h hmem (.head _)
    have hfront : front.foldl insert empty = ⟨front⟩ := ih (List.Nodup.of_append_left h)
    rw [ofList, List.foldl_append, hfront, List.foldl_cons, List.foldl_nil, insert,
      put_of_not_mem hfresh]

end Definitions

namespace Anchor

variable {read : List Char → TypeTree}

/-- A discriminator that is given is taken as it is. -/
theorem declaredDiscriminator?_bytes {discriminator : Option Discriminator}
    (h : discriminator.isSome = true) (default : Discriminator) :
    some ((declaredDiscriminator? (discriminator.map (·.bytes))).getD default) =
      discriminator := by
  cases discriminator with
  | none => cases h
  | some d => simp [declaredDiscriminator?]

/-- An instruction with a discriminator comes out as it was. -/
theorem value_instruction_declared {instruction : Instruction}
    (htag : instruction.discriminator.isSome = true)
    (hnames : ∀ name ∈ instruction.renamedNames, camelName name = name)
    (htrees : ∀ tree ∈ instruction.args.map (·.type), tree.IsReread read) :
    (Anchor.instruction instruction.declared).value read = instruction := by
  have hargs := @value_eachField_declared camelName read instruction.args
    (fun name hname => hnames name (.tail _ (List.mem_append_left _ hname))) htrees
  have hitems := AccountItem.renameItems_eq_self instruction.accounts
    fun name hname => hnames name (.tail _ (List.mem_append_right _ hname))
  simp only [Anchor.instruction, Conversion.instruction, Instruction.declared, Script.value_do,
    Script.value_pure, hargs, hitems, hnames instruction.name (.head _),
    declaredDiscriminator?_bytes htag]

/-- A definition comes out as it was. -/
theorem value_definition_declared {definition : Definition}
    (hnames : ∀ name ∈ definition.body.fieldNames, camelName name = name)
    (htrees : ∀ tree ∈ definition.body.types, tree.IsReread read) :
    (Conversion.definition camelName definition.declared).value read = definition := by
  simp only [Conversion.definition, Definition.declared, Script.value_do, Script.value_pure,
    value_body_declared hnames htrees]

/-- An account of which there is no type is given back. -/
theorem value_account_declared {types : Definitions} {account : Account}
    (htypes : types.get? account.name = none) (htag : account.discriminator.isSome = true)
    (hnames : ∀ name ∈ account.body.fieldNames, camelName name = name)
    (htrees : ∀ tree ∈ account.body.types, tree.IsReread read) :
    (Anchor.account types account.declared).value read = (account, types) := by
  have htypes' : types.get? account.declared.name = none := htypes
  have hbody : (Conversion.accountBody camelName account.declared).value read = account.body :=
    value_body_declared hnames htrees
  have haccount : accountOf account.declared account.body [] .empty = account := by
    obtain ⟨name, discriminator, docs, body, extra⟩ := account
    cases docs <;>
      simp [accountOf, Account.declared, declaredDiscriminator?_bytes htag, Json.Extra.merge_empty]
  simp only [Anchor.account, htypes', Script.value_do, Script.value_pure, hbody, haccount]

/-- Accounts that come out as they were leave the definitions alone. -/
theorem value_accounts_declared {types : Definitions} {items : List Account}
    (h : ∀ item ∈ items, (Anchor.account types item.declared).value read = (item, types)) :
    (accounts types (items.map Account.declared)).value read = (items, types) := by
  induction items with
  | nil => rfl
  | cons item rest ih =>
    obtain ⟨hitem, hrest⟩ := List.forall_mem_cons.mp h
    simp [accounts, hitem, ih hrest]

/-- What a settled interface declares is converted into it. -/
theorem value_convert_declared {interface : Interface} (h : interface.IsSettled read) :
    (convert interface.declared).value read =
      ⟨interface.accounts, interface.instructions, ⟨interface.types⟩⟩ := by
  have htypes : interface.declared.types.map
      (fun d => (Conversion.definition camelName d).value read) = interface.types := by
    rw [Interface.declared, List.map_map]
    refine map_eq_self fun definition hdefinition => value_definition_declared ?_ ?_
    · exact fun name hname => h.names name (List.mem_append_right _
        (List.mem_flatMap.mpr ⟨definition, hdefinition, hname⟩))
    · exact fun tree htree => h.trees tree (List.mem_append_right _
        (List.mem_flatMap.mpr ⟨definition, hdefinition, htree⟩))
  have haccounts := @value_accounts_declared read ⟨interface.types⟩ interface.accounts
    fun account haccount => value_account_declared
      (List.find?_eq_none.mpr fun definition hdefinition => by
        have hne : definition.name ≠ account.name := fun heq =>
          h.lifted account haccount (heq ▸ List.mem_map_of_mem hdefinition)
        simpa using hne)
      (h.accountTags account haccount)
      (fun name hname => h.names name (List.mem_append_left _ (List.mem_append_right _
        (List.mem_flatMap.mpr ⟨account, haccount, hname⟩))))
      (fun tree htree => h.trees tree (List.mem_append_left _ (List.mem_append_right _
        (List.mem_flatMap.mpr ⟨account, haccount, htree⟩))))
  have hinstructions : interface.declared.instructions.map
      (fun i => (Anchor.instruction i).value read) = interface.instructions := by
    rw [Interface.declared, List.map_map]
    refine map_eq_self fun instruction hinstruction => value_instruction_declared
      (h.instructionTags instruction hinstruction) ?_ ?_
    · exact fun name hname => h.names name (List.mem_append_left _ (List.mem_append_left _
        (List.mem_flatMap.mpr ⟨instruction, hinstruction, hname⟩)))
    · exact fun tree htree => h.trees tree (List.mem_append_left _ (List.mem_append_left _
        (List.mem_flatMap.mpr ⟨instruction, hinstruction, htree⟩)))
  rw [value_convert, htypes, Definitions.ofList_of_nodup h.types, hinstructions]
  rw [show interface.declared.accounts = interface.accounts.map Account.declared from rfl,
    haccounts]

/-- Under a configured chain nothing is registered while an interface is converted. -/
theorem registeredBy_eq_nil {chain : Chain} (h : chain.IsConfigured)
    (declared : Declared.Interface) : registeredBy chain declared = [] :=
  Script.IsSilent.registered_run (Chain.settles_resolve h) (isSilent_convert declared) .start

/-- Under a configured chain the types of an interface are those left of the declared ones. -/
theorem types_normalize_of_isConfigured {chain : Chain} (h : chain.IsConfigured)
    (declared : Declared.Interface) :
    (normalize chain declared).1.types =
      ((convert declared).value chain.read).types.toList := by
  rw [types_normalize, registeredBy_eq_nil h]
  exact List.append_nil _

theorem instructions_normalize (chain : Chain) (declared : Declared.Interface) :
    (normalize chain declared).1.instructions =
      ((convert declared).value chain.read).instructions := by
  rw [← Chain.run_start]
  rfl

/-- Normalization gives a settled interface back. -/
theorem normalize_declared {chain : Chain} (hchain : chain.IsConfigured) {interface : Interface}
    (h : interface.IsSettled chain.read) : (normalize chain interface.declared).1 = interface := by
  have hconvert := value_convert_declared h
  have haccounts : (normalize chain interface.declared).1.accounts = interface.accounts := by
    rw [accounts_normalize, hconvert]
  have htypes : (normalize chain interface.declared).1.types = interface.types := by
    rw [types_normalize_of_isConfigured hchain, hconvert]
  have hinstructions :
      (normalize chain interface.declared).1.instructions = interface.instructions := by
    rw [instructions_normalize, hconvert]
  calc (normalize chain interface.declared).1
      = { interface with
          instructions := (normalize chain interface.declared).1.instructions
          accounts := (normalize chain interface.declared).1.accounts
          types := (normalize chain interface.declared).1.types } := rfl
    _ = interface := by rw [haccounts, htypes, hinstructions]

end Anchor

end CanonicalIdl
