import CanonicalIdl.Proofs.Interface.Exactness
import CanonicalIdl.Proofs.Normalization.Settled

/-!
# What normalization comes to

Every account and every type of a normalized interface goes back to declared ones, so what
holds of the declared parts holds of the result: it can be written and read back, and its
numbers are exact.  Under a configured chain it is settled but for its names.

Main results:

- Theorem `mem_accounts`: where the accounts of a result come from.
- Theorem `isSettled_normalize`: a result with settled names is settled.
- Theorem `isReadable_normalize`: a result can be read back if no lifted type brings a member
  that an account knows.
- Theorem `holds_normalize`: what holds of all uninterpreted members holds of those of the
  result.
-/

namespace CanonicalIdl

open Json Document
open Declared (TypeExpr)

/-! ## Renamed items -/

mutual

theorem AccountItem.isReadable_rename {P : Document → Prop} (f : String → String) :
    (item : AccountItem) → item.IsReadable P → (item.rename f).IsReadable P
  | .reference _, h => h
  | .collection _ members, h => AccountItem.areReadable_renameItems f members h

theorem AccountItem.areReadable_renameItems {P : Document → Prop} (f : String → String) :
    (items : List AccountItem) → AccountItem.AreReadable P items →
    AccountItem.AreReadable P (AccountItem.renameItems f items)
  | [], _ => trivial
  | item :: rest, h =>
    ⟨AccountItem.isReadable_rename f item h.1, AccountItem.areReadable_renameItems f rest h.2⟩

end

mutual

/-- Renaming keeps what slots keep uninterpreted. -/
theorem AccountItem.extras_rename (f : String → String) : (item : AccountItem) →
    (item.rename f).extras = item.extras
  | .reference _ => rfl
  | .collection _ members => AccountItem.extrasOf_renameItems f members

theorem AccountItem.extrasOf_renameItems (f : String → String) : (items : List AccountItem) →
    AccountItem.extrasOf (AccountItem.renameItems f items) = AccountItem.extrasOf items
  | [] => rfl
  | item :: rest => by
    rw [AccountItem.renameItems, AccountItem.extrasOf, AccountItem.extrasOf,
      AccountItem.extras_rename f item, AccountItem.extrasOf_renameItems f rest]

end

namespace Anchor

/-! ## Where the parts come from -/

section Parts

variable {read : List Char → TypeTree}

/-- An account comes from a declared one, with the body of a type of its name or with its
own. -/
theorem mem_accounts {types : Definitions} {declared : List Declared.Account} {account : Account}
    (h : account ∈ ((accounts types declared).value read).1) :
    ∃ item ∈ declared,
      (∃ definition ∈ types.toList, definition.name = item.name ∧
        account = accountOf item definition.body definition.docs definition.extra) ∨
      account =
        accountOf item ((Conversion.accountBody camelName item).value read) [] .empty := by
  induction declared generalizing types with
  | nil => simp [accounts] at h
  | cons first rest ih =>
    have hvalue : ((accounts types (first :: rest)).value read).1 =
        ((Anchor.account types first).value read).1 ::
          ((accounts ((Anchor.account types first).value read).2 rest).value read).1 := by
      simp [accounts]
    rw [hvalue, List.mem_cons] at h
    rcases h with rfl | h
    · refine ⟨first, .head _, ?_⟩
      cases hget : types.get? first.name with
      | some definition =>
        refine .inl ⟨definition, List.mem_of_find?_eq_some hget, Definitions.name_of_get? hget, ?_⟩
        simp [Anchor.account, hget]
      | none => exact .inr (by simp [Anchor.account, hget])
    · obtain ⟨item, hitem, horigin⟩ := ih h
      refine ⟨item, .tail _ hitem, horigin.imp_left ?_⟩
      rintro ⟨definition, hdefinition, hrest⟩
      have hleft := @types_account read types first
      rw [hleft] at hdefinition
      exact ⟨definition, List.mem_of_mem_eraseP hdefinition, hrest⟩

/-- A type comes from a declared one. -/
theorem mem_typesRead {raw : Declared.Interface} {definition : Definition}
    (h : definition ∈ typesRead read raw) :
    ∃ d ∈ raw.types, definition = (Conversion.definition camelName d).value read := by
  obtain ⟨d, hd, rfl⟩ := List.mem_map.mp (Definitions.mem_of_mem_lastOfEach h)
  exact ⟨d, hd, rfl⟩

theorem body_of_mem_typesRead {raw : Declared.Interface} {P : Body TypeTree → Prop}
    (htypes : ∀ d ∈ raw.types, P ((Conversion.body camelName d.body).value read))
    {definition : Definition} (h : definition ∈ typesRead read raw) : P definition.body := by
  obtain ⟨d, hd, rfl⟩ := mem_typesRead h
  simpa [Conversion.definition] using htypes d hd

end Parts

section Results

variable {chain : Chain} {raw : Declared.Interface}

/-- An account of a result comes from a declared one, with the body of a declared type of its
name or with its own. -/
theorem mem_accounts_normalize {account : Account}
    (h : account ∈ (normalize chain raw).1.accounts) :
    ∃ item ∈ raw.accounts,
      (∃ definition ∈ typesRead chain.read raw, definition.name = item.name ∧
        account = accountOf item definition.body definition.docs definition.extra) ∨
      account =
        accountOf item ((Conversion.accountBody camelName item).value chain.read) [] .empty := by
  rw [accounts_normalize, value_convert] at h
  have horigin := mem_accounts h
  rwa [Definitions.toList_ofList] at horigin

/-- What holds of all converted bodies holds of the bodies of the accounts of a result. -/
theorem body_of_mem_accounts_normalize {P : Body TypeTree → Prop} (hempty : P .emptyStruct)
    (htypes : ∀ d ∈ raw.types, P ((Conversion.body camelName d.body).value chain.read))
    (haccounts : ∀ item ∈ raw.accounts, ∀ body ∈ item.body,
      P ((Conversion.body camelName body).value chain.read))
    {account : Account} (h : account ∈ (normalize chain raw).1.accounts) : P account.body := by
  obtain ⟨item, hitem, ⟨definition, hdefinition, -, rfl⟩ | rfl⟩ := mem_accounts_normalize h
  · exact body_of_mem_typesRead htypes hdefinition
  · change P ((Conversion.accountBody camelName item).value chain.read)
    cases hbody : item.body with
    | none => simpa [Conversion.accountBody, hbody] using hempty
    | some body => simpa [Conversion.accountBody, hbody] using haccounts item hitem body hbody

/-- An instruction of a result comes from a declared one. -/
theorem mem_instructions_normalize {instruction : Instruction}
    (h : instruction ∈ (normalize chain raw).1.instructions) :
    ∃ item ∈ raw.instructions, instruction = (Anchor.instruction item).value chain.read := by
  rw [instructions_normalize, value_convert] at h
  obtain ⟨item, hitem, rfl⟩ := List.mem_map.mp h
  exact ⟨item, hitem, rfl⟩

variable (hchain : chain.IsConfigured)

include hchain

/-- The types of a result are the declared ones of no account's name. -/
theorem types_normalize_eq_filter :
    (normalize chain raw).1.types =
      (typesRead chain.read raw).filter (·.name ∉ raw.accounts.map (·.name)) := by
  rw [types_normalize_of_isConfigured hchain, toList_types_convert]

/-! ## Settled results -/

theorem nodup_names_types_normalize : ((normalize chain raw).1.types.map (·.name)).Nodup := by
  have hread : ((typesRead chain.read raw).map (·.name)).Nodup := by
    rw [typesRead, ← Definitions.toList_ofList]
    exact Definitions.nodup_names_ofList _
  rw [types_normalize_eq_filter hchain]
  exact hread.sublist (List.filter_sublist.map _)

/-- The primitives in the trees of a result are settled. -/
theorem isSettled_of_mem_trees_normalize {tree : TypeTree}
    (h : tree ∈ (normalize chain raw).1.trees) : tree.IsSettled chain.table := by
  have hread : ∀ text, (chain.read text).IsSettled chain.table := fun text =>
    (Chain.settles_resolve hchain text).result .start
  have hbody : ∀ body : Body TypeExpr, ∀ tree ∈ ((Conversion.body camelName body).value
      chain.read).types, tree.IsSettled chain.table := by
    intro body
    rw [Conversion.types_value_body, List.forall_mem_map]
    exact fun type _ => Conversion.isSettled_value_type hread type
  simp only [Interface.trees, List.mem_append, List.mem_flatMap, List.mem_map] at h
  obtain (⟨instruction, hmem, field, hfield, rfl⟩ | ⟨account, hmem, htree⟩) |
    ⟨definition, hmem, htree⟩ := h
  · obtain ⟨item, -, rfl⟩ := mem_instructions_normalize hmem
    rw [Anchor.instruction, Conversion.value_instruction] at hfield
    obtain ⟨declared, -, rfl⟩ := List.mem_map.mp hfield
    simpa [Conversion.field] using Conversion.isSettled_value_type hread declared.type
  · exact body_of_mem_accounts_normalize
      (P := fun body => ∀ tree ∈ body.types, tree.IsSettled chain.table)
      (by simp [Body.emptyStruct, Body.types, Fields.types]) (fun d _ => hbody d.body)
      (fun _ _ body _ => hbody body) hmem tree htree
  · rw [types_normalize_eq_filter hchain] at hmem
    exact body_of_mem_typesRead (P := fun body => ∀ tree ∈ body.types, tree.IsSettled chain.table)
      (fun d _ => hbody d.body) (List.mem_of_mem_filter hmem) tree htree

omit hchain in
/-- The spelling of a primitive is read as what the table says. -/
theorem read_spelling (chain : Chain) (p : Primitive) :
    chain.read p.spelling.toList = chain.table.tree p := by
  have hword : chain.table.lookup? (Text.trim p.spelling.toList) = some (chain.table.tree p) := by
    have hblanks : Primitive.ofWord? (Text.trim p.spelling.toList) =
        Primitive.ofWord? p.spelling.toList := by
      rw [Primitive.ofWord?, Text.trim_trim, Primitive.ofWord?]
    rw [PrimitiveWords.lookup?, hblanks, Primitive.ofWord?_spelling, Option.map_some]
  exact congrArg Prod.fst (Chain.resolveWithin_of_lookup hword)

/-- A result is settled if its names are. -/
theorem isSettled_normalize
    (hnames : ∀ name ∈ (normalize chain raw).1.renamedNames, camelName name = name)
    (hreferences : ∀ name ∈ (normalize chain raw).1.referenceNames,
      chain.read name.toList = .bare name) :
    (normalize chain raw).1.IsSettled chain.read where
  names := hnames
  trees tree htree := by
    refine TypeTree.isReread_of_names (fun p hp => ?_) fun name hname => ?_
    · rw [read_spelling, isSettled_of_mem_trees_normalize hchain htree p hp]
    · exact hreferences name (List.mem_flatMap.mpr ⟨tree, htree, hname⟩)
  instructionTags instruction hmem := by
    obtain ⟨item, -, rfl⟩ := mem_instructions_normalize hmem
    simp [Anchor.instruction, Conversion.instruction]
  accountTags account hmem := by
    obtain ⟨item, -, ⟨definition, -, -, rfl⟩ | rfl⟩ := mem_accounts_normalize hmem <;> rfl
  types := nodup_names_types_normalize hchain
  lifted account hmem htypes := by
    obtain ⟨item, hitem, horigin⟩ := mem_accounts_normalize hmem
    have hname : account.name = item.name := by
      obtain ⟨definition, -, -, rfl⟩ | rfl := horigin <;> rfl
    obtain ⟨definition, hdefinition, heq⟩ := List.mem_map.mp htypes
    rw [types_normalize_eq_filter hchain, List.mem_filter] at hdefinition
    have hnot := of_decide_eq_true hdefinition.2
    exact hnot (heq.trans hname ▸ List.mem_map_of_mem hitem)

/-! ## Readable results -/

/-- No type that an account is lifted from has an uninterpreted member that an account would
take for its discriminator. -/
def LiftsNoDiscriminator (read : List Char → TypeTree) (raw : Declared.Interface) : Prop :=
  ∀ definition ∈ typesRead read raw, definition.name ∈ raw.accounts.map (·.name) →
    definition.extra.get? "discriminator" = none

instance (read : List Char → TypeTree) (raw : Declared.Interface) :
    Decidable (LiftsNoDiscriminator read raw) :=
  inferInstanceAs (Decidable (∀ definition ∈ typesRead read raw,
    definition.name ∈ raw.accounts.map (·.name) → definition.extra.get? "discriminator" = none))

/-- The keys that both a type definition and an account know. -/
def sharedKeys : List String := ["name", "docs", "type"]

omit hchain in
theorem keeps_accountKeys {P : Document → Prop} {extra : Extra} (h : extra.Keeps P sharedKeys)
    (hnone : extra.get? "discriminator" = none) : extra.Keeps P Declared.accountKeys := by
  rintro ⟨key, value⟩ hmember
  obtain ⟨hkey, hparts⟩ := h _ hmember
  have hne : key ≠ "discriminator" := by
    rintro rfl
    simpa using List.lookup_eq_none_iff.mp hnone _ hmember
  refine ⟨?_, hparts⟩
  simp only [sharedKeys, Declared.accountKeys, List.mem_cons, List.not_mem_nil, or_false,
    not_or] at hkey ⊢
  exact ⟨hkey.1, hne, hkey.2.1, hkey.2.2⟩

section Parts

variable {P : Document → Prop} {Q : Declared.Instruction → Prop} (hraw : raw.HasParts P Q)

include hraw

omit hchain in
theorem keeps_extra_of_mem_typesRead {definition : Definition}
    (h : definition ∈ typesRead chain.read raw) :
    definition.extra.Keeps P Declared.definitionKeys := by
  obtain ⟨d, hd, rfl⟩ := mem_typesRead h
  rw [Conversion.value_definition]
  exact (hraw.types d hd).extra

omit hchain in
/-- An account of a result keeps no member that both a type and an account know. -/
theorem keeps_extra_of_mem_accounts_normalize {account : Account}
    (h : account ∈ (normalize chain raw).1.accounts) : account.extra.Keeps P sharedKeys := by
  obtain ⟨item, hitem, ⟨definition, hdefinition, -, rfl⟩ | rfl⟩ := mem_accounts_normalize h
  · exact ((keeps_extra_of_mem_typesRead hraw hdefinition).of_subset (by decide)).merge
      ((hraw.accounts item hitem).extra.of_subset (by decide))
  · exact Extra.keeps_empty.merge ((hraw.accounts item hitem).extra.of_subset (by decide))

omit hchain in
/-- An account that is lifted from a type without a member for a discriminator has none. -/
theorem get?_discriminator_of_liftsNoDiscriminator
    (hlifted : LiftsNoDiscriminator chain.read raw) {account : Account}
    (h : account ∈ (normalize chain raw).1.accounts) :
    account.extra.get? "discriminator" = none := by
  have hown : ∀ item ∈ raw.accounts, item.extra.get? "discriminator" = none :=
    fun item hitem => (hraw.accounts item hitem).extra.get?_eq_none (by decide)
  obtain ⟨item, hitem, ⟨definition, hdefinition, hname, rfl⟩ | rfl⟩ := mem_accounts_normalize h
  · have hnone := hlifted definition hdefinition (hname ▸ List.mem_map_of_mem hitem)
    change (definition.extra.merge item.extra).get? "discriminator" = none
    rw [Extra.get?_merge, hown item hitem, hnone]
    rfl
  · change (Extra.empty.merge item.extra).get? "discriminator" = none
    rw [Extra.merge_empty, hown item hitem]

/-- A result has readable parts if its accounts keep no member for a discriminator. -/
theorem hasParts_normalize
    (hQ : ∀ item, Q item → Q ((Anchor.instruction item).value chain.read).declared)
    (hnone : ∀ account ∈ (normalize chain raw).1.accounts,
      account.extra.get? "discriminator" = none) :
    (normalize chain raw).1.declared.HasParts P Q where
  instructions := by
    simp only [Interface.declared, List.forall_mem_map]
    intro instruction hmem
    obtain ⟨item, hitem, rfl⟩ := mem_instructions_normalize hmem
    exact hQ item (hraw.instructions item hitem)
  accounts := by
    simp only [Interface.declared, List.forall_mem_map]
    intro account hmem
    refine ⟨fun body hbody => ?_, keeps_accountKeys
      (keeps_extra_of_mem_accounts_normalize hraw hmem) (hnone account hmem)⟩
    obtain rfl := Option.some.inj hbody
    exact Body.isReadable_map (body_of_mem_accounts_normalize (P := Body.IsReadable) trivial
      (fun d hd => Conversion.isReadable_value_body camelName chain.read (hraw.types d hd).body)
      (fun item hitem body hbody => Conversion.isReadable_value_body camelName chain.read
        ((hraw.accounts item hitem).body body hbody)) hmem)
  types := by
    simp only [Interface.declared, List.forall_mem_map]
    intro definition hmem
    rw [types_normalize_eq_filter hchain] at hmem
    have hread := List.mem_of_mem_filter hmem
    exact ⟨Body.isReadable_map (body_of_mem_typesRead (P := Body.IsReadable)
      (fun d hd => Conversion.isReadable_value_body camelName chain.read (hraw.types d hd).body)
      hread), keeps_extra_of_mem_typesRead hraw hread⟩
  metadata := hraw.metadata
  extra := hraw.extra

end Parts

omit hchain in
theorem isReadable_instruction {P : Document → Prop} {item : Declared.Instruction}
    (h : item.IsReadable P) :
    ((Anchor.instruction item).value chain.read).declared.IsReadable P := by
  rw [Anchor.instruction, Conversion.value_instruction]
  exact ⟨AccountItem.areReadable_iff.mp (AccountItem.areReadable_renameItems camelName
    item.accounts (AccountItem.areReadable_iff.mpr h.accounts)), h.extra⟩

/-- A result can be read back if no lifted type brings a member that an account knows. -/
theorem isReadable_normalize {P : Document → Prop} (hraw : raw.IsReadable P)
    (hlifted : LiftsNoDiscriminator chain.read raw) :
    (normalize chain raw).1.declared.IsReadable P :=
  hasParts_normalize hchain hraw (fun _ => isReadable_instruction)
    fun _ => get?_discriminator_of_liftsNoDiscriminator hraw hlifted

omit hchain in
theorem isAcceptable_instruction {P : Document → Prop} {item : Declared.Instruction}
    (h : item.IsAcceptable P) :
    ((Anchor.instruction item).value chain.read).declared.IsAcceptable P := by
  rw [Anchor.instruction, Conversion.value_instruction]
  exact ⟨(AccountItem.extrasOf_renameItems camelName item.accounts).symm ▸ h.slots, h.extra⟩

/-- A result can be read if its accounts keep no member for a discriminator. -/
theorem isAcceptable_normalize {P : Document → Prop} (hraw : raw.IsAcceptable P)
    (hnone : ∀ account ∈ (normalize chain raw).1.accounts,
      account.extra.get? "discriminator" = none) :
    (normalize chain raw).1.declared.IsAcceptable P :=
  hasParts_normalize hchain hraw (fun _ => isAcceptable_instruction) hnone

/-- What holds of all that an interface keeps uninterpreted holds of what the result keeps. -/
theorem holds_normalize {P : Document → Prop} (h : ∀ extra ∈ raw.extras, extra.Holds P) :
    ∀ extra ∈ (normalize chain raw).1.declared.extras, extra.Holds P := by
  simp only [Declared.Interface.extras, List.forall_mem_cons, List.forall_mem_append,
    List.forall_mem_map, List.forall_mem_flatMap, Option.mem_toList] at h
  obtain ⟨hextra, ⟨⟨hmetadata, hinstructions⟩, haccounts⟩, htypes⟩ := h
  have htype : ∀ definition ∈ typesRead chain.read raw, definition.extra.Holds P := by
    intro definition hmem
    obtain ⟨d, hd, rfl⟩ := mem_typesRead hmem
    rw [Conversion.value_definition]
    exact htypes d hd
  simp only [Declared.Interface.extras, Interface.declared, List.forall_mem_cons,
    List.forall_mem_append, List.forall_mem_map, List.forall_mem_flatMap, Option.mem_toList]
  refine ⟨hextra, ⟨⟨hmetadata, fun instruction hmem => ?_⟩, fun account hmem => ?_⟩,
    fun definition hmem => ?_⟩
  · obtain ⟨item, hitem, rfl⟩ := mem_instructions_normalize hmem
    have hitems := hinstructions item hitem
    rw [Anchor.instruction, Conversion.value_instruction]
    rwa [Declared.Instruction.extras, ← AccountItem.extrasOf_renameItems camelName] at hitems
  · obtain ⟨item, hitem, ⟨definition, hdefinition, -, rfl⟩ | rfl⟩ := mem_accounts_normalize hmem
    · exact (htype definition hdefinition).merge (haccounts item hitem)
    · exact Extra.holds_empty.merge (haccounts item hitem)
  · rw [types_normalize_eq_filter hchain] at hmem
    exact htype definition (List.mem_of_mem_filter hmem)

end Results

end Anchor

end CanonicalIdl
