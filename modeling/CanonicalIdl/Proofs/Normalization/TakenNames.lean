import CanonicalIdl.Proofs.Normalization.Lifting
import CanonicalIdl.Resolution.CallerRules

/-!
# Names that are taken

A definition that was registered on the way is put behind the types unless one of them has its
name.  This is looked at when the accounts have been lifted, and a type that an account was
lifted from is no type any more.  So its name is free again: a registered definition takes it,
and then it is the name of an account and of a type.  The names of all other declared types stay
their own.

Main results:

- Theorem `mem_names_types_normalize`: the names of the types of a result.
- Theorem `declaredName_appended_iff`: a registered definition takes the name of a declared type
  exactly if an account was lifted from that type.
-/

namespace CanonicalIdl

namespace Anchor

open Definitions

/-! ## Names of a result -/

theorem mem_names_filter {definitions : List Definition} {taken : List String} {name : String} :
    name ∈ (definitions.filter (·.name ∉ taken)).map (·.name) ↔
      name ∈ definitions.map (·.name) ∧ name ∉ taken := by
  constructor
  · intro h
    obtain ⟨definition, hdefinition, rfl⟩ := List.mem_map.mp h
    obtain ⟨hmem, hfree⟩ := List.mem_filter.mp hdefinition
    exact ⟨List.mem_map_of_mem hmem, of_decide_eq_true hfree⟩
  · rintro ⟨h, hfree⟩
    obtain ⟨definition, hmem, rfl⟩ := List.mem_map.mp h
    exact List.mem_map_of_mem (List.mem_filter.mpr ⟨hmem, decide_eq_true hfree⟩)

section Names

variable (read : List Char → TypeTree)

/-- The types that are read have the names of the declared ones. -/
theorem mem_names_typesRead {declared : Declared.Interface} {name : String} :
    name ∈ (typesRead read declared).map (·.name) ↔ name ∈ declared.types.map (·.name) := by
  have hnames : (declared.types.map fun d => (Conversion.definition camelName d).value read).map
      (·.name) = declared.types.map (·.name) := by
    rw [List.map_map]
    exact List.map_congr_left fun d _ => by simp [Conversion.definition]
  rw [typesRead, names_lastOfEach, List.mem_eraseDups, hnames]

theorem name_account (types : Definitions) (declared : Declared.Account) :
    ((account types declared).value read).1.name = declared.name := by
  unfold account
  split
  · rfl
  · simp [accountOf]

/-- The accounts keep their names. -/
theorem map_name_accounts (types : Definitions) (declared : List Declared.Account) :
    ((accounts types declared).value read).1.map (·.name) = declared.map (·.name) := by
  induction declared generalizing types with
  | nil => rfl
  | cons first rest ih => simp [accounts, name_account, ih]

end Names

section Result

variable (chain : Chain) (raw : Declared.Interface)

/-- The declared types of no account's name. -/
def keptTypes : List Definition :=
  (typesRead chain.read raw).filter (·.name ∉ raw.accounts.map (·.name))

/-- The registered definitions whose names are free once the accounts have been lifted. -/
def appendedTypes : List Definition :=
  (lastOfEach (registeredBy chain raw)).filter (·.name ∉ (keptTypes chain raw).map (·.name))

theorem types_normalize_eq_append :
    (normalize chain raw).1.types = keptTypes chain raw ++ appendedTypes chain raw := by
  rw [types_normalize, names, toList_types_convert]
  rfl

theorem map_name_accounts_normalize :
    (normalize chain raw).1.accounts.map (·.name) = raw.accounts.map (·.name) := by
  rw [accounts_normalize, value_convert]
  exact map_name_accounts chain.read _ raw.accounts

variable {chain raw} {name : String}

theorem mem_registeredBy_of_mem_appendedTypes {definition : Definition}
    (h : definition ∈ appendedTypes chain raw) : definition ∈ registeredBy chain raw :=
  mem_of_mem_lastOfEach (List.mem_of_mem_filter h)

theorem mem_names_keptTypes :
    name ∈ (keptTypes chain raw).map (·.name) ↔
      name ∈ raw.types.map (·.name) ∧ name ∉ raw.accounts.map (·.name) := by
  rw [keptTypes, mem_names_filter, mem_names_typesRead]

theorem mem_names_appendedTypes :
    name ∈ (appendedTypes chain raw).map (·.name) ↔
      name ∈ (registeredBy chain raw).map (·.name) ∧
        ¬ (name ∈ raw.types.map (·.name) ∧ name ∉ raw.accounts.map (·.name)) := by
  rw [appendedTypes, mem_names_filter, names_lastOfEach, List.mem_eraseDups, mem_names_keptTypes]

/-- The types of a result have the names of the declared types that no account was lifted from,
and those of the registered definitions. -/
theorem mem_names_types_normalize :
    name ∈ (normalize chain raw).1.types.map (·.name) ↔
      (name ∈ raw.types.map (·.name) ∧ name ∉ raw.accounts.map (·.name)) ∨
        name ∈ (registeredBy chain raw).map (·.name) := by
  rw [types_normalize_eq_append, List.map_append, List.mem_append, mem_names_keptTypes,
    mem_names_appendedTypes]
  constructor
  · exact Or.imp_right And.left
  · rintro (hkept | hregistered)
    · exact .inl hkept
    · by_cases hkept : name ∈ raw.types.map (·.name) ∧ name ∉ raw.accounts.map (·.name)
      · exact .inl hkept
      · exact .inr ⟨hregistered, hkept⟩

end Result

/-- Behind the declared types of no account's name stand registered definitions.  They take the
name of a declared type exactly if it is the name of an account and a definition was registered
under it, and this is also when it is the name of an account and of a type of the result. -/
theorem declaredName_appended_iff {settings : Settings} {declared raw : Declared.Interface}
    (hraw : settings.before declared = raw) (hafter : settings.after = id)
    (horigin : Generator.ofOrigin? raw.origin = some .anchor) :
    ∃ interface appended, (CanonicalIdl.normalize settings declared).result = .ok interface ∧
      interface.types = keptTypes settings.chain raw ++ appended ∧
      (∀ definition ∈ appended, definition ∈ registeredBy settings.chain raw) ∧
      ∀ name ∈ raw.types.map (·.name),
        (name ∈ appended.map (·.name) ↔
          name ∈ raw.accounts.map (·.name) ∧
            name ∈ (registeredBy settings.chain raw).map (·.name)) ∧
        (name ∈ interface.accounts.map (·.name) ∧ name ∈ interface.types.map (·.name) ↔
          name ∈ raw.accounts.map (·.name) ∧
            name ∈ (registeredBy settings.chain raw).map (·.name)) := by
  refine ⟨(normalize settings.chain raw).1, appendedTypes settings.chain raw, ?_,
    types_normalize_eq_append settings.chain raw,
    fun definition => mem_registeredBy_of_mem_appendedTypes, ?_⟩
  · simp [CanonicalIdl.normalize, hraw, horigin, normalizeBy, hafter]
  · intro name hname
    rw [mem_names_appendedTypes, map_name_accounts_normalize, mem_names_types_normalize]
    tauto

/-- A program whose account is named like the entries of its set of vaults, and has a type. -/
def vaultSet : Declared.Interface where
  address := none
  version := none
  name := none
  instructions := [{
    name := "fill", docs := [], accounts := [], args := [⟨"vaults", [], .named "VaultSet"⟩],
    discriminator := none, omitsMissing := false, extra := .empty }]
  accounts := [⟨"VaultEntry", none, [], none, .empty⟩]
  types := [.simple "VaultEntry" (.aliasOf (.named "u8")), .simple "DataItemEntry" .emptyStruct]
  errors := []
  metadata := none
  extra := .empty

/-- Sets define their entries. -/
def setSettings : Settings := { extensions := [.matcher Matcher.entrySet] }

/-- Of the two entries that are registered the one takes the name of the lifted type, and the
other leaves the name to the declared type. -/
theorem declaredName_appended_vaultSet :
    Generator.ofOrigin? vaultSet.origin = some .anchor ∧
      (registeredBy setSettings.chain vaultSet).map (·.name) = ["VaultEntry", "DataItemEntry"] ∧
      ∃ interface appended, (CanonicalIdl.normalize setSettings vaultSet).result = .ok interface ∧
        interface.types.map (·.name) = "DataItemEntry" :: appended ∧
        "VaultEntry" ∈ appended ∧ "DataItemEntry" ∉ appended := by
  have horigin : Generator.ofOrigin? vaultSet.origin = some .anchor := rfl
  have hregistered : (registeredBy setSettings.chain vaultSet).map (·.name) =
      ["VaultEntry", "DataItemEntry"] := by
    decide +kernel
  obtain ⟨interface, appended, hresult, htypes, -, hnames⟩ :=
    @declaredName_appended_iff setSettings vaultSet vaultSet rfl rfl horigin
  refine ⟨horigin, hregistered, interface, appended.map (·.name), hresult, ?_, ?_, ?_⟩
  · have hkept : (keptTypes setSettings.chain vaultSet).map (·.name) = ["DataItemEntry"] := by
      decide +kernel
    rw [htypes, List.map_append, hkept, List.singleton_append]
  · rw [(hnames "VaultEntry" (by decide)).1, hregistered]
    decide
  · rw [(hnames "DataItemEntry" (by decide)).1]
    decide

/-- A registered definition is put behind the types under the name of a declared type that the
account of that name was lifted from, without a warning. -/
theorem declaredName_appended_lifted :
    ∃ interface, (CanonicalIdl.normalize setSettings vaultSet).result = .ok interface ∧
      "VaultEntry" ∈ vaultSet.types.map (·.name) ∧
      "VaultEntry" ∈ interface.accounts.map (·.name) ∧
      "VaultEntry" ∈ interface.types.map (·.name) ∧
      (CanonicalIdl.normalize setSettings vaultSet).warnings =
        [.definitionSkipped "DataItemEntry"] := by
  refine ⟨(normalize setSettings.chain vaultSet).1, rfl, ?_, ?_, ?_, ?_⟩ <;> decide +kernel

end Anchor

end CanonicalIdl
