import CanonicalIdl.Proofs.Accounts.KeyNames
import CanonicalIdl.Proofs.Naming.SnakeCase
import CanonicalIdl.Proofs.Normalization.Results
import CanonicalIdl.Proofs.Normalization.TakenNames

/-!
# Names that stay distinct

The named fields of a struct or a variant make a list of names, and so do the arguments of an
instruction and the account items of each collection.  Normalization spells each list anew, name
by name.  So a list of different names in snake case stays one of different names.

Main results:

- Theorem `nameLists_value_body`: the lists of names in a converted body.
- Theorem `nameLists_value_instruction`: those of a converted instruction.
- Theorem `Anchor.mem_nameLists_normalize`: where the lists of names of a result come from.
- Theorem `Anchor.normalize_keeps_snakeCase_apart`: snake case names are not merged.
-/

namespace CanonicalIdl

open Declared (TypeExpr)

/-! ## Lists of names -/

/-- The lists of names of fields in a body, one for each struct or variant. -/
def Body.nameLists {τ : Type} : Body τ → List (List String)
  | .struct fields => [fields.names]
  | .enum variants => variants.map Variant.fieldNames
  | .aliasOf _ => []

/-- The lists of names of account items, the items themselves first. -/
def AccountItem.nameLists (items : List AccountItem) : List (List String) :=
  (AccountItem.itemLists items).map fun items => items.map AccountItem.name

/-- The lists of names in a declared instruction. -/
def Declared.Instruction.nameLists (declared : Declared.Instruction) : List (List String) :=
  declared.args.map (·.name) :: AccountItem.nameLists declared.accounts

/-- The lists of names in an instruction. -/
def Instruction.nameLists (instruction : Instruction) : List (List String) :=
  instruction.args.map (·.name) :: AccountItem.nameLists instruction.accounts

/-- The lists of names in a declared interface; an account without a body has the empty one. -/
def Declared.Interface.nameLists (declared : Declared.Interface) : List (List String) :=
  declared.instructions.flatMap Declared.Instruction.nameLists ++
    declared.accounts.flatMap (fun account => (account.body.getD .emptyStruct).nameLists) ++
    declared.types.flatMap (·.body.nameLists)

/-- The lists of names in an interface. -/
def Interface.nameLists (interface : Interface) : List (List String) :=
  interface.instructions.flatMap Instruction.nameLists ++
    interface.accounts.flatMap (·.body.nameLists) ++ interface.types.flatMap (·.body.nameLists)

/-! ## Renamed lists -/

namespace AccountItem

variable (f : String → String)

mutual

theorem memberLists_rename : (item : AccountItem) →
    (item.rename f).memberLists = item.memberLists.map (renameItems f)
  | .reference _ => rfl
  | .collection _ members => by
    rw [rename, memberLists, memberLists, List.map_cons, memberListsOf_renameItems members]

theorem memberListsOf_renameItems : (items : List AccountItem) →
    memberListsOf (renameItems f items) = (memberListsOf items).map (renameItems f)
  | [] => rfl
  | item :: rest => by
    rw [renameItems, memberListsOf, memberListsOf, List.map_append, memberLists_rename item,
      memberListsOf_renameItems rest]

end

theorem map_name_renameItems (items : List AccountItem) :
    (renameItems f items).map name = (items.map name).map f := by
  rw [renameItems_eq_map, List.map_map, List.map_map]
  exact List.map_congr_left fun item _ => name_rename f item

/-- Renaming account items renames each list of their names. -/
theorem nameLists_renameItems (items : List AccountItem) :
    nameLists (renameItems f items) = (nameLists items).map (List.map f) := by
  have hlists : itemLists (renameItems f items) = (itemLists items).map (renameItems f) := by
    rw [itemLists, itemLists, List.map_cons, memberListsOf_renameItems]
  rw [nameLists, nameLists, hlists, List.map_map, List.map_map]
  exact List.map_congr_left fun list _ => map_name_renameItems f list

end AccountItem

namespace Conversion

variable (rename : String → String) (read : List Char → TypeTree)

theorem map_name_value_fields (items : List (Field TypeExpr)) :
    (items.map fun item => (field rename item).value read).map (·.name) =
      (items.map (·.name)).map rename := by
  rw [List.map_map, List.map_map]
  exact List.map_congr_left fun item _ => by simp [field]

theorem names_value_fields (f : Fields TypeExpr) :
    ((fields rename f).value read).names = f.names.map rename := by
  cases f with
  | named items =>
    simp only [fields, Script.value_do, Script.value_each, Script.value_pure, Fields.names,
      map_name_value_fields]
  | tuple items =>
    simp only [fields, Script.value_do, Script.value_pure, Fields.names, List.map_nil]

theorem fieldNames_value_variant (v : Variant TypeExpr) :
    ((variant rename v).value read).fieldNames = v.fieldNames.map rename := by
  obtain ⟨name, content⟩ := v
  cases content with
  | none => rfl
  | some items =>
    simp only [variant, Script.value_do, Script.value_pure, Variant.fieldNames,
      names_value_fields]

/-- Converting a body renames each list of names in it. -/
theorem nameLists_value_body (b : Body TypeExpr) :
    ((body rename b).value read).nameLists = b.nameLists.map (List.map rename) := by
  cases b with
  | struct items =>
    simp only [body, Script.value_do, Script.value_pure, Body.nameLists, names_value_fields,
      List.map_cons, List.map_nil]
  | enum variants =>
    simp only [body, Script.value_do, Script.value_each, Script.value_pure, Body.nameLists,
      List.map_map]
    exact List.map_congr_left fun v _ => fieldNames_value_variant rename read v
  | aliasOf item =>
    simp only [body, Script.value_do, Script.value_pure, Body.nameLists, List.map_nil]

theorem nameLists_value_accountBody (account : Declared.Account) :
    ((accountBody rename account).value read).nameLists =
      (account.body.getD .emptyStruct).nameLists.map (List.map rename) := by
  unfold accountBody
  cases account.body with
  | none => rfl
  | some declared => exact nameLists_value_body rename read declared

/-- Converting an instruction renames each list of names in it. -/
theorem nameLists_value_instruction (discriminator : Option Discriminator)
    (i : Declared.Instruction) :
    ((instruction rename discriminator i).value read).nameLists =
      i.nameLists.map (List.map rename) := by
  rw [value_instruction, Instruction.nameLists, Declared.Instruction.nameLists, List.map_cons,
    map_name_value_fields, AccountItem.nameLists_renameItems]

end Conversion

/-! ## Interfaces -/

namespace Anchor

variable {chain : Chain} {raw : Declared.Interface}

/-- The names in a declared type are those in a type that is read. -/
theorem exists_nameList_of_mem_typesRead {definition : Definition}
    (h : definition ∈ typesRead chain.read raw) {names : List String}
    (hnames : names ∈ definition.body.nameLists) :
    ∃ declared ∈ raw.nameLists, declared.map camelName = names := by
  obtain ⟨d, hd, rfl⟩ := mem_typesRead h
  rw [Conversion.value_definition, Conversion.nameLists_value_body] at hnames
  obtain ⟨declared, hdeclared, hmap⟩ := List.mem_map.mp hnames
  exact ⟨declared, List.mem_append_right _ (List.mem_flatMap.mpr ⟨d, hd, hdeclared⟩), hmap⟩

theorem exists_nameList_of_mem_instructions {instruction : Instruction}
    (h : instruction ∈ (normalize chain raw).1.instructions) {names : List String}
    (hnames : names ∈ instruction.nameLists) :
    ∃ declared ∈ raw.nameLists, declared.map camelName = names := by
  obtain ⟨item, hitem, rfl⟩ := mem_instructions_normalize h
  rw [Anchor.instruction, Conversion.nameLists_value_instruction] at hnames
  obtain ⟨declared, hdeclared, hmap⟩ := List.mem_map.mp hnames
  exact ⟨declared, List.mem_append_left _ (List.mem_append_left _
    (List.mem_flatMap.mpr ⟨item, hitem, hdeclared⟩)), hmap⟩

/-- An account has the names of the type that it was lifted from, or those of its own body. -/
theorem exists_nameList_of_mem_accounts {account : Account}
    (h : account ∈ (normalize chain raw).1.accounts) {names : List String}
    (hnames : names ∈ account.body.nameLists) :
    ∃ declared ∈ raw.nameLists, declared.map camelName = names := by
  obtain ⟨item, hitem, ⟨definition, hdefinition, -, rfl⟩ | rfl⟩ := mem_accounts_normalize h
  · exact exists_nameList_of_mem_typesRead hdefinition hnames
  · rw [accountOf, Conversion.nameLists_value_accountBody] at hnames
    obtain ⟨declared, hdeclared, hmap⟩ := List.mem_map.mp hnames
    exact ⟨declared, List.mem_append_left _ (List.mem_append_right _
      (List.mem_flatMap.mpr ⟨item, hitem, hdeclared⟩)), hmap⟩

/-- A list of names of a result without the definitions that were registered on the way is a
declared one in canonical spelling. -/
theorem mem_nameLists_normalize {names : List String}
    (h : names ∈ { (normalize chain raw).1 with types := keptTypes chain raw }.nameLists) :
    ∃ declared ∈ raw.nameLists, declared.map camelName = names := by
  rcases List.mem_append.mp h with h | h
  · rcases List.mem_append.mp h with h | h
    · obtain ⟨instruction, hmem, hnames⟩ := List.mem_flatMap.mp h
      exact exists_nameList_of_mem_instructions hmem hnames
    · obtain ⟨account, hmem, hnames⟩ := List.mem_flatMap.mp h
      exact exists_nameList_of_mem_accounts hmem hnames
  · obtain ⟨definition, hmem, hnames⟩ := List.mem_flatMap.mp h
    exact exists_nameList_of_mem_typesRead (List.mem_of_mem_filter hmem) hnames

/-- A name in snake case is told from its canonical spelling, so no two have the same one.  A
result is made of lists of names that are declared ones in canonical spelling, and of definitions
that were registered on the way.  So where a declared list holds different names in snake case,
the names of its counterpart are different. -/
theorem normalize_keeps_snakeCase_apart :
    (∀ name : String, IsSnakeCase name.toList →
        splitHumps (camelName name).toList = name.toList) ∧
      (∀ name other : String, IsSnakeCase name.toList → IsSnakeCase other.toList →
        camelName name = camelName other → name = other) ∧
      ∀ (chain : Chain) (raw : Declared.Interface), ∃ appended,
        (normalize chain raw).1.types = keptTypes chain raw ++ appended ∧
          (∀ definition ∈ appended, definition ∈ registeredBy chain raw) ∧
          ∀ names ∈ { (normalize chain raw).1 with types := keptTypes chain raw }.nameLists,
            ∃ declared ∈ raw.nameLists, declared.map camelName = names ∧
              ((∀ name ∈ declared, IsSnakeCase name.toList) → declared.Nodup → names.Nodup) := by
  refine ⟨fun name => splitHumps_camelName, fun name other => camelName_inj, ?_⟩
  intro chain raw
  refine ⟨appendedTypes chain raw, types_normalize_eq_append chain raw,
    fun definition => mem_registeredBy_of_mem_appendedTypes, ?_⟩
  intro names hnames
  obtain ⟨declared, hdeclared, rfl⟩ := mem_nameLists_normalize hnames
  exact ⟨declared, hdeclared, rfl, nodup_map_camelName⟩

/-- A swap whose arguments and fields differ by underscores alone. -/
def swapInterface : Declared.Interface where
  address := none
  version := none
  name := none
  instructions := [{ swapInstruction with
    args := [⟨"amount_in", [], .named "u64"⟩, ⟨"amount__in", [], .named "u64"⟩,
      ⟨"_amount_in_", [], .named "u64"⟩] }]
  accounts := [⟨"Pool", none, [], none, .empty⟩]
  types := [.simple "Pool" (.enum [⟨"Empty", none⟩, ⟨"Filled", some (.named
    [⟨"v2_fee", [], .named "u8"⟩, ⟨"v2fee", [], .named "u8"⟩])⟩])]
  errors := []
  metadata := none
  extra := .empty

/-- Underscores alone tell the arguments of the swap apart, and normalization keeps each of its
lists free of repetitions. -/
theorem normalize_keeps_snakeCase_apart_swap :
    (IsSnakeCase "_amount_in_".toList ∧ camelName "_amount_in_" = "AmountIn_" ∧
        splitHumps (camelName "_amount_in_").toList = "_amount_in_".toList) ∧
      (IsSnakeCase "amount_in".toList ∧ IsSnakeCase "amount__in".toList ∧
        camelName "amount_in" ≠ camelName "amount__in") ∧
      (∀ declared ∈ swapInterface.nameLists,
        (∀ name ∈ declared, IsSnakeCase name.toList) ∧ declared.Nodup) ∧
      ∀ names ∈ (normalize Chain.standard swapInterface).1.nameLists, names.Nodup := by
  obtain ⟨hsplit, hinj, hlists⟩ := normalize_keeps_snakeCase_apart
  have hfirst : IsSnakeCase "amount_in".toList := by decide +kernel
  have hsecond : IsSnakeCase "amount__in".toList := by decide +kernel
  have hthird : IsSnakeCase "_amount_in_".toList := by decide +kernel
  have hdeclared : ∀ declared ∈ swapInterface.nameLists,
      (∀ name ∈ declared, IsSnakeCase name.toList) ∧ declared.Nodup := by
    decide +kernel
  refine ⟨⟨hthird, by decide +kernel, hsplit _ hthird⟩, ⟨hfirst, hsecond, ?_⟩, hdeclared, ?_⟩
  · intro heq
    exact absurd (hinj _ _ hfirst hsecond heq) (by decide)
  · intro names hnames
    obtain ⟨appended, htypes, hregistered, hkept⟩ := hlists Chain.standard swapInterface
    -- the standard chain registers nothing, so all types of the result are declared ones
    have hnone : registeredBy Chain.standard swapInterface = [] :=
      registeredBy_eq_nil ⟨rfl, fun _ h => absurd h List.not_mem_nil, rfl⟩ swapInterface
    rw [hnone] at hregistered
    rw [List.eq_nil_iff_forall_not_mem.mpr fun d hd => List.not_mem_nil (hregistered d hd),
      List.append_nil] at htypes
    rw [← htypes] at hkept
    obtain ⟨list, hlist, -, hnodup⟩ := hkept names hnames
    exact hnodup (hdeclared list hlist).1 (hdeclared list hlist).2

end Anchor

end CanonicalIdl
