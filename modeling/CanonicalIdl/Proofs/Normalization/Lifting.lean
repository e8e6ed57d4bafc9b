import CanonicalIdl.Normalization.Outcome
import CanonicalIdl.Proofs.Json.Members
import CanonicalIdl.Proofs.Normalization.Conversions
import CanonicalIdl.Proofs.Normalization.Occurrences
import CanonicalIdl.Resolution.CallerRules

/-!
# Lifting accounts

An account takes the body of the type of its name, and the type is gone.  So the first of
several accounts of a name takes the type and the others stand alone, and the types that are
left are those of no account's name.  Of several types of a name the last one counts, at the
place of the first.  Behind the types come the definitions that the texts of the interface
register, again the last one of each name, under names that are not taken.

Main results:

- Theorem `toList_types_accounts`: what is left of the types after some accounts.
- Theorem `getElem?_accounts`: each account is lifted from what those before it have left.
- Theorem `registeredBy_eq_flatMap`: what is registered is told by the texts of the interface.
- Theorem `Anchor.normalize_lifts`: the accounts and types of a normalized interface.
-/

namespace CanonicalIdl

theorem Definitions.contains_eq_decide (definitions : Definitions) (name : String) :
    definitions.contains name = decide (name ∈ definitions.names) := by
  rw [Bool.eq_iff_iff, contains, names, List.any_eq_true, decide_eq_true_eq, List.mem_map]
  simp only [beq_iff_eq]

namespace Anchor

open Definitions

/-! ## What a chain makes of the parts -/

section Reading

variable (read : List Char → TypeTree)

/-- The body of a type or an account in canonical form. -/
def bodyRead (body : Body Declared.TypeExpr) : Body TypeTree :=
  (body.renamed camelName).map fun t => (Conversion.type t).value read

/-- A declared type in canonical form: only its body is another one. -/
def definitionRead (declared : Declared.Definition) : Definition where
  name := declared.name
  docs := declared.docs
  generics := declared.generics
  body := bodyRead read declared.body
  extra := declared.extra

/-- The declared types as `read` reads them: the last definition of each name, in the order in
which the names first come. -/
def typesRead (declared : Declared.Interface) : List Definition :=
  lastOfEach (declared.types.map fun d => (Conversion.definition camelName d).value read)

/-- An account that was lifted from a declared type. -/
structure LiftedFrom (source : Declared.Definition) (declared : Declared.Account)
    (account : Account) : Prop where
  name : account.name = declared.name
  body : account.body = bodyRead read source.body
  docs : account.docs = if declared.docs = [] then source.docs else declared.docs
  extra : ∀ key, account.extra.get? key = (declared.extra.get? key).or (source.extra.get? key)

/-- An account with its own body, or the empty struct. -/
structure StandsAlone (declared : Declared.Account) (account : Account) : Prop where
  name : account.name = declared.name
  body : account.body = (declared.body.map (bodyRead read)).getD .emptyStruct
  docs : account.docs = declared.docs
  extra : account.extra = declared.extra

theorem value_definition_eq (declared : Declared.Definition) :
    (Conversion.definition camelName declared).value read = definitionRead read declared := by
  simp [Conversion.definition, Conversion.value_body, definitionRead, bodyRead]

/-- The types that are read are the last declared ones of each name, each read by itself. -/
theorem typesRead_eq_map (declared : Declared.Interface) :
    typesRead read declared = (lastOfEach declared.types).map (definitionRead read) := by
  rw [typesRead, ← lastOfEach_map (f := definitionRead read) fun _ => rfl]
  exact congrArg lastOfEach (List.map_congr_left fun d _ => value_definition_eq read d)

theorem value_definitions (declared : List Declared.Definition) :
    (definitions declared).value read =
      .ofList (declared.map fun d => (Conversion.definition camelName d).value read) := by
  simp [definitions]

/-- An account is lifted if there is a type of its name. -/
theorem liftedFrom_account {types : Definitions} {declared : Declared.Account}
    {source : Declared.Definition}
    (h : types.get? declared.name = some (definitionRead read source)) :
    LiftedFrom read source declared ((account types declared).value read).1 := by
  simp only [account, h, Script.value_pure]
  refine ⟨rfl, rfl, ?_, Json.Extra.get?_merge _ _⟩
  simp only [accountOf, definitionRead, List.isEmpty_iff]

/-- It stands alone if there is none. -/
theorem standsAlone_account {types : Definitions} {declared : Declared.Account}
    (h : types.get? declared.name = none) :
    StandsAlone read declared ((account types declared).value read).1 := by
  simp only [account, h, Script.value_do, Script.value_pure]
  refine ⟨rfl, ?_, ?_, Json.Extra.merge_empty _⟩
  · rw [accountOf, Conversion.accountBody]
    cases declared.body with
    | none => rfl
    | some body => exact Conversion.value_body camelName read body
  · rw [accountOf]
    cases declared.docs <;> rfl

/-- The types left by an account. -/
theorem types_account {types : Definitions} (declared : Declared.Account) :
    ((account types declared).value read).2.toList = (types.erase declared.name).toList := by
  cases hget : types.get? declared.name with
  | some definition => simp [account, hget]
  | none =>
    simp only [account, hget, Script.value_do, Script.value_pure]
    exact (List.eraseP_of_forall_not fun definition hdefinition =>
      List.find?_eq_none.mp hget definition hdefinition).symm

/-! ## All accounts -/

/-- Accounts behind others are lifted from the types that these have left. -/
theorem accounts_append (types : Definitions) (front back : List Declared.Account) :
    (accounts types (front ++ back)).value read =
      (((accounts types front).value read).1 ++
          ((accounts ((accounts types front).value read).2 back).value read).1,
        ((accounts ((accounts types front).value read).2 back).value read).2) := by
  induction front generalizing types with
  | nil => simp [accounts]
  | cons first rest ih => simp [accounts, ih]

theorem length_value_accounts (types : Definitions) (declared : List Declared.Account) :
    ((accounts types declared).value read).1.length = declared.length := by
  induction declared generalizing types with
  | nil => rfl
  | cons first rest ih => simp [accounts, ih]

/-- What is left of the types after some accounts: those of no account's name. -/
theorem toList_types_accounts {types : Definitions} (h : types.names.Nodup)
    (declared : List Declared.Account) :
    ((accounts types declared).value read).2.toList =
      types.toList.filter (·.name ∉ declared.map (·.name)) := by
  induction declared generalizing types with
  | nil => simp [accounts]
  | cons first rest ih =>
    have hleft : ((account types first).value read).2 = types.erase first.name :=
      congrArg Definitions.mk (types_account read first)
    have hstep : ((accounts types (first :: rest)).value read).2 =
        ((accounts (types.erase first.name) rest).value read).2 := by
      simp [accounts, hleft]
    rw [hstep, ih (nodup_names_erase first.name h), toList_erase h, List.filter_filter]
    refine List.filter_congr fun definition _ => ?_
    simp [Bool.and_comm, not_or]

/-- Each account is lifted from what those before it have left. -/
theorem getElem?_accounts (types : Definitions) (front back : List Declared.Account)
    (declared : Declared.Account) :
    ((accounts types (front ++ declared :: back)).value read).1[front.length]? =
      some ((account ((accounts types front).value read).2 declared).value read).1 := by
  have hfront := length_value_accounts read types front
  rw [accounts_append]
  dsimp only
  rw [List.getElem?_append_right (Nat.le_of_eq hfront), hfront, Nat.sub_self]
  simp [accounts]

/-- What those before it have left is found by an account unless one of them has its name. -/
theorem get?_types_accounts {types : Definitions} (h : types.names.Nodup)
    (declared : List Declared.Account) (name : String) :
    ((accounts types declared).value read).2.get? name =
      if name ∈ declared.map (·.name) then none else types.get? name := by
  rw [get?, toList_types_accounts read h, List.find?_filter]
  split
  · next hmem =>
    apply List.find?_eq_none.mpr
    intro definition _
    simp only [decide_eq_true_eq, beq_iff_eq, not_and]
    rintro hnot rfl
    exact hnot hmem
  · next hmem =>
    rw [get?]
    congr 1
    funext definition
    by_cases hname : definition.name = name
    · simpa [hname] using hmem
    · simp [hname]

end Reading

/-! ## The interface -/

/-- The definitions that are registered while an interface is converted, in order. -/
def registeredBy (chain : Chain) (declared : Declared.Interface) : List Definition :=
  ((convert declared).run chain.resolve .start).2.registered

/-- What is registered is what the scripts of the rules say about the texts of the interface, one
after another. -/
theorem registeredBy_eq_flatMap (chain : Chain) (declared : Declared.Interface) :
    registeredBy chain declared =
      (declared.texts chain.read).flatMap chain.registrations :=
  (chain.registered_run (convert declared)).trans
    (registrations_convert chain.read chain.registrations declared)

theorem value_convert (read : List Char → TypeTree) (declared : Declared.Interface) :
    (convert declared).value read =
      { accounts := ((accounts (.ofList (declared.types.map fun d =>
          (Conversion.definition camelName d).value read)) declared.accounts).value read).1
        instructions := declared.instructions.map fun i => (instruction i).value read
        types := ((accounts (.ofList (declared.types.map fun d =>
          (Conversion.definition camelName d).value read)) declared.accounts).value read).2 } := by
  simp [convert, value_definitions]

theorem accounts_normalize (chain : Chain) (declared : Declared.Interface) :
    (normalize chain declared).1.accounts = ((convert declared).value chain.read).accounts := by
  rw [← Chain.run_start]
  rfl

/-- Behind the types that are left stand the registered ones of other names. -/
theorem types_normalize (chain : Chain) (declared : Declared.Interface) :
    (normalize chain declared).1.types =
      ((convert declared).value chain.read).types.toList ++
        (lastOfEach (registeredBy chain declared)).filter
          (·.name ∉ ((convert declared).value chain.read).types.names) := by
  rw [← Chain.run_start, ← toList_ofList]
  simp only [normalize]
  congr 1
  refine List.filter_congr fun definition _ => ?_
  rw [contains_eq_decide]
  simp

/-- The types that are left are the declared ones of no account's name. -/
theorem toList_types_convert (read : List Char → TypeTree) (declared : Declared.Interface) :
    ((convert declared).value read).types.toList =
      (typesRead read declared).filter (·.name ∉ declared.accounts.map (·.name)) := by
  rw [value_convert, toList_types_accounts read (nodup_names_ofList _), toList_ofList]
  rfl

/-- The accounts and types of a normalized interface.  Of several types of a name the last one
counts.  The first account that has its name is lifted from it and every other one stands alone.
The types are those of no account's name, and behind them the last one of each name that is not
taken of the definitions that the texts of the interface register. -/
theorem normalize_lifts {settings : Settings} {declared raw : Declared.Interface}
    (hraw : settings.before declared = raw) (hafter : settings.after = id)
    (horigin : Generator.ofOrigin? raw.origin = some .anchor) :
    ∃ interface, (CanonicalIdl.normalize settings declared).result = .ok interface ∧
      interface.accounts.length = raw.accounts.length ∧
      (∀ front item back, raw.accounts = front ++ item :: back →
        ∃ result, interface.accounts[front.length]? = some result ∧
          (∀ source ∈ lastOfEach raw.types, source.name = item.name →
            item.name ∉ front.map (·.name) →
            LiftedFrom settings.chain.read source item result) ∧
          (item.name ∈ front.map (·.name) ∨ item.name ∉ raw.types.map (·.name) →
            StandsAlone settings.chain.read item result)) ∧
      ∃ kept, kept = ((lastOfEach raw.types).filter
            (·.name ∉ raw.accounts.map (·.name))).map (definitionRead settings.chain.read) ∧
        interface.types = kept ++
          (lastOfEach ((raw.texts settings.chain.read).flatMap settings.chain.registrations)).filter
            (·.name ∉ kept.map (·.name)) := by
  let read := settings.chain.read
  let types : Definitions := .ofList (raw.types.map fun d =>
    (Conversion.definition camelName d).value read)
  have hnodup : types.names.Nodup := nodup_names_ofList _
  have htypes : types.toList = (lastOfEach raw.types).map (definitionRead read) :=
    (toList_ofList _).trans (typesRead_eq_map read raw)
  refine ⟨(normalize settings.chain raw).1, ?_, ?_, ?_, ?_⟩
  · simp [CanonicalIdl.normalize, hraw, horigin, normalizeBy, hafter]
  · rw [accounts_normalize, value_convert]
    exact length_value_accounts read types raw.accounts
  · intro front item back hsplit
    refine ⟨((account ((accounts types front).value read).2 item).value read).1, ?_, ?_, ?_⟩
    · rw [accounts_normalize, value_convert, hsplit]
      exact getElem?_accounts read types front back item
    · intro source hsource hname hfirst
      apply liftedFrom_account
      rw [get?_types_accounts read hnodup, if_neg hfirst, ← hname]
      exact get?_of_mem hnodup (htypes ▸ List.mem_map_of_mem hsource)
    · intro hnone
      apply standsAlone_account
      rw [get?_types_accounts read hnodup]
      split
      · rfl
      · next hfirst =>
        apply List.find?_eq_none.mpr
        intro definition hdefinition
        obtain ⟨source, hsource, rfl⟩ := List.mem_map.mp (htypes ▸ hdefinition)
        rw [beq_iff_eq]
        rintro hname
        exact hnone.resolve_left hfirst
          (hname ▸ List.mem_map_of_mem (mem_of_mem_lastOfEach hsource))
  · have hkept := toList_types_accounts read hnodup raw.accounts
    rw [htypes, List.filter_map] at hkept
    refine ⟨_, rfl, ?_⟩
    rw [types_normalize, value_convert, names, hkept, registeredBy_eq_flatMap]
    rfl

/-- Two accounts of a name of which there are two types, and arguments whose types come with
definitions. -/
def vaultPools : Declared.Interface where
  address := none
  version := none
  name := none
  instructions := [{
    name := "fill", docs := [], accounts := [],
    args := [⟨"vaults", [], .named "VaultSet"⟩, ⟨"small", [], .named "Entries<u8, Pool>"⟩,
      ⟨"large", [], .named "Entries<u16, Pool>"⟩],
    discriminator := none, omitsMissing := false, extra := .empty }]
  accounts := [⟨"Vault", none, [], none, .ofMembers [("space", .int 8)]⟩,
    ⟨"Vault", none, ["a spare"], none, .empty⟩]
  types := [.simple "Vault" .emptyStruct,
    { name := "Pool", docs := ["a pool"], generics := [.type "T"],
      body := .struct (.named [⟨"lastVault", [], .generic "T"⟩]),
      extra := .ofMembers [("layout", .int 1)] },
    .simple "DataItemEntry" .emptyStruct,
    { name := "Vault", docs := ["a vault"], generics := [], body := .aliasOf (.named "u64"),
      extra := .ofMembers [("layout", .int 2), ("space", .int 4)] }]
  errors := []
  metadata := none
  extra := .empty

/-- Sets and tables define their entries. -/
def entrySettings : Settings :=
  { extensions := [.matcher Matcher.entrySet, .matcher Matcher.entryTable] }

/-- The first of the two accounts takes all of the second type that it has not itself, and the
other one is empty.  Behind the types that are left stand the entries of the set, without those of
data items, which are declared, and those of the second table. -/
theorem normalize_lifts_vaultPools :
    Generator.ofOrigin? vaultPools.origin = some .anchor ∧
      ∃ interface first second,
        (CanonicalIdl.normalize entrySettings vaultPools).result = .ok interface ∧
        interface.accounts[0]? = some first ∧ interface.accounts[1]? = some second ∧
        first.body = .aliasOf (.primitive .u64) ∧ first.docs = ["a vault"] ∧
        first.extra.get? "layout" = some (.int 2) ∧ first.extra.get? "space" = some (.int 8) ∧
        second.body = .emptyStruct ∧ second.docs = ["a spare"] ∧
        interface.types = [
          { name := "Pool", docs := ["a pool"], generics := [.type "T"],
            body := .struct (.named [⟨"lastvault", [], .bare "T"⟩]),
            extra := .ofMembers [("layout", .int 1)] },
          .simple "DataItemEntry" .emptyStruct,
          .simple "VaultEntry" .emptyStruct,
          Matcher.entryDefinition "PoolEntry" (.primitive .u16) (.bare "Pool")] := by
  have horigin : Generator.ofOrigin? vaultPools.origin = some .anchor := rfl
  obtain ⟨interface, hresult, -, haccounts, kept, hkept, htypes⟩ :=
    @normalize_lifts entrySettings vaultPools vaultPools rfl rfl horigin
  obtain ⟨first, hfirst, hlifted, -⟩ := haccounts [] _ _ rfl
  obtain ⟨second, hsecond, -, halone⟩ := haccounts [_] _ _ rfl
  have hfrom := hlifted _ (.head _) rfl (by simp)
  have hown := halone (.inl (.head _))
  refine ⟨horigin, interface, first, second, hresult, hfirst, hsecond, hfrom.body.trans rfl,
    hfrom.docs, hfrom.extra "layout", hfrom.extra "space", hown.body, hown.docs, ?_⟩
  rw [htypes, hkept]
  rfl

end Anchor

end CanonicalIdl
