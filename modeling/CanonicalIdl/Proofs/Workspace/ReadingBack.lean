import CanonicalIdl.Proofs.Interface.Acceptance
import CanonicalIdl.Proofs.Interface.DistinctKeys
import CanonicalIdl.Proofs.Interface.OtherDoubles
import CanonicalIdl.Proofs.Interface.Rejection
import CanonicalIdl.Proofs.Normalization.Plain
import CanonicalIdl.Proofs.Workspace.Readapting

/-!
# Reading back what was written

An adapted interface is written for other tools to read.  Its numbers are such as a text can
hold, and its records keep what they do not know, with one exception: an account that is lifted
from a type takes over what the type keeps, and a type does not know the key of discriminators.
A flat name that is resolved to a tree may nest deeper than a reader follows.

Main results:

- Theorem `Interface.ofText_toJson_pretty`: what a written interface is scanned into.
- Theorem `Config.isAcceptable_of_result`: what makes the result of a configured run readable.
- Theorem `Files.carryOut_adapt_readsBack_iff`: when what adapting writes is accepted, and when
  every key of it stands once.
- Theorem `Files.carryOut_adapt_not_readsBack`: two adapted interfaces that are rejected.
-/

namespace CanonicalIdl

open Json Document

/-! ## Numbers that a text can hold -/

theorem Json.Document.ofLeaves_isRepresentable : OfLeaves IsRepresentable :=
  ⟨fun _ _ => trivial, fun _ _ => trivial⟩

theorem Json.Document.holdsOfPlain_isRepresentable : HoldsOfPlain IsRepresentable :=
  { ofLeaves_isRepresentable with plain := fun _ h => h.1.isRepresentable }

/-- A written interface is scanned into the interface with its floating-point numbers read anew,
up to the limit of its nesting. -/
theorem Interface.ofText_toJson_pretty {interface : Interface}
    (h : ∀ extra ∈ interface.declared.extras, extra.Holds IsRepresentable) :
    Source.ofText interface.toJson.pretty =
      ⟨ofJsonWithin nestingLimit (interface.mapDoubles Double.reread).toJson, false⟩ := by
  rw [ofText_pretty_within (Interface.everywhere_toJson holdsOfPlain_isRepresentable h),
    Interface.toJson_mapDoubles]

namespace Config

variable {config : Config} {raw : Declared.Interface} {interface : Interface} {P : Document → Prop}

/-- What holds of all that was read and is kept holds of all that a result keeps. -/
theorem holds_of_result (hraw : raw.IsAcceptable P)
    (hresult : (normalize config.settings (config.annotate raw)).result = .ok interface) :
    ∀ extra ∈ interface.declared.extras, extra.Holds P := by
  have hannotated := @holds_annotate config _ _ hraw.holds
  rw [result_normalize] at hresult
  rw [← Except.ok.inj hresult]
  cases config.generator with
  | anchor => exact Anchor.holds_normalize config.isConfigured_chain hannotated
  | shank => exact Shank.holds_normalize hannotated

/-- A result of which no account keeps a member for a discriminator can be read. -/
theorem isAcceptable_of_result (hraw : raw.IsAcceptable P)
    (hresult : (normalize config.settings (config.annotate raw)).result = .ok interface)
    (hnone : ∀ account ∈ interface.accounts, account.extra.get? "discriminator" = none) :
    interface.declared.IsAcceptable P := by
  have hannotated := @hasParts_annotate config _ _ _ hraw
  rw [result_normalize] at hresult
  obtain rfl := Except.ok.inj hresult
  revert hnone
  cases config.generator with
  | anchor => exact Anchor.isAcceptable_normalize config.isConfigured_chain hannotated
  | shank => exact fun _ => Shank.isAcceptable_normalize hannotated

/-- Only an account with a discriminator can keep a member for another one. -/
theorem get?_discriminator_of_result (hraw : raw.IsAcceptable P)
    (hresult : (normalize config.settings (config.annotate raw)).result = .ok interface)
    {account : Account} (hmem : account ∈ interface.accounts) :
    account.discriminator.isSome = true ∨ account.extra.get? "discriminator" = none := by
  have hannotated := @hasParts_annotate config _ _ _ hraw
  rw [result_normalize] at hresult
  obtain rfl := Except.ok.inj hresult
  revert hmem
  cases config.generator with
  | anchor =>
    intro hmem
    obtain ⟨item, -, ⟨definition, -, -, rfl⟩ | rfl⟩ := Anchor.mem_accounts_normalize hmem
    all_goals exact .inl rfl
  | shank =>
    intro hmem
    have hresult := @Shank.isAcceptable_normalize config.settings.table _ _ hannotated
    exact .inr ((hresult.accounts _ (List.mem_map_of_mem hmem)).extra.get?_eq_none (by decide))

end Config

/-! ## What a reader accepts -/

theorem Interface.readInterface_of_parseWith {interface : Interface}
    (h : ∀ extra ∈ interface.declared.extras, extra.Holds IsRepresentable)
    {raw : Declared.Interface}
    (hraw : parseWith Declared.readInterface interface.toJson.pretty = .ok raw) :
    Declared.readInterface
      (ofJsonWithin nestingLimit (interface.mapDoubles Double.reread).toJson) = .ok raw := by
  have hread := read_of_parseWith hraw
  rwa [Interface.ofText_toJson_pretty h] at hread

/-- The text of an interface of which no account keeps a member for a second discriminator is
accepted, unless it nests too deep. -/
theorem Interface.exists_parseWith_toJson {interface : Interface}
    (h : interface.declared.IsAcceptable IsRepresentable)
    (hnesting : nesting interface.toJson ≤ nestingLimit) :
    ∃ raw, parseWith Declared.readInterface interface.toJson.pretty = .ok raw := by
  have hsource := Interface.ofText_toJson_pretty h.holds
  rw [ofJsonWithin_of_nesting_le _ (by rwa [toJson_mapDoubles, nesting_mapDoubles])] at hsource
  obtain ⟨raw, hraw⟩ := exists_readInterface_toJson (isAcceptable_mapDoubles Double.reread h)
  exact ⟨raw, parseWith_of_read hsource hraw⟩

/-- The text of an interface that is accepted does not nest too deep. -/
theorem Interface.nesting_toJson_le {interface : Interface}
    (h : interface.declared.IsAcceptable IsRepresentable) {raw : Declared.Interface}
    (hraw : parseWith Declared.readInterface interface.toJson.pretty = .ok raw) :
    nesting interface.toJson ≤ nestingLimit := by
  have hfollows := follows_readInterface (isAcceptable_mapDoubles Double.reread h)
    (Interface.readInterface_of_parseWith h.holds hraw)
  rwa [toJson_mapDoubles, nesting_mapDoubles] at hfollows

/-- No account of an interface whose text is accepted has two discriminators. -/
theorem Interface.get?_discriminator_of_parseWith {interface : Interface}
    (h : ∀ extra ∈ interface.declared.extras, extra.Holds IsRepresentable)
    {raw : Declared.Interface}
    (hraw : parseWith Declared.readInterface interface.toJson.pretty = .ok raw)
    {account : Account} (hmem : account ∈ interface.accounts)
    (hsome : account.discriminator.isSome = true) : account.extra.get? "discriminator" = none := by
  have hmapped : account.mapDoubles Double.reread ∈
      (interface.mapDoubles Double.reread).accounts := List.mem_map_of_mem hmem
  have hnone := get?_discriminator_of_readInterface
    (Interface.readInterface_of_parseWith h hraw) hmapped hsome
  rw [Account.mapDoubles, Extra.get?_mapDoubles] at hnone
  simpa using hnone

namespace Files

/-- What adapting writes is accepted by the reader of interfaces exactly if no account keeps a
member for a second discriminator, which the type that it was lifted from may have brought, and
containers do not nest too deep.  If no account keeps such a member then no object has a key
twice. -/
theorem carryOut_adapt_readsBack_iff {files after : Files} {config : Config}
    {interface : Interface}
    (h : files.carryOut (Workspace.adapt config) = (.ok interface, after)) :
    ∃ text, after.read config.interfacePath = .ok text ∧
      text = interface.toJson.pretty ∧
      ((∃ raw, parseWith Declared.readInterface text = .ok raw) ↔
        (∀ account ∈ interface.accounts, account.extra.get? "discriminator" = none) ∧
          nesting interface.toJson ≤ 127) ∧
      ((ofJson interface.toJson).Everywhere HasDistinctKeys ↔
        ∀ account ∈ interface.accounts, account.extra.get? "discriminator" = none) := by
  obtain ⟨-, ⟨given, raw, hread, hraw, hresult⟩, hwrite⟩ := carryOut_adapt_eq_ok.mp h
  have hacceptable : raw.IsAcceptable IsRepresentable :=
    Declared.isAcceptable_of_readInterface ofLeaves_isRepresentable (isRepresentable_ofText given)
      (read_of_parseWith hraw)
  have hholds := Config.holds_of_result hacceptable hresult
  have hsome : ∀ account ∈ interface.accounts, account.discriminator.isSome = true ∨
      account.extra.get? "discriminator" = none :=
    fun _ => Config.get?_discriminator_of_result hacceptable hresult
  refine ⟨_, read_of_write hread hwrite, rfl, ⟨?_, ?_⟩, ?_, fun hnone => ?_⟩
  · -- a second discriminator is noticed however deep the text nests; without one the reader takes
    -- every record for what it is, and then it has followed all of the text
    rintro ⟨found, hfound⟩
    have hnone : ∀ account ∈ interface.accounts, account.extra.get? "discriminator" = none :=
      fun account hmem => (hsome account hmem).elim
        (Interface.get?_discriminator_of_parseWith hholds hfound hmem) id
    exact ⟨hnone, Interface.nesting_toJson_le
      (Config.isAcceptable_of_result hacceptable hresult hnone) hfound⟩
  · rintro ⟨hnone, hnesting⟩
    exact Interface.exists_parseWith_toJson
      (Config.isAcceptable_of_result hacceptable hresult hnone) hnesting
  · exact fun hdistinct account hmem => (hsome account hmem).elim
      (Interface.get?_discriminator_of_hasDistinctKeys hdistinct hmem) id
  · exact Interface.everywhere_hasDistinctKeys
      (Config.isAcceptable_of_result hacceptable hresult hnone)

/-! ### The counter -/

/-- The files of the counter with some interface. -/
def counterFilesOf (interface : Json) : Files :=
  .ofList [("adapt.json", counterConfig.pretty), ("idl/counter.json", interface.pretty)]

/-- What the counter's interface is adapted to. -/
def counterAdaptedOf (raw : Declared.Interface) : Interface :=
  (Anchor.normalize counterSettings.settings.chain (counterSettings.annotate raw)).1

theorem carryOut_adapt_counterFilesOf {interface : Json} {raw : Declared.Interface}
    (hexact : (ofJson interface).Everywhere IsExact) (hnesting : nesting interface ≤ nestingLimit)
    (hraw : Declared.readInterface (ofJson interface) = .ok raw) :
    (counterFilesOf interface).carryOut (Workspace.adapt counterSettings) =
      (.ok (counterAdaptedOf raw), (counterFilesOf interface).replace counterPlace
        (counterAdaptedOf raw).toJson.pretty.toUTF8) := by
  have hplace : (counterFilesOf interface).place counterSettings.interfacePath =
      .ok counterPlace := rfl
  have hread : (counterFilesOf interface).read counterSettings.interfacePath =
      .ok interface.pretty := read_eq_ok_iff.mpr ⟨_, hplace, rfl, rfl⟩
  refine carryOut_adapt_eq_ok.mpr ⟨by decide +kernel, ⟨_, raw, hread,
    parseWith_of_read (ofText_pretty hexact hnesting) hraw,
    Config.result_normalize_annotate rfl raw⟩, ?_⟩
  rw [write, hplace]

/-- What the counter is adapted to is accepted, with every key standing once. -/
theorem carryOut_adapt_readsBack_counter :
    (∃ raw, parseWith Declared.readInterface counterAdapted.toJson.pretty = .ok raw) ∧
      (ofJson counterAdapted.toJson).Everywhere HasDistinctKeys := by
  have hadapt : counterFiles.carryOut (Workspace.adapt counterSettings) =
      (.ok counterAdapted,
        counterFiles.replace counterPlace counterAdapted.toJson.pretty.toUTF8) :=
    carryOut_adapt_counterFilesOf (by decide +kernel) (by decide +kernel) rfl
  have hnone : ∀ account ∈ counterAdapted.accounts,
      account.extra.get? "discriminator" = none := by decide +kernel
  obtain ⟨text, -, rfl, haccepted, hdistinct⟩ := carryOut_adapt_readsBack_iff hadapt
  exact ⟨haccepted.mpr ⟨hnone, by decide +kernel⟩, hdistinct.mpr hnone⟩

/-- An interface with an account that is lifted from a type with a member for a discriminator. -/
def taggedInterface : Json :=
  .object [
    ("accounts", .array [.object [("name", .string "Counter"),
      ("discriminator", .array [.int 1, .int 2, .int 3, .int 4, .int 5, .int 6, .int 7, .int 8])]]),
    ("types", .array [.object [("name", .string "Counter"),
      ("type", .object [("kind", .string "struct")]), ("discriminator", .array [.int 9])]])]

/-- That interface as it is declared. -/
def taggedDeclared : Declared.Interface where
  address := none
  version := none
  name := none
  instructions := []
  accounts := [⟨"Counter", some [1, 2, 3, 4, 5, 6, 7, 8], [], none, .empty⟩]
  types := [{
    name := "Counter", docs := [], generics := [], body := .struct (.named []),
    extra := .ofMembers [("discriminator", .array [.int 9])] }]
  errors := []
  metadata := none
  extra := .empty

/-- A type with arguments inside one another.  Each is one level of the text, and four containers
of what the text is resolved to. -/
def deepName : Nat → String
  | 0 => "A"
  | n + 1 => "A<" ++ deepName n ++ ">"

/-- An interface with a type that nests little as a text. -/
def deepInterface : Json :=
  .object [("types", .array [.object [("name", .string "Deep"),
    ("type", .object [("kind", .string "type"), ("alias", .string (deepName 31))])]])]

/-- That interface as it is declared. -/
def deepDeclared : Declared.Interface where
  address := none
  version := none
  name := none
  instructions := []
  accounts := []
  types := [{
    name := "Deep", docs := [], generics := [], body := .aliasOf (.named (deepName 31)),
    extra := .empty }]
  errors := []
  metadata := none
  extra := .empty

/-- Two adapted interfaces that are rejected: one with a discriminator twice, and one that nests
too deep. -/
theorem carryOut_adapt_not_readsBack :
    (∃ after, (counterFilesOf taggedInterface).carryOut (Workspace.adapt counterSettings) =
        (.ok (counterAdaptedOf taggedDeclared), after)) ∧
      parseWith Declared.readInterface (counterAdaptedOf taggedDeclared).toJson.pretty =
        .error (.mismatch (.duplicateField "discriminator")) ∧
      ¬ (ofJson (counterAdaptedOf taggedDeclared).toJson).Everywhere HasDistinctKeys ∧
      (∃ after, (counterFilesOf deepInterface).carryOut (Workspace.adapt counterSettings) =
        (.ok (counterAdaptedOf deepDeclared), after)) ∧
      nesting (counterAdaptedOf deepDeclared).toJson = 130 ∧
      ¬ ∃ raw, parseWith Declared.readInterface (counterAdaptedOf deepDeclared).toJson.pretty =
        .ok raw := by
  have htagged : Source.ofText (counterAdaptedOf taggedDeclared).toJson.pretty =
      ⟨ofJson (counterAdaptedOf taggedDeclared).toJson, false⟩ :=
    ofText_pretty (by decide +kernel) (by decide +kernel)
  have hdeep : nesting (counterAdaptedOf deepDeclared).toJson = 130 := by decide +kernel
  have hacceptable : deepDeclared.IsAcceptable IsRepresentable :=
    Declared.isAcceptable_of_readInterface (d := ofJson deepInterface) ofLeaves_isRepresentable
      (fun part hpart => ((by decide +kernel : (ofJson deepInterface).Everywhere IsExact)
        part hpart).isRepresentable) rfl
  refine ⟨⟨_, carryOut_adapt_counterFilesOf (by decide +kernel) (by decide +kernel) rfl⟩, ?_,
    by decide +kernel, ⟨_, carryOut_adapt_counterFilesOf (by decide +kernel) (by decide +kernel)
      rfl⟩, hdeep, ?_⟩
  · rw [parseWith, htagged]
    rfl
  · rintro ⟨raw, hraw⟩
    have hnesting := Interface.nesting_toJson_le (Config.isAcceptable_of_result hacceptable
      (Config.result_normalize_annotate rfl deepDeclared) (by decide +kernel)) hraw
    exact absurd (hdeep ▸ hnesting) (by decide)

end Files

end CanonicalIdl
