import CanonicalIdl.Proofs.Json.Rescanning
import CanonicalIdl.Proofs.Json.Scanned
import CanonicalIdl.Proofs.Normalization.Results
import CanonicalIdl.Proofs.Workspace.Runs
import CanonicalIdl.Proofs.Workspace.SharedFile

/-!
# Adapting twice

Adapting an interface file leaves a file that declares the interface in its canonical form.
Once its names are settled, adapting that file again finds nothing to do.

Main results:

- Theorem `Config.readapts`: the written result is scanned, read and normalized into itself.
- Theorem `Files.carryOut_adaptFile_again`: adapting a second time changes nothing.
-/

namespace CanonicalIdl

open Json Document

/-! ## Normalizing a second time -/

namespace Config

variable {config : Config}

/-- Annotating a second time changes nothing. -/
theorem annotatedMetadata_annotatedMetadata (config : Config) (metadata : Metadata) :
    config.annotatedMetadata (config.annotatedMetadata metadata) =
      config.annotatedMetadata metadata := by
  simp only [annotatedMetadata, Metadata.mk.injEq, true_and]
  refine ⟨?_, ?_, ?_, trivial⟩
  · split <;> rfl
  · cases config.binaryVersion <;> rfl
  · cases config.libVersion <;> rfl

/-- The path of the configured tool is taken. -/
theorem result_normalize (config : Config) (raw : Declared.Interface) :
    (normalize config.settings (config.annotate raw)).result =
      .ok (normalizeBy config.settings (config.annotate raw) config.generator).1 := by
  have horigin : Generator.ofOrigin? (config.annotate raw).origin = some config.generator := by
    rw [origin_annotate, Generator.ofOrigin?_tag]
  simp only [normalize, settings, id_eq, horigin]

/-- Under an anchor configuration the path of anchor is taken. -/
theorem result_normalize_annotate (h : config.generator = .anchor) (raw : Declared.Interface) :
    (normalize config.settings (config.annotate raw)).result =
      .ok (Anchor.normalize config.settings.chain (config.annotate raw)).1 := by
  rw [result_normalize, h, normalizeBy]

/-- What a normalized interface declares is annotated already. -/
theorem annotate_declared_normalize (config : Config) (chain : Chain) (raw : Declared.Interface) :
    config.annotate (Anchor.normalize chain (config.annotate raw)).1.declared =
      (Anchor.normalize chain (config.annotate raw)).1.declared := by
  have hmetadata : (Anchor.normalize chain (config.annotate raw)).1.declared.metadata =
      some (config.annotatedMetadata (raw.metadata.getD .empty)) := rfl
  rw [annotate, hmetadata, Option.getD_some, annotatedMetadata_annotatedMetadata, ← hmetadata]

theorem hasParts_annotate {raw : Declared.Interface} {P : Document → Prop}
    {Q : Declared.Instruction → Prop} (h : raw.HasParts P Q) :
    (config.annotate raw).HasParts P Q := by
  refine { h with metadata := ?_ }
  rintro metadata hmetadata
  obtain rfl := Option.some.inj hmetadata
  change (raw.metadata.getD .empty).extra.Keeps P Declared.metadataKeys
  cases hgiven : raw.metadata with
  | none => exact Extra.keeps_empty
  | some metadata => exact h.metadata metadata hgiven

theorem holds_annotate {raw : Declared.Interface} {P : Document → Prop}
    (h : ∀ extra ∈ raw.extras, extra.Holds P) :
    ∀ extra ∈ (config.annotate raw).extras, extra.Holds P := by
  simp only [Declared.Interface.extras, List.forall_mem_cons, List.forall_mem_append] at h ⊢
  obtain ⟨hextra, ⟨⟨hmetadata, hinstructions⟩, haccounts⟩, htypes⟩ := h
  refine ⟨hextra, ⟨⟨List.forall_mem_singleton.mpr ?_, hinstructions⟩, haccounts⟩, htypes⟩
  change (raw.metadata.getD .empty).extra.Holds P
  cases hgiven : raw.metadata with
  | none => exact Extra.holds_empty
  | some metadata => exact hmetadata _ (by simp [hgiven])

/-- The written result is scanned as it is, it is read as what the result declares, and
normalizing that gives the result again. -/
theorem readapts {text : String} {raw : Declared.Interface} {interface : Interface}
    (hanchor : config.generator = .anchor)
    (hraw : parseWith Declared.readInterface text = .ok raw)
    (hresult : (normalize config.settings (config.annotate raw)).result = .ok interface)
    (hkeys : (Source.ofText text).document.Everywhere HasDistinctKeys)
    (hdoubles : ∀ extra ∈ raw.extras, extra.Holds IsNotDouble)
    (hnames : ∀ name ∈ interface.renamedNames, camelName name = name)
    (hreferences : ∀ name ∈ interface.referenceNames,
      config.settings.chain.resolved name = .bare name)
    (hlifted : Anchor.LiftsNoDiscriminator config.settings.chain.read raw)
    (hnesting : nesting interface.toJson ≤ nestingLimit) :
    Source.ofText interface.toJson.pretty = ⟨ofJson interface.toJson, false⟩ ∧
      Declared.readInterface (ofJson interface.toJson) = .ok interface.declared ∧
      (normalize config.settings (config.annotate interface.declared)).result = .ok interface ∧
      interface.extra = raw.extra := by
  have hchain := config.isConfigured_chain
  rw [result_normalize_annotate hanchor] at hresult
  have htidy : (Source.ofText text).document.Everywhere (IsTidy IsBounded) := fun part hpart =>
    ⟨isBounded_ofText text part hpart, hkeys part hpart⟩
  have hreadable : interface.declared.IsReadable IsBounded := by
    rw [← Except.ok.inj hresult]
    exact Anchor.isReadable_normalize hchain (hasParts_annotate
      (Declared.isReadable_of_readInterface ofLeaves_isBounded htidy (read_of_parseWith hraw)))
      hlifted
  have hextras : ∀ extra ∈ interface.declared.extras, extra.Holds IsNotDouble := by
    rw [← Except.ok.inj hresult]
    exact Anchor.holds_normalize hchain (holds_annotate hdoubles)
  have hexact : interface.toJson.IsExact :=
    Interface.isExact_toJson fun extra hextra member hmember part hpart =>
      ⟨hextras extra hextra member hmember part hpart,
        hreadable.holds extra hextra member hmember part hpart⟩
  refine ⟨ofText_pretty hexact hnesting, readInterface_toJson hreadable, ?_, ?_⟩
  · obtain rfl := Except.ok.inj hresult
    rw [result_normalize_annotate hanchor, annotate_declared_normalize,
      Anchor.normalize_declared hchain (Anchor.isSettled_normalize hchain hnames hreferences)]
  · rw [← Except.ok.inj hresult]
    rfl

end Config

namespace Files

/-- Adapting a second time changes nothing.  The uninterpreted parts of the interface hold no
floating-point number and no object of its text has a key twice; the names of the result are
spelled as they are renamed, its references are read as themselves, no lifted type had a member
for a discriminator, and what was written nests no deeper than a reader follows. -/
theorem carryOut_adaptFile_again {files after : Files} {path text : String} {config : Config}
    {raw : Declared.Interface} {interface : Interface}
    (hconfig : files.carryOut (Workspace.readConfig path) = (.ok config, files))
    (hanchor : config.generator = .anchor)
    (htext : files.read config.interfacePath = .ok text)
    (hraw : parseWith Declared.readInterface text = .ok raw)
    (hkeys : (Source.ofText text).document.Everywhere HasDistinctKeys)
    (hdoubles : ∀ extra ∈ raw.extras, extra.Holds IsNotDouble)
    (hfirst : files.carryOut (Workspace.adaptFile path) = (.ok interface, after))
    (hnames : ∀ name ∈ interface.renamedNames, camelName name = name)
    (hreferences : ∀ name ∈ interface.referenceNames,
      config.settings.chain.resolved name = .bare name)
    (hlifted : Anchor.LiftsNoDiscriminator config.settings.chain.read raw)
    (hnesting : nesting interface.toJson ≤ 127) :
    after.carryOut (Workspace.adaptFile path) = (.ok interface, after) := by
  obtain ⟨⟨stored, hstored, hparsed⟩, hcheck, -⟩ := carryOut_readConfig_eq_ok.mp hconfig
  have hadapt : files.carryOut (Workspace.adapt config) = (.ok interface, after) := by
    obtain ⟨found, between, hfound, hadapt⟩ := carryOut_bind_eq_ok.mp hfirst
    obtain ⟨hsame, rfl⟩ := Prod.mk.inj (hconfig.symm.trans hfound)
    rwa [← Except.ok.inj hsame] at hadapt
  obtain ⟨-, ⟨text', raw', htext', hraw', hresult⟩, hwrite⟩ := carryOut_adapt_eq_ok.mp hadapt
  obtain rfl := Except.ok.inj (htext.symm.trans htext')
  obtain rfl := Except.ok.inj (hraw.symm.trans hraw')
  obtain ⟨hsource, hreread, hagain, hextra⟩ := Config.readapts hanchor hraw hresult hkeys
    hdoubles hnames hreferences hlifted hnesting
  -- the configuration may stand in the file of the interface, which then keeps it
  have hconfig' : ∃ t, after.read path = .ok t ∧ parseWith Config.read t = .ok config := by
    by_cases hplaces : files.place path = files.place config.interfacePath
    · refine ⟨_, (read_of_place_eq ?_).trans (read_of_write htext hwrite), ?_⟩
      · rw [place_of_write hwrite, place_of_write hwrite, hplaces]
      · rw [read_of_place_eq hplaces, htext] at hstored
        obtain rfl := Except.ok.inj hstored
        exact parseWith_of_read hsource (Config.read_toJson hkeys (read_of_parseWith hparsed)
          (read_of_parseWith hraw) hextra)
    · exact ⟨stored, (read_of_write_of_place_ne hwrite hplaces).trans hstored, hparsed⟩
  refine carryOut_bind_eq_ok.mpr ⟨config, after, carryOut_readConfig_eq_ok.mpr
    ⟨hconfig', hcheck, rfl⟩, carryOut_adapt_eq_ok.mpr ⟨hcheck, ?_, write_of_write hwrite⟩⟩
  exact ⟨_, _, read_of_write htext hwrite, parseWith_of_read hsource hreread, hagain⟩

/-- A configuration of a counter. -/
def counterConfig : Json :=
  .object [("programName", .string "counter"), ("idlDir", .string "../workspace/idl"),
    ("idlGenerator", .string "anchor"), ("programId", .string "C")]

/-- An interface with an instruction whose accounts are nested, an account that is lifted, and
references to an undeclared type. -/
def counterInterface : Json :=
  .object [
    ("instructions", .array [.object [("name", .string "setOwner"),
      ("accounts", .array [
        .object [("name", .string "counter"), ("isMut", .bool true), ("isSigner", .bool false)],
        .object [("name", .string "Next"), ("accounts", .array [.object
          [("name", .string "wallet_2"), ("isMut", .bool false), ("isSigner", .bool true)]])]]),
      ("args", .array [.object
        [("name", .string "newOwner"), ("type", .object [("defined", .string "Owner")])]])]]),
    ("accounts", .array [.object [("name", .string "Counter"),
      ("discriminator", .array [.int 1, .int 2, .int 3, .int 4, .int 5, .int 6, .int 7, .int 8])]]),
    ("types", .array [.object [("name", .string "Counter"),
      ("type", .object [("kind", .string "struct"), ("fields", .array [.object
        [("name", .string "lastOwner"), ("type", .object [("defined", .string "Owner")])]])]),
      ("unit", .int 1)]])]

/-- The two files of the counter. -/
def counterFiles : Files :=
  .ofList [("adapt.json", counterConfig.pretty), ("idl/counter.json", counterInterface.pretty)]

/-- The place of the counter's interface. -/
def counterPlace : List String := ["tmp", "workspace", "idl", "counter.json"]

/-- The counter's interface as it is declared. -/
def counterDeclared : Declared.Interface where
  address := none
  version := none
  name := none
  instructions := [{
    name := "setOwner", docs := [],
    accounts := [.reference ⟨"counter", true, false, false, [], none, .empty⟩,
      .collection "Next" [.reference ⟨"wallet_2", false, true, false, [], none, .empty⟩]],
    args := [⟨"newOwner", [], .defined "Owner"⟩], discriminator := none, omitsMissing := false,
    extra := .empty }]
  accounts := [⟨"Counter", some [1, 2, 3, 4, 5, 6, 7, 8], [], none, .empty⟩]
  types := [{
    name := "Counter", docs := [], generics := [],
    body := .struct (.named [⟨"lastOwner", [], .defined "Owner"⟩]),
    extra := .ofMembers [("unit", .int 1)] }]
  errors := []
  metadata := none
  extra := .empty

/-- The configuration of the counter as it is read. -/
def counterSettings : Config where
  programName := "counter"
  directory := "../workspace/idl"
  generator := .anchor
  programId := some "C"
  remainingAccounts := false
  floatAsBytes := false
  aliases := []
  binaryVersion := none
  libVersion := none

/-- The counter's interface after normalization. -/
def counterAdapted : Interface :=
  (Anchor.normalize counterSettings.settings.chain (counterSettings.annotate counterDeclared)).1

/-- The two files with the adapted interface. -/
def counterFilesAdapted : Files :=
  counterFiles.replace counterPlace counterAdapted.toJson.pretty.toUTF8

/-- The counter's interface is adapted once, and a second time without any change. -/
theorem carryOut_adaptFile_again_counter :
    counterFiles.carryOut (Workspace.adaptFile "/tmp/workspace/adapt.json") =
        (.ok counterAdapted, counterFilesAdapted) ∧
      counterAdapted.renamedNames =
        ["setowner", "newowner", "counter", "next", "wallet2", "lastowner"] ∧
      counterAdapted.referenceNames = ["Owner", "Owner"] ∧
      counterFilesAdapted.carryOut (Workspace.adaptFile "/tmp/workspace/adapt.json") =
        (.ok counterAdapted, counterFilesAdapted) := by
  have hcheck : counterSettings.check = .ok () := by decide +kernel
  have hstored : counterFiles.read "/tmp/workspace/adapt.json" = .ok counterConfig.pretty :=
    read_eq_ok_iff.mpr ⟨_, rfl, rfl, rfl⟩
  have hconfig : counterFiles.carryOut (Workspace.readConfig "/tmp/workspace/adapt.json") =
      (.ok counterSettings, counterFiles) :=
    carryOut_readConfig_eq_ok.mpr ⟨⟨_, hstored, parseWith_of_read (d := ofJson counterConfig)
      (ofText_pretty (by decide +kernel) (by decide +kernel)) rfl⟩, hcheck, rfl⟩
  have hsource : Source.ofText counterInterface.pretty = ⟨ofJson counterInterface, false⟩ :=
    ofText_pretty (by decide +kernel) (by decide +kernel)
  have hraw : parseWith Declared.readInterface counterInterface.pretty = .ok counterDeclared :=
    parseWith_of_read hsource rfl
  have hplace : counterFiles.place counterSettings.interfacePath = .ok counterPlace := rfl
  have htext : counterFiles.read counterSettings.interfacePath = .ok counterInterface.pretty :=
    read_eq_ok_iff.mpr ⟨_, hplace, rfl, rfl⟩
  have hwrite : counterFiles.write counterSettings.interfacePath counterAdapted.toJson.pretty =
      .ok counterFilesAdapted := by
    rw [write, hplace, counterFilesAdapted]
  have hfirst : counterFiles.carryOut (Workspace.adaptFile "/tmp/workspace/adapt.json") =
      (.ok counterAdapted, counterFilesAdapted) :=
    carryOut_bind_eq_ok.mpr ⟨counterSettings, counterFiles, hconfig, carryOut_adapt_eq_ok.mpr
      ⟨hcheck, ⟨_, _, htext, hraw, Config.result_normalize_annotate rfl counterDeclared⟩, hwrite⟩⟩
  refine ⟨hfirst, by decide +kernel, by decide +kernel, ?_⟩
  exact carryOut_adaptFile_again hconfig rfl htext hraw (by rw [hsource]; decide +kernel)
    (by decide +kernel) hfirst (by decide +kernel) (by decide +kernel) (by decide +kernel)
    (by decide +kernel)

end Files

end CanonicalIdl
