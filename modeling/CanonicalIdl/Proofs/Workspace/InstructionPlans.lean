import CanonicalIdl.Proofs.Accounts.Leaves
import CanonicalIdl.Proofs.Normalization.LastWriter
import CanonicalIdl.Proofs.Workspace.Readapting

/-!
# Plans by the names of instructions

The account plan of an instruction is asked for by a name, which may be the declared or the
canonical one.  Among the canonical names the name is looked for as it stands first, and in its
canonical spelling if there is none.  So a canonical name always finds its instruction.  A
declared name does unless it is the canonical name of another instruction, which is then found.

Main results:

- Theorem `plan_instruction`: the plan of an instruction is the one that was declared.
- Theorem `carryOut_planInstruction`: which instruction a name finds.
- Theorem `carryOut_planInstruction_names`: what the names of a declared instruction find.
-/

namespace CanonicalIdl

open Json Document

/-! ## Declared plans -/

/-- The treatment of missing accounts that a declared instruction asks for. -/
def Declared.Instruction.missingOptionals (declared : Declared.Instruction) : MissingOptionals :=
  if declared.omitsMissing then .omitted else .replaced

/-- The account plan for the leaves of a declared instruction. -/
def Config.declaredPlan (config : Config) (declared : Declared.Instruction) : AccountPlan :=
  AccountPlan.ofKeys declared.missingOptionals config.remainingAccounts
    (declared.leaves.map AccountLeaf.key)

/-- The plan of a converted instruction is the one that was declared. -/
theorem Config.plan_instruction (config : Config) (read : List Char → TypeTree)
    (declared : Declared.Instruction) :
    config.plan ((Anchor.instruction declared).value read) = config.declaredPlan declared := by
  have hkeys : ((Anchor.instruction declared).value read).accountKeys =
      declared.leaves.map AccountLeaf.key := by
    rw [Anchor.instruction, Conversion.value_instruction]
    exact AccountItem.keysOfItems_renameItems [] declared.accounts
  have hmissing : ((Anchor.instruction declared).value read).missingOptionals =
      declared.missingOptionals := by
    rw [Anchor.instruction, Conversion.value_instruction]
    rfl
  rw [plan, hkeys, hmissing, declaredPlan]

/-! ## Look-up by canonical names -/

/-- The first declared instruction of a canonical name. -/
def Declared.Interface.instruction? (declared : Declared.Interface) (name : String) :
    Option Declared.Instruction :=
  declared.instructions.find? (camelName ·.name == name)

theorem Anchor.instruction?_normalize (chain : Chain) (raw : Declared.Interface) (name : String) :
    (Anchor.normalize chain raw).1.instruction? name =
      (raw.instruction? name).map fun declared =>
        (Anchor.instruction declared).value chain.read := by
  have hname : ((fun instruction : Instruction => instruction.name == name) ∘
      fun declared => (Anchor.instruction declared).value chain.read) =
        fun declared => camelName declared.name == name := by
    funext declared
    rw [Function.comp_apply, Anchor.instruction, Conversion.value_instruction]
  rw [Interface.instruction?, instructions_normalize, value_convert, List.find?_map, hname,
    Declared.Interface.instruction?]

/-- Where no canonical name is given twice, each finds the instruction that it is made for. -/
theorem Declared.Interface.instruction?_of_mem {raw : Declared.Interface}
    (hnodup : (raw.instructions.map (camelName ·.name)).Nodup) {declared : Declared.Instruction}
    (h : declared ∈ raw.instructions) :
    raw.instruction? (camelName declared.name) = some declared :=
  find?_key_of_mem hnodup h

namespace Files

/-! ## Runs -/

section Runs

variable {files : Files} {config : Config} {text : String} {raw : Declared.Interface}
  (hcheck : config.check = .ok ()) (hanchor : config.generator = .anchor)
  (htext : files.read config.interfacePath = .ok text)
  (hraw : parseWith Declared.readInterface text = .ok raw)

include hcheck hanchor htext hraw

/-- A plan is made for the instruction that has the name as its canonical one, or else for the one
that has its canonical spelling. -/
theorem carryOut_planInstruction (name : String) :
    files.carryOut (Workspace.planInstruction config name) =
      match (raw.instruction? name).or (raw.instruction? (camelName name)) with
      | some declared => (.ok (config.declaredPlan declared), files)
      | none => (.error (.unknownInstruction name), files) := by
  have hload : files.carryOut (Workspace.load config) =
      (.ok (Anchor.normalize config.settings.chain (config.annotate raw)).1, files) :=
    carryOut_load_eq_ok.mpr
      ⟨hcheck, ⟨text, raw, htext, hraw, Config.result_normalize_annotate hanchor raw⟩, rfl⟩
  have hfound : ∀ name, (config.annotate raw).instruction? name = raw.instruction? name :=
    fun _ => rfl
  rw [Workspace.planInstruction, carryOut_bind, hload]
  simp only [Anchor.instruction?_normalize, hfound, ← Option.map_or]
  cases (raw.instruction? name).or (raw.instruction? (camelName name)) with
  | none => rfl
  | some declared =>
    simp only [Option.map_some, config.plan_instruction]
    rfl

/-- Where no canonical name is given twice, an instruction is found by its canonical name.  It is
found by its declared name too, unless that is the canonical name of another instruction: then the
other one is found. -/
theorem carryOut_planInstruction_names
    (hnodup : (raw.instructions.map (camelName ·.name)).Nodup) {declared : Declared.Instruction}
    (hdeclared : declared ∈ raw.instructions) :
    files.carryOut (Workspace.planInstruction config (camelName declared.name)) =
        (.ok (config.declaredPlan declared), files) ∧
      ((∀ other ∈ raw.instructions, camelName other.name ≠ declared.name) →
        files.carryOut (Workspace.planInstruction config declared.name) =
          (.ok (config.declaredPlan declared), files)) ∧
      ∀ other ∈ raw.instructions, camelName other.name = declared.name →
        files.carryOut (Workspace.planInstruction config declared.name) =
          (.ok (config.declaredPlan other), files) := by
  have hself := Declared.Interface.instruction?_of_mem hnodup hdeclared
  refine ⟨?_, ?_, ?_⟩
  · rw [carryOut_planInstruction hcheck hanchor htext hraw, hself, Option.some_or]
  · intro hfree
    have hnone : raw.instruction? declared.name = none := by
      apply List.find?_eq_none.mpr
      intro other hother
      simpa using hfree other hother
    rw [carryOut_planInstruction hcheck hanchor htext hraw, hnone, Option.none_or, hself]
  · intro other hother hname
    have hfound := Declared.Interface.instruction?_of_mem hnodup hother
    rw [hname] at hfound
    rw [carryOut_planInstruction hcheck hanchor htext hraw, hfound, Option.some_or]

end Runs

/-! ## Two versions of an instruction -/

/-- An instruction that creates a pool, with one account to be written. -/
def createJson (name account : String) : Json :=
  .object [("name", .string name),
    ("accounts", .array [.object [("name", .string account), ("writable", .bool true)]]),
    ("args", .array [])]

/-- An interface whose instructions are declared in different conventions. -/
def versionsInterface : Json :=
  .object [("instructions", .array
    [createJson "create_v2" "old_pool", createJson "createV2" "new_pool"])]

/-- The file of the interface. -/
def versionsFiles : Files := .ofList [("pool.json", versionsInterface.pretty)]

/-- An instruction with one account to be written, as it is declared. -/
def createDeclared (name account : String) : Declared.Instruction where
  name := name
  docs := []
  accounts := [.reference { plainSlot account with writable := true }]
  args := []
  discriminator := none
  omitsMissing := false
  extra := .empty

/-- The interface as it is declared. -/
def versionsDeclared : Declared.Interface where
  address := none
  version := none
  name := none
  instructions := [createDeclared "create_v2" "old_pool", createDeclared "createV2" "new_pool"]
  accounts := []
  types := []
  errors := []
  metadata := none
  extra := .empty

/-- The configuration of the pool. -/
def versionsConfig : Config where
  programName := "pool"
  directory := ""
  generator := .anchor
  programId := some "P"
  remainingAccounts := false
  floatAsBytes := false
  aliases := []
  binaryVersion := none
  libVersion := none

/-- What is read of the pool. -/
theorem versions_loaded :
    versionsConfig.check = .ok () ∧
      versionsFiles.read versionsConfig.interfacePath = .ok versionsInterface.pretty ∧
      parseWith Declared.readInterface versionsInterface.pretty = .ok versionsDeclared ∧
      (versionsDeclared.instructions.map (camelName ·.name)).Nodup := by
  have hsource : Source.ofText versionsInterface.pretty = ⟨ofJson versionsInterface, false⟩ :=
    ofText_pretty (by decide +kernel) (by decide +kernel)
  exact ⟨by decide +kernel, read_eq_ok_iff.mpr ⟨_, rfl, rfl, rfl⟩, parseWith_of_read hsource rfl,
    by decide +kernel⟩

/-- The first instruction is found by its declared name and the second one by its canonical name.
The declared name of the second finds the first. -/
theorem carryOut_planInstruction_names_versions :
    versionsConfig.check = .ok () ∧
      (versionsDeclared.instructions.map (camelName ·.name)).Nodup ∧
      versionsFiles.carryOut (Workspace.planInstruction versionsConfig "create_v2") =
        (.ok (versionsConfig.declaredPlan (createDeclared "create_v2" "old_pool")),
          versionsFiles) ∧
      versionsFiles.carryOut (Workspace.planInstruction versionsConfig "createv2") =
        (.ok (versionsConfig.declaredPlan (createDeclared "createV2" "new_pool")),
          versionsFiles) ∧
      versionsFiles.carryOut (Workspace.planInstruction versionsConfig "createV2") =
        (.ok (versionsConfig.declaredPlan (createDeclared "create_v2" "old_pool")),
          versionsFiles) := by
  obtain ⟨hcheck, htext, hraw, hnodup⟩ := versions_loaded
  have hfirst : createDeclared "create_v2" "old_pool" ∈ versionsDeclared.instructions := .head _
  have hsecond : createDeclared "createV2" "new_pool" ∈ versionsDeclared.instructions :=
    .tail _ (.head _)
  have hfree : ∀ name ∈ versionsDeclared.instructions.map (camelName ·.name),
      name ≠ "create_v2" := by
    decide +kernel
  have hcanonical : camelName "createV2" = "createv2" := by decide +kernel
  obtain ⟨-, hdeclared, -⟩ := carryOut_planInstruction_names hcheck rfl htext hraw hnodup hfirst
  obtain ⟨hsame, -, hother⟩ := carryOut_planInstruction_names hcheck rfl htext hraw hnodup hsecond
  refine ⟨hcheck, hnodup, hdeclared fun other h => hfree _ (List.mem_map_of_mem h), ?_, ?_⟩
  · rw [← hcanonical]
    exact hsame
  · exact hother _ hfirst (by decide +kernel)

/-- The canonical name of the first instruction is the declared name of the second one, and finds
the first although the plans differ. -/
theorem carryOut_planInstruction_other :
    versionsConfig.check = .ok () ∧ versionsConfig.generator = .anchor ∧
      (versionsDeclared.instructions.map (·.name)).Nodup ∧
      (versionsDeclared.instructions.map (camelName ·.name)).Nodup ∧
      versionsDeclared.instructions[1]? = some (createDeclared "createV2" "new_pool") ∧
      versionsFiles.carryOut (Workspace.planInstruction versionsConfig "createV2") =
        (.ok (versionsConfig.declaredPlan (createDeclared "create_v2" "old_pool")),
          versionsFiles) ∧
      versionsConfig.declaredPlan (createDeclared "create_v2" "old_pool") ≠
        versionsConfig.declaredPlan (createDeclared "createV2" "new_pool") := by
  obtain ⟨hcheck, htext, hraw, hnodup⟩ := versions_loaded
  refine ⟨hcheck, rfl, by decide +kernel, hnodup, rfl, ?_, by decide +kernel⟩
  rw [carryOut_planInstruction hcheck rfl htext hraw]
  rfl

end Files

end CanonicalIdl
