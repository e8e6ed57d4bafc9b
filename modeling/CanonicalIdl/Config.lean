import CanonicalIdl.Accounts.Plan
import CanonicalIdl.Json.Reader
import CanonicalIdl.Normalization.Outcome

/-!
# Configurations

A configuration names the interface to adapt, the tool that wrote it, and how its types
and accounts are to be treated.

Main results:

- Theorem `isFileStem_of_check`: a checked program name addresses no other directory.
-/

namespace CanonicalIdl

open Json Document

/-- What a run is to adapt, and how. -/
structure Config where
  /-- The stem of the interface's file name. -/
  programName : String
  /-- The directory of the interface. -/
  directory : String
  generator : Generator
  programId : Option String
  remainingAccounts : Bool
  floatAsBytes : Bool
  aliases : AliasTable
  binaryVersion : Option String
  libVersion : Option String
  deriving Repr, DecidableEq

namespace Config

/-! ## Reading -/

/-- The tools by their names. -/
def generators : List (String × Generator) :=
  [("anchor", .anchor), ("shank", .shank)]

/-- The end of an object that holds nothing but the name of a tool. -/
def readGeneratorEnd : Ending → Reading Unit
  | .closed => .ok ()
  | .broken .endInObject _ => .error (.malformed .endInObject)
  | .broken _ _ => .error (.malformed .expectedValue)

/-- The name of a tool, as a string or as the only key of an object, with null. -/
def readGenerator : Document → Reading Generator
  | .string name => variantNamed generators name
  | .object [] ending => do
    ending.read
    throw (.malformed .expectedValue)
  | .object ((.error .keyNotString, key) :: _) _ => .error (key.unexpected "variant identifier")
  | .object ((.error fault, _) :: _) _ => .error (.malformed fault)
  | .object ((.ok name, value) :: rest) ending => do
    let generator ← variantNamed generators name
    match value with
    | .null => if rest.isEmpty then readGeneratorEnd ending else throw (.malformed .expectedValue)
    | value => throw (value.unexpected "unit")
    return generator
  | .unreadable .endInToken _ => .error (.malformed .expectedValue)
  | .unreadable fault _ => .error (.malformed fault)
  | _ => .error (.malformed .expectedValue)

/-- A path. -/
def readPath : Document → Reading String
  | .string s => .ok s
  | d => .error (d.unexpected "path string")

/-- The aliases by name; of a repeated name the last one counts. -/
def readAliases : Document → Reading AliasTable
  | .object ms ending =>
    (members (fun entries key value => value.text.map fun target => entries ++ [(key, target)])
      [] ms ending).map sortMembers
  | d => .error (d.unexpected "a map")

/-- A configuration while its members are read. -/
structure Partial where
  programName : Option String := none
  directory : Option String := none
  generator : Option Generator := none
  programId : Option (Option String) := none
  remainingAccounts : Option Bool := none
  floatAsBytes : Option Bool := none
  aliases : Option AliasTable := none
  binaryVersion : Option (Option String) := none
  libVersion : Option (Option String) := none

/-- One member of a configuration. -/
def Partial.step (p : Partial) (key : String) (value : Document) : Reading Partial :=
  match key with
  | "programName" =>
    (once p.programName "programName" value.text).map fun programName => { p with programName }
  | "idlDir" =>
    (once p.directory "idlDir" (readPath value)).map fun directory => { p with directory }
  | "idlGenerator" =>
    (once p.generator "idlGenerator" (readGenerator value)).map
      fun generator => { p with generator }
  | "programId" =>
    (once p.programId "programId" (value.orNull text)).map fun programId => { p with programId }
  | "anchorRemainingAccounts" =>
    (once p.remainingAccounts "anchorRemainingAccounts" value.flag).map
      fun remainingAccounts => { p with remainingAccounts }
  | "floatAsBytes" =>
    (once p.floatAsBytes "floatAsBytes" value.flag).map fun floatAsBytes => { p with floatAsBytes }
  | "typeAliases" =>
    (once p.aliases "typeAliases" (readAliases value)).map fun aliases => { p with aliases }
  | "binaryVersion" =>
    (once p.binaryVersion "binaryVersion" (value.orNull text)).map
      fun binaryVersion => { p with binaryVersion }
  | "libVersion" =>
    (once p.libVersion "libVersion" (value.orNull text)).map fun libVersion => { p with libVersion }
  | _ => value.ignore.map fun _ => p

/-- A configuration, from an object or from a list of its fields. -/
def read : Document → Reading Config
  | .object ms ending => do
    let p ← members Partial.step {} ms ending
    let programName ← required p.programName "programName"
    let directory ← required p.directory "idlDir"
    let generator ← required p.generator "idlGenerator"
    return {
      programName, directory, generator, programId := p.programId.getD none,
      remainingAccounts := p.remainingAccounts.getD false,
      floatAsBytes := p.floatAsBytes.getD false, aliases := p.aliases.getD [],
      binaryVersion := p.binaryVersion.getD none, libVersion := p.libVersion.getD none }
  | .array items ending =>
    let expected := "struct AdaptConfig with 9 elements"
    fields (do
      let programName ← nextField 0 expected text
      let directory ← nextField 1 expected readPath
      let generator ← nextField 2 expected readGenerator
      let programId ← nextFieldOr none (orNull text)
      let remainingAccounts ← nextFieldOr false flag
      let floatAsBytes ← nextFieldOr false flag
      let aliases ← nextFieldOr [] readAliases
      let binaryVersion ← nextFieldOr none (orNull text)
      let libVersion ← nextFieldOr none (orNull text)
      return {
        programName, directory, generator, programId, remainingAccounts, floatAsBytes, aliases,
        binaryVersion, libVersion }) endOfFields items ending
  | d => .error (d.unexpected "struct AdaptConfig")

/-- The JSON form of a configuration. -/
def toJson (config : Config) : Json :=
  .object ([("programName", .string config.programName), ("idlDir", .string config.directory),
      ("idlGenerator", .string config.generator.tag)] ++
    optionalMember "programId" .string config.programId ++
    [("anchorRemainingAccounts", .bool config.remainingAccounts),
     ("floatAsBytes", .bool config.floatAsBytes)] ++
    (if config.aliases.isEmpty then []
     else [("typeAliases",
       .object (config.aliases.map fun (name, target) => (name, .string target)))]) ++
    optionalMember "binaryVersion" .string config.binaryVersion ++
    optionalMember "libVersion" .string config.libVersion)

/-! ## Validity -/

/-- The program name is a file stem. -/
def checkProgramName (config : Config) : Except Failure Unit :=
  if Text.isBlankText config.programName then
    .error (.invalidConfig "programName" "must not be empty")
  else if config.programName.toList.any fun c => c == '/' || c == '\\' then
    .error (.invalidConfig "programName" "must be a file stem, not a path")
  else .ok ()

/-- Anchor interfaces need the address of their program. -/
def checkProgramId (config : Config) : Except Failure Unit :=
  if config.generator = .anchor ∧ Text.isBlankText (config.programId.getD "") = true then
    .error (.invalidConfig "programId" "is required when idlGenerator is `anchor`")
  else .ok ()

/-- Aliases are not empty and do not hide a primitive type. -/
def checkAliases : AliasTable → Except Failure Unit
  | [] => .ok ()
  | (name, target) :: rest =>
    if Text.isBlankText name || Text.isBlankText target then
      .error (.invalidConfig ("typeAliases." ++ name) "alias and target must not be empty")
    else if (Primitive.ofWord? name.toList).isSome then
      .error (.invalidConfig ("typeAliases." ++ name) "alias shadows a primitive type")
    else checkAliases rest

/-- Whether a run may start with the configuration. -/
def check (config : Config) : Except Failure Unit := do
  config.checkProgramName
  config.checkProgramId
  checkAliases config.aliases

/-! ## Use -/

/-- A file in a directory.  An absolute file name stands alone. -/
def joinPath (directory file : String) : String :=
  if file.toList.head? = some '/' then file
  else if directory = "" ∨ directory.toList.getLast? = some '/' then directory ++ file
  else directory ++ "/" ++ file

/-- The path of the interface. -/
def interfacePath (config : Config) : String :=
  joinPath config.directory (config.programName ++ ".json")

/-- The primitive table. -/
def table (config : Config) : PrimitiveWords :=
  if config.floatAsBytes then .floatAsBytes else .standard

/-- The settings of normalization. -/
def settings (config : Config) : Settings where
  table := config.table
  extensions := if config.aliases.isEmpty then [] else [.aliases config.aliases]

/-- The account plan of an instruction. -/
def plan (config : Config) (instruction : Instruction) : AccountPlan :=
  AccountPlan.ofKeys instruction.missingOptionals config.remainingAccounts instruction.accountKeys

/-- The metadata with the configured tool and versions, and for anchor with the address of
the program. -/
def annotatedMetadata (config : Config) (metadata : Metadata) : Metadata where
  address := if config.generator = .anchor then config.programId else metadata.address
  origin := some config.generator.tag
  binaryVersion := config.binaryVersion.or metadata.binaryVersion
  libVersion := config.libVersion.or metadata.libVersion
  extra := metadata.extra

/-- The interface with its metadata annotated. -/
def annotate (config : Config) (interface : Declared.Interface) : Declared.Interface :=
  { interface with metadata := some (config.annotatedMetadata (interface.metadata.getD .empty)) }

/-- A checked program name addresses no other directory. -/
theorem isFileStem_of_check {config : Config} (h : config.check = .ok ()) :
    ∀ c ∈ config.programName.toList, c ≠ '/' ∧ c ≠ '\\' := by
  have hname : config.checkProgramName = .ok () := by
    unfold check at h
    cases hc : config.checkProgramName with
    | error e => simp [hc, bind, Except.bind] at h
    | ok u => rfl
  unfold checkProgramName at hname
  split at hname
  · cases hname
  · split at hname
    · cases hname
    · next hany =>
      intro c hc
      have hno : ¬ (c == '/' || c == '\\') = true := fun hcc =>
        hany (List.any_eq_true.mpr ⟨c, hc, hcc⟩)
      simpa using hno

/-- An annotated interface takes the path of the configured tool. -/
theorem origin_annotate (config : Config) (interface : Declared.Interface) :
    (config.annotate interface).origin = some config.generator.tag := rfl

end Config

end CanonicalIdl
