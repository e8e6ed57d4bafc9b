import CanonicalIdl.Config
import CanonicalIdl.Declared.Reading
import CanonicalIdl.Json.Printer
import CanonicalIdl.Json.Scanner
import CanonicalIdl.Workspace.Access

/-!
# Adapting the files of a workspace

A configuration file names the interface file.  Adapting reads both, annotates
and normalizes the interface and writes it back in its place; the account plan of an
instruction is made from the same reading, and nothing is written.

Nothing is written before everything has been read and normalized.
-/

namespace CanonicalIdl

open Json

variable {m : Type → Type} [Monad m] [FileAccess m]

/-- A run with file access that may fail. -/
abbrev Workspace (m : Type → Type) := ExceptT Failure m

namespace Workspace

/-- The text of a file. -/
def readText (path : String) : Workspace m String :=
  ExceptT.mk do
    return (← FileAccess.readText path).mapError (.io path)

/-- Write a file. -/
def writeText (path content : String) : Workspace m Unit :=
  ExceptT.mk do
    return (← FileAccess.writeText path content).mapError (.io path)

/-- A part of a run that needs no files. -/
def decided {α : Type} (result : Except Failure α) : Workspace m α :=
  ExceptT.mk (pure result)

/-- The value in a JSON file, as `read` reads it. -/
def readAs {α : Type} (read : Document → Except Fault α) (path : String) : Workspace m α := do
  let text ← readText path
  decided ((parseWith read text).mapError (.json path))

/-- The configuration in a file, checked. -/
def readConfig (path : String) : Workspace m Config := do
  let config ← readAs Config.read path
  decided config.check
  return config

/-- The interface that a configuration names, normalized. -/
def load (config : Config) : Workspace m Interface := do
  decided config.check
  let declared ← readAs Declared.readInterface config.interfacePath
  decided (normalize config.settings (config.annotate declared)).result

/-- Normalize the interface that a configuration names and write it back. -/
def adapt (config : Config) : Workspace m Interface := do
  let interface ← load config
  writeText config.interfacePath interface.toJson.pretty
  return interface

/-- Adapt by the configuration in a file. -/
def adaptFile (path : String) : Workspace m Interface := do
  adapt (← readConfig path)

/-- The account plan of an instruction, by its declared or its normalized name. -/
def planInstruction (config : Config) (name : String) : Workspace m AccountPlan := do
  let interface ← load config
  match (interface.instruction? name).or (interface.instruction? (camelName name)) with
  | some instruction => return config.plan instruction
  | none => decided (.error (.unknownInstruction name))

/-- The account plan of an instruction by the configuration in a file. -/
def planInstructionFile (path name : String) : Workspace m AccountPlan := do
  planInstruction (← readConfig path) name

end Workspace

namespace Files

/-- Carry out a run on files held as a value. -/
def carryOut {α : Type} (files : Files) (run : Workspace (StateM Files) α) :
    Except Failure α × Files :=
  run.run.run files

end Files

end CanonicalIdl
