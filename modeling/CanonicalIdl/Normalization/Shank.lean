import CanonicalIdl.Normalization.Conversion
import CanonicalIdl.Resolution.PrimitiveWords

/-!
# Interfaces written by shank

Such an interface is structured already.  Its names are kept as written, nothing is
lifted or computed, and a type name is either a primitive word or a reference.

Main results:

- Theorem `run_resolver`: resolving a name brings nothing else about.
-/

namespace CanonicalIdl

namespace Shank

/-- A primitive word, or a reference with the text as its name. -/
def resolver (table : PrimitiveWords) : Resolver := fun text run =>
  ((table.lookup? text).getD (.bare (String.ofList text)), run)

/-- An account with its inline body. -/
def account (declared : Declared.Account) : Script Account := do
  let body ← Conversion.accountBody id declared
  return {
    name := declared.name, discriminator := declaredDiscriminator? declared.discriminator,
    docs := declared.docs, body, extra := declared.extra }

/-- An instruction with its declared discriminator. -/
def instruction (declared : Declared.Instruction) : Script Instruction :=
  Conversion.instruction id (declaredDiscriminator? declared.discriminator) declared

/-- The canonical interface, types before accounts before instructions. -/
def convert (declared : Declared.Interface) : Script Interface := do
  let types ← Script.each (Conversion.definition id) declared.types
  let accounts ← Script.each account declared.accounts
  let instructions ← Script.each instruction declared.instructions
  return {
    address := declared.address, version := declared.version, name := declared.name,
    instructions, accounts, types, errors := declared.errors, metadata := declared.metadata,
    extra := declared.extra }

/-- The canonical interface, and the warnings of the run. -/
def normalize (table : PrimitiveWords) (declared : Declared.Interface) :
    Interface × List Warning :=
  let (interface, run) := (convert declared).run (resolver table) .start
  (interface, run.warnings)

/-- Resolving a name brings nothing else about. -/
@[simp] theorem run_resolver (table : PrimitiveWords) (text : List Char) (run : Run) :
    (resolver table text run).2 = run := rfl

end Shank

end CanonicalIdl
