import CanonicalIdl.Normalization.Conversion
import CanonicalIdl.Resolution.Chain

/-!
# Interfaces written by anchor

Type definitions are converted first.  An account whose name is that of a type takes the
body of that type, which then is no type any more.  Names of instructions, arguments,
named fields and account items become camel case, and missing discriminators are
computed.  Definitions registered on the way are put behind the types, unless a type of
their name is still there.

Main results:

- Theorem `length_accounts`: lifting keeps the number of accounts.
-/

namespace CanonicalIdl

open Json

namespace Anchor

/-- The declared types in canonical form, a later definition in exchange for an earlier
one of its name. -/
def definitions (declared : List Declared.Definition) : Script Definitions := do
  let converted ← Script.each (Conversion.definition camelName) declared
  return .ofList converted

/-- An account with a body, its documentation and uninterpreted members taken over from
the type that it was lifted from where it has none of its own. -/
def accountOf (declared : Declared.Account) (body : Body TypeTree) (docs : List String)
    (extra : Extra) : Account where
  name := declared.name
  discriminator :=
    some ((declaredDiscriminator? declared.discriminator).getD
      (Discriminator.ofAccount declared.name))
  docs := if declared.docs.isEmpty then docs else declared.docs
  body := body
  extra := extra.merge declared.extra

/-- An account, lifted from the type of its name if there is one, and the types left. -/
def account (types : Definitions) (declared : Declared.Account) :
    Script (Account × Definitions) :=
  match types.get? declared.name with
  | some definition =>
    return (accountOf declared definition.body definition.docs definition.extra,
      types.erase declared.name)
  | none => do
    let body ← Conversion.accountBody camelName declared
    return (accountOf declared body [] .empty, types)

/-- All accounts in order, and the types left. -/
def accounts : Definitions → List Declared.Account → Script (List Account × Definitions)
  | types, [] => return ([], types)
  | types, declared :: rest => do
    let (first, types) ← account types declared
    let (others, types) ← accounts types rest
    return (first :: others, types)

/-- An instruction with its declared or computed discriminator. -/
def instruction (declared : Declared.Instruction) : Script Instruction :=
  Conversion.instruction camelName
    (some ((declaredDiscriminator? declared.discriminator).getD
      (Discriminator.ofInstruction declared.name)))
    declared

/-- What is converted of an interface. -/
structure Converted where
  accounts : List Account
  instructions : List Instruction
  types : Definitions

/-- Convert types, accounts and instructions, in this order. -/
def convert (declared : Declared.Interface) : Script Converted := do
  let types ← definitions declared.types
  let (accounts, types) ← accounts types declared.accounts
  let instructions ← Script.each instruction declared.instructions
  return { accounts, instructions, types }

/-- The canonical interface, and the warnings of the run. -/
def normalize (chain : Chain) (declared : Declared.Interface) : Interface × List Warning :=
  let (converted, run) := (convert declared).run chain.resolve .start
  let generated := run.generated.toList
  let appended := generated.filter fun d => !converted.types.contains d.name
  let skipped := generated.filter fun d => converted.types.contains d.name
  ({ address := declared.address
     version := declared.version
     name := declared.name
     instructions := converted.instructions
     accounts := converted.accounts
     types := converted.types.toList ++ appended
     errors := declared.errors
     metadata := declared.metadata
     extra := declared.extra },
   run.warnings ++ skipped.map fun d => .definitionSkipped d.name)

/-- Lifting keeps the number of accounts. -/
theorem length_accounts (resolver : Resolver) (types : Definitions)
    (declared : List Declared.Account) (run : Run) :
    ((accounts types declared).run resolver run).1.1.length = declared.length := by
  induction declared generalizing types run with
  | nil => rfl
  | cons first rest ih => simp [accounts, ih]

end Anchor

end CanonicalIdl
