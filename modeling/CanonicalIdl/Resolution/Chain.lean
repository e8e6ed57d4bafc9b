import CanonicalIdl.Resolution.Builtin
import CanonicalIdl.Resolution.PrimitiveWords

/-!
# Resolution of type expressions

A chain holds a trimmed expression against the primitive table, then against the
built-in shapes, then against the caller's extensions and a fallback.  What nothing
accepts becomes a reference: an application keeps its name and gets its arguments
resolved, any other text is a name as it stands.

Resolution is total.  Expressions inside one another are followed for 64 levels, and
what is nested deeper stays a reference with its text as name.

Main results:

- Theorem `resolveWithin_zero`: below the last level a text is kept as it stands.
- Theorem `resolveWithin_of_lookup`: primitive words resolve by the table alone.
-/

namespace CanonicalIdl

open Text

/-- Names with the expressions that they stand for, sorted by name. -/
abbrev AliasTable := List (String × String)

/-- What a caller adds to the built-in shapes. -/
inductive Extension where
  | matcher (rule : Matcher)
  | aliases (table : AliasTable)

/-- The order of resolution. -/
structure Chain where
  table : PrimitiveWords
  builtins : List Builtin
  extensions : List Extension
  fallback : Option Matcher

namespace Chain

/-- The levels of nesting that resolution follows. -/
def depthLimit : Nat := 64

/-- The built-in shapes alone. -/
def plain (table : PrimitiveWords) : Chain :=
  { table, builtins := Builtin.all, extensions := [], fallback := none }

/-- The built-in shapes under the standard table. -/
def standard : Chain := plain .standard

/-- Try matchers one after another. -/
def tryMatchers (resolver : Resolver) : List Matcher → List Char → Run → Option TypeTree × Run
  | [], _, run => (none, run)
  | rule :: rest, text, run =>
    match (rule text).run resolver run with
    | (some tree, run) => (some tree, run)
    | (none, run) => tryMatchers resolver rest text run

/-- Resolve the expression that a name stands for in the table at a place.  A name that is
reached again while its own expression is being resolved is declined by this table, so that a
cycle ends. -/
def expandAlias (resolver : Resolver) (place : Nat) (table : AliasTable) (text : List Char)
    (run : Run) : Option TypeTree × Run :=
  let name := String.ofList text
  match table.lookup name with
  | none => (none, run)
  | some target =>
    if run.expanding.contains (place, name) then (none, run)
    else
      let (tree, run) := resolver target.toList
        { run with expanding := (place, name) :: run.expanding }
      (some tree, { run with expanding := run.expanding.tail })

/-- Try the extension at a place. -/
def tryExtension (resolver : Resolver) (place : Nat) :
    Extension → List Char → Run → Option TypeTree × Run
  | .matcher rule, text, run => (rule text).run resolver run
  | .aliases table, text, run => expandAlias resolver place table text run

/-- Try extensions one after another, of which the first is at a place. -/
def tryExtensions (resolver : Resolver) (place : Nat) :
    List Extension → List Char → Run → Option TypeTree × Run
  | [], _, run => (none, run)
  | extension :: rest, text, run =>
    match tryExtension resolver place extension text run with
    | (some tree, run) => (some tree, run)
    | (none, run) => tryExtensions resolver (place + 1) rest text run

/-- A text that nothing accepts, as a reference. -/
def referenceScript (text : List Char) : Script TypeTree :=
  let application := Application.ofText text
  if application.arguments.isEmpty then return .bare (String.ofList text)
  else do
    let arguments ← Script.askEach application.arguments
    return .reference (String.ofList application.name) arguments

/-- Decide on a trimmed expression, the expressions inside it resolved by `resolver`. -/
def decideOn (chain : Chain) (resolver : Resolver) (text : List Char) (run : Run) :
    TypeTree × Run :=
  match chain.table.lookup? text with
  | some tree => (tree, run)
  | none =>
    match tryMatchers resolver (chain.builtins.map Builtin.matcher) text run with
    | (some tree, run) => (tree, run)
    | (none, run) =>
      match tryExtensions resolver 0 chain.extensions text run with
      | (some tree, run) => (tree, run)
      | (none, run) =>
        match tryMatchers resolver chain.fallback.toList text run with
        | (some tree, run) => (tree, run)
        | (none, run) => (referenceScript text).run resolver run

/-- Resolve an expression, following so many levels of nesting. -/
def resolveWithin (chain : Chain) : Nat → Resolver
  | 0, text, run => (.bare (String.ofList (trim text)), run.warn .nestedTooDeep)
  | levels + 1, text, run => chain.decideOn (chain.resolveWithin levels) (trim text) run

/-- Resolve an expression. -/
def resolve (chain : Chain) : Resolver :=
  chain.resolveWithin depthLimit

/-- The tree of an expression under a chain, in a run of its own. -/
def resolved (chain : Chain) (text : String) : TypeTree :=
  (chain.resolve text.toList .start).1

/-- A name that is declined by one table may be expanded by another one. -/
example :
    { standard with
        extensions := [.aliases [("Loop", "Option<Loop>")], .aliases [("Loop", "u8")]] }.resolved
      "Loop" = .option (.primitive .u8) := by
  decide

/-- What a single built-in shape makes of a text that stands at the outermost level.  The
text is taken as it is, and the expressions inside it go through the whole chain. -/
def matched (chain : Chain) (builtin : Builtin) (text : String) : Option TypeTree :=
  ((builtin.matcher text.toList).run chain.resolve .start).1

/-! ## Small facts -/

/-- Below the last level a text is kept as it stands. -/
@[simp] theorem resolveWithin_zero (chain : Chain) (text : List Char) (run : Run) :
    chain.resolveWithin 0 text run =
      (.bare (String.ofList (trim text)), run.warn .nestedTooDeep) := rfl

theorem resolveWithin_succ (chain : Chain) (levels : Nat) (text : List Char) (run : Run) :
    chain.resolveWithin (levels + 1) text run =
      chain.decideOn (chain.resolveWithin levels) (trim text) run := rfl

/-- A primitive word resolves by the table alone. -/
theorem resolveWithin_of_lookup {chain : Chain} {levels : Nat} {text : List Char} {run : Run}
    {tree : TypeTree} (h : chain.table.lookup? (trim text) = some tree) :
    chain.resolveWithin (levels + 1) text run = (tree, run) := by
  simp [resolveWithin_succ, decideOn, h]

end Chain

/-- The tree of an expression under the built-in shapes and the standard table. -/
def TypeTree.ofText (text : String) : TypeTree :=
  Chain.standard.resolved text

end CanonicalIdl
