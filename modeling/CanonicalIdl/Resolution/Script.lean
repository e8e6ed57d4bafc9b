import CanonicalIdl.Definitions

/-!
# Scripts

A rule that decides on a type expression may have other expressions resolved, register
type definitions and give warnings.  A script says what it does, step by step, and a run
carries it out.  A script can do nothing else: it sees only the trees that it asked for.

Main results:

- Theorem `run_bind`: a script that goes on after another one is run after it.
-/

namespace CanonicalIdl

/-- What a run has to tell besides its result. -/
inductive Warning where
  | nestedTooDeep
  | accountWithoutBody (name : String)
  | constArgumentDropped (value : String)
  | definitionSkipped (name : String)
  deriving Repr, DecidableEq

/-- The wording of a warning. -/
def Warning.message : Warning → String
  | .nestedTooDeep => "type nested deeper than 64 levels kept opaque"
  | .accountWithoutBody name =>
    "account `" ++ name ++ "` has no backing type, using an empty struct"
  | .constArgumentDropped value => "dropping const generic argument `" ++ value ++ "`"
  | .definitionSkipped name =>
    "generated type `" ++ name ++ "` collides with a declared type and is skipped"

/-- The steps of a rule towards a result. -/
inductive Script (α : Type) where
  | done (a : α)
  | resolve (expression : List Char) (next : TypeTree → Script α)
  | register (definition : Definition) (next : Script α)
  | warn (warning : Warning) (next : Script α)

namespace Script

/-- Go on with another script after the result. -/
def bind {α β : Type} : Script α → (α → Script β) → Script β
  | .done a, f => f a
  | .resolve expression next, f => .resolve expression fun tree => (next tree).bind f
  | .register definition next, f => .register definition (next.bind f)
  | .warn warning next, f => .warn warning (next.bind f)

instance : Monad Script where
  pure := .done
  bind := Script.bind

/-- Have an expression resolved. -/
def ask (expression : List Char) : Script TypeTree :=
  .resolve expression .done

/-- A script for each item of a list, one after another. -/
def each {α β : Type} (f : α → Script β) : List α → Script (List β)
  | [] => .done []
  | a :: rest => (f a).bind fun b => (each f rest).bind fun bs => .done (b :: bs)

/-- Have expressions resolved one after another. -/
def askEach : List (List Char) → Script (List TypeTree) :=
  each ask

/-- Register a definition. -/
def tell (definition : Definition) : Script Unit :=
  .register definition (.done ())

/-- Give a warning. -/
def caution (warning : Warning) : Script Unit :=
  .warn warning (.done ())

end Script

/-- What a run has brought about so far: the registered definitions and the warnings, each
in order, and the aliases being expanded, the innermost first.  An alias goes with the place that
its table has among the extensions of a chain, so that every table has a list of its own. -/
structure Run where
  registered : List Definition
  warnings : List Warning
  expanding : List (Nat × String)

namespace Run

/-- Nothing has happened yet. -/
def start : Run := ⟨[], [], []⟩

instance : Inhabited Run := ⟨start⟩

/-- A definition has been registered. -/
def register (run : Run) (definition : Definition) : Run :=
  { run with registered := run.registered ++ [definition] }

/-- A warning has been given. -/
def warn (run : Run) (warning : Warning) : Run :=
  { run with warnings := run.warnings ++ [warning] }

/-- The definitions that a run has generated, a later one in exchange for an earlier one of
its name. -/
def generated (run : Run) : Definitions := .ofList run.registered

end Run

/-- A way to resolve expressions within a run. -/
abbrev Resolver := List Char → Run → TypeTree × Run

namespace Script

/-- Carry out a script, its expressions resolved by `resolver`. -/
def run {α : Type} (resolver : Resolver) : Script α → Run → α × Run
  | .done a, state => (a, state)
  | .resolve expression next, state =>
    let (tree, state) := resolver expression state
    (next tree).run resolver state
  | .register definition next, state => next.run resolver (state.register definition)
  | .warn warning next, state => next.run resolver (state.warn warning)

@[simp] theorem run_done {α : Type} (resolver : Resolver) (a : α) (state : Run) :
    (Script.done a).run resolver state = (a, state) := rfl

@[simp] theorem run_pure {α : Type} (resolver : Resolver) (a : α) (state : Run) :
    (pure a : Script α).run resolver state = (a, state) := rfl

/-- A script that goes on after another one is run after it. -/
theorem run_bind {α β : Type} (resolver : Resolver) (script : Script α) (f : α → Script β)
    (state : Run) :
    (script.bind f).run resolver state =
      (f (script.run resolver state).1).run resolver (script.run resolver state).2 := by
  induction script generalizing state with
  | done a => rfl
  | resolve expression next ih => simp [Script.bind, run, ih]
  | register definition next ih => simp [Script.bind, run, ih]
  | warn warning next ih => simp [Script.bind, run, ih]

@[simp] theorem run_do {α β : Type} (resolver : Resolver) (script : Script α) (f : α → Script β)
    (state : Run) :
    (script >>= f).run resolver state =
      (f (script.run resolver state).1).run resolver (script.run resolver state).2 :=
  run_bind resolver script f state

@[simp] theorem run_ask (resolver : Resolver) (expression : List Char) (state : Run) :
    (ask expression).run resolver state = resolver expression state := rfl

end Script

/-- A rule for type expressions: it gives a tree, or nothing to let the next rule try. -/
abbrev Matcher := List Char → Script (Option TypeTree)

end CanonicalIdl
