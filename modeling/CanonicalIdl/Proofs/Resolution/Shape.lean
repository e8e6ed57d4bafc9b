import CanonicalIdl.Proofs.Text.Trimming
import CanonicalIdl.Resolution.Chain

/-!
# One level of a type expression

Resolving an expression looks at one level of its text and leaves the expressions inside
it to the next level.  The shape of a text is what one level says: which rule decides,
and which expressions stand in it.  Under the built-in rules a shape says all that
resolution does at its level, so the tree of an expression is read off level by level
and does not depend on what the run has brought about.

Main results:

- Theorem `matcher_eq_attempt`: a built-in rule is the script of the shape that it finds.
- Theorem `decideOn_plain`: the built-in rules carry out the script of the shape.
- Theorem `resolve_plain`: the tree of an expression is read off its shapes.
- Theorem `ofText_eq_readWithin`: the same for the standard table.
-/

namespace CanonicalIdl

open Text

/-- What one level of a type expression says, the expressions in it as text. -/
inductive Shape where
  | primitive (p : Primitive)
  | map (base key value : List Char)
  | vec (inner : List Char)
  | tuple (items : List (List Char))
  | option (inner : List Char)
  | array (element : List Char) (length : UInt64)
  | node
  | bare (name : List Char)
  | applied (name : List Char) (arguments : List (List Char))
  deriving DecidableEq

namespace Builtin

/-- A name that a map may have. -/
def isMapName (name : List Char) : Bool :=
  isQualifiedName name && "Map".toList.isSuffixOf (lastSegment name)

/-- The items of a tuple with the given inside. -/
def tupleItems (inner : List Char) : List (List Char) :=
  if (trim inner).isEmpty then [] else commaItems (trim inner)

/-- The shape of a name applied to one argument. -/
def singleShape? (name : String) (shape : List Char → Shape) (text : List Char) : Option Shape :=
  let application := Application.ofText text
  match application.arguments with
  | [inner] => if application.name = name.toList then some (shape inner) else none
  | _ => none

/-- The shape that a built-in rule finds in a text. -/
def shape? : Builtin → List Char → Option Shape
  | .map, text =>
    let application := Application.ofText text
    match application.arguments with
    | [key, value] =>
      if isMapName application.name then some (.map (lastSegment application.name) key value)
      else none
    | _ => none
  | .vec, text => singleShape? "Vec" .vec text
  | .tuple, text => (between? '(' ')' text).map fun inner => .tuple (tupleItems inner)
  | .option, text => singleShape? "Option" .option text
  | .array, text =>
    ((between? '[' ']' text).bind (splitAtLast? ';')).bind fun (element, length) =>
      (readWord? (trim length)).map fun length => .array element length
  | .node, text => if text = "Node".toList then some .node else none

end Builtin

namespace Shape

/-- The shape of a text that no rule accepts. -/
def unknown (text : List Char) : Shape :=
  let application := Application.ofText text
  if application.arguments.isEmpty then .bare text
  else .applied application.name application.arguments

/-- The shape of a trimmed text. -/
def ofText (text : List Char) : Shape :=
  match Primitive.ofWord? text with
  | some p => .primitive p
  | none => (Builtin.all.findSome? (·.shape? text)).getD (unknown text)

/-- What a resolution does about a shape. -/
def script (table : PrimitiveWords) : Shape → Script TypeTree
  | .primitive p => return table.tree p
  | .map base key value => do
    let key ← Script.ask key
    let value ← Script.ask value
    return Builtin.mapTree base key value
  | .vec inner => do
    let inner ← Script.ask inner
    return .vec inner
  | .tuple items => do
    let items ← Script.askEach items
    return .tuple items
  | .option inner => do
    let inner ← Script.ask inner
    return .option inner
  | .array element length => do
    let element ← Script.ask element
    return .array element length
  | .node => return .byteArray 32
  | .bare name => return .bare (String.ofList name)
  | .applied name arguments => do
    let arguments ← Script.askEach arguments
    return .reference (String.ofList name) arguments

/-- The tree of a shape, the expressions in it read by `read`. -/
def tree (table : PrimitiveWords) (read : List Char → TypeTree) : Shape → TypeTree
  | .primitive p => table.tree p
  | .map base key value => Builtin.mapTree base (read key) (read value)
  | .vec inner => .vec (read inner)
  | .tuple items => .tuple (items.map read)
  | .option inner => .option (read inner)
  | .array element length => .array (read element) length
  | .node => .byteArray 32
  | .bare name => .bare (String.ofList name)
  | .applied name arguments => .reference (String.ofList name) (arguments.map read)

end Shape

/-! ## Shapes decide -/

@[simp] theorem Script.run_askEach_nil (resolver : Resolver) (run : Run) :
    (Script.askEach []).run resolver run = ([], run) := rfl

theorem Script.run_askEach_cons (resolver : Resolver) (text : List Char)
    (rest : List (List Char)) (run : Run) :
    (Script.askEach (text :: rest)).run resolver run =
      let (first, run) := resolver text run
      let (others, run) := (Script.askEach rest).run resolver run
      (first :: others, run) := by
  simp [Script.askEach, Script.each, Script.run_bind]

/-- Scripts may be put together from either end. -/
theorem Script.bind_assoc {α β γ : Type} (script : Script α) (f : α → Script β)
    (g : β → Script γ) : (script.bind f).bind g = script.bind fun a => (f a).bind g := by
  induction script with
  | done a => rfl
  | resolve expression next ih =>
    rw [bind, bind, bind]
    congr 1
    funext tree
    exact ih tree
  | register definition next ih => rw [bind, bind, bind, ih]
  | warn warning next ih => rw [bind, bind, bind, ih]

/-- The outcome of a rule, from the outcome of the script for the shape that it finds. -/
def Shape.outcome (table : PrimitiveWords) (resolver : Resolver) (run : Run) :
    Option Shape → Option TypeTree × Run
  | none => (none, run)
  | some shape =>
    let (tree, run) := (shape.script table).run resolver run
    (some tree, run)

@[simp] theorem Shape.outcome_none (table : PrimitiveWords) (resolver : Resolver) (run : Run) :
    outcome table resolver run none = (none, run) := rfl

@[simp] theorem Shape.outcome_some (table : PrimitiveWords) (resolver : Resolver) (run : Run)
    (shape : Shape) :
    outcome table resolver run (some shape) =
      (some ((shape.script table).run resolver run).1,
        ((shape.script table).run resolver run).2) := rfl

/-- What is done about a shape that a rule has found, if it has found one. -/
def Shape.attempt (table : PrimitiveWords) : Option Shape → Script (Option TypeTree)
  | none => .done none
  | some shape => (shape.script table).bind fun tree => .done (some tree)

namespace Builtin

variable (table : PrimitiveWords) (text : List Char)

theorem matchSingle_eq_attempt {name : String} {wrap : TypeTree → TypeTree}
    {shape : List Char → Shape}
    (hshape : ∀ inner, (shape inner).script table =
      (Script.ask inner).bind fun tree => .done (wrap tree)) :
    matchSingle name wrap text = Shape.attempt table (singleShape? name shape text) := by
  simp only [matchSingle, singleShape?]
  generalize Application.ofText text = application
  obtain ⟨front, arguments⟩ := application
  by_cases hname : front = name.toList
  · rcases arguments with _ | ⟨inner, _ | ⟨next, rest⟩⟩
    · simp only [hname, if_true]
      rfl
    · simp only [hname, if_true, Shape.attempt, hshape]
      rfl
    · simp only [hname, if_true]
      rfl
  · rcases arguments with _ | ⟨inner, _ | ⟨next, rest⟩⟩ <;>
    · simp only [hname, if_false]
      rfl

theorem matchMap_eq_attempt :
    matchMap text = Shape.attempt table (map.shape? text) := by
  simp only [matchMap, shape?, isMapName]
  generalize Application.ofText text = application
  obtain ⟨name, arguments⟩ := application
  by_cases hname : (isQualifiedName name && "Map".toList.isSuffixOf (lastSegment name)) = true
  · simp only [hname, if_true]
    rcases arguments with _ | ⟨key, _ | ⟨value, _ | ⟨next, rest⟩⟩⟩ <;> rfl
  · simp only [hname]
    rcases arguments with _ | ⟨key, _ | ⟨value, _ | ⟨next, rest⟩⟩⟩ <;> rfl

theorem matchTuple_eq_attempt :
    matchTuple text = Shape.attempt table (tuple.shape? text) := by
  simp only [matchTuple, shape?]
  cases between? '(' ')' text with
  | none => rfl
  | some inner =>
    simp only [Option.map_some, tupleItems]
    split
    · rfl
    · have hassoc := Script.bind_assoc (Script.askEach (commaItems (trim inner)))
        (fun items => .done (TypeTree.tuple items)) fun tree => .done (some tree)
      exact hassoc.symm

theorem matchArray_eq_attempt :
    matchArray text = Shape.attempt table (array.shape? text) := by
  simp only [matchArray, shape?]
  cases (between? '[' ']' text).bind (splitAtLast? ';') with
  | none => rfl
  | some parts =>
    obtain ⟨element, length⟩ := parts
    simp only [Option.bind_some]
    cases readWord? (trim length) <;> rfl

/-- A built-in rule is the script of the shape that it finds.  So it asks for nothing where it
finds none. -/
theorem matcher_eq_attempt (builtin : Builtin) :
    builtin.matcher text = Shape.attempt table (builtin.shape? text) := by
  cases builtin with
  | map => exact matchMap_eq_attempt table text
  | vec => exact matchSingle_eq_attempt table text fun inner => rfl
  | tuple => exact matchTuple_eq_attempt table text
  | option => exact matchSingle_eq_attempt table text fun inner => rfl
  | array => exact matchArray_eq_attempt table text
  | node =>
    simp only [matcher, matchNode, shape?]
    split <;> rfl

/-- A built-in rule does what the shape that it finds says. -/
theorem run_matcher (resolver : Resolver) (run : Run) (builtin : Builtin) :
    (builtin.matcher text).run resolver run =
      Shape.outcome table resolver run (builtin.shape? text) := by
  rw [matcher_eq_attempt table]
  cases builtin.shape? text with
  | none => rfl
  | some shape => simp [Shape.attempt, Script.run_bind]

end Builtin

namespace Chain

variable (table : PrimitiveWords) (resolver : Resolver) (text : List Char) (run : Run)

/-- The first built-in rule that finds a shape decides. -/
theorem tryMatchers_builtins (builtins : List Builtin) :
    tryMatchers resolver (builtins.map Builtin.matcher) text run =
      Shape.outcome table resolver run (builtins.findSome? (·.shape? text)) := by
  induction builtins with
  | nil => rfl
  | cons builtin rest ih =>
    rw [List.map_cons, tryMatchers, Builtin.run_matcher table, List.findSome?_cons]
    cases builtin.shape? text with
    | none => simpa using ih
    | some shape => rfl

theorem run_referenceScript :
    (referenceScript text).run resolver run =
      ((Shape.unknown text).script table).run resolver run := by
  simp only [referenceScript, Shape.unknown]
  split <;> rfl

/-- Under the built-in rules the shape of a text says all that its level does. -/
theorem decideOn_plain :
    (plain table).decideOn resolver text run =
      ((Shape.ofText text).script table).run resolver run := by
  simp only [decideOn, plain, PrimitiveWords.lookup?, Shape.ofText]
  cases Primitive.ofWord? text with
  | some p => rfl
  | none =>
    simp only [Option.map_none, tryMatchers_builtins table]
    cases Builtin.all.findSome? (·.shape? text) with
    | some shape => rfl
    | none =>
      simp only [Shape.outcome_none, tryExtensions, Option.toList_none, tryMatchers,
        Option.getD_none]
      exact run_referenceScript table resolver text run

end Chain

/-! ## Reading a tree level by level -/

/-- The tree of an expression, read off its shapes for so many levels. -/
def TypeTree.readWithin (table : PrimitiveWords) : Nat → List Char → TypeTree
  | 0, text => .bare (String.ofList (trim text))
  | levels + 1, text => (Shape.ofText (trim text)).tree table (readWithin table levels)

/-- Blanks around a text do not matter for its tree. -/
theorem TypeTree.readWithin_trim (table : PrimitiveWords) (levels : Nat) (text : List Char) :
    readWithin table levels (trim text) = readWithin table levels text := by
  cases levels with
  | zero => rw [readWithin, readWithin, trim_trim]
  | succ levels => rw [readWithin, readWithin, trim_trim]

/-- One level of the tree of a trimmed text. -/
theorem TypeTree.readWithin_succ (table : PrimitiveWords) (levels : Nat) {text : List Char}
    (h : Trimmed text) :
    readWithin table (levels + 1) text =
      (Shape.ofText text).tree table (readWithin table levels) := by
  rw [readWithin, show trim text = text from h]

section Reading

variable {resolver : Resolver} {read : List Char → TypeTree}

theorem Script.run_askEach_fst (h : ∀ text run, (resolver text run).1 = read text)
    (texts : List (List Char)) (run : Run) :
    ((Script.askEach texts).run resolver run).1 = texts.map read := by
  induction texts generalizing run with
  | nil => rfl
  | cons text rest ih => simp [Script.run_askEach_cons, h, ih]

/-- Where the parts of a shape are read without regard to the run, so is the shape. -/
theorem Shape.run_script_fst (h : ∀ text run, (resolver text run).1 = read text)
    (table : PrimitiveWords) (shape : Shape) (run : Run) :
    ((shape.script table).run resolver run).1 = shape.tree table read := by
  cases shape <;> simp [script, tree, h, Script.run_askEach_fst h]

end Reading

/-- Under the built-in rules the tree of an expression is read off its shapes. -/
theorem Chain.resolve_plain (table : PrimitiveWords) (levels : Nat) (text : List Char)
    (run : Run) :
    ((plain table).resolveWithin levels text run).1 = TypeTree.readWithin table levels text := by
  induction levels generalizing text run with
  | zero => rfl
  | succ levels ih =>
    rw [resolveWithin_succ, decideOn_plain]
    exact Shape.run_script_fst ih table _ run

/-- The tree of a text is read off its shapes, by the standard table and for 64 levels. -/
theorem TypeTree.ofText_eq_readWithin (text : String) :
    TypeTree.ofText text = readWithin .standard Chain.depthLimit text.toList :=
  Chain.resolve_plain .standard Chain.depthLimit text.toList .start

end CanonicalIdl
