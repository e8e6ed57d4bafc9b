import CanonicalIdl.Application
import CanonicalIdl.Resolution.Script
import CanonicalIdl.Text.Alphanumeric

/-!
# Built-in matchers

The shapes that every resolution knows: maps, vectors, tuples, options, arrays and the
32 byte hash called `Node`.
-/

namespace CanonicalIdl

open Text

/-- A shape of type expressions that needs no declaration. -/
inductive Builtin where
  /-- `BTreeMap<K, V>`, `VecMap<K, V>` and every other `…Map<K, V>`. -/
  | map
  /-- `Vec<T>`. -/
  | vec
  /-- `(A, B, …)`, the empty tuple included. -/
  | tuple
  /-- `Option<T>`. -/
  | option
  /-- `[T; N]`. -/
  | array
  /-- `Node`, a hash of 32 bytes. -/
  | node
  deriving Repr, DecidableEq

namespace Builtin

/-- The order in which the shapes are tried. -/
def all : List Builtin := [.map, .vec, .tuple, .option, .array, .node]

/-- Characters of a qualified name. -/
def isPathChar (c : Char) : Bool :=
  isAlphanumeric c || c == '_' || c == ':'

/-- A name that may stand in front of the arguments of a map. -/
def isQualifiedName (name : List Char) : Bool :=
  !name.isEmpty && name.all isPathChar

/-- The characters in front of the first `::`. -/
def beforeColons : List Char → List Char
  | [] => []
  | [c] => [c]
  | c :: d :: rest => if c == ':' && d == ':' then [] else c :: beforeColons (d :: rest)

/-- The part of a qualified name behind its last `::`. -/
def lastSegment (name : List Char) : List Char :=
  (beforeColons name.reverse).reverse

/-- The tree of a map whose name ends in the segment `base`. -/
def mapTree (base : List Char) (key value : TypeTree) : TypeTree :=
  if base = "BTreeMap".toList then .bTreeMap key value
  else if base = "VecMap".toList then .vec (.tuple [key, value])
  else .hashMap key value

/-- A map by the last segment of its name. -/
def matchMap : Matcher := fun text =>
  let application := Application.ofText text
  let base := lastSegment application.name
  if isQualifiedName application.name && "Map".toList.isSuffixOf base then
    match application.arguments with
    | [key, value] => do
      let key ← Script.ask key
      let value ← Script.ask value
      return some (mapTree base key value)
    | _ => return none
  else return none

/-- A name applied to one argument. -/
def matchSingle (name : String) (wrap : TypeTree → TypeTree) : Matcher := fun text =>
  let application := Application.ofText text
  if application.name = name.toList then
    match application.arguments with
    | [inner] => do
      let inner ← Script.ask inner
      return some (wrap inner)
    | _ => return none
  else return none

/-- The text between an opening and a closing character at its two ends. -/
def between? (opening closing : Char) : List Char → Option (List Char)
  | [] => none
  | c :: rest =>
    if c == opening && rest.getLast? == some closing then some rest.dropLast else none

/-- A list of expressions in round brackets. -/
def matchTuple : Matcher := fun text =>
  match between? '(' ')' text with
  | none => return none
  | some inner =>
    let inner := trim inner
    if inner.isEmpty then return some (.tuple [])
    else do
      let items ← Script.askEach (commaItems inner)
      return some (.tuple items)

/-- The texts in front of and behind the last occurrence of a character. -/
def splitAtLast? (mark : Char) (text : List Char) : Option (List Char × List Char) :=
  if text.contains mark then
    let tail := text.reverse.takeWhile (· != mark)
    some (text.take (text.length - tail.length - 1), tail.reverse)
  else none

/-- An element type and a length in square brackets. -/
def matchArray : Matcher := fun text =>
  match (between? '[' ']' text).bind (splitAtLast? ';') with
  | none => return none
  | some (element, length) =>
    match readWord? (trim length) with
    | none => return none
    | some length => do
      let element ← Script.ask element
      return some (.array element length)

/-- The word for a hash of 32 bytes. -/
def matchNode : Matcher := fun text =>
  return if text = "Node".toList then some (.byteArray 32) else none

/-- The rule of a shape. -/
def matcher : Builtin → Matcher
  | .map => matchMap
  | .vec => matchSingle "Vec" .vec
  | .tuple => matchTuple
  | .option => matchSingle "Option" .option
  | .array => matchArray
  | .node => matchNode

end Builtin

end CanonicalIdl
