import CanonicalIdl.Application
import CanonicalIdl.Resolution.Script

/-!
# Matchers for callers

Rules that a caller may add to a chain: names that stand for another type, markers in
front of an optional type, and containers that come with the definition of their entries.
-/

namespace CanonicalIdl.Matcher

open Text

/-- Accept nothing. -/
def never : Matcher := fun _ => return none

/-- One text stands for another expression. -/
def standsFor (name target : String) : Matcher := fun text =>
  if text = name.toList then do
    let tree ← Script.ask target.toList
    return some tree
  else return none

/-- Every text with an ending stands for another expression. -/
def endsIn (ending target : String) : Matcher := fun text =>
  if ending.toList.isSuffixOf text then do
    let tree ← Script.ask target.toList
    return some tree
  else return none

/-- What stands behind a marker is optional. -/
def optionalAfter (marker : String) : Matcher := fun text =>
  if marker.toList.isPrefixOf text then do
    let inner ← Script.ask (text.drop marker.length)
    return some (.option inner)
  else return none

/-- The name of the entries of a container. -/
def entryName (base : List Char) : String :=
  String.ofList (base ++ "Entry".toList)

/-- A name in `…Set` is a vector of entries of its own; the entries of data items are
defined along with them. -/
def entrySet : Matcher := fun text =>
  if "Set".toList.isSuffixOf text then do
    let entry := entryName (text.take (text.length - 3))
    Script.tell (.simple entry .emptyStruct)
    Script.tell (.simple "DataItemEntry" .emptyStruct)
    return some (.vec (.bare entry))
  else return none

/-- The definition of an entry with a key and a value. -/
def entryDefinition (name : String) (key value : TypeTree) : Definition :=
  .simple name (.struct (.named
    [{ name := "key", docs := [], type := key }, { name := "value", docs := [], type := value }]))

/-- `Entries<K, V>` is a vector of entries, which are named after `V`. -/
def entryTable : Matcher := fun text =>
  let application := Application.ofText text
  match application.arguments with
  | [key, value] =>
    if application.name = "Entries".toList then do
      let entry := entryName value
      let key ← Script.ask key
      let value ← Script.ask value
      Script.tell (entryDefinition entry key value)
      return some (.vec (.bare entry))
    else return none
  | _ => return none

end CanonicalIdl.Matcher
