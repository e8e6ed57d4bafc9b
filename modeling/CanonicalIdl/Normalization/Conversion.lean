import CanonicalIdl.Declared.Basic
import CanonicalIdl.Interface.Basic
import CanonicalIdl.Resolution.Script

/-!
# Conversion of declared parts

Every type occurrence of a declared part becomes a tree.  Shapes that the generator wrote
out are kept; names are left to a resolver.  Conversion is a script, so that it does not
depend on how names are resolved.

Main results:

- Theorem `AccountItem.name_rename`: the name of a renamed item.
-/

namespace CanonicalIdl

open Declared (TypeExpr GenericArgument)

namespace Conversion

mutual

/-- The tree of a declared type.  The arguments of a `defined` type replace those of the
reference that its name resolves to; where the name resolves to anything else they are
not looked at. -/
def type : TypeExpr → Script TypeTree
  | .named name => Script.ask name.toList
  | .option inner => (type inner).bind fun inner => .done (.option inner)
  | .coption inner => (type inner).bind fun inner => .done (.option inner)
  | .vec inner => (type inner).bind fun inner => .done (.vec inner)
  | .array element length => (type element).bind fun element => .done (.array element length)
  | .tuple items => (types items).bind fun items => .done (.tuple items)
  | .hashMap key value =>
    (type key).bind fun key => (type value).bind fun value => .done (.hashMap key value)
  | .bTreeMap key value =>
    (type key).bind fun key => (type value).bind fun value => .done (.bTreeMap key value)
  | .defined name => Script.ask name.toList
  | .applied name args =>
    (Script.ask name.toList).bind fun tree =>
      match tree with
      | .reference name _ =>
        if args.isEmpty then .done tree
        else (arguments args).bind fun trees => .done (.reference name trees)
      | tree => .done tree
  | .generic name => .done (.bare name)

/-- The trees of declared types. -/
def types : List TypeExpr → Script (List TypeTree)
  | [] => .done []
  | item :: rest =>
    (type item).bind fun item => (types rest).bind fun rest => .done (item :: rest)

/-- The tree of an argument.  A constant is dropped with a warning. -/
def argument : GenericArgument → Script (Option TypeTree)
  | .type item => (type item).bind fun item => .done (some item)
  | .const value => .warn (.constArgumentDropped value) (.done none)

/-- The trees of arguments, without the constants. -/
def arguments : List GenericArgument → Script (List TypeTree)
  | [] => .done []
  | item :: rest =>
    (argument item).bind fun item =>
      (arguments rest).bind fun rest => .done (item.toList ++ rest)

end

/-- A field with its name in another spelling. -/
def field (rename : String → String) (declared : Field TypeExpr) : Script (Field TypeTree) := do
  let tree ← type declared.type
  return { name := rename declared.name, docs := declared.docs, type := tree }

/-- Named or positional fields. -/
def fields (rename : String → String) : Fields TypeExpr → Script (Fields TypeTree)
  | .named items => do return .named (← Script.each (field rename) items)
  | .tuple items => do return .tuple (← Script.each type items)

/-- A variant.  Its own name is kept. -/
def variant (rename : String → String) (declared : Variant TypeExpr) :
    Script (Variant TypeTree) := do
  match declared.fields with
  | none => return { name := declared.name, fields := none }
  | some items =>
    let items ← fields rename items
    return { name := declared.name, fields := some items }

/-- The body of a definition or an account. -/
def body (rename : String → String) : Body TypeExpr → Script (Body TypeTree)
  | .struct items => do return .struct (← fields rename items)
  | .enum variants => do return .enum (← Script.each (variant rename) variants)
  | .aliasOf item => do return .aliasOf (← type item)

/-- A type definition.  Its own name is kept. -/
def definition (rename : String → String) (declared : Declared.Definition) :
    Script Definition := do
  let body ← body rename declared.body
  return {
    name := declared.name, docs := declared.docs, generics := declared.generics, body,
    extra := declared.extra }

/-- The inline body of an account; an account without one gets the empty struct. -/
def accountBody (rename : String → String) (account : Declared.Account) :
    Script (Body TypeTree) :=
  match account.body with
  | some declared => body rename declared
  | none => .warn (.accountWithoutBody account.name) (.done .emptyStruct)

end Conversion

mutual

/-- Account items with their names in another spelling, at every depth. -/
def AccountItem.rename (f : String → String) : AccountItem → AccountItem
  | .reference slot => .reference { slot with name := f slot.name }
  | .collection name members => .collection (f name) (AccountItem.renameItems f members)

/-- A list of account items with their names in another spelling. -/
def AccountItem.renameItems (f : String → String) : List AccountItem → List AccountItem
  | [] => []
  | item :: rest => AccountItem.rename f item :: AccountItem.renameItems f rest

end

/-- A discriminator that was declared with eight bytes. -/
def declaredDiscriminator? (bytes : Option (List UInt8)) : Option Discriminator :=
  bytes.bind Discriminator.ofBytes?

/-- An instruction with a discriminator. -/
def Conversion.instruction (rename : String → String) (discriminator : Option Discriminator)
    (declared : Declared.Instruction) : Script Instruction := do
  let args ← Script.each (Conversion.field rename) declared.args
  return {
    name := rename declared.name, docs := declared.docs, discriminator,
    accounts := AccountItem.renameItems rename declared.accounts, args,
    omitsMissing := declared.omitsMissing, extra := declared.extra }

theorem AccountItem.name_rename (f : String → String) (item : AccountItem) :
    (item.rename f).name = f item.name := by
  cases item <;> simp [AccountItem.rename, AccountItem.name]

theorem AccountItem.renameItems_eq_map (f : String → String) (items : List AccountItem) :
    AccountItem.renameItems f items = items.map (AccountItem.rename f) := by
  induction items with
  | nil => rfl
  | cons item rest ih => simp [AccountItem.renameItems, ih]

end CanonicalIdl
