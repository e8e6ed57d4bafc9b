import CanonicalIdl.Proofs.Normalization.Plain
import CanonicalIdl.Proofs.Resolution.Levels

/-!
# Types on the plain path

On the path of shank a type occurrence is converted by itself: a name is a primitive word or
a reference, and every other shape stays over converted parts.  Such a tree is read as what
it is when it is written out and converted again, unless a parameter has the name of a
primitive.

Main results:

- Theorem `value_type`: conversion on the plain path is the tree of the declared type.
- Theorem `isReread_plainTree`: the tree of a declared type of which no parameter is a primitive
  word is read as what it is.
-/

namespace CanonicalIdl

open TypeTree
open Declared (TypeExpr GenericArgument)

/-! ## Trees of declared types -/

namespace Declared

namespace TypeExpr

section Trees

variable (table : PrimitiveWords)

mutual

/-- The tree of a declared type.  A name in front of arguments that is a primitive word stands
without them. -/
def plainTree : TypeExpr → TypeTree
  | .named name | .defined name => (table.lookup? name.toList).getD (.bare name)
  | .option inner | .coption inner => .option (plainTree inner)
  | .vec inner => .vec (plainTree inner)
  | .array element length => .array (plainTree element) length
  | .tuple items => .tuple (plainTrees items)
  | .hashMap key value => .hashMap (plainTree key) (plainTree value)
  | .bTreeMap key value => .bTreeMap (plainTree key) (plainTree value)
  | .applied name arguments =>
    (table.lookup? name.toList).getD (.reference name (plainArguments arguments))
  | .generic name => .bare name

/-- The trees of declared types. -/
def plainTrees : List TypeExpr → List TypeTree
  | [] => []
  | item :: rest => plainTree item :: plainTrees rest

/-- The trees of the arguments that are types. -/
def plainArguments : List GenericArgument → List TypeTree
  | [] => []
  | .type item :: rest => plainTree item :: plainArguments rest
  | .const _ :: rest => plainArguments rest

end

end Trees

mutual

/-- The names of the parameters in a declared type, at every depth. -/
def genericNames : TypeExpr → List String
  | .named _ | .defined _ => []
  | .option inner | .coption inner | .vec inner | .array inner _ => genericNames inner
  | .tuple items => genericNamesOf items
  | .hashMap key value | .bTreeMap key value => genericNames key ++ genericNames value
  | .applied _ arguments => argumentGenericNames arguments
  | .generic name => [name]

/-- The names of the parameters in some declared types. -/
def genericNamesOf : List TypeExpr → List String
  | [] => []
  | item :: rest => genericNames item ++ genericNamesOf rest

/-- The names of the parameters in some arguments. -/
def argumentGenericNames : List GenericArgument → List String
  | [] => []
  | .type item :: rest => genericNames item ++ argumentGenericNames rest
  | .const _ :: rest => argumentGenericNames rest

end

end TypeExpr

end Declared

/-- The root and the children of a tree decide whether it is read as what it is. -/
theorem TypeTree.isReread_of_children {read : List Char → TypeTree} {tree : TypeTree}
    (hroot : tree.NodeIsReread read) (hchildren : ∀ child ∈ tree.children, child.IsReread read) :
    tree.IsReread read := by
  intro node hnode
  rw [walk_eq, List.mem_cons, List.mem_flatMap] at hnode
  rcases hnode with rfl | ⟨child, hchild, hnode⟩
  · exact hroot
  · exact hchildren child hchild node hnode

/-! ## Conversion -/

namespace Shank

open Declared.TypeExpr

section Values

variable (table : PrimitiveWords)

mutual

/-- Conversion on the plain path comes to the tree of the declared type. -/
theorem value_type : (t : TypeExpr) → (Conversion.type t).value (read table) = t.plainTree table
  | .named name | .defined name => by simp [Conversion.type, plainTree, read]
  | .generic name => rfl
  | .option inner | .coption inner | .vec inner | .array inner _ => by
    simp [Conversion.type, plainTree, value_type inner]
  | .tuple items => by simp [Conversion.type, plainTree, value_types items]
  | .hashMap key value | .bTreeMap key value => by
    simp [Conversion.type, plainTree, value_type key, value_type value]
  | .applied name arguments => by
    have harguments := value_arguments arguments
    simp only [Conversion.type, Script.value_bind, Script.value_ask, plainTree, read]
    cases hlookup : table.lookup? name.toList with
    | none =>
      simp only [Option.getD_none, String.ofList_toList]
      cases arguments with
      | nil => rfl
      | cons argument rest => simp [harguments]
    | some tree =>
      cases tree with
      | reference found items => exact absurd hlookup PrimitiveWords.lookup?_ne_reference
      | _ => rfl

theorem value_types : (items : List TypeExpr) →
    (Conversion.types items).value (read table) = plainTrees table items
  | [] => rfl
  | item :: rest => by simp [Conversion.types, plainTrees, value_type item, value_types rest]

theorem value_arguments : (items : List GenericArgument) →
    (Conversion.arguments items).value (read table) = plainArguments table items
  | [] => rfl
  | .type item :: rest => by
    simp [Conversion.arguments, Conversion.argument, plainArguments, value_type item,
      value_arguments rest]
  | .const value :: rest => by
    simp [Conversion.arguments, Conversion.argument, plainArguments, value_arguments rest]

end

end Values

/-! ## Trees that are read as what they are -/

variable {table : PrimitiveWords}

/-- A reference whose name is no primitive word is read as what it is if its arguments are. -/
theorem isReread_reference {name : String} {arguments : List TypeTree}
    (hname : table.lookup? name.toList = none)
    (harguments : ∀ argument ∈ arguments, argument.IsReread (read table)) :
    (reference name arguments).IsReread (read table) := by
  refine isReread_of_children ?_ harguments
  rw [NodeIsReread, read, hname, Option.getD_none, String.ofList_toList]

/-- The tree of a primitive word is read as what it is. -/
theorem isReread_tree (p : Primitive) : (table.tree p).IsReread (read table) := by
  refine isReread_of_names (fun q hq => ?_) (fun name hname => ?_)
  · have hsettled := isSettled_tree p q hq
    rw [read, PrimitiveWords.lookup?, Primitive.ofWord?_spelling]
    exact hsettled
  · cases table <;> cases p <;>
      simp [PrimitiveWords.tree, byteArray, names, walk, referenceName?] at hname

/-- A primitive word is read as what it is, and so is any other name if what takes its place
is. -/
theorem isReread_lookup {name : String} {other : TypeTree}
    (hother : table.lookup? name.toList = none → other.IsReread (read table)) :
    ((table.lookup? name.toList).getD other).IsReread (read table) := by
  cases hlookup : table.lookup? name.toList with
  | none => exact hother hlookup
  | some tree =>
    obtain ⟨p, -, rfl⟩ := Option.map_eq_some_iff.mp hlookup
    exact isReread_tree p

mutual

/-- The tree of a declared type of which no parameter is a primitive word is read as what it
is. -/
theorem isReread_plainTree : (t : TypeExpr) →
    (∀ name ∈ t.genericNames, table.lookup? name.toList = none) →
    (t.plainTree table).IsReread (read table)
  | .named _, _ | .defined _, _ =>
    isReread_lookup fun hname => isReread_reference hname (List.forall_mem_nil _)
  | .generic name, h => isReread_reference (h name (.head _)) (List.forall_mem_nil _)
  | .option inner, h | .coption inner, h | .vec inner, h | .array inner _, h =>
    isReread_of_children trivial (List.forall_mem_singleton.mpr (isReread_plainTree inner h))
  | .tuple items, h => isReread_of_children trivial (isReread_plainTrees items h)
  | .hashMap key value, h | .bTreeMap key value, h => by
    obtain ⟨hkey, hvalue⟩ := List.forall_mem_append.mp h
    have hboth : ∀ child ∈ [key.plainTree table, value.plainTree table],
        child.IsReread (read table) := List.forall_mem_cons.mpr
      ⟨isReread_plainTree key hkey, List.forall_mem_singleton.mpr (isReread_plainTree value hvalue)⟩
    exact isReread_of_children trivial hboth
  | .applied _ arguments, h =>
    isReread_lookup fun hname => isReread_reference hname (isReread_plainArguments arguments h)

theorem isReread_plainTrees : (items : List TypeExpr) →
    (∀ name ∈ genericNamesOf items, table.lookup? name.toList = none) →
    ∀ tree ∈ plainTrees table items, tree.IsReread (read table)
  | [], _ => List.forall_mem_nil _
  | item :: rest, h => by
    obtain ⟨hitem, hrest⟩ := List.forall_mem_append.mp h
    exact List.forall_mem_cons.mpr ⟨isReread_plainTree item hitem, isReread_plainTrees rest hrest⟩

theorem isReread_plainArguments : (items : List GenericArgument) →
    (∀ name ∈ argumentGenericNames items, table.lookup? name.toList = none) →
    ∀ tree ∈ plainArguments table items, tree.IsReread (read table)
  | [], _ => List.forall_mem_nil _
  | .type item :: rest, h => by
    obtain ⟨hitem, hrest⟩ := List.forall_mem_append.mp h
    exact List.forall_mem_cons.mpr
      ⟨isReread_plainTree item hitem, isReread_plainArguments rest hrest⟩
  | .const _ :: rest, h => isReread_plainArguments rest h

end

end Shank

end CanonicalIdl
