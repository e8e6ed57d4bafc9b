import CanonicalIdl.Json.Value
import CanonicalIdl.Primitive
import CanonicalIdl.Text.Numeral

/-!
# Type trees

The structured form of a type.  A reference is a named type that resolves to nothing
more specific; it may be declared in the same interface or supplied from outside, and it
may be applied to arguments.

Main results:

- Theorem `same_iff`: equality of trees is decided node by node.
- Theorem `walk_head`: a visit starts with the tree itself.
-/

namespace CanonicalIdl

/-- A structured type. -/
inductive TypeTree where
  | primitive (p : Primitive)
  | option (inner : TypeTree)
  | vec (inner : TypeTree)
  | array (element : TypeTree) (length : UInt64)
  | tuple (items : List TypeTree)
  | hashMap (key value : TypeTree)
  | bTreeMap (key value : TypeTree)
  | reference (name : String) (arguments : List TypeTree)
  deriving Repr, Inhabited

namespace TypeTree

/-- A reference without arguments. -/
abbrev bare (name : String) : TypeTree := .reference name []

/-- An array of so many bytes. -/
def byteArray (length : UInt64) : TypeTree := .array (.primitive .u8) length

/-! ## Equality -/

mutual

/-- Equality of trees, node by node. -/
def same : TypeTree → TypeTree → Bool
  | .primitive p, .primitive q => p == q
  | .option a, .option b => same a b
  | .vec a, .vec b => same a b
  | .array a m, .array b n => same a b && m == n
  | .tuple as, .tuple bs => sameItems as bs
  | .hashMap k v, .hashMap k' v' => same k k' && same v v'
  | .bTreeMap k v, .bTreeMap k' v' => same k k' && same v v'
  | .reference n as, .reference m bs => n == m && sameItems as bs
  | _, _ => false

/-- Equality of lists of trees, item by item. -/
def sameItems : List TypeTree → List TypeTree → Bool
  | [], [] => true
  | a :: as, b :: bs => same a b && sameItems as bs
  | _, _ => false

end

mutual

/-- The comparison decides equality. -/
theorem same_iff : (a b : TypeTree) → (same a b = true ↔ a = b)
  | .primitive _, b => by cases b <;> simp [same]
  | .option a, b => by cases b <;> simp [same, same_iff a]
  | .vec a, b => by cases b <;> simp [same, same_iff a]
  | .array a _, b => by cases b <;> simp [same, same_iff a]
  | .tuple as, b => by cases b <;> simp [same, sameItems_iff as]
  | .hashMap k v, b => by cases b <;> simp [same, same_iff k, same_iff v]
  | .bTreeMap k v, b => by cases b <;> simp [same, same_iff k, same_iff v]
  | .reference _ as, b => by cases b <;> simp [same, sameItems_iff as]

theorem sameItems_iff : (as bs : List TypeTree) → (sameItems as bs = true ↔ as = bs)
  | [], bs => by cases bs <;> simp [sameItems]
  | a :: as, bs => by cases bs <;> simp [sameItems, same_iff a, sameItems_iff as]

end

instance : DecidableEq TypeTree := fun a b => decidable_of_iff _ (same_iff a b)

/-! ## Rendering -/

/-- The items between commas. -/
def commaList (items : List (List Char)) : List Char :=
  List.intercalate [',', ' '] items

mutual

/-- The tree as a type expression. -/
def render : TypeTree → List Char
  | .primitive p => p.spelling.toList
  | .option inner => "Option<".toList ++ render inner ++ ['>']
  | .vec inner => "Vec<".toList ++ render inner ++ ['>']
  | .array element length =>
    ['['] ++ render element ++ [';', ' '] ++ Text.decimal length.toNat ++ [']']
  | .tuple items => ['('] ++ commaList (renderItems items) ++ [')']
  | .hashMap key value => "HashMap<".toList ++ render key ++ [',', ' '] ++ render value ++ ['>']
  | .bTreeMap key value =>
    "BTreeMap<".toList ++ render key ++ [',', ' '] ++ render value ++ ['>']
  | .reference name arguments =>
    name.toList ++
      (if arguments.isEmpty then [] else ['<'] ++ commaList (renderItems arguments) ++ ['>'])

/-- The trees as type expressions. -/
def renderItems : List TypeTree → List (List Char)
  | [] => []
  | item :: rest => render item :: renderItems rest

end

/-- The text of a tree. -/
def text (tree : TypeTree) : String :=
  String.ofList tree.render

theorem renderItems_eq_map (items : List TypeTree) : renderItems items = items.map render := by
  induction items with
  | nil => rfl
  | cons item rest ih => simp [renderItems, ih]

/-! ## Visiting -/

mutual

/-- The tree and all trees in it, each before its parts. -/
def walk : TypeTree → List TypeTree
  | .primitive p => [.primitive p]
  | .option inner => .option inner :: walk inner
  | .vec inner => .vec inner :: walk inner
  | .array element length => .array element length :: walk element
  | .tuple items => .tuple items :: walkItems items
  | .hashMap key value => .hashMap key value :: (walk key ++ walk value)
  | .bTreeMap key value => .bTreeMap key value :: (walk key ++ walk value)
  | .reference name arguments => .reference name arguments :: walkItems arguments

/-- All trees in some trees. -/
def walkItems : List TypeTree → List TypeTree
  | [] => []
  | item :: rest => walk item ++ walkItems rest

end

/-- The name of a reference. -/
def referenceName? : TypeTree → Option String
  | .reference name _ => some name
  | _ => none

/-- The names of all references in the tree, in the order of a visit. -/
def names (tree : TypeTree) : List String :=
  tree.walk.filterMap referenceName?

theorem walkItems_eq_flatMap (items : List TypeTree) : walkItems items = items.flatMap walk := by
  induction items with
  | nil => rfl
  | cons item rest ih => simp [walkItems, ih]

/-- A visit starts with the tree itself. -/
theorem walk_head (tree : TypeTree) : tree.walk.head? = some tree := by
  cases tree <;> simp [walk]

/-! ## JSON form -/

mutual

/-- The canonical JSON form of a tree. -/
def toJson : TypeTree → Json
  | .primitive p => .string p.spelling
  | .option inner => .object [("option", toJson inner)]
  | .vec inner => .object [("vec", toJson inner)]
  | .array element length => .object [("array", .array [toJson element, .ofNat length.toNat])]
  | .tuple items => .object [("tuple", .array (toJsonItems items))]
  | .hashMap key value => .object [("hashMap", .array [toJson key, toJson value])]
  | .bTreeMap key value => .object [("bTreeMap", .array [toJson key, toJson value])]
  | .reference name arguments =>
    .object [("defined", .object (("name", .string name) ::
      (if arguments.isEmpty then [] else [("generics", .array (toJsonArguments arguments))])))]

/-- The JSON forms of the items of a tuple. -/
def toJsonItems : List TypeTree → List Json
  | [] => []
  | item :: rest => toJson item :: toJsonItems rest

/-- The JSON forms of the arguments of a reference, each marked as a type. -/
def toJsonArguments : List TypeTree → List Json
  | [] => []
  | item :: rest =>
    .object [("kind", .string "type"), ("type", toJson item)] :: toJsonArguments rest

end

end TypeTree

end CanonicalIdl
