import CanonicalIdl.TypeTree

/-!
# Primitive words

The first thing that a type expression is held against is the table of primitive words.
Clients disagree on 64-bit floats: one takes them as plain floats, the other expects eight
bytes.

Main results:

- Theorem `lookup?_standard`: the standard table gives each primitive its own node.
- Theorem `lookup?_ne_reference`: no table gives a reference.
-/

namespace CanonicalIdl

/-- Which tree stands for a 64-bit float. -/
inductive PrimitiveWords where
  | standard
  | floatAsBytes
  deriving Repr, DecidableEq

namespace PrimitiveWords

/-- The tree of a primitive. -/
def tree : PrimitiveWords → Primitive → TypeTree
  | .floatAsBytes, .f64 => .byteArray 8
  | _, p => .primitive p

/-- The tree of a primitive word. -/
def lookup? (table : PrimitiveWords) (text : List Char) : Option TypeTree :=
  (Primitive.ofWord? text).map table.tree

theorem lookup?_standard (text : List Char) :
    PrimitiveWords.standard.lookup? text = (Primitive.ofWord? text).map .primitive := rfl

/-- No primitive word stands for a reference. -/
theorem lookup?_ne_reference {table : PrimitiveWords} {text : List Char} {name : String}
    {arguments : List TypeTree} : table.lookup? text ≠ some (.reference name arguments) := by
  intro h
  obtain ⟨p, -, hp⟩ := Option.map_eq_some_iff.mp h
  cases table <;> cases p <;> cases hp

end PrimitiveWords

end CanonicalIdl
