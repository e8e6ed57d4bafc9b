import CanonicalIdl.Failure
import CanonicalIdl.Normalization.Anchor
import CanonicalIdl.Normalization.Shank

/-!
# Normalization

A declared interface becomes a canonical one on the path of the tool that wrote it.  The
caller may change the declared interface before and the canonical one afterwards.

Main results:

- Theorem `normalize_eq_error_iff`: only an unknown tool makes normalization fail.
-/

namespace CanonicalIdl

/-- What a caller may set. -/
structure Settings where
  table : PrimitiveWords := .standard
  extensions : List Extension := []
  fallback : Option Matcher := none
  before : Declared.Interface → Declared.Interface := id
  after : Interface → Interface := id

/-- The chain that the settings describe. -/
def Settings.chain (settings : Settings) : Chain where
  table := settings.table
  builtins := Builtin.all
  extensions := settings.extensions
  fallback := settings.fallback

/-- A result and the warnings that were given on the way. -/
structure Outcome (α : Type) where
  result : Except Failure α
  warnings : List Warning

/-- Normalize on the path of a tool. -/
def normalizeBy (settings : Settings) (declared : Declared.Interface) :
    Generator → Interface × List Warning
  | .anchor => Anchor.normalize settings.chain declared
  | .shank => Shank.normalize settings.table declared

/-- Normalize a declared interface. -/
def normalize (settings : Settings) (declared : Declared.Interface) : Outcome Interface :=
  let declared := settings.before declared
  match Generator.ofOrigin? declared.origin with
  | none => ⟨.error (.unknownGenerator (declared.origin.getD "")), []⟩
  | some generator =>
    let (interface, warnings) := normalizeBy settings declared generator
    ⟨.ok (settings.after interface), warnings⟩

/-- Only an unknown tool makes normalization fail. -/
theorem normalize_eq_error_iff {settings : Settings} {declared : Declared.Interface}
    {error : Failure} :
    (normalize settings declared).result = .error error ↔
      Generator.ofOrigin? (settings.before declared).origin = none ∧
        error = .unknownGenerator ((settings.before declared).origin.getD "") := by
  unfold normalize
  simp only
  split
  · next h => simp [h, eq_comm]
  · next generator h => simp [h]

end CanonicalIdl
