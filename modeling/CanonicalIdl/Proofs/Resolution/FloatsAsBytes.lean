import CanonicalIdl.Proofs.Resolution.Configured
import CanonicalIdl.Proofs.Resolution.Grafting

/-!
# Floats as bytes

The second table of primitive words differs from the standard one in a single tree.  A run
under the second table therefore goes step by step as one under the standard table does, and
it differs in the trees alone: each holds eight bytes where the other holds a 64-bit float.

Main results:

- Theorem `Script.Mirrors.run`: mirrored scripts come to mirrored results and bring the same
  about.
- Theorem `TypeTree.not_mem_walk_floatsAsBytes`: no 64-bit float is left in a tree.
- Theorem `Chain.mirroredBy_resolve`: resolution under the second table mirrors resolution under
  the standard table, whatever the aliases.
-/

namespace CanonicalIdl

/-! ## Mirrored scripts -/

/-- Two scripts that take the same steps, where the second sees each tree through `g`, and come
to results that differ by `f`. -/
inductive Script.Mirrors {α β : Type} (g : TypeTree → TypeTree) (f : α → β) :
    Script α → Script β → Prop
  | done (a : α) : Mirrors g f (.done a) (.done (f a))
  | resolve (expression : List Char) {next : TypeTree → Script α} {other : TypeTree → Script β}
      (h : ∀ tree, Mirrors g f (next tree) (other (g tree))) :
      Mirrors g f (.resolve expression next) (.resolve expression other)
  | warn (warning : Warning) {next : Script α} {other : Script β} (h : Mirrors g f next other) :
      Mirrors g f (.warn warning next) (.warn warning other)

/-- A resolver that gives each tree of another one through `g` and brings the same about. -/
def Resolver.MirroredBy (g : TypeTree → TypeTree) (resolver other : Resolver) : Prop :=
  ∀ text run, other text run = (g (resolver text run).1, (resolver text run).2)

namespace Script.Mirrors

variable {α β γ δ : Type} {g : TypeTree → TypeTree}

/-- Two ends, from what their results have to do with each other. -/
theorem ends {f : α → β} {a : α} {b : β} (h : f a = b) : Mirrors g f (.done a) (.done b) :=
  h ▸ .done a

/-- An expression is resolved to the changed tree. -/
theorem ask (expression : List Char) :
    Mirrors g g (Script.ask expression) (Script.ask expression) :=
  .resolve expression fun tree => .done tree

/-- Scripts that mirror each other may go on with scripts that do. -/
theorem bind {f : α → β} {k : γ → δ} {script : Script α} {other : Script β}
    {next : α → Script γ} {otherNext : β → Script δ} (h : Mirrors g f script other)
    (hnext : ∀ a, Mirrors g k (next a) (otherNext (f a))) :
    Mirrors g k (script.bind next) (other.bind otherNext) := by
  induction h with
  | done a => exact hnext a
  | resolve expression _ ih => exact .resolve expression ih
  | warn warning _ ih => exact .warn warning ih

theorem each {f : α → β} {script : γ → Script α} {other : γ → Script β}
    (h : ∀ item, Mirrors g f (script item) (other item)) (items : List γ) :
    Mirrors g (List.map f) (Script.each script items) (Script.each other items) := by
  induction items with
  | nil => exact .done []
  | cons item rest ih => exact (h item).bind fun b => ih.bind fun bs => .done (b :: bs)

/-- Mirrored scripts come to mirrored results and bring the same about. -/
theorem run {f : α → β} {script : Script α} {other : Script β} (h : Mirrors g f script other)
    {resolver otherResolver : Resolver} (hresolver : resolver.MirroredBy g otherResolver)
    (state : Run) :
    other.run otherResolver state =
      (f (script.run resolver state).1, (script.run resolver state).2) := by
  induction h generalizing state with
  | done a => rfl
  | resolve expression _ ih =>
    rw [Script.run, hresolver]
    exact ih _ _
  | warn warning _ ih => exact ih _

end Script.Mirrors

/-! ## Trees -/

namespace TypeTree

/-- The tree with eight bytes in place of each 64-bit float. -/
def floatsAsBytes : TypeTree → TypeTree :=
  graft (fun p => if p = .f64 then .byteArray 8 else .primitive p) .bare

/-- The table with bytes gives what the standard one gives, changed. -/
theorem floatsAsBytes_tree (p : Primitive) :
    (PrimitiveWords.standard.tree p).floatsAsBytes = PrimitiveWords.floatAsBytes.tree p := by
  cases p <;> simp [PrimitiveWords.tree, floatsAsBytes]

theorem floatsAsBytes_reference (name : String) (arguments : List TypeTree) :
    (reference name arguments).floatsAsBytes =
      .reference name (arguments.map floatsAsBytes) := by
  cases arguments with
  | nil => exact graft_bare _ _ name
  | cons first rest => exact graft_reference _ _ (List.cons_ne_nil first rest) name

/-- No 64-bit float is left in a tree. -/
theorem not_mem_walk_floatsAsBytes (tree : TypeTree) :
    .primitive .f64 ∉ tree.floatsAsBytes.walk := by
  intro h
  obtain ⟨p, -, hput⟩ | ⟨name, -, hput⟩ := exists_leaf_of_mem_walk_graft _ _ rfl h
  · split at hput
    · simp [byteArray, walk] at hput
    · next hp =>
      have hf64 : Primitive.f64 = p := by simpa [walk] using hput
      exact hp hf64.symm
  · simp [walk, walkItems] at hput

end TypeTree

/-! ## Shapes and chains -/

open TypeTree

/-- What is done about a shape under the second table mirrors what is done under the first. -/
theorem Shape.mirrors_script (shape : Shape) :
    Script.Mirrors floatsAsBytes floatsAsBytes (shape.script .standard)
      (shape.script .floatAsBytes) := by
  have hask := @Script.Mirrors.ask floatsAsBytes
  have hitems : ∀ texts, Script.Mirrors floatsAsBytes (List.map floatsAsBytes)
    (Script.askEach texts) (Script.askEach texts) := .each hask
  cases shape with
  | primitive p => exact .ends (floatsAsBytes_tree p)
  | map base key value =>
    exact (hask key).bind fun key => (hask value).bind fun value =>
      .ends (graft_mapTree _ _ base key value)
  | vec inner => exact (hask inner).bind fun tree => .ends (graft_of_not_isLeaf _ _ rfl)
  | tuple items => exact (hitems items).bind fun trees => .ends (graft_tuple _ _ trees)
  | option inner => exact (hask inner).bind fun tree => .ends (graft_of_not_isLeaf _ _ rfl)
  | array element length =>
    exact (hask element).bind fun tree => .ends (graft_of_not_isLeaf _ _ rfl)
  | node => exact .ends (by simp [byteArray, floatsAsBytes, graft])
  | bare name => exact .ends (graft_bare _ _ _)
  | applied name arguments =>
    exact (hitems arguments).bind fun trees => .ends (floatsAsBytes_reference _ trees)

/-- So a word is found in both tables or in none. -/
theorem PrimitiveWords.lookup?_floatAsBytes (text : List Char) :
    PrimitiveWords.floatAsBytes.lookup? text =
      (PrimitiveWords.standard.lookup? text).map floatsAsBytes := by
  rw [lookup?, lookup?, Option.map_map]
  exact congrArg (Option.map · _) (funext fun p => (floatsAsBytes_tree p).symm)

namespace Chain

section Level

variable {resolver other : Resolver} (h : resolver.MirroredBy floatsAsBytes other)

include h

/-- An alias stands for the same expression either way. -/
theorem mirroredBy_expandAlias (place : Nat) (aliases : AliasTable) (text : List Char)
    (run : Run) :
    expandAlias other place aliases text run =
      ((expandAlias resolver place aliases text run).1.map floatsAsBytes,
        (expandAlias resolver place aliases text run).2) := by
  unfold expandAlias
  dsimp only
  split
  · rfl
  · split
    · rfl
    · rw [h]
      rfl

theorem mirroredBy_tryExtensions {extensions : List Extension}
    (haliases : ∀ extension ∈ extensions, ∃ aliases, extension = .aliases aliases)
    (place : Nat) (text : List Char) (run : Run) :
    tryExtensions other place extensions text run =
      ((tryExtensions resolver place extensions text run).1.map floatsAsBytes,
        (tryExtensions resolver place extensions text run).2) := by
  induction extensions generalizing place run with
  | nil => rfl
  | cons extension rest ih =>
    obtain ⟨hfirst, hrest⟩ := List.forall_mem_cons.mp haliases
    obtain ⟨aliases, rfl⟩ := hfirst
    simp only [tryExtensions, tryExtension, mirroredBy_expandAlias h place aliases text run]
    rcases expandAlias resolver place aliases text run with ⟨_ | tree, after⟩
    · exact ih hrest (place + 1) after
    · rfl

/-- A level under the second table mirrors one under the standard table. -/
theorem mirroredBy_decideOn {chain : Chain} (hchain : chain.IsConfigured)
    (htable : chain.table = .standard) (text : List Char) (run : Run) :
    { chain with table := .floatAsBytes }.decideOn other text run =
      ((chain.decideOn resolver text run).1.floatsAsBytes,
        (chain.decideOn resolver text run).2) := by
  simp only [decideOn, htable, hchain.builtins, hchain.fallback, Option.toList_none, tryMatchers,
    PrimitiveWords.lookup?_floatAsBytes]
  cases PrimitiveWords.standard.lookup? text with
  | some tree => rfl
  | none =>
    simp only [Option.map_none, tryMatchers_builtins .standard resolver,
      tryMatchers_builtins .floatAsBytes other]
    cases Builtin.all.findSome? (·.shape? text) with
    | some shape => simp only [Shape.outcome_some, (Shape.mirrors_script shape).run h]
    | none =>
      simp only [Shape.outcome_none, mirroredBy_tryExtensions h hchain.extensions]
      rcases tryExtensions resolver 0 chain.extensions text run with ⟨_ | tree, after⟩
      · simp only [Option.map_none, run_referenceScript .standard resolver,
          run_referenceScript .floatAsBytes other, (Shape.mirrors_script _).run h]
      · rfl

end Level

/-- Under a configured chain, resolution with the second table mirrors resolution with the
standard one. -/
theorem mirroredBy_resolve {chain : Chain} (hchain : chain.IsConfigured)
    (htable : chain.table = .standard) :
    chain.resolve.MirroredBy floatsAsBytes { chain with table := .floatAsBytes }.resolve := by
  have hwithin : ∀ levels, (chain.resolveWithin levels).MirroredBy floatsAsBytes
      ({ chain with table := .floatAsBytes }.resolveWithin levels) := by
    intro levels
    induction levels with
    | zero =>
      intro text run
      simp only [resolveWithin_zero, floatsAsBytes, graft_bare]
    | succ levels ih =>
      exact fun text run => mirroredBy_decideOn ih hchain htable (Text.trim text) run
  exact hwithin depthLimit

end Chain

end CanonicalIdl
