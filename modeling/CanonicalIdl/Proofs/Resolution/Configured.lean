import CanonicalIdl.Config
import CanonicalIdl.Proofs.Resolution.Memory
import CanonicalIdl.Proofs.Resolution.Shape

/-!
# Resolution under a configuration

A configuration adds aliases to the built-in rules and nothing else.  So a run under it
registers no definition, and a primitive stays in a tree only if the table has it stand for
itself.

Main results:

- Theorem `Chain.settles_resolve`: the trees of a configured chain hold settled primitives, and its
  runs register nothing.
- Theorem `Script.IsSilent.registered_run`: a script that registers nothing itself.
-/

namespace CanonicalIdl

/-! ## Settled primitives -/

/-- Every primitive in the tree stands for itself. -/
def TypeTree.IsSettled (table : PrimitiveWords) (tree : TypeTree) : Prop :=
  ∀ p, .primitive p ∈ tree.walk → table.tree p = .primitive p

namespace TypeTree

variable {table : PrimitiveWords}

/-- A primitive is settled if the table gives it itself. -/
@[simp] theorem isSettled_primitive (p : Primitive) :
    (primitive p).IsSettled table ↔ table.tree p = .primitive p := by
  simp [IsSettled, walk]

/-- An option is settled if what is in it is. -/
@[simp] theorem isSettled_option (inner : TypeTree) :
    (option inner).IsSettled table ↔ inner.IsSettled table := by
  simp [IsSettled, walk]

@[simp] theorem isSettled_vec (inner : TypeTree) :
    (vec inner).IsSettled table ↔ inner.IsSettled table := by
  simp [IsSettled, walk]

@[simp] theorem isSettled_array (element : TypeTree) (length : UInt64) :
    (array element length).IsSettled table ↔ element.IsSettled table := by
  simp [IsSettled, walk]

theorem forall_mem_walkItems_iff {items : List TypeTree} :
    (∀ p, .primitive p ∈ walkItems items → table.tree p = .primitive p) ↔
      ∀ item ∈ items, item.IsSettled table := by
  simp only [walkItems_eq_flatMap, List.mem_flatMap]
  constructor
  · intro h item hitem p hp
    exact h p ⟨item, hitem, hp⟩
  · rintro h p ⟨item, hitem, hp⟩
    exact h item hitem p hp

/-- A tuple is settled if its items are. -/
@[simp] theorem isSettled_tuple (items : List TypeTree) :
    (tuple items).IsSettled table ↔ ∀ item ∈ items, item.IsSettled table := by
  rw [← forall_mem_walkItems_iff]
  simp [IsSettled, walk]

/-- A map is settled if its keys and values are. -/
@[simp] theorem isSettled_hashMap (key value : TypeTree) :
    (hashMap key value).IsSettled table ↔ key.IsSettled table ∧ value.IsSettled table := by
  simp [IsSettled, walk, or_imp, forall_and]

@[simp] theorem isSettled_bTreeMap (key value : TypeTree) :
    (bTreeMap key value).IsSettled table ↔ key.IsSettled table ∧ value.IsSettled table := by
  simp [IsSettled, walk, or_imp, forall_and]

/-- A reference is settled if its arguments are, whatever its name. -/
@[simp] theorem isSettled_reference (name : String) (arguments : List TypeTree) :
    (reference name arguments).IsSettled table ↔
      ∀ argument ∈ arguments, argument.IsSettled table := by
  rw [← forall_mem_walkItems_iff]
  simp [IsSettled, walk]

/-- No table replaces bytes. -/
theorem isSettled_byteArray (length : UInt64) : (byteArray length).IsSettled table := by
  rw [byteArray, isSettled_array, isSettled_primitive]
  cases table <;> rfl

/-- The tree of a primitive word is settled. -/
theorem isSettled_tree (p : Primitive) : (table.tree p).IsSettled table := by
  cases table with
  | standard => exact (isSettled_primitive p).mpr rfl
  | floatAsBytes =>
    cases p with
    | f64 => exact isSettled_byteArray 8
    | _ => exact (isSettled_primitive _).mpr rfl

/-- Whatever the map, it is settled if its keys and values are. -/
theorem isSettled_mapTree {base : List Char} {key value : TypeTree} (hkey : key.IsSettled table)
    (hvalue : value.IsSettled table) : (Builtin.mapTree base key value).IsSettled table := by
  unfold Builtin.mapTree
  split
  · exact (isSettled_bTreeMap key value).mpr ⟨hkey, hvalue⟩
  · split
    · rw [isSettled_vec, isSettled_tuple, List.forall_mem_cons, List.forall_mem_singleton]
      exact ⟨hkey, hvalue⟩
    · exact (isSettled_hashMap key value).mpr ⟨hkey, hvalue⟩

end TypeTree

/-! ## Runs that register nothing -/

/-- A part of a run comes to a result with a property and registers nothing. -/
structure Leaves {α : Type} (P : α → Prop) (part : Run → α × Run) : Prop where
  result : ∀ run, P (part run).1
  registered : ∀ run, (part run).2.registered = run.registered

/-- A resolver gives trees with settled primitives and registers nothing. -/
def Resolver.Settles (table : PrimitiveWords) (resolver : Resolver) : Prop :=
  ∀ text, Leaves (TypeTree.IsSettled table) (resolver text)

namespace Leaves

theorem pure {α : Type} {P : α → Prop} {a : α} (h : P a) : Leaves P fun run => (a, run) :=
  ⟨fun _ => h, fun _ => rfl⟩

/-- A part that goes on with what another one came to. -/
theorem andThen {α β : Type} {P : α → Prop} {Q : β → Prop} {first : Run → α × Run}
    {second : α → Run → β × Run} (hfirst : Leaves P first)
    (hsecond : ∀ a, P a → Leaves Q (second a)) :
    Leaves Q fun run => second (first run).1 (first run).2 where
  result run := (hsecond _ (hfirst.result run)).result _
  registered run := ((hsecond _ (hfirst.result run)).registered _).trans (hfirst.registered run)

/-- A script that goes on after another one. -/
theorem bind {α β : Type} {P : α → Prop} {Q : β → Prop} {resolver : Resolver} {script : Script α}
    {next : α → Script β} (hscript : Leaves P (script.run resolver))
    (hnext : ∀ a, P a → Leaves Q ((next a).run resolver)) :
    Leaves Q ((script >>= next).run resolver) := by
  have hpart := hscript.andThen hnext
  rwa [← funext (Script.run_do resolver script next)] at hpart

/-- An attempt, and if it comes to nothing something else. -/
theorem orElse {α : Type} {P : TypeTree → Prop} {Q : α → Prop} {first : Run → Option TypeTree × Run}
    {second : Run → α × Run} (accept : TypeTree → α) (haccept : ∀ tree, P tree → Q (accept tree))
    (hfirst : Leaves (fun found => ∀ tree ∈ found, P tree) first) (hsecond : Leaves Q second) :
    Leaves Q fun run =>
      match first run with
      | (some tree, run) => (accept tree, run)
      | (none, run) => second run := by
  refine ⟨fun run => ?_, fun run => ?_⟩
  · have hresult := hfirst.result run
    revert hresult
    rcases first run with ⟨_ | tree, after⟩
    · exact fun _ => hsecond.result after
    · exact fun hresult => haccept tree (hresult tree rfl)
  · have hregistered := hfirst.registered run
    revert hregistered
    rcases first run with ⟨_ | tree, after⟩
    · exact fun hregistered => (hsecond.registered after).trans hregistered
    · exact id

end Leaves

section Rules

variable {table : PrimitiveWords} {resolver : Resolver} (hresolver : resolver.Settles table)

include hresolver

theorem leaves_askEach (texts : List (List Char)) :
    Leaves (fun trees => ∀ tree ∈ trees, tree.IsSettled table)
      ((Script.askEach texts).run resolver) := by
  induction texts with
  | nil => exact .pure (by simp)
  | cons text rest ih =>
    have hask : Leaves (TypeTree.IsSettled table) ((Script.ask text).run resolver) := hresolver text
    refine hask.bind fun tree htree => ?_
    exact ih.bind fun trees htrees => .pure (List.forall_mem_cons.mpr ⟨htree, htrees⟩)

/-- What is done about a shape registers nothing and leaves primitives settled. -/
theorem leaves_script (shape : Shape) :
    Leaves (TypeTree.IsSettled table) ((shape.script table).run resolver) := by
  have hask : ∀ text, Leaves (TypeTree.IsSettled table) ((Script.ask text).run resolver) :=
    hresolver
  cases shape with
  | primitive p => exact .pure (TypeTree.isSettled_tree p)
  | map base key value =>
    exact (hask key).bind fun key hkey => (hask value).bind fun value hvalue =>
      .pure (TypeTree.isSettled_mapTree hkey hvalue)
  | vec inner =>
    exact (hask inner).bind fun tree htree => .pure ((TypeTree.isSettled_vec tree).mpr htree)
  | tuple items =>
    exact (leaves_askEach hresolver items).bind fun trees htrees =>
      .pure ((TypeTree.isSettled_tuple trees).mpr htrees)
  | option inner =>
    exact (hask inner).bind fun tree htree => .pure ((TypeTree.isSettled_option tree).mpr htree)
  | array element length =>
    exact (hask element).bind fun tree htree =>
      .pure ((TypeTree.isSettled_array tree length).mpr htree)
  | node => exact .pure (TypeTree.isSettled_byteArray 32)
  | bare name => exact .pure (by simp)
  | applied name arguments =>
    exact (leaves_askEach hresolver arguments).bind fun trees htrees =>
      .pure ((TypeTree.isSettled_reference _ trees).mpr htrees)

/-- The tree of a shape is settled if the trees in it are. -/
theorem leaves_outcome (shape? : Option Shape) :
    Leaves (fun found => ∀ tree ∈ found, tree.IsSettled table)
      fun run => Shape.outcome table resolver run shape? := by
  cases shape? with
  | none => exact .pure (by simp)
  | some shape =>
    exact (leaves_script hresolver shape).andThen fun tree htree => .pure (by simpa using htree)

namespace Chain

theorem leaves_expandAlias (place : Nat) (aliases : AliasTable) (text : List Char) :
    Leaves (fun found => ∀ tree ∈ found, tree.IsSettled table)
      (expandAlias resolver place aliases text) := by
  refine ⟨fun run => ?_, fun run => ?_⟩
  · simp only [expandAlias]
    split
    · simp
    · split
      · simp
      · next target _ _ => simpa using (hresolver target.toList).result _
  · simp only [expandAlias]
    split
    · rfl
    · split
      · rfl
      · next target _ _ => exact (hresolver target.toList).registered _

/-- Aliases register nothing and leave primitives settled. -/
theorem leaves_tryExtensions {extensions : List Extension}
    (h : ∀ extension ∈ extensions, ∃ aliases, extension = .aliases aliases) (place : Nat)
    (text : List Char) :
    Leaves (fun found => ∀ tree ∈ found, tree.IsSettled table)
      (tryExtensions resolver place extensions text) := by
  induction extensions generalizing place with
  | nil => exact .pure (by simp)
  | cons extension rest ih =>
    obtain ⟨hfirst, hrest⟩ := List.forall_mem_cons.mp h
    obtain ⟨aliases, rfl⟩ := hfirst
    exact .orElse some (by simp) (leaves_expandAlias hresolver place aliases text)
      (ih hrest (place + 1))

end Chain

end Rules

namespace Chain

/-- A chain as a configuration sets it up: aliases behind the built-in rules. -/
structure IsConfigured (chain : Chain) : Prop where
  builtins : chain.builtins = Builtin.all
  extensions : ∀ extension ∈ chain.extensions, ∃ aliases, extension = .aliases aliases
  fallback : chain.fallback = none

variable {chain : Chain} (h : chain.IsConfigured)

include h

/-- Deciding on a text gives a settled tree if resolving its parts does. -/
theorem leaves_decideOn {resolver : Resolver} (hresolver : resolver.Settles chain.table)
    (text : List Char) :
    Leaves (TypeTree.IsSettled chain.table) (chain.decideOn resolver text) := by
  cases hword : chain.table.lookup? text with
  | some tree =>
    have hpart : chain.decideOn resolver text = fun run => (tree, run) := by
      funext run
      simp only [decideOn, hword]
    obtain ⟨p, -, rfl⟩ := Option.map_eq_some_iff.mp hword
    rw [hpart]
    exact .pure (TypeTree.isSettled_tree p)
  | none =>
    have hbuiltins := leaves_outcome hresolver (Builtin.all.findSome? (·.shape? text))
    have hextensions := leaves_tryExtensions hresolver h.extensions 0 text
    have hreference := leaves_script hresolver (Shape.unknown text)
    have hpart := hbuiltins.orElse id (fun _ => id) (hextensions.orElse id (fun _ => id) hreference)
    refine ⟨fun run => ?_, fun run => ?_⟩ <;>
      simp only [decideOn, hword, h.builtins, tryMatchers_builtins chain.table, h.fallback,
        Option.toList_none, tryMatchers, run_referenceScript chain.table]
    · exact hpart.result run
    · exact hpart.registered run

/-- Under a configured chain primitives are settled and nothing is registered. -/
theorem settles_resolve : chain.resolve.Settles chain.table := by
  have hwithin : ∀ levels, (chain.resolveWithin levels).Settles chain.table := by
    intro levels
    induction levels with
    | zero => exact fun text => ⟨fun run => by simp, fun run => rfl⟩
    | succ levels ih => exact fun text => leaves_decideOn h ih (Text.trim text)
  exact hwithin depthLimit

end Chain

/-- A configuration sets up a configured chain. -/
theorem Config.isConfigured_chain (config : Config) : config.settings.chain.IsConfigured where
  builtins := rfl
  extensions := by
    simp only [Settings.chain, Config.settings]
    split <;> simp
  fallback := rfl

/-! ## Scripts that register nothing -/

/-- Whatever is resolved, the script itself registers nothing. -/
def Script.IsSilent {α : Type} : Script α → Prop
  | .done _ => True
  | .resolve _ next => ∀ tree, (next tree).IsSilent
  | .register _ _ => False
  | .warn _ next => next.IsSilent

namespace Script.IsSilent

variable {α β : Type}

/-- Silent scripts make a silent script. -/
theorem bind {script : Script α} {next : α → Script β} (h : script.IsSilent)
    (hnext : ∀ a, (next a).IsSilent) : (script.bind next).IsSilent := by
  induction script with
  | done a => exact hnext a
  | resolve expression rest ih => exact fun tree => ih tree (h tree)
  | register definition rest ih => exact h.elim
  | warn warning rest ih => exact ih h

theorem each {script : α → Script β} (h : ∀ a, (script a).IsSilent) (items : List α) :
    (Script.each script items).IsSilent := by
  induction items with
  | nil => trivial
  | cons item rest ih => exact (h item).bind fun b => ih.bind fun bs => trivial

/-- A script that registers nothing itself leaves the registered definitions as they were
where resolving does. -/
theorem registered_run {table : PrimitiveWords} {resolver : Resolver}
    (hresolver : resolver.Settles table) {script : Script α} (h : script.IsSilent) (run : Run) :
    (script.run resolver run).2.registered = run.registered := by
  induction script generalizing run with
  | done a => rfl
  | resolve expression next ih =>
    exact (ih _ (h _) _).trans ((hresolver expression).registered run)
  | register definition next ih => exact h.elim
  | warn warning next ih => exact ih h _

end Script.IsSilent

end CanonicalIdl
