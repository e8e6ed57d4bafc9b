import CanonicalIdl.Resolution.Chain

/-!
# Resolution has no memory

A run remembers what has been registered, what warnings were given and which aliases are
being expanded.  Only the last can make a difference to a tree, and every resolution leaves
it as it found it.  So an expression is read as the same tree wherever it stands in a run,
and what a script comes to can be told without a run.

Main results:

- Theorem `forgetful_resolveWithin`: a resolution depends on no more of a run than the
  aliases being expanded, and leaves these as they were.
- Theorem `run_of_readsAs`: a script comes to its value in every run.
- Theorem `readsAs_resolve`: a chain reads each expression as it does in a run of its own.
-/

namespace CanonicalIdl

/-! ## Parts of a run -/

/-- The result of a part of a run depends on no more than the aliases being expanded, and the
part leaves these as they were. -/
structure Forgetful {α : Type} (part : Run → α × Run) : Prop where
  expanding : ∀ run, (part run).2.expanding = run.expanding
  result : ∀ {run other : Run}, other.expanding = run.expanding → (part other).1 = (part run).1

namespace Forgetful

theorem pure {α : Type} (a : α) : Forgetful fun run => (a, run) :=
  ⟨fun _ => rfl, fun _ => rfl⟩

/-- A part that goes on with what another one came to. -/
theorem andThen {α β : Type} {first : Run → α × Run} {second : α → Run → β × Run}
    (hfirst : Forgetful first) (hsecond : ∀ a, Forgetful (second a)) :
    Forgetful fun run => second (first run).1 (first run).2 where
  expanding run := ((hsecond _).expanding _).trans (hfirst.expanding run)
  result {run other} h := by
    have hresult : (first other).1 = (first run).1 := hfirst.result h
    have hbetween : (first other).2.expanding = (first run).2.expanding := by
      rw [hfirst.expanding, hfirst.expanding, h]
    change (second (first other).1 (first other).2).1 = (second (first run).1 (first run).2).1
    rw [hresult]
    exact (hsecond _).result hbetween

/-- A part that first tells the run something else than aliases. -/
theorem after {α : Type} {part : Run → α × Run} (hpart : Forgetful part) {told : Run → Run}
    (htold : ∀ run, (told run).expanding = run.expanding) :
    Forgetful fun run => part (told run) where
  expanding run := (hpart.expanding (told run)).trans (htold run)
  result {run other} h := hpart.result (by rw [htold, htold, h])

end Forgetful

/-! ## Resolution -/

section Resolution

variable {resolver : Resolver} (hresolver : ∀ text, Forgetful (resolver text))

include hresolver

/-- What a script does is forgetful where resolution is. -/
theorem forgetful_run {α : Type} (script : Script α) : Forgetful (script.run resolver) := by
  induction script with
  | done a => exact .pure a
  | resolve expression next ih => exact (hresolver expression).andThen ih
  | register definition next ih => exact ih.after fun _ => rfl
  | warn warning next ih => exact ih.after fun _ => rfl

omit hresolver in
/-- An attempt, and if it comes to nothing something else. -/
theorem Forgetful.orElse {α : Type} {first : Run → Option TypeTree × Run} {second : Run → α × Run}
    (accept : TypeTree → α) (hfirst : Forgetful first) (hsecond : Forgetful second) :
    Forgetful fun run =>
      match first run with
      | (some tree, run) => (accept tree, run)
      | (none, run) => second run := by
  have hnext : ∀ found : Option TypeTree, Forgetful fun run =>
      found.elim (second run) fun tree => (accept tree, run) := by
    rintro (_ | tree)
    · exact hsecond
    · exact .pure (accept tree)
  have hpart := hfirst.andThen hnext
  refine ⟨fun run => ?_, fun {run other} h => ?_⟩
  · have hexpanding := hpart.expanding run
    revert hexpanding
    rcases first run with ⟨_ | tree, after⟩ <;> exact id
  · have hresult := hpart.result h
    revert hresult
    rcases first run with ⟨_ | tree, after⟩ <;> rcases first other with ⟨_ | tree', after'⟩ <;>
      exact id

namespace Chain

theorem forgetful_tryMatchers (rules : List Matcher) (text : List Char) :
    Forgetful (tryMatchers resolver rules text) := by
  induction rules with
  | nil => exact .pure none
  | cons rule rest ih => exact .orElse some (forgetful_run hresolver (rule text)) ih

/-- An alias is struck off when its expression has been resolved. -/
theorem forgetful_expandAlias (place : Nat) (table : AliasTable) (text : List Char) :
    Forgetful (expandAlias resolver place table text) := by
  cases htarget : table.lookup (String.ofList text) with
  | none =>
    have hpart : expandAlias resolver place table text = fun run => (none, run) := by
      funext run
      simp only [expandAlias, htarget]
    rw [hpart]
    exact .pure none
  | some target =>
    refine ⟨fun run => ?_, fun {run other} h => ?_⟩
    · simp only [expandAlias, htarget]
      split
      · rfl
      · simp [(hresolver target.toList).expanding]
    · simp only [expandAlias, htarget, h]
      split
      · rfl
      · exact congrArg some ((hresolver target.toList).result rfl)

theorem forgetful_tryExtension (place : Nat) (extension : Extension) (text : List Char) :
    Forgetful (tryExtension resolver place extension text) := by
  cases extension with
  | matcher rule => exact forgetful_run hresolver (rule text)
  | aliases table => exact forgetful_expandAlias hresolver place table text

theorem forgetful_tryExtensions (place : Nat) (extensions : List Extension) (text : List Char) :
    Forgetful (tryExtensions resolver place extensions text) := by
  induction extensions generalizing place with
  | nil => exact .pure none
  | cons extension rest ih =>
    exact .orElse some (forgetful_tryExtension hresolver place extension text) (ih (place + 1))

/-- Deciding on an expression is forgetful where resolving those inside it is. -/
theorem forgetful_decideOn (chain : Chain) (text : List Char) :
    Forgetful (chain.decideOn resolver text) := by
  cases hword : chain.table.lookup? text with
  | some tree =>
    have hpart : chain.decideOn resolver text = fun run => (tree, run) := by
      funext run
      simp only [decideOn, hword]
    rw [hpart]
    exact .pure tree
  | none =>
    have hbuiltins := forgetful_tryMatchers hresolver (chain.builtins.map Builtin.matcher) text
    have hextensions := forgetful_tryExtensions hresolver 0 chain.extensions text
    have hfallback := forgetful_tryMatchers hresolver chain.fallback.toList text
    have hreference := forgetful_run hresolver (referenceScript text)
    have hpart := hbuiltins.orElse id (hextensions.orElse id (hfallback.orElse id hreference))
    refine ⟨fun run => ?_, fun {run other} h => ?_⟩
    · simp only [decideOn, hword]
      exact hpart.expanding run
    · simp only [decideOn, hword]
      exact hpart.result h

end Chain

end Resolution

/-- A resolution depends on no more of a run than the aliases being expanded, and leaves these
as they were. -/
theorem Chain.forgetful_resolveWithin (chain : Chain) (levels : Nat) (text : List Char) :
    Forgetful (chain.resolveWithin levels text) := by
  induction levels generalizing text with
  | zero => exact ⟨fun _ => rfl, fun _ => rfl⟩
  | succ levels ih => exact chain.forgetful_decideOn ih (Text.trim text)

/-! ## Values of scripts -/

namespace Script

/-- What a script comes to where expressions are read by `read`. -/
def value {α : Type} (read : List Char → TypeTree) : Script α → α
  | .done a => a
  | .resolve expression next => (next (read expression)).value read
  | .register _ next => next.value read
  | .warn _ next => next.value read

variable {α β : Type} (read : List Char → TypeTree)

@[simp] theorem value_done (a : α) : (Script.done a).value read = a := rfl

@[simp] theorem value_pure (a : α) : (pure a : Script α).value read = a := rfl

@[simp] theorem value_ask (expression : List Char) :
    (ask expression).value read = read expression := rfl

@[simp] theorem value_warn (warning : Warning) (next : Script α) :
    (Script.warn warning next).value read = next.value read := rfl

@[simp] theorem value_bind (script : Script α) (f : α → Script β) :
    (script.bind f).value read = (f (script.value read)).value read := by
  induction script with
  | done a => rfl
  | resolve expression next ih => exact ih (read expression)
  | register definition next ih => exact ih
  | warn warning next ih => exact ih

@[simp] theorem value_do (script : Script α) (f : α → Script β) :
    (script >>= f).value read = (f (script.value read)).value read :=
  value_bind read script f

@[simp] theorem value_each (f : α → Script β) (items : List α) :
    (each f items).value read = items.map fun item => (f item).value read := by
  induction items with
  | nil => rfl
  | cons item rest ih => simp [each, ih]

end Script

/-- A resolver reads each expression as `read` says in every run in which the given aliases are
being expanded. -/
def ReadsAs (resolver : Resolver) (expanding : List (Nat × String))
    (read : List Char → TypeTree) : Prop :=
  ∀ text run, run.expanding = expanding →
    (resolver text run).1 = read text ∧ (resolver text run).2.expanding = expanding

/-- A script comes to its value in every run, and leaves the aliases being expanded as they
were. -/
theorem Script.run_of_readsAs {α : Type} {resolver : Resolver}
    {expanding : List (Nat × String)} {read : List Char → TypeTree}
    (h : ReadsAs resolver expanding read) (script : Script α)
    {run : Run} (hrun : run.expanding = expanding) :
    (script.run resolver run).1 = script.value read ∧
      (script.run resolver run).2.expanding = expanding := by
  induction script generalizing run with
  | done a => exact ⟨rfl, hrun⟩
  | resolve expression next ih =>
    obtain ⟨htree, hafter⟩ := h expression run hrun
    have hnext := ih (resolver expression run).1 hafter
    rw [Script.run, Script.value, ← htree]
    exact hnext
  | register definition next ih => exact ih hrun
  | warn warning next ih => exact ih hrun

namespace Chain

/-- The tree of an expression under a chain, in a run of its own. -/
def read (chain : Chain) (text : List Char) : TypeTree :=
  (chain.resolve text .start).1

/-- A chain reads each expression as it does in a run of its own. -/
theorem readsAs_resolve (chain : Chain) : ReadsAs chain.resolve [] chain.read := by
  intro text run hrun
  have hforget := chain.forgetful_resolveWithin depthLimit text
  exact ⟨hforget.result hrun, (hforget.expanding run).trans hrun⟩

/-- So does a script: what it comes to is what the chain reads. -/
theorem run_start (chain : Chain) {α : Type} (script : Script α) :
    (script.run chain.resolve .start).1 = script.value chain.read :=
  (Script.run_of_readsAs chain.readsAs_resolve script rfl).1

end Chain

end CanonicalIdl
