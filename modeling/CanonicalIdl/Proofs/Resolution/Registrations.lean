import CanonicalIdl.Proofs.Resolution.Memory

/-!
# What rules register

The script of a rule says which definitions the rule registers, and a resolution registers what
the scripts say that it carries out.  This is told here from the scripts alone, as a list for each
expression, without the list that a run keeps.  A run adds the one to the other: whatever has been
registered before is neither looked at nor changed.

Main results:

- Theorem `Script.registered_run`: a run of a script adds what the script registers.
- Theorem `Chain.registered_resolveWithin`: so does a resolution, at every level and inside any
  aliases.
-/

namespace CanonicalIdl

open Text

/-! ## Scripts -/

namespace Script

/-- The definitions that a script registers, in order, where expressions are read by `read` and
resolving one of them registers what `inside` says. -/
def registrations {α : Type} (read : List Char → TypeTree)
    (inside : List Char → List Definition) : Script α → List Definition
  | .done _ => []
  | .resolve expression next =>
    inside expression ++ (next (read expression)).registrations read inside
  | .register definition next => definition :: next.registrations read inside
  | .warn _ next => next.registrations read inside

section Laws

variable {α β : Type} (read : List Char → TypeTree) (inside : List Char → List Definition)

@[simp] theorem registrations_done (a : α) :
    (Script.done a).registrations read inside = [] := rfl

@[simp] theorem registrations_pure (a : α) :
    (pure a : Script α).registrations read inside = [] := rfl

/-- An expression that is asked for registers what resolving it does. -/
@[simp] theorem registrations_ask (expression : List Char) :
    (ask expression).registrations read inside = inside expression :=
  List.append_nil _

@[simp] theorem registrations_warn (warning : Warning) (next : Script α) :
    (Script.warn warning next).registrations read inside = next.registrations read inside := rfl

/-- A script that goes on after another one registers its own definitions behind. -/
@[simp] theorem registrations_bind (script : Script α) (f : α → Script β) :
    (script.bind f).registrations read inside =
      script.registrations read inside ++ (f (script.value read)).registrations read inside := by
  induction script with
  | done a => rfl
  | resolve expression next ih =>
    rw [Script.bind, registrations, ih, registrations, List.append_assoc]
    rfl
  | register definition next ih => exact congrArg (definition :: ·) ih
  | warn warning next ih => exact ih

/-- A script in two steps registers what both do, in order. -/
@[simp] theorem registrations_do (script : Script α) (f : α → Script β) :
    (script >>= f).registrations read inside =
      script.registrations read inside ++ (f (script.value read)).registrations read inside :=
  registrations_bind read inside script f

/-- So does a script that is carried out for each item. -/
@[simp] theorem registrations_each (f : α → Script β) (items : List α) :
    (each f items).registrations read inside =
      items.flatMap fun item => (f item).registrations read inside := by
  induction items with
  | nil => rfl
  | cons item rest ih => simp [each, ih]

end Laws

/-- A run of a script adds what the script registers to what has been registered before. -/
theorem registered_run {α : Type} {resolver : Resolver} {expanding : List (Nat × String)}
    {read : List Char → TypeTree} {inside : List Char → List Definition}
    (hread : ReadsAs resolver expanding read)
    (hinside : ∀ text run, run.expanding = expanding →
      (resolver text run).2.registered = run.registered ++ inside text)
    (script : Script α) {run : Run} (hrun : run.expanding = expanding) :
    (script.run resolver run).2.registered =
      run.registered ++ script.registrations read inside := by
  induction script generalizing run with
  | done a => exact (List.append_nil _).symm
  | resolve expression next ih =>
    obtain ⟨htree, hafter⟩ := hread expression run hrun
    have hnext := ih (resolver expression run).1 hafter
    rw [hinside expression run hrun, htree, List.append_assoc] at hnext
    rw [Script.run, registrations]
    simpa only [htree] using hnext
  | register definition next ih =>
    have hnext := ih (show (run.register definition).expanding = expanding from hrun)
    rw [Script.run, registrations, hnext, Run.register, List.append_assoc, List.singleton_append]
  | warn warning next ih => exact ih hrun

end Script

/-! ## Attempts -/

/-- An attempt at a text: whether the text is accepted, and what is registered on the way. -/
structure Attempt where
  accepts : Bool
  told : List Definition

namespace Attempt

/-- An attempt that is not made. -/
def none : Attempt := ⟨false, []⟩

/-- An attempt, and if the text is not accepted another one. -/
def orElse (first second : Attempt) : Attempt where
  accepts := first.accepts || second.accepts
  told := if first.accepts then first.told else first.told ++ second.told

/-- Attempts one after another, up to the first that accepts the text. -/
def firstOf (attempts : List Attempt) : Attempt :=
  attempts.foldr orElse none

end Attempt

/-- While the given aliases are being expanded, a part of a run comes to what an attempt says and
leaves these aliases as they were. -/
structure Attempts {α : Type} (expanding : List (Nat × String)) (accepted : α → Bool)
    (part : Run → α × Run) (attempt : Attempt) : Prop where
  accepts : ∀ run, run.expanding = expanding → accepted (part run).1 = attempt.accepts
  told : ∀ run, run.expanding = expanding →
    (part run).2.registered = run.registered ++ attempt.told
  expanding : ∀ run, run.expanding = expanding → (part run).2.expanding = expanding

namespace Attempts

variable {α : Type} {expanding : List (Nat × String)} {accepted : α → Bool}

theorem pure (a : α) : Attempts expanding accepted (fun run => (a, run)) ⟨accepted a, []⟩ :=
  ⟨fun _ _ => rfl, fun _ _ => (List.append_nil _).symm, fun _ h => h⟩

/-- A script is the attempt that its value and its registrations say. -/
theorem script {resolver : Resolver} {read : List Char → TypeTree}
    {inside : List Char → List Definition} (hread : ReadsAs resolver expanding read)
    (hinside : ∀ text run, run.expanding = expanding →
      (resolver text run).2.registered = run.registered ++ inside text) (script : Script α) :
    Attempts expanding accepted (script.run resolver)
      ⟨accepted (script.value read), script.registrations read inside⟩ where
  accepts _ hrun := congrArg accepted (script.run_of_readsAs hread hrun).1
  told _ hrun := script.registered_run hread hinside hrun
  expanding _ hrun := (script.run_of_readsAs hread hrun).2

/-- An attempt, and if it comes to nothing another one. -/
theorem orElse {first : Run → Option TypeTree × Run} {second : Run → α × Run}
    {one other : Attempt} (accept : TypeTree → α) (haccept : ∀ tree, accepted (accept tree) = true)
    (hfirst : Attempts expanding Option.isSome first one)
    (hsecond : Attempts expanding accepted second other) :
    Attempts expanding accepted
      (fun run =>
        match first run with
        | (some tree, run) => (accept tree, run)
        | (none, run) => second run)
      (one.orElse other) := by
  have hcases : ∀ run, run.expanding = expanding →
      (∃ tree after, first run = (some tree, after) ∧ one.accepts = true ∧
        after.registered = run.registered ++ one.told ∧ after.expanding = expanding) ∨
      (∃ after, first run = (none, after) ∧ one.accepts = false ∧
        after.registered = run.registered ++ one.told ∧ after.expanding = expanding) := by
    intro run hrun
    have haccepts := hfirst.accepts run hrun
    have htold := hfirst.told run hrun
    have hafter := hfirst.expanding run hrun
    rcases hpart : first run with ⟨_ | tree, after⟩ <;> rw [hpart] at haccepts htold hafter
    · exact .inr ⟨after, rfl, haccepts.symm, htold, hafter⟩
    · exact .inl ⟨tree, after, rfl, haccepts.symm, htold, hafter⟩
  refine ⟨fun run hrun => ?_, fun run hrun => ?_, fun run hrun => ?_⟩ <;>
    obtain ⟨tree, after, hpart, haccepts, htold, hafter⟩ |
      ⟨after, hpart, haccepts, htold, hafter⟩ := hcases run hrun <;>
    simp only [hpart, Attempt.orElse, haccepts]
  · exact haccept tree
  · exact hsecond.accepts after hafter
  · exact htold
  · rw [hsecond.told after hafter, htold, List.append_assoc]
    rfl
  · exact hafter
  · exact hsecond.expanding after hafter

end Attempts

/-! ## Chains -/

namespace Chain

section Level

variable (read : List Char → TypeTree)
  (inside : List (Nat × String) → List Char → List Definition)
  (expanding : List (Nat × String)) (text : List Char)

/-- What a rule makes of a text. -/
def attemptOf (rule : Matcher) : Attempt where
  accepts := ((rule text).value read).isSome
  told := (rule text).registrations read (inside expanding)

/-- What the extension at a place makes of a text.  An alias is expanded unless that is going on. -/
def attemptOfExtension : Extension × Nat → Attempt
  | (.matcher rule, _) => attemptOf read inside expanding text rule
  | (.aliases table, place) =>
    match table.lookup (String.ofList text) with
    | none => .none
    | some target =>
      if (place, String.ofList text) ∈ expanding then .none
      else ⟨true, inside ((place, String.ofList text) :: expanding) target.toList⟩

/-- What a chain makes of a trimmed text: it tries the built-in shapes, the extensions and the
fallback, in this order, and a text that nothing accepts becomes a reference. -/
def attemptAll (chain : Chain) : Attempt :=
  (Attempt.firstOf (chain.builtins.map (attemptOf read inside expanding text ·.matcher))).orElse <|
    (Attempt.firstOf (chain.extensions.zipIdx.map
      (attemptOfExtension read inside expanding text))).orElse <|
    (Attempt.firstOf (chain.fallback.toList.map (attemptOf read inside expanding text))).orElse
      ⟨true, (referenceScript text).registrations read (inside expanding)⟩

end Level

/-- The tree of an expression at so many levels and inside the given aliases. -/
def readInside (chain : Chain) (levels : Nat) (expanding : List (Nat × String))
    (text : List Char) : TypeTree :=
  (chain.resolveWithin levels text { Run.start with expanding }).1

/-- The definitions that resolving an expression registers, at so many levels and inside the given
aliases.  Primitive words register nothing. -/
def registrationsWithin (chain : Chain) :
    Nat → List (Nat × String) → List Char → List Definition
  | 0, _, _ => []
  | levels + 1, expanding, text =>
    if (chain.table.lookup? (trim text)).isSome then []
    else
      (chain.attemptAll (chain.readInside levels expanding) (chain.registrationsWithin levels)
        expanding (trim text)).told

/-- The definitions that resolving an expression registers, in order. -/
def registrations (chain : Chain) (text : List Char) : List Definition :=
  chain.registrationsWithin depthLimit [] text

/-- Inside the same aliases, a resolution gives the same tree whatever the run. -/
theorem readsAs_resolveWithin (chain : Chain) (levels : Nat) (expanding : List (Nat × String)) :
    ReadsAs (chain.resolveWithin levels) expanding (chain.readInside levels expanding) := by
  intro text run hrun
  have hforget := chain.forgetful_resolveWithin levels text
  exact ⟨hforget.result hrun, (hforget.expanding run).trans hrun⟩

section Rules

variable {resolver : Resolver} {read : List Char → TypeTree}
  {inside : List (Nat × String) → List Char → List Definition} {expanding : List (Nat × String)}
  (hread : ReadsAs resolver expanding read)
  (hforget : ∀ text, Forgetful (resolver text))
  (hinside : ∀ text run, (resolver text run).2.registered =
    run.registered ++ inside run.expanding text)

include hread hinside

/-- A rule accepts a text and registers definitions as its script says. -/
theorem attempts_rule (text : List Char) (rule : Matcher) :
    Attempts expanding Option.isSome ((rule text).run resolver)
      (attemptOf read inside expanding text rule) :=
  .script hread (fun part run hrun => hrun ▸ hinside part run) (rule text)

/-- Of several rules, the first that accepts a text is the last that is tried. -/
theorem attempts_tryMatchers (text : List Char) (rules : List Matcher) :
    Attempts expanding Option.isSome (tryMatchers resolver rules text)
      (.firstOf (rules.map (attemptOf read inside expanding text))) := by
  induction rules with
  | nil => exact .pure none
  | cons rule rest ih =>
    exact .orElse some (fun _ => rfl) (attempts_rule hread hinside text rule) ih

include hforget

/-- An alias registers what its expression does, inside itself. -/
theorem attempts_extension (text : List Char) (extension : Extension) (place : Nat) :
    Attempts expanding Option.isSome (tryExtension resolver place extension text)
      (attemptOfExtension read inside expanding text (extension, place)) := by
  cases extension with
  | matcher rule => exact attempts_rule hread hinside text rule
  | aliases table =>
    rw [attemptOfExtension]
    cases htarget : table.lookup (String.ofList text) with
    | none =>
      have hpart : tryExtension resolver place (.aliases table) text = fun run => (none, run) := by
        funext run
        simp only [tryExtension, expandAlias, htarget]
      rw [hpart]
      exact .pure none
    | some target =>
      by_cases hopened : (place, String.ofList text) ∈ expanding
      · refine ⟨fun run hrun => ?_, fun run hrun => ?_, fun run hrun => ?_⟩ <;>
          simp [tryExtension, expandAlias, htarget, hrun, hopened, Attempt.none]
      · have hpart : ∀ run, run.expanding = expanding →
            tryExtension resolver place (.aliases table) text run =
              let opened := { run with
                expanding := (place, String.ofList text) :: run.expanding }
              let answer := resolver target.toList opened
              (some answer.1, { answer.2 with expanding := answer.2.expanding.tail }) := by
          intro run hrun
          simp only [tryExtension, expandAlias, htarget, hrun, List.contains_iff_mem, hopened,
            if_false]
        refine ⟨fun run hrun => ?_, fun run hrun => ?_, fun run hrun => ?_⟩ <;>
          rw [hpart run hrun]
        · simp [hopened]
        · simp [hopened, hinside, hrun]
        · simp [(hforget target.toList).expanding, hrun]

/-- So it is with extensions, each at its own place. -/
theorem attempts_tryExtensions (text : List Char) (extensions : List Extension) (place : Nat) :
    Attempts expanding Option.isSome (tryExtensions resolver place extensions text)
      (.firstOf ((extensions.zipIdx place).map
        (attemptOfExtension read inside expanding text))) := by
  induction extensions generalizing place with
  | nil => exact .pure none
  | cons extension rest ih =>
    rw [List.zipIdx_cons, List.map_cons]
    exact .orElse some (fun _ => rfl)
      (attempts_extension hread hforget hinside text extension place) (ih (place + 1))

/-- Deciding on a text registers what the first attempt that accepts it says, behind what those
before it do. -/
theorem registered_decideOn (chain : Chain) (text : List Char) {run : Run}
    (hrun : run.expanding = expanding) :
    (chain.decideOn resolver text run).2.registered =
      run.registered ++ (if (chain.table.lookup? text).isSome then []
        else (chain.attemptAll read inside expanding text).told) := by
  cases hword : chain.table.lookup? text with
  | some tree => simp [decideOn, hword]
  | none =>
    have hbuiltins := attempts_tryMatchers hread hinside text (chain.builtins.map Builtin.matcher)
    rw [List.map_map] at hbuiltins
    have hextensions := attempts_tryExtensions hread hforget hinside text chain.extensions 0
    have hfallback := attempts_tryMatchers hread hinside text chain.fallback.toList
    have hreference : Attempts expanding (fun _ => true) ((referenceScript text).run resolver)
        ⟨true, (referenceScript text).registrations read (inside expanding)⟩ :=
      .script hread (fun part run hrun => hrun ▸ hinside part run) (referenceScript text)
    have hall := hbuiltins.orElse id (fun _ => rfl) (hextensions.orElse id (fun _ => rfl)
      (hfallback.orElse id (fun _ => rfl) hreference))
    simp only [decideOn, hword]
    exact hall.told run hrun

end Rules

/-- A resolution adds what it registers to what has been registered before. -/
theorem registered_resolveWithin (chain : Chain) (levels : Nat) (text : List Char) (run : Run) :
    (chain.resolveWithin levels text run).2.registered =
      run.registered ++ chain.registrationsWithin levels run.expanding text := by
  induction levels generalizing text run with
  | zero => exact (List.append_nil _).symm
  | succ levels ih =>
    exact registered_decideOn (chain.readsAs_resolveWithin levels run.expanding)
      (chain.forgetful_resolveWithin levels) ih chain (trim text) rfl

/-- In a run of its own a script registers what it and the expressions in it say. -/
theorem registered_run (chain : Chain) {α : Type} (script : Script α) :
    (script.run chain.resolve .start).2.registered =
      script.registrations chain.read chain.registrations := by
  have hinside : ∀ text run, run.expanding = [] →
      (chain.resolve text run).2.registered = run.registered ++ chain.registrations text := by
    intro text run hrun
    rw [registrations, ← hrun]
    exact chain.registered_resolveWithin depthLimit text run
  exact (script.registered_run chain.readsAs_resolve hinside rfl).trans (List.nil_append _)

end Chain

end CanonicalIdl
