import CanonicalIdl.Proofs.Resolution.Memory
import CanonicalIdl.Proofs.Resolution.Shape

/-!
# Refusals at the level limit

Resolution follows the expressions inside one another for so many levels and refuses what
lies deeper, with a warning.  A text without refusals lies within the limit as a whole, and
more levels would not change its tree.  So where nothing is refused, what a run comes to can
be told without its limit.

Main results:

- Theorem `readWithin_of_fitsWithin`: more levels do not change the tree of a text that fits.
- Theorem `ReadsUnlessRefused.run_script`: a script that is refused nothing comes to its value,
  and all that it asks for fits.
-/

namespace CanonicalIdl

open Text

/-! ## Parts of shapes -/

namespace Shape

/-- The expressions that stand in a shape. -/
def parts : Shape → List (List Char)
  | .primitive _ => []
  | .map _ key value => [key, value]
  | .vec inner => [inner]
  | .tuple items => items
  | .option inner => [inner]
  | .array element _ => [element]
  | .node => []
  | .bare _ => []
  | .applied _ arguments => arguments

/-- Only the parts of a shape are read. -/
theorem tree_congr (table : PrimitiveWords) {read other : List Char → TypeTree} {shape : Shape}
    (h : ∀ part ∈ shape.parts, read part = other part) :
    shape.tree table read = shape.tree table other := by
  cases shape with
  | map base key value =>
    have hkey : read key = other key := h key (by simp [parts])
    have hvalue : read value = other value := h value (by simp [parts])
    rw [tree, tree, hkey, hvalue]
  | tuple items =>
    have hitems : items.map read = items.map other := List.map_congr_left h
    rw [tree, tree, hitems]
  | applied name arguments =>
    have harguments : arguments.map read = arguments.map other := List.map_congr_left h
    rw [tree, tree, harguments]
  | vec inner => rw [tree, tree, h inner (by simp [parts])]
  | option inner => rw [tree, tree, h inner (by simp [parts])]
  | array element length => rw [tree, tree, h element (by simp [parts])]
  | _ => rfl

end Shape

/-! ## What a script asks for -/

namespace Script

/-- Every expression that a script asks for has a property, the trees that it gets being read
by `read`. -/
def Asks {α : Type} (read : List Char → TypeTree) (P : List Char → Prop) : Script α → Prop
  | .done _ => True
  | .resolve expression next => P expression ∧ (next (read expression)).Asks read P
  | .register _ next => next.Asks read P
  | .warn _ next => next.Asks read P

variable {α β : Type} (read : List Char → TypeTree) (P : List Char → Prop)

@[simp] theorem asks_done (a : α) : (Script.done a).Asks read P ↔ True := Iff.rfl

@[simp] theorem asks_pure (a : α) : (pure a : Script α).Asks read P ↔ True := Iff.rfl

/-- A script that asks for one expression asks for that. -/
@[simp] theorem asks_ask (expression : List Char) :
    (ask expression).Asks read P ↔ P expression := by
  simp [ask, Asks]

/-- A script in two steps asks for what both ask. -/
@[simp] theorem asks_bind (script : Script α) (f : α → Script β) :
    (script.bind f).Asks read P ↔ script.Asks read P ∧ (f (script.value read)).Asks read P := by
  induction script with
  | done a => simp [Script.bind]
  | resolve expression next ih => simp [Script.bind, Asks, value, ih, and_assoc]
  | register definition next ih => exact ih
  | warn warning next ih => exact ih

@[simp] theorem asks_do (script : Script α) (f : α → Script β) :
    (script >>= f).Asks read P ↔ script.Asks read P ∧ (f (script.value read)).Asks read P :=
  asks_bind read P script f

/-- A list of expressions is asked for one by one. -/
@[simp] theorem asks_askEach (expressions : List (List Char)) :
    (askEach expressions).Asks read P ↔ ∀ expression ∈ expressions, P expression := by
  unfold askEach
  induction expressions with
  | nil => simp [each]
  | cons expression rest ih => simp [each, ih]

end Script

namespace Shape

/-- The script of a shape comes to the tree of the shape. -/
@[simp] theorem value_script (table : PrimitiveWords) (read : List Char → TypeTree)
    (shape : Shape) : (shape.script table).value read = shape.tree table read := by
  cases shape <;> simp [script, tree, Script.askEach]

/-- The script of a shape asks for the parts of the shape. -/
@[simp] theorem asks_script (table : PrimitiveWords) (read : List Char → TypeTree)
    (P : List Char → Prop) (shape : Shape) :
    (shape.script table).Asks read P ↔ ∀ part ∈ shape.parts, P part := by
  cases shape <;> simp [script, parts]

end Shape

/-! ## Texts within the limit -/

/-- The expressions in a text lie within so many levels. -/
def FitsWithin : Nat → List Char → Prop
  | 0, _ => False
  | levels + 1, text => ∀ part ∈ (Shape.ofText (trim text)).parts, FitsWithin levels part

/-- More levels do not change the tree of a text that fits. -/
theorem TypeTree.readWithin_of_fitsWithin (table : PrimitiveWords) {levels more : Nat}
    {text : List Char} (h : FitsWithin levels text) (hle : levels ≤ more) :
    readWithin table more text = readWithin table levels text := by
  induction levels generalizing more text with
  | zero => exact h.elim
  | succ levels ih =>
    obtain ⟨more, rfl⟩ := Nat.exists_eq_add_of_le' (show 1 ≤ more by omega)
    rw [readWithin, readWithin]
    exact Shape.tree_congr table fun part hpart => ih (h part hpart) (by omega)

/-! ## Runs without refusals -/

/-- How often a run has refused to follow an expression. -/
def Run.refusals (run : Run) : Nat := run.warnings.count .nestedTooDeep

@[simp] theorem Run.refusals_warn_nestedTooDeep (run : Run) :
    (run.warn .nestedTooDeep).refusals = run.refusals + 1 := by
  simp [refusals, warn, List.count_append]

/-- A part of a run leaves the aliases being expanded as they were and takes no refusal back,
and if it adds none a statement about it holds. -/
structure UnlessRefused (before after : Run) (P : Prop) : Prop where
  expanding : after.expanding = before.expanding
  refusals_le : before.refusals ≤ after.refusals
  holds : after.refusals = before.refusals → P

namespace UnlessRefused

variable {before between after : Run} {P Q : Prop}

theorem refl (h : P) : UnlessRefused before before P := ⟨rfl, Nat.le_refl _, fun _ => h⟩

/-- A part that is refused something at once. -/
theorem of_refusal (run : Run) : UnlessRefused run (run.warn .nestedTooDeep) P where
  expanding := rfl
  refusals_le := by simp
  holds h := by simp at h

/-- To register a definition refuses nothing. -/
theorem register (run : Run) (definition : Definition) :
    UnlessRefused run (run.register definition) True :=
  ⟨rfl, Nat.le_refl _, fun _ => trivial⟩

theorem warn (run : Run) (warning : Warning) : UnlessRefused run (run.warn warning) True where
  expanding := rfl
  refusals_le := by simp [Run.refusals, Run.warn, List.count_append]
  holds _ := trivial

/-- A part and what follows it: if both together are refused nothing, neither is. -/
theorem andThen (hfirst : UnlessRefused before between P)
    (hsecond : UnlessRefused between after Q) : UnlessRefused before after (P ∧ Q) where
  expanding := hsecond.expanding.trans hfirst.expanding
  refusals_le := Nat.le_trans hfirst.refusals_le hsecond.refusals_le
  holds h := by
    have hfirst_le := hfirst.refusals_le
    have hsecond_le := hsecond.refusals_le
    exact ⟨hfirst.holds (by omega), hsecond.holds (by omega)⟩

/-- What follows from the outcome may be said in its place. -/
theorem imp (h : UnlessRefused before after P) (hPQ : P → Q) : UnlessRefused before after Q :=
  ⟨h.expanding, h.refusals_le, fun hnone => hPQ (h.holds hnone)⟩

end UnlessRefused

/-- While the given aliases are being expanded, a resolver reads each expression as `read` says
and each is among those that fit, unless it is refused in part or as a whole. -/
def ReadsUnlessRefused (resolver : Resolver) (aliases : List (Nat × String))
    (read : List Char → TypeTree) (Fits : List Char → Prop) : Prop :=
  ∀ text run, run.expanding = aliases →
    UnlessRefused run (resolver text run).2 ((resolver text run).1 = read text ∧ Fits text)

/-- A script that is refused nothing comes to its value and asks only for what fits. -/
theorem ReadsUnlessRefused.run_script {resolver : Resolver} {aliases : List (Nat × String)}
    {read : List Char → TypeTree} {Fits : List Char → Prop}
    (h : ReadsUnlessRefused resolver aliases read Fits) {α : Type} (script : Script α) {run : Run}
    (hrun : run.expanding = aliases) :
    UnlessRefused run (script.run resolver run).2
      ((script.run resolver run).1 = script.value read ∧ script.Asks read Fits) := by
  induction script generalizing run with
  | done a => exact .refl ⟨rfl, trivial⟩
  | resolve expression next ih =>
    have hfirst := h expression run hrun
    have hnext := ih (resolver expression run).1 (hfirst.expanding.trans hrun)
    refine (hfirst.andThen hnext).imp ?_
    rintro ⟨⟨htree, hfits⟩, hvalue, hasks⟩
    rw [Script.value, Script.Asks, ← htree]
    exact ⟨hvalue, hfits, hasks⟩
  | register definition next ih =>
    exact ((UnlessRefused.register run definition).andThen (ih hrun)).imp And.right
  | warn warning next ih =>
    exact ((UnlessRefused.warn run warning).andThen (ih hrun)).imp And.right

end CanonicalIdl
