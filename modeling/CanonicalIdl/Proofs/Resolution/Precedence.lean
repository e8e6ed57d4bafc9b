import CanonicalIdl.Proofs.Resolution.Forms

/-!
# The order of the built-in rules

Each built-in rule takes its own view of a text: two look at the brackets around it, one at the
whole word, the others at the name in front of the arguments.  Still no text, however malformed
its brackets, suits two of them, and none that suits one is a primitive word.  The brackets and
the name tell beforehand which rule it can be, so the order in which the rules are tried is of
no account.

Main results:

- Theorem `candidate_of_shape?`: a rule that accepts a text is the candidate for it.
- Theorem `findSome?_shape?`: rules in a row accept a text as the candidate among them does.
- Theorem `at_most_one_accepts`: where a rule accepts a text all others decline it, and any order
  of the rules resolves every text alike.
-/

namespace CanonicalIdl

open Text

namespace Builtin

/-! ## The candidate for a text -/

/-- The built-in rule that may accept a text. -/
def candidate (text : List Char) : Builtin :=
  if text.head? = some '(' then .tuple
  else if text.head? = some '[' then .array
  else if text = "Node".toList then .node
  else if (Application.ofText text).name = "Vec".toList then .vec
  else if (Application.ofText text).name = "Option".toList then .option
  else .map

/-- The rule goes by the name in front of the arguments. -/
def GoesByName (builtin : Builtin) : Prop :=
  builtin = .map ∨ builtin = .vec ∨ builtin = .option

section Accepted

variable {builtin : Builtin} {text : List Char} {shape : Shape}

theorem name_of_singleShape? {name : String} {wrap : List Char → Shape}
    (h : singleShape? name wrap text = some shape) :
    (Application.ofText text).name = name.toList := by
  by_contra hname
  rw [singleShape?_eq_none hname] at h
  cases h

theorem arguments_of_singleShape? {name : String} {wrap : List Char → Shape}
    (h : singleShape? name wrap text = some shape) : (Application.ofText text).arguments ≠ [] := by
  intro hnil
  simp only [singleShape?, hnil] at h
  cases h

theorem isMapName_of_shape? (h : map.shape? text = some shape) :
    isMapName (Application.ofText text).name = true := by
  simp only [shape?] at h
  split at h
  · split at h
    · assumption
    · cases h
  · cases h

/-- A rule that goes by the name accepts only what has arguments. -/
theorem arguments_ne_nil (hname : builtin.GoesByName) (h : builtin.shape? text = some shape) :
    (Application.ofText text).arguments ≠ [] := by
  rcases hname with rfl | rfl | rfl
  · intro hnil
    simp only [shape?, hnil] at h
    cases h
  · exact arguments_of_singleShape? h
  · exact arguments_of_singleShape? h

/-- A rule that goes by the name accepts no text that starts with a bracket. -/
theorem head?_ne (hname : builtin.GoesByName) (h : builtin.shape? text = some shape) {c : Char}
    (hc : opensGroup c = true) : text.head? ≠ some c := by
  intro hhead
  obtain ⟨rest, rfl⟩ := List.head?_eq_some_iff.mp hhead
  obtain ⟨hmap, hvec, hoption⟩ := shape?_of_opensGroup hc rest
  rcases hname with rfl | rfl | rfl
  · rw [hmap] at h
    cases h
  · rw [hvec] at h
    cases h
  · rw [hoption] at h
    cases h

theorem ne_node (hname : builtin.GoesByName) (h : builtin.shape? text = some shape) :
    text ≠ "Node".toList := by
  rintro rfl
  exact arguments_ne_nil hname h (by decide)

/-- Where a rule goes by the name, so does the candidate. -/
theorem candidate_of_goesByName (hname : builtin.GoesByName)
    (h : builtin.shape? text = some shape) :
    candidate text =
      if (Application.ofText text).name = "Vec".toList then .vec
      else if (Application.ofText text).name = "Option".toList then .option
      else .map := by
  rw [candidate, if_neg (head?_ne hname h rfl), if_neg (head?_ne hname h rfl),
    if_neg (ne_node hname h)]

theorem head?_of_between? {opening closing : Char} {inner : List Char}
    (h : between? opening closing text = some inner) : text.head? = some opening := by
  rw [between?_eq_some_iff.mp h]
  rfl

/-- A rule that accepts a text is the candidate for it. -/
theorem candidate_of_shape? (h : builtin.shape? text = some shape) :
    candidate text = builtin := by
  cases builtin with
  | map =>
    have hmap := isMapName_of_shape? h
    have hvec : (Application.ofText text).name ≠ "Vec".toList := by
      intro hname
      rw [hname] at hmap
      exact absurd hmap (by decide)
    have hoption : (Application.ofText text).name ≠ "Option".toList := by
      intro hname
      rw [hname] at hmap
      exact absurd hmap (by decide)
    rw [candidate_of_goesByName (.inl rfl) h, if_neg hvec, if_neg hoption]
  | vec =>
    rw [candidate_of_goesByName (.inr (.inl rfl)) h, if_pos (name_of_singleShape? h)]
  | option =>
    have hoption : (Application.ofText text).name = "Option".toList := name_of_singleShape? h
    have hvec : (Application.ofText text).name ≠ "Vec".toList := by
      rw [hoption]
      decide
    rw [candidate_of_goesByName (.inr (.inr rfl)) h, if_neg hvec, if_pos hoption]
  | tuple =>
    obtain ⟨inner, hinner, -⟩ := Option.map_eq_some_iff.mp h
    rw [candidate, if_pos (head?_of_between? hinner)]
  | array =>
    obtain ⟨parts, hparts, -⟩ := Option.bind_eq_some_iff.mp h
    obtain ⟨inner, hinner, -⟩ := Option.bind_eq_some_iff.mp hparts
    have hhead := head?_of_between? hinner
    rw [candidate, hhead, if_neg (by decide), if_pos rfl]
  | node =>
    have hnode : text = "Node".toList := by
      by_contra hnode
      simp only [shape?, if_neg hnode] at h
      cases h
    rw [hnode]
    decide

/-- A text that a built-in rule accepts is no primitive word. -/
theorem ofWord?_eq_none_of_shape? (h : builtin.shape? text = some shape) :
    Primitive.ofWord? text = none := by
  have hangle : builtin.GoesByName → Primitive.ofWord? text = none := by
    intro hname
    obtain ⟨name, rest, -, -, htext, -, -⟩ := Application.exists_angle (arguments_ne_nil hname h)
    exact ofWord?_eq_none rfl (htext ▸ List.mem_append_right name List.mem_cons_self)
  cases builtin with
  | map => exact hangle (.inl rfl)
  | vec => exact hangle (.inr (.inl rfl))
  | option => exact hangle (.inr (.inr rfl))
  | tuple =>
    obtain ⟨inner, hinner, -⟩ := Option.map_eq_some_iff.mp h
    exact ofWord?_eq_none rfl (List.mem_of_head? (head?_of_between? hinner))
  | array =>
    obtain ⟨parts, hparts, -⟩ := Option.bind_eq_some_iff.mp h
    obtain ⟨inner, hinner, -⟩ := Option.bind_eq_some_iff.mp hparts
    exact ofWord?_eq_none rfl (List.mem_of_head? (head?_of_between? hinner))
  | node =>
    by_cases hnode : text = "Node".toList
    · rw [hnode]
      decide
    · simp only [shape?, if_neg hnode] at h
      cases h

end Accepted

/-! ## Rules in a row -/

/-- Rules in a row accept a text as the candidate among them does. -/
theorem findSome?_shape? (builtins : List Builtin) (text : List Char) :
    builtins.findSome? (·.shape? text) =
      if candidate text ∈ builtins then (candidate text).shape? text else none := by
  induction builtins with
  | nil => rfl
  | cons builtin rest ih =>
    rw [List.findSome?_cons]
    cases h : builtin.shape? text with
    | some shape =>
      have hcandidate := candidate_of_shape? h
      rw [hcandidate, if_pos List.mem_cons_self, h]
    | none =>
      dsimp only
      rw [ih]
      by_cases hcandidate : candidate text = builtin
      · rw [hcandidate, h, ite_self, ite_self]
      · have hiff : candidate text ∈ builtin :: rest ↔ candidate text ∈ rest := by
          rw [List.mem_cons, or_iff_right hcandidate]
        simp only [hiff]

/-- Whether a rule accepts a text does not hang on what the expressions inside it resolve to. -/
theorem isSome_run_matcher (builtin : Builtin) (text : List Char) (resolver : Resolver)
    (run : Run) :
    ((builtin.matcher text).run resolver run).1.isSome = (builtin.shape? text).isSome := by
  rw [run_matcher .standard]
  cases builtin.shape? text <;> rfl

/-- Where one rule accepts a text, every other one declines it and does nothing else. -/
theorem run_matcher_of_ne {builtin other : Builtin} {text : List Char} {shape : Shape}
    (h : builtin.shape? text = some shape) (hne : other ≠ builtin) (resolver : Resolver)
    (run : Run) : (other.matcher text).run resolver run = (none, run) := by
  have hother : other.shape? text = none := by
    cases hshape : other.shape? text with
    | none => rfl
    | some otherShape =>
      have hsame : other = builtin :=
        calc other = candidate text := (candidate_of_shape? hshape).symm
          _ = builtin := candidate_of_shape? h
      exact absurd hsame hne
  rw [run_matcher .standard, hother, Shape.outcome_none]

end Builtin

namespace Chain

/-- Chains that differ in the order of their built-in rules resolve alike. -/
theorem resolveWithin_of_perm {chain : Chain} {order : List Builtin}
    (h : order.Perm chain.builtins) (levels : Nat) :
    { chain with builtins := order }.resolveWithin levels = chain.resolveWithin levels := by
  induction levels with
  | zero => rfl
  | succ levels ih =>
    funext text run
    rw [resolveWithin_succ, resolveWithin_succ, ih]
    simp only [decideOn, tryMatchers_builtins chain.table, Builtin.findSome?_shape?, h.mem_iff]

/-- At most one of the primitive words and the built-in rules accepts a text: where a rule
accepts it, whatever the expressions inside it resolve to, the text is no primitive word, and
every other rule declines it without doing anything.  So the built-in rules resolve every text
alike in any order, with the same extensions and the same fallback behind them. -/
theorem at_most_one_accepts (chain : Chain) :
    (∀ (builtin : Builtin) (text : List Char) (resolver : Resolver) (run : Run),
      ((builtin.matcher text).run resolver run).1.isSome = true →
        chain.table.lookup? text = none ∧
          ∀ other, other ≠ builtin → (other.matcher text).run resolver run = (none, run)) ∧
    ∀ order : List Builtin, order.Perm chain.builtins →
      { chain with builtins := order }.resolve = chain.resolve := by
  constructor
  · intro builtin text resolver run haccepts
    rw [Builtin.isSome_run_matcher] at haccepts
    obtain ⟨shape, hshape⟩ := Option.isSome_iff_exists.mp haccepts
    constructor
    · rw [PrimitiveWords.lookup?, Builtin.ofWord?_eq_none_of_shape? hshape, Option.map_none]
    · intro other hne
      exact Builtin.run_matcher_of_ne hshape hne resolver run
  · intro order horder
    exact resolveWithin_of_perm horder depthLimit

/-- An array of maps is no map, and the rules in reverse order find that out as well. -/
theorem at_most_one_accepts_arrayOfMaps :
    ((Builtin.array.matcher "[HashMap<A, B>; 2]".toList).run standard.resolve .start).1.isSome =
        true ∧
      (Builtin.map.matcher "[HashMap<A, B>; 2]".toList).run standard.resolve .start =
        (none, .start) ∧
      Builtin.all.reverse.Perm standard.builtins ∧
      { standard with builtins := Builtin.all.reverse }.resolve = standard.resolve := by
  have haccepts : ((Builtin.array.matcher "[HashMap<A, B>; 2]".toList).run
      standard.resolve .start).1.isSome = true := by decide
  have hreverse : Builtin.all.reverse.Perm standard.builtins := Builtin.all.reverse_perm
  obtain ⟨hone, horder⟩ := at_most_one_accepts standard
  exact ⟨haccepts, (hone .array _ _ _ haccepts).2 .map (by decide), hreverse,
    horder _ hreverse⟩

end Chain

end CanonicalIdl
