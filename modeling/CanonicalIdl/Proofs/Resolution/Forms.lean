import CanonicalIdl.Proofs.Resolution.Brackets
import CanonicalIdl.Proofs.Resolution.Shape
import Mathlib

/-!
# The written forms of a type expression

A trimmed text is a primitive word, the word for a hash, a tuple in round brackets, an
array in square brackets, or else it is decided by the name and the arguments that it
falls into.  This module gives the shape of each form, and shows that every text has one
of these forms.

Main results:

- Theorem `ofText_round`: the shape of a text in round brackets.
- Theorem `ofText_square`: the shape of a text in square brackets with a length.
- Theorem `ofText_angle`: the shape of a name in front of arguments.
- Theorem `ofText_cases`: every text has one of the forms.
-/

namespace CanonicalIdl

open Text

/-! ## Cutting texts at marks -/

namespace Builtin

/-- The text between two ends is what is left when the ends are taken off. -/
theorem between?_eq_some_iff {opening closing : Char} {text inner : List Char} :
    between? opening closing text = some inner ↔ text = opening :: inner ++ [closing] := by
  cases text with
  | nil => simp [between?]
  | cons c rest =>
    simp only [between?, Bool.and_eq_true, beq_iff_eq]
    constructor
    · intro h
      split at h
      · next hends =>
        obtain ⟨rfl, hlast⟩ := hends
        cases h
        obtain ⟨init, rfl⟩ := List.getLast?_eq_some_iff.mp hlast
        simp
      · cases h
    · intro h
      rw [List.cons_append, List.cons.injEq] at h
      obtain ⟨rfl, rfl⟩ := h
      simp

/-- The last mark of a text stands in front of a rest without marks. -/
theorem splitAtLast?_append {mark : Char} {before after : List Char} (h : mark ∉ after) :
    splitAtLast? mark (before ++ mark :: after) = some (before, after) := by
  have htail : (before ++ mark :: after).reverse.takeWhile (· != mark) = after.reverse := by
    rw [List.reverse_append, List.reverse_cons, List.append_assoc,
      List.takeWhile_append_of_pos]
    · simp
    · intro c hc
      have hne : c ≠ mark := by
        rintro rfl
        exact h (List.mem_reverse.mp hc)
      simpa using hne
  have hmem : (before ++ mark :: after).contains mark = true := by simp
  have hcount : (before ++ mark :: after).length - after.reverse.length - 1 = before.length := by
    simp only [List.length_append, List.length_cons, List.length_reverse]
    omega
  rw [splitAtLast?, if_pos hmem, htail]
  dsimp only
  rw [hcount, List.take_left, List.reverse_reverse]

theorem splitAtLast?_eq_some_iff {mark : Char} {text before after : List Char} :
    splitAtLast? mark text = some (before, after) ↔
      text = before ++ mark :: after ∧ mark ∉ after := by
  constructor
  · intro h
    have hmem : mark ∈ text.reverse := by
      by_contra hmem
      simp [splitAtLast?, List.mem_reverse.not.mp hmem] at h
    obtain ⟨tail, init, hsplit, htail⟩ := List.eq_append_cons_of_mem hmem
    have htext : text = init.reverse ++ mark :: tail.reverse := by
      rw [← List.reverse_reverse text, hsplit]
      simp
    have hnot : mark ∉ tail.reverse := fun hmark => htail (List.mem_reverse.mp hmark)
    rw [htext, splitAtLast?_append hnot] at h
    cases h
    exact ⟨htext, hnot⟩
  · rintro ⟨rfl, h⟩
    exact splitAtLast?_append h

end Builtin

/-! ## Primitive words -/

theorem isAlphanum_of_toLower {c : Char} (h : c.toLower.isAlphanum = true) :
    c.isAlphanum = true := by
  by_cases hupper : c.isUpper = true
  · simp [Char.isAlphanum, Char.isAlpha, hupper]
  · have hsame : c.toLower = c := by
      unfold Char.toLower
      unfold Char.isUpper at hupper
      split
      · next hrange => exact absurd (by simpa using hrange) hupper
      · rfl
    rwa [hsame] at h

theorem Primitive.isAlphanum_of_mem_words {entry : List Char × Primitive}
    (h : entry ∈ Primitive.words) {c : Char} (hc : c ∈ entry.1) : c.isAlphanum = true := by
  have hall : Primitive.words.all (fun entry => entry.1.all Char.isAlphanum) = true := by decide
  exact List.all_eq_true.mp (List.all_eq_true.mp hall entry h) c hc

/-- A primitive word holds ASCII letters and digits only. -/
theorem isAlphanum_of_ofWord? {text : List Char} {p : Primitive}
    (h : Primitive.ofWord? text = some p) {c : Char} (hc : c ∈ trim text) :
    c.isAlphanum = true := by
  obtain ⟨before, after, hwords, -⟩ := List.lookup_eq_some_iff.mp h
  have hword : (asciiLowered (trim text), p) ∈ Primitive.words := by
    rw [hwords]
    simp
  exact isAlphanum_of_toLower (Primitive.isAlphanum_of_mem_words hword (List.mem_map_of_mem hc))

/-- A text with a bracket in it is no primitive word. -/
theorem ofWord?_eq_none {text : List Char} {c : Char} (hc : isDelimiter c = true)
    (h : c ∈ text) : Primitive.ofWord? text = none := by
  cases hword : Primitive.ofWord? text with
  | none => rfl
  | some p =>
    have halpha := isAlphanum_of_ofWord? hword (mem_trim (isBlank_of_isDelimiter hc) h)
    rw [isDelimiter_eq_false (by decide) halpha] at hc
    cases hc

/-! ## Names and arguments -/

namespace Application

theorem front_append {name : List Char} (h : '<' ∉ name) (rest : List Char) :
    front (name ++ '<' :: rest) = name := by
  rw [front, List.takeWhile_append_of_pos]
  · simp
  · intro c hc
    simpa using ne_of_mem_of_not_mem hc h

theorem behind_append {name : List Char} (h : '<' ∉ name) (rest : List Char) :
    behind (name ++ '<' :: rest) = rest := by
  rw [behind, List.dropWhile_append_of_pos]
  · simp
  · intro c hc
    simpa using ne_of_mem_of_not_mem hc h

/-- A name in front of arguments. -/
theorem ofText_angle {name rest : List Char} {pieces : List (List Char)} (h : '<' ∉ name)
    (hcuts : CutsArguments rest pieces) :
    ofText (name ++ '<' :: rest) = ⟨trim name, pieces.map trim⟩ := by
  rw [ofText, front_append h, behind_append h, scanArguments_of_cuts hcuts]

/-- A text with arguments is a name in front of them. -/
theorem exists_angle {text : List Char} (h : (ofText text).arguments ≠ []) :
    ∃ name rest pieces, '<' ∉ name ∧ text = name ++ '<' :: rest ∧ CutsArguments rest pieces ∧
      ofText text = ⟨trim name, pieces.map trim⟩ := by
  have hmem : '<' ∈ text := by
    by_contra hmem
    have hplain : ofText text = ⟨trim text, []⟩ :=
      ofText_of_no_angle fun c hc hlt => hmem (hlt ▸ hc)
    exact h (by rw [hplain])
  obtain ⟨name, rest, htext, hname⟩ := List.eq_append_cons_of_mem hmem
  obtain ⟨pieces, hcuts⟩ := exists_cutsArguments rest
  exact ⟨name, rest, pieces, hname, htext, hcuts, by rw [htext, ofText_angle hname hcuts]⟩

/-- The name of a text that starts with a bracket starts with that bracket. -/
theorem name_of_opensGroup {c : Char} (hc : opensGroup c = true) (rest : List Char) :
    ∃ tail, (ofText (c :: rest)).name = c :: tail := by
  have hends : c = '(' ∨ c = '[' := by simpa [opensGroup] using hc
  have hlt : c ≠ '<' := by rcases hends with rfl | rfl <;> decide
  have hblank : isBlank c = false := by rcases hends with rfl | rfl <;> rfl
  refine ⟨trimEnd (front rest), ?_⟩
  have hfront : front (c :: rest) = c :: front rest := by simp [front, hlt]
  rw [ofText, hfront, trim_cons hblank]

end Application

/-! ## The form of a text -/

namespace Builtin

theorem singleShape?_eq_none {name : String} {shape : List Char → Shape} {text : List Char}
    (h : (Application.ofText text).name ≠ name.toList) : singleShape? name shape text = none := by
  unfold singleShape?
  dsimp only
  split
  · rw [if_neg h]
  · rfl

/-- No name in front of arguments starts with a bracket. -/
theorem shape?_of_opensGroup {c : Char} (hc : opensGroup c = true) (rest : List Char) :
    map.shape? (c :: rest) = none ∧ vec.shape? (c :: rest) = none ∧
      option.shape? (c :: rest) = none := by
  obtain ⟨tail, hname⟩ := Application.name_of_opensGroup hc rest
  have hends : c = '(' ∨ c = '[' := by simpa [opensGroup] using hc
  have hmap : isMapName (c :: tail) = false := by
    have hpath : isPathChar c = false := by rcases hends with rfl | rfl <;> decide
    simp [isMapName, isQualifiedName, hpath]
  refine ⟨?_, ?_, ?_⟩
  · unfold shape?
    dsimp only
    split
    · rw [hname, hmap]
      rfl
    · rfl
  · refine singleShape?_eq_none ?_
    rw [hname]
    rcases hends with rfl | rfl <;> simp
  · refine singleShape?_eq_none ?_
    rw [hname]
    rcases hends with rfl | rfl <;> simp

end Builtin

namespace Shape

open Builtin

/-- The shape of a text by its name and arguments. -/
def ofApplication (text name : List Char) : List (List Char) → Shape
  | [] => .bare text
  | [inner] =>
    if name = "Vec".toList then .vec inner
    else if name = "Option".toList then .option inner
    else .applied name [inner]
  | [key, value] =>
    if isMapName name then .map (lastSegment name) key value else .applied name [key, value]
  | arguments => .applied name arguments

/-- A text in round brackets is a tuple. -/
theorem ofText_round (inner : List Char) :
    ofText ('(' :: inner ++ [')']) = .tuple (tupleItems inner) := by
  obtain ⟨hmap, hvec, -⟩ := shape?_of_opensGroup (c := '(') rfl (inner ++ [')'])
  have hword : Primitive.ofWord? ('(' :: inner ++ [')']) = none :=
    ofWord?_eq_none (c := '(') rfl (by simp)
  have hround : between? '(' ')' ('(' :: inner ++ [')']) = some inner :=
    between?_eq_some_iff.mpr rfl
  rw [← List.cons_append] at hmap hvec
  simp only [ofText, hword, Builtin.all, List.findSome?_cons, hmap, hvec]
  simp only [shape?, hround, Option.map_some, Option.getD_some]

/-- A text in square brackets with a length behind the last `;` is an array. -/
theorem ofText_square {element length : List Char} {n : UInt64} (hlength : ';' ∉ length)
    (hn : readWord? (trim length) = some n) :
    ofText ('[' :: (element ++ ';' :: length) ++ [']']) = .array element n := by
  obtain ⟨hmap, hvec, hoption⟩ :=
    shape?_of_opensGroup (c := '[') rfl ((element ++ ';' :: length) ++ [']'])
  have hword : Primitive.ofWord? ('[' :: (element ++ ';' :: length) ++ [']']) = none :=
    ofWord?_eq_none (c := '[') rfl (by simp)
  have hround : between? '(' ')' ('[' :: (element ++ ';' :: length) ++ [']']) = none := rfl
  have hsquare : between? '[' ']' ('[' :: (element ++ ';' :: length) ++ [']']) =
      some (element ++ ';' :: length) := between?_eq_some_iff.mpr rfl
  rw [← List.cons_append] at hmap hvec hoption
  simp only [ofText, hword, Builtin.all, List.findSome?_cons, hmap, hvec, hoption]
  simp only [shape?, hround, hsquare, Option.map_none, Option.bind_some,
    splitAtLast?_append hlength, hn, Option.map_some, Option.getD_some]

/-- A text that is no word, no tuple and no array is decided by its name and arguments. -/
theorem ofText_eq_ofApplication {text : List Char} (hword : Primitive.ofWord? text = none)
    (hnode : text ≠ "Node".toList) (hround : Builtin.tuple.shape? text = none)
    (hsquare : Builtin.array.shape? text = none) :
    ofText text =
      ofApplication text (Application.ofText text).name (Application.ofText text).arguments := by
  simp only [ofText, hword, Builtin.all, List.findSome?_cons, hround, hsquare,
    List.findSome?_nil]
  simp only [shape?, singleShape?, unknown, if_neg hnode]
  generalize Application.ofText text = application
  obtain ⟨name, arguments⟩ := application
  rcases arguments with _ | ⟨first, _ | ⟨second, _ | ⟨third, rest⟩⟩⟩
  · simp [ofApplication]
  · by_cases hvec : name = "Vec".toList
    · simp [ofApplication, hvec]
    · by_cases hoption : name = "Option".toList
      · simp [ofApplication, hoption]
      · simp only [ofApplication, if_neg hvec, if_neg hoption]
        rfl
  · by_cases hmap : isMapName name = true <;> simp [ofApplication, hmap]
  · simp [ofApplication]

/-- Every text is a primitive word, the word for a hash, a tuple, an array with a length, or
decided by its name and arguments. -/
theorem ofText_cases (text : List Char) :
    (∃ p, Primitive.ofWord? text = some p ∧ ofText text = .primitive p) ∨
    (text = "Node".toList ∧ ofText text = .node) ∨
    (∃ inner, text = '(' :: inner ++ [')'] ∧ ofText text = .tuple (tupleItems inner)) ∨
    (∃ element length n, text = '[' :: (element ++ ';' :: length) ++ [']'] ∧
      ';' ∉ length ∧ readWord? (trim length) = some n ∧ ofText text = .array element n) ∨
    ofText text =
      ofApplication text (Application.ofText text).name (Application.ofText text).arguments := by
  cases hword : Primitive.ofWord? text with
  | some p => exact .inl ⟨p, rfl, by simp [ofText, hword]⟩
  | none =>
    by_cases hnode : text = "Node".toList
    · subst hnode
      exact .inr (.inl ⟨rfl, by decide⟩)
    cases hround : between? '(' ')' text with
    | some inner =>
      obtain rfl := between?_eq_some_iff.mp hround
      exact .inr (.inr (.inl ⟨inner, rfl, ofText_round inner⟩))
    | none =>
      cases hsquare : Builtin.array.shape? text with
      | some shape =>
        simp only [shape?, Option.bind_eq_some_iff, Option.map_eq_some_iff] at hsquare
        obtain ⟨⟨element, length⟩, ⟨inner, hinner, hparts⟩, n, hn, rfl⟩ := hsquare
        obtain ⟨rfl, hlength⟩ := splitAtLast?_eq_some_iff.mp hparts
        obtain rfl := between?_eq_some_iff.mp hinner
        exact .inr (.inr (.inr (.inl ⟨element, length, n, rfl, hlength, hn,
          ofText_square hlength hn⟩)))
      | none =>
        have hnone : Builtin.tuple.shape? text = none := by simp [shape?, hround]
        exact .inr (.inr (.inr (.inr (ofText_eq_ofApplication hword hnode hnone hsquare))))

/-- A name in front of arguments whose list ends the text is decided by the two. -/
theorem ofText_angle {name rest : List Char} {pieces : List (List Char)} (hname : '<' ∉ name)
    (hcuts : CutsArguments (rest ++ ['>']) pieces) :
    ofText (name ++ '<' :: rest ++ ['>']) =
      ofApplication (name ++ '<' :: rest ++ ['>']) (trim name) (pieces.map trim) := by
  have hword : Primitive.ofWord? (name ++ '<' :: rest ++ ['>']) = none :=
    ofWord?_eq_none (c := '<') rfl (by simp)
  have hlast : (name ++ '<' :: rest ++ ['>']).getLast? = some '>' := List.getLast?_concat
  have hnode : name ++ '<' :: rest ++ ['>'] ≠ "Node".toList := by
    intro h
    rw [h] at hlast
    exact absurd hlast (by decide)
  have hends : ∀ opening closing, closing ≠ '>' →
      between? opening closing (name ++ '<' :: rest ++ ['>']) = none := by
    intro opening closing hclosing
    cases h : between? opening closing (name ++ '<' :: rest ++ ['>']) with
    | none => rfl
    | some inner =>
      rw [between?_eq_some_iff.mp h, List.getLast?_concat] at hlast
      exact absurd (Option.some.inj hlast) hclosing
  have hround : Builtin.tuple.shape? (name ++ '<' :: rest ++ ['>']) = none := by
    simp only [shape?, hends '(' ')' (by decide), Option.map_none]
  have hsquare : Builtin.array.shape? (name ++ '<' :: rest ++ ['>']) = none := by
    simp only [shape?, hends '[' ']' (by decide), Option.bind_none]
  rw [ofText_eq_ofApplication hword hnode hround hsquare]
  have happlication : Application.ofText (name ++ '<' :: rest ++ ['>']) =
      ⟨trim name, pieces.map trim⟩ := by
    rw [List.append_assoc, List.cons_append]
    exact Application.ofText_angle hname hcuts
  rw [happlication]

end Shape

end CanonicalIdl
