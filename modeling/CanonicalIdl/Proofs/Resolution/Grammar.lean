import CanonicalIdl.Proofs.Resolution.Names
import CanonicalIdl.Proofs.Resolution.Rendering

/-!
# The grammar of type expressions

A type expression is a primitive word in any case, the word `Node`, a name, a vector or
an option, an array, a tuple, a map or a name in front of arguments.  Blanks may stand
before and after every bracket, comma and semicolon.  Each expression denotes a tree, and
resolution finds that tree as long as no expression stands more than 64 levels deep, the
whole expression being the first level.

Main results:

- Theorem `Denotes.enclosed`: no expression is cut apart where it stands in another.
- Theorem `Denotes.ofText_eq`: an expression is resolved to the tree that it denotes.
-/

namespace CanonicalIdl

open Text

/-! ## Expressions -/

/-- A name in front of pieces between commas, blanks between the two. -/
def applicationText (name gap : List Char) (pieces : List (List Char)) : List Char :=
  name ++ gap ++ '<' :: List.intercalate [','] pieces ++ ['>']

/-- The type expressions of at most so many levels and the trees that they denote. -/
inductive Denotes : Nat → List Char → TypeTree → Prop
  | word {levels : Nat} {text : List Char} {p : Primitive}
      (hword : (asciiLowered text, p) ∈ Primitive.words) :
      Denotes (levels + 1) text (.primitive p)
  | node {levels : Nat} : Denotes (levels + 1) "Node".toList (.byteArray 32)
  | name {levels : Nat} {text : List Char} (hname : IsName text)
      (hword : ¬ Primitive.IsWord text) (hnode : text ≠ "Node".toList) :
      Denotes (levels + 1) text (.bare (String.ofList text))
  | padded {levels : Nat} {before text after : List Char} {tree : TypeTree}
      (hbefore : Blanks before) (hafter : Blanks after) (htext : Denotes levels text tree) :
      Denotes levels (before ++ text ++ after) tree
  | vec {levels : Nat} {gap text : List Char} {tree : TypeTree} (hgap : Blanks gap)
      (htext : Denotes levels text tree) :
      Denotes (levels + 1) (applicationText "Vec".toList gap [text]) (.vec tree)
  | option {levels : Nat} {gap text : List Char} {tree : TypeTree} (hgap : Blanks gap)
      (htext : Denotes levels text tree) :
      Denotes (levels + 1) (applicationText "Option".toList gap [text]) (.option tree)
  | array {levels : Nat} {text before numeral after : List Char} {tree : TypeTree} {n : UInt64}
      (htext : Denotes levels text tree) (hbefore : Blanks before) (hn : IsNumeral numeral n)
      (hafter : Blanks after) :
      Denotes (levels + 1) ('[' :: (text ++ ';' :: (before ++ numeral ++ after)) ++ [']'])
        (.array tree n)
  | unit {levels : Nat} {gap : List Char} (hgap : Blanks gap) :
      Denotes (levels + 1) ('(' :: gap ++ [')']) (.tuple [])
  | tuple {levels : Nat} {items : List (List Char × TypeTree)} (hne : items ≠ [])
      (hitems : ∀ item ∈ items, Denotes levels item.1 item.2) :
      Denotes (levels + 1) ('(' :: List.intercalate [','] (items.map Prod.fst) ++ [')'])
        (.tuple (items.map Prod.snd))
  | bTreeMap {levels : Nat} {path gap key value : List Char} {k v : TypeTree}
      (hpath : Builtin.IsMapPath path "BTreeMap".toList) (hgap : Blanks gap)
      (hkey : Denotes levels key k) (hvalue : Denotes levels value v) :
      Denotes (levels + 1) (applicationText path gap [key, value]) (.bTreeMap k v)
  | vecMap {levels : Nat} {path gap key value : List Char} {k v : TypeTree}
      (hpath : Builtin.IsMapPath path "VecMap".toList) (hgap : Blanks gap)
      (hkey : Denotes levels key k) (hvalue : Denotes levels value v) :
      Denotes (levels + 1) (applicationText path gap [key, value]) (.vec (.tuple [k, v]))
  | hashMap {levels : Nat} {path base gap key value : List Char} {k v : TypeTree}
      (hpath : Builtin.IsMapPath path base) (hbTree : base ≠ "BTreeMap".toList)
      (hvec : base ≠ "VecMap".toList) (hgap : Blanks gap)
      (hkey : Denotes levels key k) (hvalue : Denotes levels value v) :
      Denotes (levels + 1) (applicationText path gap [key, value]) (.hashMap k v)
  | applied {levels : Nat} {name gap : List Char} {arguments : List (List Char × TypeTree)}
      (hname : IsName name)
      (hsingle : arguments.length = 1 → name ≠ "Vec".toList ∧ name ≠ "Option".toList)
      (hmap : arguments.length = 2 → ∀ base, ¬ Builtin.IsMapPath name base)
      (hgap : Blanks gap) (hne : arguments ≠ [])
      (harguments : ∀ argument ∈ arguments, Denotes levels argument.1 argument.2) :
      Denotes (levels + 1) (applicationText name gap (arguments.map Prod.fst))
        (.reference (String.ofList name) (arguments.map Prod.snd))

/-! ## Expressions stay in one piece -/

theorem enclosed_applicationText {name gap : List Char} {pieces : List (List Char)}
    (hname : IsName name) (hgap : Blanks gap) (h : ∀ piece ∈ pieces, Enclosed piece) :
    Enclosed (applicationText name gap pieces) := by
  have hfront : Enclosed (name ++ gap) :=
    (enclosed_of_plain hname.plain).append (enclosed_blanks hgap)
  have hbrackets := (enclosedWithin_intercalate h).angled
  simpa [applicationText] using hfront.append hbrackets

theorem enclosed_numeral {text : List Char} {n : UInt64} (h : IsNumeral text n) :
    Enclosed text := by
  apply enclosed_of_plain
  intro c hc
  rcases h.mem_cases hc with rfl | hd
  · rfl
  · exact isDelimiter_of_isDigit hd

/-- No expression is cut apart where it stands in another. -/
theorem Denotes.enclosed {levels : Nat} {text : List Char} {tree : TypeTree}
    (h : Denotes levels text tree) : Enclosed text := by
  induction h with
  | word hword =>
    exact enclosed_of_plain (Primitive.IsWord.isName (List.mem_map_of_mem hword)).plain
  | node => exact enclosed_of_plain (by decide)
  | name hname hword hnode => exact enclosed_of_plain hname.plain
  | padded hbefore hafter htext ih =>
    exact ((enclosed_blanks hbefore).append ih).append (enclosed_blanks hafter)
  | vec hgap htext ih =>
    refine enclosed_applicationText (by decide) hgap ?_
    intro piece hpiece
    rwa [List.mem_singleton.mp hpiece]
  | option hgap htext ih =>
    refine enclosed_applicationText (by decide) hgap ?_
    intro piece hpiece
    rwa [List.mem_singleton.mp hpiece]
  | array htext hbefore hn hafter ih =>
    have hmark : Enclosed [';'] := enclosed_of_plain (by decide)
    have hlength :=
      ((enclosed_blanks hbefore).append (enclosed_numeral hn)).append (enclosed_blanks hafter)
    have hinside := (ih.append hmark).append hlength
    simpa using hinside.within.squared
  | unit hgap => exact (enclosed_blanks hgap).within.rounded
  | tuple hne hitems ih =>
    have hinside := enclosedWithin_intercalate (List.forall_mem_map.mpr ih)
    exact hinside.rounded
  | bTreeMap hpath hgap hkey hvalue ihkey ihvalue =>
    refine enclosed_applicationText hpath.isName hgap ?_
    exact List.forall_mem_cons.mpr ⟨ihkey, List.forall_mem_singleton.mpr ihvalue⟩
  | vecMap hpath hgap hkey hvalue ihkey ihvalue =>
    refine enclosed_applicationText hpath.isName hgap ?_
    exact List.forall_mem_cons.mpr ⟨ihkey, List.forall_mem_singleton.mpr ihvalue⟩
  | hashMap hpath hbTree hvec hgap hkey hvalue ihkey ihvalue =>
    refine enclosed_applicationText hpath.isName hgap ?_
    exact List.forall_mem_cons.mpr ⟨ihkey, List.forall_mem_singleton.mpr ihvalue⟩
  | applied hname hsingle hmap hgap hne harguments ih =>
    exact enclosed_applicationText hname hgap (List.forall_mem_map.mpr ih)

theorem trim_ne_nil_of_mem {text : List Char} {c : Char} (hc : isBlank c = false) (h : c ∈ text) :
    trim text ≠ [] :=
  List.ne_nil_of_mem (mem_trim hc h)

/-- No expression is made of blanks. -/
theorem Denotes.trim_ne_nil {levels : Nat} {text : List Char} {tree : TypeTree}
    (h : Denotes levels text tree) : trim text ≠ [] := by
  induction h with
  | word hword =>
    have hname := Primitive.IsWord.isName (List.mem_map_of_mem hword)
    rw [show trim _ = _ from hname.trimmed]
    exact hname.nonempty
  | node => decide
  | name hname hword hnode =>
    rw [show trim _ = _ from hname.trimmed]
    exact hname.nonempty
  | padded hbefore hafter htext ih => rwa [trim_pad hbefore _ hafter]
  | array htext hbefore hn hafter ih =>
    exact trim_ne_nil_of_mem (c := '[') (by decide) (by simp)
  | unit hgap => exact trim_ne_nil_of_mem (c := '(') (by decide) (by simp)
  | tuple hne hitems ih => exact trim_ne_nil_of_mem (c := '(') (by decide) (by simp)
  | vec | option | bTreeMap | vecMap | hashMap | applied =>
    exact trim_ne_nil_of_mem (c := '<') (by decide) (by simp [applicationText])

/-! ## Expressions are read as what they denote -/

theorem trimmed_applicationText {name : List Char} (h : IsName name) (gap : List Char)
    (pieces : List (List Char)) : Trimmed (applicationText name gap pieces) := by
  obtain ⟨hne, htrim, -⟩ := h
  cases name with
  | nil => exact absurd rfl hne
  | cons c rest => exact trimmed_of_ends htrim.head (by decide)

/-- A name in front of enclosed pieces is decided by the two. -/
theorem Shape.ofText_applicationText {name gap : List Char} {pieces : List (List Char)}
    (hname : IsName name) (hgap : Blanks gap) (hne : pieces ≠ [])
    (h : ∀ piece ∈ pieces, Enclosed piece) :
    ofText (applicationText name gap pieces) =
      ofApplication (applicationText name gap pieces) name (pieces.map trim) := by
  have hangle : '<' ∉ name ++ gap := by
    intro hmem
    rcases List.mem_append.mp hmem with hmem | hmem
    · exact hname.not_mem rfl hmem
    · exact absurd (hgap '<' hmem) (by decide)
  have hcuts : CutsArguments (List.intercalate [','] pieces ++ ['>']) pieces :=
    cutsArguments_of_apart hne (apartAsArguments_of_enclosed h) []
  have hshape := ofText_angle hangle hcuts
  rwa [trim_append_blanks name hgap, show trim name = name from hname.trimmed] at hshape

/-- The length of an array, blanks around it. -/
theorem readWord?_padded {before numeral after : List Char} {n : UInt64} (hbefore : Blanks before)
    (hn : IsNumeral numeral n) (hafter : Blanks after) :
    readWord? (trim (before ++ numeral ++ after)) = some n := by
  rw [trim_pad hbefore numeral hafter, show trim numeral = numeral from hn.trimmed]
  exact hn.readWord?_eq

/-- No semicolon stands in the length of an array. -/
theorem semicolon_not_mem_padded {before numeral after : List Char} {n : UInt64}
    (hbefore : Blanks before) (hn : IsNumeral numeral n) (hafter : Blanks after) :
    ';' ∉ before ++ numeral ++ after := by
  intro hmem
  rcases List.mem_append.mp hmem with hmem | hmem
  · rcases List.mem_append.mp hmem with hmem | hmem
    · exact absurd (hbefore ';' hmem) (by decide)
    · exact hn.not_mem (by decide) (by decide) hmem
  · exact absurd (hafter ';' hmem) (by decide)

/-- The items of a tuple are the enclosed pieces that it is written with, none of them blank. -/
theorem Builtin.tupleItems_intercalate {pieces : List (List Char)} (hne : pieces ≠ [])
    (h : ∀ piece ∈ pieces, Enclosed piece) (hink : ∀ piece ∈ pieces, trim piece ≠ []) :
    tupleItems (List.intercalate [','] pieces) = pieces.map trim := by
  have hcuts := cutsItems_of_apart hne (apartAsItems_of_enclosed h)
  refine tupleItems_of_cuts hcuts ?_
  intro hnil
  cases pieces with
  | nil => exact absurd rfl hne
  | cons first rest =>
    rw [List.map_cons, List.cons.injEq] at hnil
    exact hink first List.mem_cons_self hnil.1

namespace TypeTree

variable {levels : Nat}

/-- A name in front of enclosed pieces is read as the form that the two have. -/
theorem readWithin_applicationText {name gap : List Char} {pieces : List (List Char)}
    (hname : IsName name) (hgap : Blanks gap) (hne : pieces ≠ [])
    (h : ∀ piece ∈ pieces, Enclosed piece) :
    readWithin .standard (levels + 1) (applicationText name gap pieces) =
      (Shape.ofApplication (applicationText name gap pieces) name (pieces.map trim)).tree
        .standard (readWithin .standard levels) := by
  rw [readWithin_succ _ _ (trimmed_applicationText hname gap pieces),
    Shape.ofText_applicationText hname hgap hne h]

/-- A map is read by the last segment of its path. -/
theorem readWithin_map {path base gap key value : List Char} (hpath : Builtin.IsMapPath path base)
    (hgap : Blanks gap) (hkey : Enclosed key) (hvalue : Enclosed value) :
    readWithin .standard (levels + 1) (applicationText path gap [key, value]) =
      Builtin.mapTree base (readWithin .standard levels key)
        (readWithin .standard levels value) := by
  have hpieces : ∀ piece ∈ [key, value], Enclosed piece :=
    List.forall_mem_cons.mpr ⟨hkey, List.forall_mem_singleton.mpr hvalue⟩
  rw [readWithin_applicationText hpath.isName hgap (List.cons_ne_nil _ _) hpieces,
    List.map_cons, List.map_singleton, Shape.ofApplication_map hpath.isMapName, Shape.tree,
    Builtin.lastSegment_of_isLastSegment hpath.segment, readWithin_trim, readWithin_trim]

/-- Texts that are read as trees are read as them without the blanks at their ends. -/
theorem map_readWithin_trim {pairs : List (List Char × TypeTree)}
    (h : ∀ pair ∈ pairs, readWithin .standard levels pair.1 = pair.2) :
    ((pairs.map Prod.fst).map trim).map (readWithin .standard levels) = pairs.map Prod.snd := by
  rw [List.map_map, List.map_map]
  apply List.map_congr_left
  intro pair hpair
  exact (readWithin_trim .standard levels pair.1).trans (h pair hpair)

end TypeTree

open TypeTree in
/-- An expression is read as the tree that it denotes, where as many levels are read. -/
theorem Denotes.readWithin_eq {levels : Nat} {text : List Char} {tree : TypeTree}
    (h : Denotes levels text tree) : readWithin .standard levels text = tree := by
  induction h with
  | word hword =>
    have hname := Primitive.IsWord.isName (List.mem_map_of_mem hword)
    rw [readWithin_succ _ _ hname.trimmed, Shape.ofText_word hname.trimmed hword]
    rfl
  | node => rw [readWithin_succ _ _ (by decide), show Shape.ofText "Node".toList = .node by decide,
      Shape.tree]
  | name hname hword hnode =>
    rw [readWithin_succ _ _ hname.trimmed, Shape.ofText_name hname hword hnode, Shape.tree]
  | padded hbefore hafter htext ih =>
    rw [← readWithin_trim, trim_pad hbefore _ hafter, readWithin_trim, ih]
  | @vec levels gap text tree hgap htext ih =>
    have hpieces : ∀ piece ∈ [text], Enclosed piece := List.forall_mem_singleton.mpr htext.enclosed
    rw [readWithin_applicationText (by decide) hgap (List.cons_ne_nil _ _) hpieces,
      List.map_singleton, Shape.ofApplication_vec, Shape.tree, readWithin_trim, ih]
  | @option levels gap text tree hgap htext ih =>
    have hpieces : ∀ piece ∈ [text], Enclosed piece := List.forall_mem_singleton.mpr htext.enclosed
    rw [readWithin_applicationText (by decide) hgap (List.cons_ne_nil _ _) hpieces,
      List.map_singleton, Shape.ofApplication_option, Shape.tree, readWithin_trim, ih]
  | @array levels text before numeral after tree n htext hbefore hn hafter ih =>
    have hmark := semicolon_not_mem_padded hbefore hn hafter
    have hlength := readWord?_padded hbefore hn hafter
    rw [readWithin_succ _ _ (trimmed_of_ends (by decide) (by decide)),
      Shape.ofText_square hmark hlength, Shape.tree, ih]
  | @unit levels gap hgap =>
    have hitems : Builtin.tupleItems gap = [] := by
      rw [Builtin.tupleItems, trim_eq_nil_iff.mpr hgap]
      rfl
    rw [readWithin_succ _ _ (trimmed_of_ends (by decide) (by decide)), Shape.ofText_round, hitems,
      Shape.tree, List.map_nil]
  | @tuple levels items hne hitems ih =>
    have hpieces : ∀ piece ∈ items.map Prod.fst, Enclosed piece :=
      List.forall_mem_map.mpr fun item hitem => (hitems item hitem).enclosed
    have hink : ∀ piece ∈ items.map Prod.fst, trim piece ≠ [] :=
      List.forall_mem_map.mpr fun item hitem => (hitems item hitem).trim_ne_nil
    rw [readWithin_succ _ _ (trimmed_of_ends (by decide) (by decide)), Shape.ofText_round,
      Builtin.tupleItems_intercalate (by simpa using hne) hpieces hink, Shape.tree,
      map_readWithin_trim ih]
  | bTreeMap hpath hgap hkey hvalue ihkey ihvalue =>
    rw [readWithin_map hpath hgap hkey.enclosed hvalue.enclosed, ihkey, ihvalue,
      Builtin.mapTree, if_pos rfl]
  | vecMap hpath hgap hkey hvalue ihkey ihvalue =>
    rw [readWithin_map hpath hgap hkey.enclosed hvalue.enclosed, ihkey, ihvalue,
      Builtin.mapTree, if_neg (by decide), if_pos rfl]
  | hashMap hpath hbTree hvec hgap hkey hvalue ihkey ihvalue =>
    rw [readWithin_map hpath hgap hkey.enclosed hvalue.enclosed, ihkey, ihvalue,
      Builtin.mapTree, if_neg hbTree, if_neg hvec]
  | @applied levels name gap arguments hname hsingle hmap hgap hne harguments ih =>
    have hpieces : ∀ piece ∈ arguments.map Prod.fst, Enclosed piece :=
      List.forall_mem_map.mpr fun argument hmem => (harguments argument hmem).enclosed
    have hcovers : ¬ Builtin.Covers name ((arguments.map Prod.fst).map trim).length := by
      rw [List.length_map, List.length_map]
      rintro (⟨hcount, hvec | hoption⟩ | ⟨hcount, hmapname⟩)
      · exact (hsingle hcount).1 hvec
      · exact (hsingle hcount).2 hoption
      · exact hmap hcount _ (Builtin.isMapName_iff.mp hmapname)
    rw [readWithin_applicationText hname hgap (by simpa using hne) hpieces,
      Shape.ofApplication_of_not_covers (by simpa using hne) hcovers, Shape.tree,
      map_readWithin_trim ih]

/-- An expression of at most 64 levels is resolved to the tree that it denotes. -/
theorem Denotes.ofText_eq {text : String} {tree : TypeTree} (h : Denotes 64 text.toList tree) :
    TypeTree.ofText text = tree := by
  rw [TypeTree.ofText_eq_readWithin]
  exact h.readWithin_eq

/-- A map of hashes under a path, with blanks, capitals and a numeral in full. -/
theorem Denotes.ofText_eq_vecMap :
    Denotes 64 "my::VecMap <U8, [Node; +04]>".toList
        (.vec (.tuple [.primitive .u8, .array (.byteArray 32) 4])) ∧
      TypeTree.ofText "my::VecMap <U8, [Node; +04]>" =
        .vec (.tuple [.primitive .u8, .array (.byteArray 32) 4]) := by
  have hspace : Blanks [' '] := by decide
  have hkey : Denotes 63 "U8".toList (.primitive .u8) := .word (by decide)
  have hnode : Denotes 62 "Node".toList (.byteArray 32) := .node
  have hnumeral : IsNumeral "+04".toList 4 := ⟨['+'], 1, .inr rfl, by decide⟩
  have hvalue := Denotes.padded hspace blanks_nil (.array hnode hspace hnumeral blanks_nil)
  have hpath : Builtin.IsMapPath "my::VecMap".toList "VecMap".toList :=
    Builtin.isMapName_iff.mp (by decide)
  have hmap : Denotes 64 "my::VecMap <U8, [Node; +04]>".toList
      (.vec (.tuple [.primitive .u8, .array (.byteArray 32) 4])) :=
    Denotes.vecMap hpath hspace hkey hvalue
  exact ⟨hmap, hmap.ofText_eq⟩

end CanonicalIdl
