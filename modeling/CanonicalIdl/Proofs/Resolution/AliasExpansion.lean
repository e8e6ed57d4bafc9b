import CanonicalIdl.Proofs.Json.Members
import CanonicalIdl.Proofs.Resolution.Grafting
import CanonicalIdl.Proofs.Resolution.Refusals
import Mathlib.Logic.Relation

/-!
# Aliases as a substitution

A chain with aliases re-enters resolution in the middle of an expression, and it keeps the
names whose expressions it is inside of.  What comes of it is a substitution on the tree
that the built-in rules read: a reference without arguments that is an alias gives way to
the tree of the alias, and inside that tree the alias is a name like others, so that cycles
are cut where they close.

Main results:

- Theorem `readsUnlessRefused_resolveWithin`: at every level and inside any aliases, a chain with
  aliases reads the substituted tree of each expression that it follows to its end.
- Theorem `lookup_eq_none_of_mem_walk_expand`: without cycles, no alias is left in a tree.
- Theorem `Chain.resolved_withAliases`: the two for a text in a run of its own.
-/

namespace CanonicalIdl

open Text TypeTree

/-- The built-in shapes with aliases behind them. -/
def Chain.withAliases (table : PrimitiveWords) (aliases : AliasTable) : Chain :=
  { plain table with extensions := [.aliases aliases] }

/-! ## The substitution -/

/-- The aliases that are not opened. -/
def unopened (aliases : AliasTable) (opened : List String) : AliasTable :=
  aliases.filter fun entry => entry.1 ∉ opened

/-- To open an alias leaves fewer of them. -/
theorem length_unopened_cons_lt {aliases : AliasTable} {opened : List String}
    {name target : String} (hopened : name ∉ opened) (h : aliases.lookup name = some target) :
    (unopened aliases (name :: opened)).length < (unopened aliases opened).length := by
  have hfilter : unopened aliases (name :: opened) =
      (unopened aliases opened).filter fun entry => entry.1 ≠ name := by
    rw [unopened, unopened, List.filter_filter]
    refine List.filter_congr fun entry _ => ?_
    simp [not_or]
  have hmem : (name, target) ∈ unopened aliases opened :=
    List.mem_filter.mpr ⟨Json.mem_of_lookup h, by simpa using hopened⟩
  rw [hfilter, List.length_filter_lt_length_iff_exists]
  exact ⟨(name, target), hmem, by simp⟩

section Substitution

variable (table : PrimitiveWords) (aliases : AliasTable)

/-- The tree with its aliases expanded, inside the expressions of the opened ones.  A
reference without arguments gives way to the tree of the alias that it names, with that
alias opened too, unless it is opened already. -/
def TypeTree.expand (opened : List String) (tree : TypeTree) : TypeTree :=
  tree.graft .primitive fun name =>
    if _ : name ∈ opened then .bare name
    else
      match _ : aliases.lookup name with
      | none => .bare name
      | some target => expand (name :: opened) ((Chain.plain table).resolved target)
termination_by (unopened aliases opened).length
decreasing_by exact length_unopened_cons_lt ‹_› ‹_›

variable {table aliases} {opened : List String} {name : String}

/-- A name that is no alias, or an opened one, stays. -/
theorem expand_bare_of_kept (h : aliases.lookup name = none ∨ name ∈ opened) :
    (bare name).expand table aliases opened = .bare name := by
  rw [expand, graft_bare]
  rcases h with hnone | hopened
  · split
    · rfl
    · split
      · rfl
      · next heq => rw [hnone] at heq; cases heq
  · rw [dif_pos hopened]

/-- An alias gives way to its own tree, inside of which it is opened. -/
theorem expand_bare_of_lookup (hopened : name ∉ opened) {target : String}
    (htarget : aliases.lookup name = some target) :
    (bare name).expand table aliases opened =
      ((Chain.plain table).resolved target).expand table aliases (name :: opened) := by
  rw [expand, graft_bare, dif_neg hopened]
  split
  · next heq => rw [htarget] at heq; cases heq
  · next other heq =>
    obtain rfl : target = other := Option.some.inj (htarget.symm.trans heq)
    rfl

/-- An expansion is a graft: only references without arguments give way. -/
theorem expand_eq_graft (tree : TypeTree) :
    tree.expand table aliases opened =
      tree.graft .primitive fun name => (bare name).expand table aliases opened := by
  conv => lhs; rw [expand]
  congr 1
  funext name
  rw [expand, graft_bare]

end Substitution

/-! ## Texts of aliases -/

/-- The shape of a text that the built-in rules read as its own name is a name. -/
theorem TypeTree.ofText_of_readWithin_eq_bare {table : PrimitiveWords} {name : String}
    (h : readWithin table Chain.depthLimit name.toList = .bare name) :
    Shape.ofText name.toList = .bare name.toList := by
  rw [Chain.depthLimit, readWithin] at h
  cases hshape : Shape.ofText (trim name.toList) with
  | primitive p =>
    rw [hshape, Shape.tree] at h
    cases table <;> cases p <;> cases h
  | map base key value =>
    rw [hshape, Shape.tree, Builtin.mapTree] at h
    split at h
    · cases h
    · split at h <;> cases h
  | bare word =>
    obtain rfl := Shape.eq_of_ofText_eq_bare hshape
    rw [hshape, Shape.tree] at h
    have htrim := congrArg String.toList (TypeTree.reference.inj h).1
    rw [String.toList_ofList] at htrim
    rwa [htrim] at hshape
  | applied word arguments =>
    rw [hshape, Shape.tree] at h
    have hnil : arguments = [] := List.map_eq_nil_iff.mp (TypeTree.reference.inj h).2
    exact absurd (hnil ▸ hshape) Shape.ofText_ne_applied_nil
  | _ =>
    rw [hshape, Shape.tree] at h
    cases h

/-! ## One level with aliases -/

/-- No built-in rule finds a name. -/
theorem Builtin.shape?_ne_bare (builtin : Builtin) (text name : List Char) :
    builtin.shape? text ≠ some (.bare name) := by
  intro h
  cases builtin with
  | map =>
    simp only [shape?] at h
    split at h
    · split at h <;> cases h
    · cases h
  | vec =>
    simp only [shape?, singleShape?] at h
    split at h
    · split at h <;> cases h
    · cases h
  | option =>
    simp only [shape?, singleShape?] at h
    split at h
    · split at h <;> cases h
    · cases h
  | tuple =>
    obtain ⟨inner, -, heq⟩ := Option.map_eq_some_iff.mp h
    cases heq
  | array =>
    obtain ⟨parts, -, hlength⟩ := Option.bind_eq_some_iff.mp h
    obtain ⟨length, -, heq⟩ := Option.map_eq_some_iff.mp hlength
    cases heq
  | node =>
    simp only [shape?] at h
    split at h <;> cases h

/-- A text whose shape is a name is no word, and no built-in rule accepts it. -/
theorem Shape.unmatched_of_ofText_eq_bare {text name : List Char} (h : ofText text = .bare name) :
    Primitive.ofWord? text = none ∧ Builtin.all.findSome? (·.shape? text) = none := by
  rw [ofText] at h
  cases hword : Primitive.ofWord? text with
  | some p => rw [hword] at h; cases h
  | none =>
    refine ⟨rfl, ?_⟩
    cases hfound : Builtin.all.findSome? (·.shape? text) with
    | none => rfl
    | some shape =>
      obtain ⟨builtin, -, hshape⟩ := List.exists_of_findSome?_eq_some hfound
      rw [hword, hfound, Option.getD_some] at h
      dsimp only at h
      rw [h] at hshape
      exact absurd hshape (builtin.shape?_ne_bare text name)

namespace Chain

variable {table : PrimitiveWords} {aliases : AliasTable} {resolver : Resolver} {text : List Char}
  {run : Run}

/-- Where no alias gives way, a level does what the built-in rules say. -/
theorem decideOn_withAliases_of_kept
    (h : aliases.lookup (String.ofList text) = none ∨ (0, String.ofList text) ∈ run.expanding) :
    (withAliases table aliases).decideOn resolver text run =
      ((Shape.ofText text).script table).run resolver run := by
  have hdeclined : expandAlias resolver 0 aliases text run = (none, run) := by
    unfold expandAlias
    dsimp only
    rcases h with hnone | hopened
    · rw [hnone]
    · split
      · rfl
      · rw [if_pos (List.contains_iff_mem.mpr hopened)]
  rw [← decideOn_plain]
  simp only [decideOn, withAliases, plain]
  cases table.lookup? text with
  | some tree => rfl
  | none =>
    simp only [tryMatchers_builtins table]
    cases Builtin.all.findSome? (·.shape? text) with
    | some shape => rfl
    | none => simp only [Shape.outcome_none, tryExtensions, tryExtension, hdeclined]

/-- Where an alias gives way, a level resolves its expression with the alias opened. -/
theorem decideOn_withAliases_of_lookup {target : String}
    (hshape : Shape.ofText text = .bare text)
    (hopened : (0, String.ofList text) ∉ run.expanding)
    (htarget : aliases.lookup (String.ofList text) = some target) :
    (withAliases table aliases).decideOn resolver text run =
      let (tree, after) := resolver target.toList
        { run with expanding := (0, String.ofList text) :: run.expanding }
      (tree, { after with expanding := after.expanding.tail }) := by
  obtain ⟨hword, hbuiltins⟩ := Shape.unmatched_of_ofText_eq_bare hshape
  have haccepted : expandAlias resolver 0 aliases text run =
      let (tree, after) := resolver target.toList
        { run with expanding := (0, String.ofList text) :: run.expanding }
      (some tree, { after with expanding := after.expanding.tail }) := by
    have hnew : run.expanding.contains (0, String.ofList text) = false := by simpa using hopened
    simp only [expandAlias, htarget, hnew, Bool.false_eq_true, if_false]
  simp only [decideOn, withAliases, plain, PrimitiveWords.lookup?, hword, Option.map_none,
    tryMatchers_builtins table, hbuiltins, Shape.outcome_none, tryExtensions, tryExtension,
    haccepted]

/-! ## All levels with aliases -/

/-- What a level reads where no alias gives way: an expansion on the tree of the shape is made
in the parts of the shape. -/
theorem expand_readWithin_of_kept {opened : List String} {levels : Nat}
    (hkept : aliases.lookup (String.ofList (trim text)) = none ∨ String.ofList (trim text) ∈ opened)
    (hlevels : levels < depthLimit)
    (hfits : ∀ part ∈ (Shape.ofText (trim text)).parts, FitsWithin levels part) :
    (readWithin table depthLimit text).expand table aliases opened =
      (Shape.ofText (trim text)).tree table fun part =>
        (readWithin table depthLimit part).expand table aliases opened := by
  have hread : readWithin table depthLimit text =
      (Shape.ofText (trim text)).tree table (readWithin table depthLimit) := by
    rw [show depthLimit = 63 + 1 from rfl, readWithin]
    refine Shape.tree_congr table fun part hpart => ?_
    have hpart := hfits part hpart
    rw [readWithin_of_fitsWithin table hpart (show levels ≤ 63 from Nat.le_of_lt_succ hlevels),
      readWithin_of_fitsWithin table hpart (show levels ≤ 63 + 1 from Nat.le_of_lt hlevels)]
  have hname : ∀ name, Shape.ofText (trim text) = .bare name ∨
      Shape.ofText (trim text) = .applied name [] →
      (bare (String.ofList name)).expand table aliases opened = .bare (String.ofList name) := by
    rintro name (hbare | hnil)
    · obtain rfl := Shape.eq_of_ofText_eq_bare hbare
      exact expand_bare_of_kept hkept
    · exact absurd hnil Shape.ofText_ne_applied_nil
  have hword : ∀ p, (table.tree p).graft .primitive
      (fun name => (bare name).expand table aliases opened) = table.tree p := by
    intro p
    cases table <;> cases p <;> simp only [PrimitiveWords.tree, byteArray, graft]
  rw [hread, expand_eq_graft, Shape.graft_tree hword rfl hname]
  exact Shape.tree_congr table fun part _ => (expand_eq_graft _).symm

/-- A chain with aliases, at every level and inside the expressions of any aliases, reads the
expanded tree of each expression that it follows to its end. -/
theorem readsUnlessRefused_resolveWithin
    (hkeys : ∀ key ∈ aliases.map Prod.fst, readWithin table depthLimit key.toList = .bare key)
    {levels : Nat} (hlevels : levels ≤ depthLimit) (opened : List String) :
    ReadsUnlessRefused ((withAliases table aliases).resolveWithin levels) (opened.map (0, ·))
      (fun text => (readWithin table depthLimit text).expand table aliases opened)
      (FitsWithin levels) := by
  induction levels generalizing opened with
  | zero => exact fun text run _ => .of_refusal run
  | succ levels ih =>
    intro text run hrun
    have hbelow := ih (Nat.le_of_lt hlevels)
    rw [resolveWithin_succ]
    by_cases hkept : aliases.lookup (String.ofList (trim text)) = none ∨
        String.ofList (trim text) ∈ opened
    · have hkeptRun := hkept.imp_right fun hmem => hrun ▸ List.mem_map_of_mem (f := (0, ·)) hmem
      rw [decideOn_withAliases_of_kept hkeptRun]
      refine ((hbelow opened).run_script _ hrun).imp ?_
      rintro ⟨hvalue, hasks⟩
      have hfits := (Shape.asks_script table _ _ _).mp hasks
      refine ⟨?_, hfits⟩
      rw [hvalue, Shape.value_script]
      exact (expand_readWithin_of_kept hkept hlevels hfits).symm
    · obtain ⟨hlookup, hopened⟩ := not_or.mp hkept
      obtain ⟨target, htarget⟩ := Option.ne_none_iff_exists'.mp hlookup
      have hkey := hkeys _ (List.mem_map_of_mem (Json.mem_of_lookup htarget))
      have hshape := ofText_of_readWithin_eq_bare hkey
      rw [String.toList_ofList] at hshape
      have hopenedRun : (0, String.ofList (trim text)) ∉ run.expanding := by
        simpa [hrun] using hopened
      rw [decideOn_withAliases_of_lookup hshape hopenedRun htarget]
      have hinside := hbelow (String.ofList (trim text) :: opened) target.toList
        { run with expanding := (0, String.ofList (trim text)) :: run.expanding } (by simp [hrun])
      refine ⟨congrArg List.tail hinside.expanding, hinside.refusals_le, fun hnone => ?_⟩
      have hwhole : readWithin table depthLimit text = .bare (String.ofList (trim text)) := by
        rw [← readWithin_trim, ← hkey, String.toList_ofList]
      refine ⟨(hinside.holds hnone).1.trans ?_, ?_⟩
      · dsimp only
        rw [hwhole, expand_bare_of_lookup hopened htarget, resolved, resolve, resolve_plain]
      · rw [FitsWithin, hshape]
        exact List.forall_mem_nil _

end Chain

/-! ## Aliases without cycles -/

section Cycles

variable (table : PrimitiveWords) (aliases : AliasTable)

/-- The expression of an alias mentions another name as a reference without arguments. -/
def Mentions (name other : String) : Prop :=
  ∃ target, aliases.lookup name = some target ∧
    .bare other ∈ ((Chain.plain table).resolved target).walk

/-- No alias leads back to itself. -/
def IsAcyclic : Prop := ∀ name, ¬ Relation.TransGen (Mentions table aliases) name name

variable {table aliases}

/-- Aliases have no cycles if each has a higher rank than the names in its tree. -/
theorem isAcyclic_of_rank (rank : String → Nat)
    (h : ∀ entry ∈ aliases, ∀ other ∈ ((Chain.plain table).resolved entry.2).names,
      rank other < rank entry.1) : IsAcyclic table aliases := by
  have hstep : ∀ name other, Mentions table aliases name other → rank other < rank name := by
    rintro name other ⟨target, htarget, hother⟩
    exact h (name, target) (Json.mem_of_lookup htarget) other
      (List.mem_filterMap.mpr ⟨.bare other, hother, rfl⟩)
  have hpath : ∀ name other, Relation.TransGen (Mentions table aliases) name other →
      rank other < rank name := by
    intro name other hpath
    induction hpath with
    | single hlast => exact hstep _ _ hlast
    | tail _ hlast ih => exact Nat.lt_trans (hstep _ _ hlast) ih
  exact fun name hcycle => Nat.lt_irrefl _ (hpath name name hcycle)

/-- Without cycles no alias is left in an expanded tree, where the opened aliases lead to
all names in the tree. -/
theorem lookup_eq_none_of_mem_walk_expand (h : IsAcyclic table aliases) {opened : List String}
    {tree : TypeTree} {name : String}
    (hleads : ∀ first ∈ opened, ∀ other, .bare other ∈ tree.walk →
      Relation.TransGen (Mentions table aliases) first other)
    (hname : .bare name ∈ (tree.expand table aliases opened).walk) :
    aliases.lookup name = none := by
  induction hsize : (unopened aliases opened).length using Nat.strongRecOn
    generalizing opened tree with
  | ind size ih =>
    subst hsize
    rw [expand_eq_graft] at hname
    obtain ⟨p, -, hput⟩ | ⟨leaf, hleaf, hput⟩ := exists_leaf_of_mem_walk_graft _ _ rfl hname
    · simp [walk] at hput
    by_cases hopened : leaf ∈ opened
    · exact absurd (hleads leaf hopened leaf hleaf) (h leaf)
    cases htarget : aliases.lookup leaf with
    | none =>
      rw [expand_bare_of_kept (.inl htarget)] at hput
      obtain rfl : name = leaf := by simpa [walk, walkItems] using hput
      exact htarget
    | some target =>
      rw [expand_bare_of_lookup hopened htarget] at hput
      refine ih _ (length_unopened_cons_lt hopened htarget) ?_ hput rfl
      -- The leaf leads to the names in its own tree, and the opened aliases lead to the leaf.
      intro first hfirst other hother
      have hstep : Mentions table aliases leaf other := ⟨target, htarget, hother⟩
      rcases List.mem_cons.mp hfirst with rfl | hfirst
      · exact .single hstep
      · exact (hleads first hfirst leaf hleaf).tail hstep

end Cycles

/-- Where every alias is a name to the built-in rules and nothing is refused, aliases expand the
tree of a text, and without cycles none of them is left in it. -/
theorem Chain.resolved_withAliases (table : PrimitiveWords) (aliases : AliasTable) (text : String)
    (hkeys : ∀ key ∈ aliases.map Prod.fst, (plain table).resolved key = .bare key)
    (hnone : .nestedTooDeep ∉ ((withAliases table aliases).resolve text.toList .start).2.warnings) :
    (withAliases table aliases).resolved text =
        ((plain table).resolved text).expand table aliases [] ∧
      (IsAcyclic table aliases → ∀ key ∈ aliases.map Prod.fst,
        .bare key ∉ ((withAliases table aliases).resolved text).walk) := by
  have hread : ∀ key ∈ aliases.map Prod.fst,
      readWithin table depthLimit key.toList = .bare key := by
    intro key hkey
    rw [← resolve_plain table depthLimit key.toList .start]
    exact hkeys key hkey
  have hrun := readsUnlessRefused_resolveWithin hread (Nat.le_refl depthLimit) [] text.toList
    .start rfl
  have htree : (withAliases table aliases).resolved text =
      ((plain table).resolved text).expand table aliases [] := by
    rw [resolved, resolved, resolve, resolve, resolve_plain]
    exact (hrun.holds (List.count_eq_zero.mpr hnone)).1
  refine ⟨htree, fun hacyclic key hkey hleft => ?_⟩
  rw [htree] at hleft
  have hlookup := lookup_eq_none_of_mem_walk_expand hacyclic (by simp) hleft
  obtain ⟨entry, hentry, rfl⟩ := List.mem_map.mp hkey
  have hother := List.lookup_eq_none_iff.mp hlookup entry hentry
  simp at hother

/-- An alias stays where its own expression leads back to it, and aliases that stand in a row
are expanded to their ends. -/
theorem Chain.resolved_withAliases_loop :
    (hashMap (.bare "Stamps") (.bare "Loop")).expand .standard
        [("Loop", "Option<Loop>"), ("Stamps", "Vec<u64>")] [] =
      .hashMap (.vec (.primitive .u64)) (.option (.bare "Loop")) ∧
    .bare "Stamp" ∉ ((withAliases .standard [("Stamp", "u64"), ("Stamps", "Vec<Stamp>")]).resolved
      "(Stamp, Stamps)").walk := by
  have hloop := resolved_withAliases .standard [("Loop", "Option<Loop>"), ("Stamps", "Vec<u64>")]
    "HashMap<Stamps, Loop>" (by decide) (by decide)
  have hrow := resolved_withAliases .standard [("Stamp", "u64"), ("Stamps", "Vec<Stamp>")]
    "(Stamp, Stamps)" (by decide) (by decide)
  have hranked : ∀ entry ∈ [("Stamp", "u64"), ("Stamps", "Vec<Stamp>")],
      ∀ other ∈ ((plain .standard).resolved entry.2).names,
        other.length < entry.1.length := by decide
  have hplain : (plain .standard).resolved "HashMap<Stamps, Loop>" =
      .hashMap (.bare "Stamps") (.bare "Loop") := by decide
  refine ⟨?_, hrow.2 (isAcyclic_of_rank String.length hranked) "Stamp" (by decide)⟩
  rw [← hplain, ← hloop.1]
  decide

end CanonicalIdl
