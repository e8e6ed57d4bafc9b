import CanonicalIdl.Proofs.Resolution.Levels
import CanonicalIdl.Proofs.Resolution.Refusals
import CanonicalIdl.Proofs.Resolution.Sessions

/-!
# Expressions that extensions leave alone

The rules of a caller come behind the built-in ones.  A built-in rule asks for nothing before
it has accepted a text, so where the built-in rules accept an expression and all expressions
inside it, no rule of the caller gets its turn.  That this is so can be told from the tree: it
holds no reference.

Main results:

- Theorem `names_unknown_ne_nil`: a text that no built-in rule accepts has a reference as its tree.
- Theorem `quiet_callWithin`: a call that comes to a tree without references tries no rule of the
  caller, at no level.
- Theorem `extensions_untried`: extensions and a fallback change nothing about a tree without
  references.
-/

namespace CanonicalIdl

open Text TypeTree

/-! ## Trees without references -/

theorem TypeTree.names_eq_nil_iff {tree : TypeTree} :
    tree.names = [] ↔ ∀ node ∈ tree.walk, node.referenceName? = none := by
  rw [names, List.filterMap_eq_nil_iff]

/-- What stands in the key or the value of a map stands in the map. -/
theorem TypeTree.mem_walk_mapTree {base : List Char} {key value child node : TypeTree}
    (hchild : child ∈ [key, value]) (hnode : node ∈ child.walk) :
    node ∈ (Builtin.mapTree base key value).walk := by
  unfold Builtin.mapTree
  split
  · exact mem_walk_of_child hchild hnode
  · split
    · have hpair : node ∈ (tuple [key, value]).walk := mem_walk_of_child hchild hnode
      exact mem_walk_of_child List.mem_cons_self hpair
    · exact mem_walk_of_child hchild hnode

namespace Shape

variable {table : PrimitiveWords} {read : List Char → TypeTree}

/-- What stands in the tree of a part stands in the tree of the shape. -/
theorem mem_walk_of_part {shape : Shape} {part : List Char} {node : TypeTree}
    (hpart : part ∈ shape.parts) (hnode : node ∈ (read part).walk) :
    node ∈ (shape.tree table read).walk := by
  have hmem : read part ∈ shape.parts.map read := List.mem_map_of_mem hpart
  cases shape with
  | primitive p => cases hpart
  | map base key value => exact mem_walk_mapTree hmem hnode
  | node => cases hpart
  | bare name => cases hpart
  | _ => exact mem_walk_of_child hmem hnode

/-- The parts of a shape whose tree holds no reference have trees without references. -/
theorem names_part_eq_nil {shape : Shape} (h : (shape.tree table read).names = [])
    {part : List Char} (hpart : part ∈ shape.parts) : (read part).names = [] := by
  rw [names_eq_nil_iff] at h ⊢
  intro node hnode
  exact h node (mem_walk_of_part hpart hnode)

/-- The shape of a text that no rule accepts has a reference as its tree. -/
theorem names_unknown_ne_nil (text : List Char) :
    ((unknown text).tree table read).names ≠ [] := by
  intro h
  rw [names_eq_nil_iff] at h
  unfold unknown at h
  dsimp only at h
  split at h
  · cases h _ (mem_walk_self _)
  · cases h _ (mem_walk_self _)

end Shape

/-! ## Parts of a session that no caller disturbs -/

/-- Nothing has changed but the notes of calls: nothing has been told to the run, and no rule of
the caller has been tried. -/
structure Session.Undisturbed (before after : Session) : Prop where
  run : after.run = before.run
  depth : after.depth = before.depth
  tried : after.tried = before.tried

namespace Session.Undisturbed

theorem refl (session : Session) : session.Undisturbed session := ⟨rfl, rfl, rfl⟩

theorem trans {before between after : Session} (hfirst : before.Undisturbed between)
    (hsecond : between.Undisturbed after) : before.Undisturbed after where
  run := hsecond.run.trans hfirst.run
  depth := hsecond.depth.trans hfirst.depth
  tried := hsecond.tried.trans hfirst.tried

end Session.Undisturbed

/-- Where so many calls are under way, a part of a session comes to one result and disturbs
nothing. -/
def Quiet {α : Type} (depth : Nat) (part : Session → α × Session) (a : α) : Prop :=
  ∀ session, session.depth = depth → (part session).1 = a ∧ session.Undisturbed (part session).2

section Quiet

variable {α β : Type} {depth : Nat} {resolver : SessionResolver} {read : List Char → TypeTree}

theorem Quiet.done (a : α) : Quiet depth ((Script.done a).perform resolver) a :=
  fun session _ => ⟨rfl, .refl session⟩

/-- A script and what it goes on with. -/
theorem Quiet.bind {script : Script α} {next : α → Script β} {a : α} {b : β}
    (hscript : Quiet depth (script.perform resolver) a)
    (hnext : Quiet depth ((next a).perform resolver) b) :
    Quiet depth ((script.bind next).perform resolver) b := by
  intro session hsession
  obtain ⟨hresult, hfirst⟩ := hscript session hsession
  rw [Script.perform_bind, hresult]
  obtain ⟨hvalue, hsecond⟩ := hnext _ (hfirst.depth.trans hsession)
  exact ⟨hvalue, hfirst.trans hsecond⟩

theorem quiet_askEach {texts : List (List Char)}
    (h : ∀ text ∈ texts, Quiet depth (resolver text) (read text)) :
    Quiet depth ((Script.askEach texts).perform resolver) (texts.map read) := by
  induction texts with
  | nil => exact .done []
  | cons text rest ih =>
    obtain ⟨htext, hrest⟩ := List.forall_mem_cons.mp h
    have hask : Quiet depth ((Script.ask text).perform resolver) (read text) := htext
    exact hask.bind (.bind (ih hrest) (.done _))

/-- A shape is quiet where its parts are. -/
theorem quiet_script (table : PrimitiveWords) {shape : Shape}
    (h : ∀ part ∈ shape.parts, Quiet depth (resolver part) (read part)) :
    Quiet depth ((shape.script table).perform resolver) (shape.tree table read) := by
  have hask : ∀ part ∈ shape.parts,
      Quiet depth ((Script.ask part).perform resolver) (read part) := h
  cases shape with
  | primitive p => exact .done _
  | map base key value =>
    have hkey := hask key (by simp [Shape.parts])
    have hvalue := hask value (by simp [Shape.parts])
    exact .bind hkey (.bind hvalue (.done _))
  | vec inner => exact .bind (hask inner List.mem_cons_self) (.done _)
  | tuple items => exact .bind (quiet_askEach h) (.done _)
  | option inner => exact .bind (hask inner List.mem_cons_self) (.done _)
  | array element length => exact .bind (hask element List.mem_cons_self) (.done _)
  | node => exact .done _
  | bare name => exact .done _
  | applied name arguments => exact .bind (quiet_askEach h) (.done _)

end Quiet

namespace Chain

variable {chain : Chain} {depth : Nat} {resolver : SessionResolver} {read : List Char → TypeTree}

/-- The first built-in rule that finds a shape decides, and those in front of it ask for
nothing. -/
theorem attemptEach_builtins (table : PrimitiveWords) (text : List Char) (builtins : List Builtin)
    (session : Session) :
    attemptEach (builtins.map fun builtin => (builtin.matcher text).perform resolver) session =
      (Shape.attempt table (builtins.findSome? (·.shape? text))).perform resolver session := by
  induction builtins with
  | nil => rfl
  | cons builtin rest ih =>
    rw [List.map_cons, attemptEach, Builtin.matcher_eq_attempt table, List.findSome?_cons]
    cases builtin.shape? text with
    | none => exact ih
    | some shape =>
      dsimp only [Shape.attempt]
      rw [Script.perform_bind]
      rfl

/-- Where the tree of a text holds no reference, the built-in rules decide on the text. -/
theorem quiet_decideWithin (hbuiltins : chain.builtins = Builtin.all) {text : List Char}
    (hclosed : ((Shape.ofText text).tree chain.table read).names = [])
    (hparts : ∀ part ∈ (Shape.ofText text).parts, Quiet depth (resolver part) (read part)) :
    Quiet depth (chain.decideWithin resolver text)
      ((Shape.ofText text).tree chain.table read) := by
  intro session hsession
  cases hword : Primitive.ofWord? text with
  | some p =>
    simp only [decideWithin, PrimitiveWords.lookup?, Shape.ofText, hword, Option.map_some]
    exact ⟨rfl, .refl session⟩
  | none =>
    cases hfound : Builtin.all.findSome? (·.shape? text) with
    | none =>
      have hunknown : Shape.ofText text = Shape.unknown text := by
        simp only [Shape.ofText, hword, hfound, Option.getD_none]
      rw [hunknown] at hclosed
      exact absurd hclosed (Shape.names_unknown_ne_nil text)
    | some shape =>
      have hshape : Shape.ofText text = shape := by
        simp only [Shape.ofText, hword, hfound, Option.getD_some]
      rw [hshape] at hparts ⊢
      have hscript := quiet_script chain.table hparts session hsession
      simp only [decideWithin, PrimitiveWords.lookup?, hword, Option.map_none, hbuiltins,
        attemptEach_builtins chain.table text, hfound, Shape.attempt, Script.perform_bind,
        Script.perform]
      exact hscript

/-- A refused text is a reference.  So where there is none, a level was left for the text. -/
theorem depth_lt_of_names_eq_nil {table : PrimitiveWords} {depth : Nat} {text : List Char}
    (h : (readWithin table (depthLimit - depth) text).names = []) : depth < depthLimit := by
  by_contra hnone
  have hlevels : depthLimit - depth = 0 := by omega
  rw [hlevels, names_eq_nil_iff] at h
  cases h _ (mem_walk_self _)

/-- A call that comes to a tree without references tries no rule of the caller, at no level, and
tells nothing to the run. -/
theorem quiet_callWithin (hbuiltins : chain.builtins = Builtin.all) {bound depth : Nat}
    (h : depthLimit ≤ depth + bound) {text : List Char}
    (hclosed : (readWithin chain.table (depthLimit - depth) text).names = []) :
    Quiet depth (chain.callWithin bound text)
      (readWithin chain.table (depthLimit - depth) text) := by
  induction bound generalizing depth text with
  | zero =>
    have hdepth := depth_lt_of_names_eq_nil hclosed
    omega
  | succ bound ih =>
    have hdepth := depth_lt_of_names_eq_nil hclosed
    obtain ⟨levels, hlevels⟩ := Nat.exists_eq_add_of_lt hdepth
    have hspent : depthLimit - depth = levels + 1 := by omega
    have hleft : depthLimit - (depth + 1) = levels := by omega
    rw [hspent, readWithin] at hclosed ⊢
    have hparts : ∀ part ∈ (Shape.ofText (trim text)).parts,
        Quiet (depth + 1) (chain.callWithin bound part) (readWithin chain.table levels part) := by
      intro part hpart
      have hnames := Shape.names_part_eq_nil hclosed hpart
      rw [← hleft] at hnames ⊢
      exact ih (by omega) hnames
    intro session hsession
    have hdecide := quiet_decideWithin hbuiltins hclosed hparts session.enter
      (congrArg (· + 1) hsession)
    rw [callWithin, if_pos (hsession ▸ hdepth)]
    revert hdecide
    generalize chain.decideWithin (chain.callWithin bound) (trim text) session.enter = outcome
    rintro ⟨htree, hquiet⟩
    refine ⟨htree, hquiet.run, ?_, hquiet.tried⟩
    exact congrArg (· - 1) hquiet.depth

/-- Extensions and a fallback change nothing where the built-in rules alone leave no reference:
resolution comes to the same tree, no rule of the caller is tried on the way, whatever it would
do, and the run stays as it was, the registered definitions included. -/
theorem extensions_untried (table : PrimitiveWords) (extensions : List Extension)
    (fallback : Option Matcher) (text : String) (run : Run)
    (h : ((plain table).resolved text).names = []) :
    let chain : Chain := { plain table with extensions := extensions, fallback := fallback }
    chain.resolve text.toList run = ((plain table).resolved text, run) ∧
      (chain.call text.toList (.ofRun run)).1 = (plain table).resolved text ∧
      (chain.call text.toList (.ofRun run)).2.tried = [] ∧
      (chain.call text.toList (.ofRun run)).2.run = run := by
  intro chain
  have hread : (plain table).resolved text = readWithin table depthLimit text.toList :=
    resolve_plain table depthLimit text.toList .start
  rw [hread] at h ⊢
  have hquiet : Quiet 0 (chain.call text.toList) (readWithin table depthLimit text.toList) :=
    quiet_callWithin rfl (Nat.le_add_left depthLimit 0) h
  obtain ⟨htree, hundisturbed⟩ := hquiet (.ofRun run) rfl
  have hfollows := chain.follows_call text.toList (.ofRun run) rfl
  generalize readWithin table depthLimit text.toList = tree at htree ⊢
  refine ⟨Prod.ext ?_ ?_, htree, hundisturbed.tried, hundisturbed.run⟩
  · exact hfollows.result.symm.trans htree
  · exact hfollows.run.symm.trans hundisturbed.run

/-- A rule that would take every text, and defines a type on the way. -/
def takesAll : Matcher := fun text => do
  let inner ← Script.ask ("Vec<".toList ++ text)
  Script.tell (.simple "Taken" .emptyStruct)
  return some inner

/-- Neither a rule that takes every text nor an alias for a built-in word gets its turn in an
expression of built-in shapes. -/
theorem extensions_untried_takesAll :
    let chain : Chain := { plain .floatAsBytes with
      extensions := [.aliases [("Node", "u8"), ("(f64, Node)", "u16")], .matcher takesAll]
      fallback := some takesAll }
    chain.resolve "BTreeMap<(f64, Node), [Option<Pubkey>; 4]>".toList .start =
        (.bTreeMap (.tuple [.byteArray 8, .byteArray 32])
          (.array (.option (.primitive .publicKey)) 4), .start) ∧
      (chain.call "BTreeMap<(f64, Node), [Option<Pubkey>; 4]>".toList (.ofRun .start)).2.tried =
        [] := by
  have htree : (plain .floatAsBytes).resolved "BTreeMap<(f64, Node), [Option<Pubkey>; 4]>" =
      .bTreeMap (.tuple [.byteArray 8, .byteArray 32])
        (.array (.option (.primitive .publicKey)) 4) := by decide
  have hcall := extensions_untried .floatAsBytes
    [.aliases [("Node", "u8"), ("(f64, Node)", "u16")], .matcher takesAll] (some takesAll)
    "BTreeMap<(f64, Node), [Option<Pubkey>; 4]>" .start (by rw [htree]; decide)
  rw [htree] at hcall
  exact ⟨hcall.1, hcall.2.2.1⟩

/-- A reference inside is where a rule of the caller gets its turn. -/
example :
    (({ standard with fallback := some fun _ => return none } : Chain).call
      "[(u8, Amount); 2]".toList (.ofRun .start)).2.tried = ["Amount".toList] := by
  decide

end Chain

end CanonicalIdl
