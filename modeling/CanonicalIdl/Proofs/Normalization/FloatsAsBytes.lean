import CanonicalIdl.Proofs.Normalization.Settled
import CanonicalIdl.Proofs.Resolution.FloatsAsBytes

/-!
# Interfaces with floats as bytes

A configuration may ask for eight bytes where an interface declares a 64-bit float.  The
interface that comes of it is the one under the standard table with every such float
exchanged, in arguments, accounts and types alike, and nothing else in it differs.

Main results:

- Theorem `Anchor.mirrors_convert`, `Shank.mirrors_convert`: conversion takes the same steps under
  both tables.
- Theorem `normalize_floatAsBytes`: normalization with floats as bytes is normalization under the
  standard table, with the floats exchanged in the result.
-/

namespace CanonicalIdl

open TypeTree
open Declared (TypeExpr GenericArgument)

/-! ## Trees of parts -/

/-- The definition with its trees through `f`. -/
def Definition.mapTrees (f : TypeTree → TypeTree) (definition : Definition) : Definition :=
  { definition with body := definition.body.map f }

/-- The account with its trees through `f`. -/
def Account.mapTrees (f : TypeTree → TypeTree) (account : Account) : Account :=
  { account with body := account.body.map f }

/-- The instruction with its trees through `f`. -/
def Instruction.mapTrees (f : TypeTree → TypeTree) (instruction : Instruction) : Instruction :=
  { instruction with args := instruction.args.map (Field.map f) }

/-- The interface with its trees through `f`: those of arguments, accounts and types. -/
def Interface.mapTrees (f : TypeTree → TypeTree) (interface : Interface) : Interface :=
  { interface with
    instructions := interface.instructions.map (Instruction.mapTrees f)
    accounts := interface.accounts.map (Account.mapTrees f)
    types := interface.types.map (Definition.mapTrees f) }

/-- The trees of an interface through `f` are its trees, each through `f`. -/
theorem Interface.trees_mapTrees (f : TypeTree → TypeTree) (interface : Interface) :
    (interface.mapTrees f).trees = interface.trees.map f := by
  simp [trees, mapTrees, Instruction.mapTrees, Account.mapTrees, Definition.mapTrees,
    Body.types_map, List.flatMap_map, List.map_flatMap, Field.map, Function.comp_def]

namespace Definitions

variable (f : TypeTree → TypeTree)

/-- The definitions with their trees through `f`. -/
def mapTrees (definitions : Definitions) : Definitions :=
  ⟨definitions.toList.map (Definition.mapTrees f)⟩

/-- A definition that is put in keeps its place if all trees are changed. -/
theorem put_mapTrees (definition : Definition) (items : List Definition) :
    put (definition.mapTrees f) (items.map (Definition.mapTrees f)) =
      (put definition items).map (Definition.mapTrees f) := by
  induction items with
  | nil => rfl
  | cons first rest ih =>
    simp only [put, List.map_cons, ih]
    change (if first.name = definition.name then _ else _) = _
    split <;> rfl

/-- So do all definitions of a list. -/
theorem ofList_mapTrees (items : List Definition) :
    ofList (items.map (Definition.mapTrees f)) = (ofList items).mapTrees f := by
  induction items using List.reverseRecOn with
  | nil => rfl
  | append_singleton front definition ih =>
    simp only [ofList, List.map_append, List.foldl_append, List.map_singleton, List.foldl_cons,
      List.foldl_nil] at ih ⊢
    rw [ih]
    exact congrArg Definitions.mk (put_mapTrees f definition _)

/-- What is found under a name is changed where it stands. -/
theorem get?_mapTrees (definitions : Definitions) (name : String) :
    (definitions.mapTrees f).get? name = (definitions.get? name).map (Definition.mapTrees f) := by
  rw [get?, get?, mapTrees, List.find?_map]
  rfl

/-- A definition may be taken out before or after the trees are changed. -/
theorem erase_mapTrees (definitions : Definitions) (name : String) :
    (definitions.mapTrees f).erase name = (definitions.erase name).mapTrees f := by
  rw [erase, erase, mapTrees, mapTrees, List.eraseP_map]
  rfl

end Definitions

/-! ## Conversion -/

namespace Conversion

mutual

/-- Converting a type mirrors itself: what it does about a tree does not depend on floats in it. -/
theorem mirrors_type : (t : TypeExpr) →
    Script.Mirrors floatsAsBytes floatsAsBytes (type t) (type t)
  | .named name | .defined name => .ask name.toList
  | .generic name => .ends (graft_bare _ _ name)
  | .option inner | .coption inner | .vec inner | .array inner _ =>
    (mirrors_type inner).bind fun _ => .ends (graft_of_not_isLeaf _ _ rfl)
  | .tuple items => (mirrors_types items).bind fun trees => .ends (graft_tuple _ _ trees)
  | .hashMap key value | .bTreeMap key value =>
    (mirrors_type key).bind fun _ => (mirrors_type value).bind fun _ =>
      .ends (graft_of_not_isLeaf _ _ rfl)
  | .applied name args => by
    have harguments := mirrors_arguments args
    refine (Script.Mirrors.ask name.toList).bind fun tree => ?_
    -- A reference stays one, and nothing else becomes one, so both take the same branch.
    cases tree with
    | reference found items =>
      rw [floatsAsBytes_reference]
      dsimp only
      split
      · exact .ends (floatsAsBytes_reference found items)
      · exact harguments.bind fun trees => .ends (floatsAsBytes_reference found trees)
    | primitive p => cases p <;> exact .done _
    | _ => exact .done _

theorem mirrors_types : (items : List TypeExpr) →
    Script.Mirrors floatsAsBytes (List.map floatsAsBytes) (types items) (types items)
  | [] => .done []
  | item :: rest =>
    (mirrors_type item).bind fun tree => (mirrors_types rest).bind fun trees =>
      .done (tree :: trees)

theorem mirrors_argument : (item : GenericArgument) →
    Script.Mirrors floatsAsBytes (Option.map floatsAsBytes) (argument item) (argument item)
  | .type item => (mirrors_type item).bind fun tree => .done (some tree)
  | .const value => .warn (.constArgumentDropped value) (.done none)

theorem mirrors_arguments : (items : List GenericArgument) →
    Script.Mirrors floatsAsBytes (List.map floatsAsBytes) (arguments items) (arguments items)
  | [] => .done []
  | item :: rest =>
    (mirrors_argument item).bind fun tree => (mirrors_arguments rest).bind fun trees =>
      .ends (by cases tree <;> rfl)

end

variable (rename : String → String)

/-- So does converting a field. -/
theorem mirrors_field (f : Field TypeExpr) :
    Script.Mirrors floatsAsBytes (Field.map floatsAsBytes) (field rename f) (field rename f) :=
  (mirrors_type f.type).bind fun _ => .done _

theorem mirrors_fields (f : Fields TypeExpr) :
    Script.Mirrors floatsAsBytes (Fields.map floatsAsBytes) (fields rename f)
      (fields rename f) := by
  cases f with
  | named items => exact (Script.Mirrors.each (mirrors_field rename) items).bind fun _ => .done _
  | tuple items => exact (Script.Mirrors.each mirrors_type items).bind fun _ => .done _

theorem mirrors_variant (v : Variant TypeExpr) :
    Script.Mirrors floatsAsBytes (Variant.map floatsAsBytes) (variant rename v)
      (variant rename v) := by
  obtain ⟨name, content⟩ := v
  cases content with
  | none => exact .done _
  | some items => exact (mirrors_fields rename items).bind fun _ => .done _

/-- So does converting a body. -/
theorem mirrors_body (b : Body TypeExpr) :
    Script.Mirrors floatsAsBytes (Body.map floatsAsBytes) (body rename b) (body rename b) := by
  cases b with
  | struct items => exact (mirrors_fields rename items).bind fun _ => .done _
  | enum variants =>
    exact (Script.Mirrors.each (mirrors_variant rename) variants).bind fun _ => .done _
  | aliasOf item => exact (mirrors_type item).bind fun _ => .done _

/-- So does converting a definition, whose other parts are no trees. -/
theorem mirrors_definition (d : Declared.Definition) :
    Script.Mirrors floatsAsBytes (Definition.mapTrees floatsAsBytes) (definition rename d)
      (definition rename d) :=
  (mirrors_body rename d.body).bind fun _ => .done _

theorem mirrors_accountBody (account : Declared.Account) :
    Script.Mirrors floatsAsBytes (Body.map floatsAsBytes) (accountBody rename account)
      (accountBody rename account) := by
  unfold accountBody
  split
  · exact mirrors_body rename _
  · exact .warn _ (.done _)

/-- So does converting an instruction. -/
theorem mirrors_instruction (discriminator : Option Discriminator) (i : Declared.Instruction) :
    Script.Mirrors floatsAsBytes (Instruction.mapTrees floatsAsBytes)
      (instruction rename discriminator i) (instruction rename discriminator i) :=
  (Script.Mirrors.each (mirrors_field rename) i.args).bind fun _ => .done _

end Conversion

/-! ## The path of anchor -/

namespace Anchor

open Conversion

theorem mirrors_definitions (declared : List Declared.Definition) :
    Script.Mirrors floatsAsBytes (Definitions.mapTrees floatsAsBytes) (definitions declared)
      (definitions declared) :=
  (Script.Mirrors.each (mirrors_definition camelName) declared).bind fun items =>
    .ends (Definitions.ofList_mapTrees floatsAsBytes items).symm

/-- An account finds its body in changed definitions where it found it before. -/
theorem mirrors_account (types : Definitions) (declared : Declared.Account) :
    Script.Mirrors floatsAsBytes
      (Prod.map (Account.mapTrees floatsAsBytes) (Definitions.mapTrees floatsAsBytes))
      (account types declared) (account (types.mapTrees floatsAsBytes) declared) := by
  unfold account
  rw [Definitions.get?_mapTrees]
  cases types.get? declared.name with
  | none => exact (mirrors_accountBody camelName declared).bind fun _ => .done _
  | some definition =>
    dsimp only [Option.map_some]
    rw [Definitions.erase_mapTrees]
    exact .done _

/-- So do several accounts. -/
theorem mirrors_accounts (types : Definitions) (declared : List Declared.Account) :
    Script.Mirrors floatsAsBytes
      (Prod.map (List.map (Account.mapTrees floatsAsBytes)) (Definitions.mapTrees floatsAsBytes))
      (accounts types declared) (accounts (types.mapTrees floatsAsBytes) declared) := by
  induction declared generalizing types with
  | nil => exact .done ([], types)
  | cons first rest ih =>
    exact (mirrors_account types first).bind fun (account, types) =>
      (ih types).bind fun (others, types) => .done (account :: others, types)

/-- What is converted with its trees through `f`. -/
def Converted.mapTrees (f : TypeTree → TypeTree) (converted : Converted) : Converted where
  accounts := converted.accounts.map (Account.mapTrees f)
  instructions := converted.instructions.map (Instruction.mapTrees f)
  types := converted.types.mapTrees f

/-- Conversion takes the same steps under both tables. -/
theorem mirrors_convert (declared : Declared.Interface) :
    Script.Mirrors floatsAsBytes (Converted.mapTrees floatsAsBytes) (convert declared)
      (convert declared) :=
  (mirrors_definitions declared.types).bind fun types =>
    (mirrors_accounts types declared.accounts).bind fun (_, _) =>
      (Script.Mirrors.each (fun i => mirrors_instruction camelName _ i)
        declared.instructions).bind fun _ => .done _

/-- Under a configured chain the second table exchanges the floats in the result, and the
warnings are the same. -/
theorem normalize_floatsAsBytes {chain : Chain} (hchain : chain.IsConfigured)
    (htable : chain.table = .standard) (declared : Declared.Interface) :
    normalize { chain with table := .floatAsBytes } declared =
      ((normalize chain declared).1.mapTrees floatsAsBytes, (normalize chain declared).2) := by
  have hrun := (mirrors_convert declared).run (Chain.mirroredBy_resolve hchain htable) .start
  have hregistered : ((convert declared).run chain.resolve .start).2.registered = [] :=
    registeredBy_eq_nil hchain declared
  have hgenerated : ((convert declared).run chain.resolve .start).2.generated.toList = [] := by
    rw [Run.generated, hregistered]
    rfl
  simp only [normalize, hrun, hgenerated, List.filter_nil, List.map_nil, List.append_nil]
  rfl

end Anchor

/-! ## The path of shank -/

namespace Shank

open Conversion

/-- Names are resolved under the second table as under the standard one, but for floats. -/
theorem mirroredBy_resolver :
    (resolver .standard).MirroredBy floatsAsBytes (resolver .floatAsBytes) := by
  intro text run
  simp only [resolver, PrimitiveWords.lookup?_floatAsBytes]
  cases PrimitiveWords.standard.lookup? text with
  | none => simp only [Option.map_none, Option.getD_none, floatsAsBytes_reference, List.map_nil]
  | some tree => rfl

theorem mirrors_account (declared : Declared.Account) :
    Script.Mirrors floatsAsBytes (Account.mapTrees floatsAsBytes) (account declared)
      (account declared) :=
  (mirrors_accountBody id declared).bind fun _ => .done _

/-- Conversion takes the same steps under both tables. -/
theorem mirrors_convert (declared : Declared.Interface) :
    Script.Mirrors floatsAsBytes (Interface.mapTrees floatsAsBytes) (convert declared)
      (convert declared) :=
  (Script.Mirrors.each (mirrors_definition id) declared.types).bind fun _ =>
    (Script.Mirrors.each mirrors_account declared.accounts).bind fun _ =>
      (Script.Mirrors.each (fun i => mirrors_instruction id _ i) declared.instructions).bind
        fun _ => .done _

theorem normalize_floatsAsBytes (declared : Declared.Interface) :
    normalize .floatAsBytes declared =
      ((normalize .standard declared).1.mapTrees floatsAsBytes,
        (normalize .standard declared).2) := by
  simp only [normalize, (mirrors_convert declared).run mirroredBy_resolver]

end Shank

/-! ## Configurations -/

/-- Whatever the aliases, a configuration that asks for floats as bytes comes to the interface
of one that does not, with eight bytes in place of each 64-bit float at every depth of every
tree, and it gives the same warnings. -/
theorem normalize_floatAsBytes (config : Config) {raw : Declared.Interface} {generator : Generator}
    (h : Generator.ofOrigin? raw.origin = some generator) :
    ∃ interface,
      (normalize { config with floatAsBytes := false }.settings raw).result = .ok interface ∧
      (normalize { config with floatAsBytes := true }.settings raw).result =
        .ok (interface.mapTrees floatsAsBytes) ∧
      (normalize { config with floatAsBytes := true }.settings raw).warnings =
        (normalize { config with floatAsBytes := false }.settings raw).warnings ∧
      ∀ tree ∈ (interface.mapTrees floatsAsBytes).trees, .primitive .f64 ∉ tree.walk := by
  have hby : normalizeBy { config with floatAsBytes := true }.settings raw generator =
      ((normalizeBy { config with floatAsBytes := false }.settings raw generator).1.mapTrees
          floatsAsBytes,
        (normalizeBy { config with floatAsBytes := false }.settings raw generator).2) := by
    cases generator with
    | anchor =>
      exact Anchor.normalize_floatsAsBytes
        (Config.isConfigured_chain { config with floatAsBytes := false }) rfl raw
    | shank => exact Shank.normalize_floatsAsBytes raw
  have hresult : ∀ floatAsBytes, normalize { config with floatAsBytes }.settings raw =
      ⟨.ok (normalizeBy { config with floatAsBytes }.settings raw generator).1,
        (normalizeBy { config with floatAsBytes }.settings raw generator).2⟩ := by
    intro floatAsBytes
    have horigin : Generator.ofOrigin?
        ({ config with floatAsBytes }.settings.before raw).origin = some generator := h
    simp only [normalize, horigin]
    rfl
  refine ⟨_, by rw [hresult], by rw [hresult, hby], by rw [hresult, hresult, hby], ?_⟩
  intro tree htree
  rw [Interface.trees_mapTrees] at htree
  obtain ⟨standard, -, rfl⟩ := List.mem_map.mp htree
  exact not_mem_walk_floatsAsBytes standard

/-- A configuration with an alias that stands in its own expression. -/
def loopConfig : Config where
  programName := "loop"
  directory := ""
  generator := .anchor
  programId := some "Loop1111"
  remainingAccounts := false
  floatAsBytes := true
  aliases := [("Loop", "Option<(f64, Loop)>")]
  binaryVersion := none
  libVersion := none

/-- An interface whose only type is an alias. -/
def loopInterface : Declared.Interface where
  address := none
  version := none
  name := none
  instructions := []
  accounts := []
  types := [.simple "Prices" (.aliasOf (.named "Loop"))]
  errors := []
  metadata := none
  extra := .empty

/-- An alias that stands in its own expression: the float beside it is exchanged in the result,
and the name at which the cycle is cut stays. -/
theorem normalize_floatAsBytes_loop :
    ∃ interface : Interface, interface.trees = [.option (.tuple [.primitive .f64, .bare "Loop"])] ∧
      (normalize loopConfig.settings
        loopInterface).result = .ok (interface.mapTrees floatsAsBytes) ∧
      (interface.mapTrees floatsAsBytes).trees =
        [.option (.tuple [.array (.primitive .u8) 8, .bare "Loop"])] := by
  have horigin : Generator.ofOrigin? loopInterface.origin = some .anchor := rfl
  obtain ⟨interface, hstandard, hbytes, -, -⟩ := normalize_floatAsBytes loopConfig horigin
  have htrees : (normalize { loopConfig with floatAsBytes := false }.settings
      loopInterface).result.map Interface.trees =
      .ok [.option (.tuple [.primitive .f64, .bare "Loop"])] := by rfl
  rw [hstandard] at htrees
  have htrees := Except.ok.inj htrees
  refine ⟨interface, htrees, hbytes, ?_⟩
  rw [Interface.trees_mapTrees, htrees]
  decide

end CanonicalIdl
