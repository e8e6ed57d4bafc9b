import CanonicalIdl.Accounts.Key
import CanonicalIdl.Accounts.Supplied

/-!
# Account plans

A plan says step by step which accounts an instruction sends.  It is made from the
account keys once and carried out for each call.

Missing optional accounts are treated in one of two ways.  Either every account keeps
its place, and the program stands in for a missing one; or missing ones are left out,
and one that is supplied needs all optional accounts before it.

Main results:

- Theorem `steps_default`: where every account keeps its place there is one block of slots.
- Theorem `resolveFixed_length`: a block of slots sends one account for each slot.
-/

namespace CanonicalIdl

open Json

/-- How optional accounts that are not supplied are sent. -/
inductive MissingOptionals where
  /-- The program, or a known address, takes their place without being written or signing. -/
  | replaced
  /-- They are left out. -/
  | omitted
  deriving Repr, DecidableEq

/-- The treatment that an instruction asks for. -/
def Instruction.missingOptionals (instruction : Instruction) : MissingOptionals :=
  if instruction.omitsMissing then .omitted else .replaced

/-- One place in a plan. -/
structure AccountSlot where
  name : String
  writable : Bool
  signer : Bool
  optional : Bool
  default : Option KnownAddress
  deriving Repr, DecidableEq

/-- The place of a key. -/
def AccountSlot.ofKey (key : AccountKey) : AccountSlot where
  name := key.name
  writable := key.writable
  signer := key.signer
  optional := key.optional
  default := key.known

/-- A step of a plan. -/
inductive PlanStep where
  /-- Slots that are always sent. -/
  | fixed (slots : List AccountSlot)
  /-- A required account behind the fixed slots. -/
  | push (slot : AccountSlot)
  /-- An optional account that is sent if supplied, and then needs all of `requires`. -/
  | pushIfSupplied (slot : AccountSlot) (requires : List String)
  /-- The caller's remaining accounts. -/
  | extendRemaining
  deriving Repr, DecidableEq

/-- The accounts of an instruction, step by step. -/
structure AccountPlan where
  missing : MissingOptionals
  steps : List PlanStep
  deriving Repr, DecidableEq

namespace AccountPlan

/-! ## Making a plan -/

/-- The steps behind the fixed slots, where `earlier` names the optional keys so far. -/
def laterSteps (earlier : List String) : List AccountKey → List PlanStep
  | [] => []
  | key :: rest =>
    if key.optional then
      .pushIfSupplied (.ofKey key) earlier :: laterSteps (earlier ++ [key.name]) rest
    else .push (.ofKey key) :: laterSteps earlier rest

/-- The steps where missing accounts are left out: the keys up to the first optional one
are fixed. -/
def omittingSteps (keys : List AccountKey) : List PlanStep :=
  .fixed ((keys.takeWhile (!·.optional)).map .ofKey) ::
    laterSteps [] (keys.dropWhile (!·.optional))

/-- The steps for some keys. -/
def stepsFor (missing : MissingOptionals) (keys : List AccountKey) : List PlanStep :=
  match missing with
  | .replaced => [.fixed (keys.map .ofKey)]
  | .omitted => omittingSteps keys

/-- The plan for some keys.  Remaining accounts are sent only behind declared ones. -/
def ofKeys (missing : MissingOptionals) (remaining : Bool) (keys : List AccountKey) :
    AccountPlan where
  missing := missing
  steps := stepsFor missing keys ++
    if remaining && !keys.isEmpty then [.extendRemaining] else []

/-! ## Carrying it out -/

/-- Why a plan cannot be carried out. -/
inductive Error where
  | missingRequired (account : String)
  | outOfOrder (account : String) (missing : List String)
  deriving Repr, DecidableEq

/-- The wording of an error. -/
def Error.message : Error → String
  | .missingRequired account =>
    "Required account `" ++ account ++ "` was not supplied and has no default address"
  | .outOfOrder account missing =>
    "Optional account `" ++ account ++ "` was supplied but the earlier optional accounts " ++
      ", ".intercalate missing ++ " were not"

/-- An account with the flags of a slot. -/
def sent (slot : AccountSlot) (address : String) : AccountMeta :=
  ⟨address, slot.writable, slot.signer⟩

/-- The account of a required slot: the supplied address, else the default. -/
def resolveRequired (supplied : Supplied) (program : String) (slot : AccountSlot) :
    Except Error AccountMeta :=
  match (supplied.get? slot.name).or (slot.default.map (·.address program)) with
  | some address => .ok (sent slot address)
  | none => .error (.missingRequired slot.name)

/-- The account of an optional slot that keeps its place. -/
def resolveReplaced (supplied : Supplied) (program : String) (slot : AccountSlot) : AccountMeta :=
  match supplied.get? slot.name with
  | some address => sent slot address
  | none => ⟨(slot.default.map (·.address program)).getD program, false, false⟩

/-- The account of a fixed slot. -/
def resolveSlot (missing : MissingOptionals) (supplied : Supplied) (program : String)
    (slot : AccountSlot) : Except Error AccountMeta :=
  if slot.optional ∧ missing = .replaced then .ok (resolveReplaced supplied program slot)
  else resolveRequired supplied program slot

/-- The accounts of fixed slots. -/
def resolveFixed (missing : MissingOptionals) (supplied : Supplied) (program : String) :
    List AccountSlot → Except Error (List AccountMeta)
  | [] => .ok []
  | slot :: rest => do
    let first ← resolveSlot missing supplied program slot
    let others ← resolveFixed missing supplied program rest
    return first :: others

/-- The accounts of one step. -/
def resolveStep (missing : MissingOptionals) (supplied : Supplied) (program : String) :
    PlanStep → Except Error (List AccountMeta)
  | .fixed slots => resolveFixed missing supplied program slots
  | .push slot => (resolveRequired supplied program slot).map ([·])
  | .pushIfSupplied slot requires =>
    match supplied.get? slot.name with
    | none => .ok []
    | some address =>
      match requires.filter (!supplied.contains ·) with
      | [] => .ok [sent slot address]
      | missing => .error (.outOfOrder slot.name missing)
  | .extendRemaining => .ok supplied.remaining

/-- The accounts of steps, one after another. -/
def resolveSteps (missing : MissingOptionals) (supplied : Supplied) (program : String) :
    List PlanStep → Except Error (List AccountMeta)
  | [] => .ok []
  | step :: rest => do
    let first ← resolveStep missing supplied program step
    let others ← resolveSteps missing supplied program rest
    return first ++ others

/-- The accounts that a call sends. -/
def resolve (plan : AccountPlan) (supplied : Supplied) (program : String) :
    Except Error (List AccountMeta) :=
  resolveSteps plan.missing supplied program plan.steps

/-! ## JSON form -/

/-- The JSON form of a slot. -/
def slotJson (slot : AccountSlot) : Json :=
  .object ([("name", .string slot.name), ("writable", .bool slot.writable),
      ("signer", .bool slot.signer), ("optional", .bool slot.optional)] ++
    optionalMember "default" KnownAddress.toJson slot.default)

/-- The JSON form of a step. -/
def stepJson : PlanStep → Json
  | .fixed slots => .object [("kind", .string "fixed"), ("slots", .array (slots.map slotJson))]
  | .push slot => .object [("kind", .string "push"), ("slot", slotJson slot)]
  | .pushIfSupplied slot requires =>
    .object [("kind", .string "pushIfSupplied"), ("slot", slotJson slot),
      ("requires", strings requires)]
  | .extendRemaining => .object [("kind", .string "extendRemaining")]

/-- The name of a treatment of missing accounts. -/
def missingJson : MissingOptionals → Json
  | .replaced => .string "defaultToProgramId"
  | .omitted => .string "legacy"

/-- The JSON form of a plan. -/
def toJson (plan : AccountPlan) : Json :=
  .object [("strategy", missingJson plan.missing), ("steps", .array (plan.steps.map stepJson))]

/-! ## Small facts -/

/-- Where every account keeps its place there is one block of slots. -/
theorem steps_default (keys : List AccountKey) :
    (ofKeys .replaced false keys).steps = [.fixed (keys.map .ofKey)] := by
  simp [ofKeys, stepsFor]

/-- A block of slots sends one account for each slot. -/
theorem resolveFixed_length {missing : MissingOptionals} {supplied : Supplied} {program : String}
    {slots : List AccountSlot} {accounts : List AccountMeta}
    (h : resolveFixed missing supplied program slots = .ok accounts) :
    accounts.length = slots.length := by
  induction slots generalizing accounts with
  | nil => cases h; rfl
  | cons slot rest ih =>
    unfold resolveFixed at h
    cases hs : resolveSlot missing supplied program slot with
    | error e => simp [hs, bind, Except.bind] at h
    | ok first =>
      cases hr : resolveFixed missing supplied program rest with
      | error e => simp [hs, hr, bind, Except.bind] at h
      | ok others =>
        simp only [hs, hr, bind, Except.bind, pure, Except.pure, Except.ok.injEq] at h
        subst h
        simp [ih hr]

end AccountPlan

end CanonicalIdl
