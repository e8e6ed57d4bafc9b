import CanonicalIdl.Proofs.Accounts.LeftOut
import Mathlib.Data.List.Basic

/-!
# Reading accounts by their number

Where missing optional accounts are left out, a program gets a list without names.  Since the
supplied optional keys are a prefix of all optional keys, the number of accounts alone tells
which keys they belong to: all required keys, and as many of the first optional keys as the list
has accounts beyond the required ones.  Two calls that send equally many accounts may differ in
the addresses, but not in the keys behind them.

Main results:

- Theorem `contains_iff_of_firstOffence?`: an optional key is supplied if fewer optional keys
  stand in front of it than are supplied in all.
- Theorem `length_of_firstOffence?`: a call sends an account for each required key and for each
  supplied optional one.
- Theorem `resolve_omitted_places`: calls that send equally many accounts send them for the same
  keys.
-/

namespace CanonicalIdl

namespace AccountPlan

/-! ## Counting keys -/

/-- The number of required keys. -/
def requiredCount (keys : List AccountKey) : Nat := keys.countP (!·.optional)

/-- The number of optional keys. -/
def optionalCount (keys : List AccountKey) : Nat := keys.countP (·.optional)

/-- The number of optional keys that are supplied. -/
def suppliedCount (supplied : Supplied) (keys : List AccountKey) : Nat :=
  keys.countP fun key => key.optional && supplied.contains key.name

section Counts

variable {supplied : Supplied} {keys : List AccountKey}

variable (supplied keys) in
theorem suppliedCount_le_optionalCount : suppliedCount supplied keys ≤ optionalCount keys := by
  apply List.countP_mono_left
  intro key _ hkey
  rw [Bool.and_eq_true] at hkey
  exact hkey.1

/-- Where no key is left out, all optional keys are supplied. -/
theorem suppliedCount_of_kept (h : ∀ key ∈ keys, isLeftOut supplied key = false) :
    suppliedCount supplied keys = optionalCount keys := by
  apply List.countP_congr
  intro key hkey
  rw [Bool.and_eq_true]
  constructor
  · rintro ⟨hoptional, -⟩
    exact hoptional
  · intro hoptional
    exact ⟨hoptional, isLeftOut_eq_false_iff.mp (h key hkey) hoptional⟩

/-- The keys that are not left out are the required ones and the supplied optional ones. -/
theorem countP_not_isLeftOut :
    (keys.countP fun key => !isLeftOut supplied key) =
      requiredCount keys + suppliedCount supplied keys := by
  rw [requiredCount, suppliedCount]
  induction keys with
  | nil => rfl
  | cons key rest ih =>
    rw [List.countP_cons, List.countP_cons, List.countP_cons, ih]
    cases hoptional : key.optional with
    | false =>
      simp only [isLeftOut, hoptional, Bool.false_and, Bool.not_false, if_true,
        Bool.false_eq_true, if_false]
      omega
    | true =>
      cases hsupplied : supplied.contains key.name <;>
        simp only [isLeftOut, hoptional, hsupplied, Bool.true_and, Bool.not_true, Bool.not_false,
          if_true, Bool.false_eq_true, if_false] <;> omega

end Counts

/-! ## Keys of which none offends -/

section Ordered

variable {supplied : Supplied} {keys : List AccountKey}

/-- For each of some keys of which none offends, an account is sent unless the key is left
out. -/
theorem isSome_sentFor?_of_firstOffence? (program : String) (h : firstOffence? supplied keys = none)
    {key : AccountKey} (hkey : key ∈ keys) :
    (sentFor? supplied program key).isSome = !isLeftOut supplied key := by
  obtain ⟨before, after, hsplit⟩ := List.append_of_mem hkey
  have hnone := (firstOffence?_eq_none_iff supplied).mp h before key after hsplit
  rw [sentFor?_of_offence?_eq_none program hnone]
  cases isLeftOut supplied key <;> rfl

/-- A call sends an account for each required key and for each supplied optional one. -/
theorem length_of_firstOffence? (program : String) (h : firstOffence? supplied keys = none) :
    (keys.filterMap (sentFor? supplied program)).length =
      requiredCount keys + suppliedCount supplied keys := by
  rw [← countP_not_isLeftOut, List.length_filterMap_eq_countP]
  apply List.countP_congr
  intro key hkey
  rw [isSome_sentFor?_of_firstOffence? program h hkey]

/-- In front of a supplied optional key that does not offend, all optional keys are supplied. -/
theorem suppliedCount_of_contains {before : List AccountKey} {key : AccountKey}
    (h : offence? supplied before key = none) (hoptional : key.optional = true)
    (hsupplied : supplied.contains key.name = true) :
    suppliedCount supplied before = optionalCount before := by
  by_cases hskipped : skippedNames supplied before = []
  · exact suppliedCount_of_kept (skippedNames_eq_nil_iff.mp hskipped)
  · rw [offence?, if_pos hoptional, if_pos ⟨hsupplied, hskipped⟩] at h
    cases h

/-- Behind a key that is left out, no optional key is supplied, where none offends. -/
theorem suppliedCount_of_not_contains (h : firstOffence? supplied keys = none)
    {before after : List AccountKey} {key : AccountKey} (hsplit : keys = before ++ key :: after)
    (hoptional : key.optional = true) (hmissing : ¬supplied.contains key.name = true) :
    suppliedCount supplied after = 0 := by
  rw [suppliedCount, List.countP_eq_zero]
  intro later hlater hsupplied
  rw [Bool.and_eq_true] at hsupplied
  obtain ⟨between, rest, rfl⟩ := List.append_of_mem hlater
  have hlater : offence? supplied (before ++ key :: between) later = none := by
    apply (firstOffence?_eq_none_iff supplied).mp h _ _ rest
    rw [hsplit, List.append_assoc, List.cons_append]
  have hskipped : skippedNames supplied (before ++ key :: between) ≠ [] := by
    intro hnil
    have hkept := skippedNames_eq_nil_iff.mp hnil key
      (List.mem_append_right before List.mem_cons_self)
    exact hmissing (isLeftOut_eq_false_iff.mp hkept hoptional)
  rw [offence?, if_pos hsupplied.1, if_pos ⟨hsupplied.2, hskipped⟩] at hlater
  cases hlater

/-- Where no key offends, the supplied optional keys come first: an optional key is supplied if
fewer optional keys stand in front of it than are supplied in all. -/
theorem contains_iff_of_firstOffence? (h : firstOffence? supplied keys = none)
    {before after : List AccountKey} {key : AccountKey} (hsplit : keys = before ++ key :: after)
    (hoptional : key.optional = true) :
    supplied.contains key.name = true ↔ optionalCount before < suppliedCount supplied keys := by
  have hcount : suppliedCount supplied keys = suppliedCount supplied before +
      (suppliedCount supplied after + if supplied.contains key.name then 1 else 0) := by
    rw [hsplit, suppliedCount, List.countP_append, List.countP_cons, hoptional, Bool.true_and]
    rfl
  constructor
  · intro hsupplied
    have hkey := (firstOffence?_eq_none_iff supplied).mp h before key after hsplit
    have hbefore := suppliedCount_of_contains hkey hoptional hsupplied
    rw [if_pos hsupplied] at hcount
    omega
  · intro hlt
    by_cases hsupplied : supplied.contains key.name = true
    · exact hsupplied
    · have hafter := suppliedCount_of_not_contains h hsplit hoptional hsupplied
      have hbefore := suppliedCount_le_optionalCount supplied before
      rw [if_neg hsupplied, hafter] at hcount
      omega

end Ordered

/-! ## Places -/

section Places

variable (supplied : Supplied) (program : String)

/-- The accounts that are sent for some keys, each with the place of its key. -/
def sentFrom (keys : List AccountKey) : List (AccountMeta × Nat) :=
  keys.zipIdx.filterMap fun entry =>
    (sentFor? supplied program entry.1).map fun account => (account, entry.2)

/-- The places of the keys for which an account is sent. -/
def sentPlaces (keys : List AccountKey) : List Nat := (sentFrom supplied program keys).map Prod.snd

/-- The places aside, these are the accounts that are sent for the keys. -/
theorem map_fst_sentFrom (keys : List AccountKey) :
    (sentFrom supplied program keys).map Prod.fst = keys.filterMap (sentFor? supplied program) := by
  have haccount : ∀ entry : AccountKey × Nat,
      ((sentFor? supplied program entry.1).map fun account => (account, entry.2)).map Prod.fst =
        sentFor? supplied program entry.1 := by
    intro entry
    cases sentFor? supplied program entry.1 <;> rfl
  rw [sentFrom, List.map_filterMap]
  simp only [haccount]
  conv => rhs; rw [← List.zipIdx_map_fst 0 keys, List.filterMap_map]
  rfl

variable {supplied program}

/-- Where no key offends, accounts are sent for the keys that are not left out. -/
theorem sentPlaces_of_firstOffence? {keys : List AccountKey}
    (h : firstOffence? supplied keys = none) :
    sentPlaces supplied program keys = keys.zipIdx.filterMap fun entry =>
      if isLeftOut supplied entry.1 then none else some entry.2 := by
  rw [sentPlaces, sentFrom, List.map_filterMap]
  apply List.filterMap_congr
  intro entry hentry
  have hkey : entry.1 ∈ keys := List.fst_mem_of_mem_zipIdx hentry
  have hsome := isSome_sentFor?_of_firstOffence? program h hkey
  cases hsent : sentFor? supplied program entry.1 <;>
    cases hleft : isLeftOut supplied entry.1 <;>
      simp [hsent, hleft] at hsome ⊢

end Places

/-! ## Two calls -/

/-- At each place of an optional key, either both supply the key or none does. -/
def SupplyAlike (supplied other : Supplied) (keys : List AccountKey) : Prop :=
  ∀ (place : Nat) (key : AccountKey), keys[place]? = some key → key.optional = true →
    (supplied.contains key.name = true ↔ other.contains key.name = true)

section Calls

variable {remaining : Bool} {keys : List AccountKey} {supplied other : Supplied}
  {program otherProgram : String} {accounts others : List AccountMeta}

/-- A call that succeeds and sends no remaining accounts has no key that offends, and sends the
accounts of its keys. -/
theorem firstOffence?_of_resolve_omitted (hremaining : remaining = true → supplied.remaining = [])
    (h : (ofKeys .omitted remaining keys).resolve supplied program = .ok accounts) :
    firstOffence? supplied keys = none ∧
      accounts = keys.filterMap (sentFor? supplied program) := by
  have hbehind : remainingBehind supplied remaining keys = [] := by
    rw [remainingBehind]
    split
    · next htaken => exact hremaining htaken.1
    · rfl
  have hsteps : resolveSteps .omitted supplied program (stepsFor .omitted keys) =
      ruleBehind supplied program [] keys := resolveSteps_omittingSteps supplied program keys
  rw [resolve_ofKeys, hbehind, hsteps, ruleBehind] at h
  rw [firstOffence?]
  cases hoffence : offenceBehind? supplied [] keys with
  | some error =>
    rw [hoffence] at h
    cases h
  | none =>
    rw [hoffence] at h
    refine ⟨rfl, ?_⟩
    exact (Except.ok.inj h).symm.trans (List.append_nil _)

/-- A call without offences tells by its number of accounts which optional keys it supplies. -/
theorem contains_iff_of_length (h : firstOffence? supplied keys = none)
    (haccounts : accounts = keys.filterMap (sentFor? supplied program)) {place : Nat}
    {key : AccountKey} (hkey : keys[place]? = some key) (hoptional : key.optional = true) :
    supplied.contains key.name = true ↔
      optionalCount (keys.take place) < accounts.length - requiredCount keys := by
  have hsplit : keys = keys.take place ++ key :: keys.drop (place + 1) := by
    obtain ⟨hplace, rfl⟩ := List.getElem?_eq_some_iff.mp hkey
    rw [← List.drop_eq_getElem_cons hplace, List.take_append_drop]
  rw [contains_iff_of_firstOffence? h hsplit hoptional, haccounts,
    length_of_firstOffence? program h, Nat.add_sub_cancel_left]

/-- Calls without offences that supply the same optional keys send accounts for the same keys. -/
theorem sentPlaces_congr (h : firstOffence? supplied keys = none)
    (hother : firstOffence? other keys = none) (halike : SupplyAlike supplied other keys) :
    sentPlaces supplied program keys = sentPlaces other otherProgram keys := by
  rw [sentPlaces_of_firstOffence? h, sentPlaces_of_firstOffence? hother]
  apply List.filterMap_congr
  intro entry hentry
  have hkey := List.mem_zipIdx_iff_getElem?.mp hentry
  have hleft : isLeftOut supplied entry.1 = isLeftOut other entry.1 := by
    rw [isLeftOut, isLeftOut]
    cases hoptional : entry.1.optional with
    | false => rfl
    | true => rw [Bool.eq_iff_iff.mpr (halike entry.2 entry.1 hkey hoptional)]
  rw [hleft]

/-- A list of accounts without names can be read by its length.  A call that leaves out missing
optional accounts and sends no remaining ones has an account for each required key, and the
accounts beyond those belong to the first optional keys.  So two calls that send equally many
accounts, whatever their addresses and programs, supply the same optional keys, and each
account of one stands for the same key as the account at its place in the other. -/
theorem resolve_omitted_places
    (hremaining : remaining = true → supplied.remaining = [] ∧ other.remaining = [])
    (h : (ofKeys .omitted remaining keys).resolve supplied program = .ok accounts)
    (hother : (ofKeys .omitted remaining keys).resolve other otherProgram = .ok others) :
    (accounts = (sentFrom supplied program keys).map Prod.fst ∧
      others = (sentFrom other otherProgram keys).map Prod.fst) ∧
    (requiredCount keys ≤ accounts.length ∧
      ∀ (place : Nat) (key : AccountKey), keys[place]? = some key → key.optional = true →
        (supplied.contains key.name = true ↔
          optionalCount (keys.take place) < accounts.length - requiredCount keys)) ∧
    (accounts.length = others.length →
      SupplyAlike supplied other keys ∧
        sentPlaces supplied program keys = sentPlaces other otherProgram keys) := by
  obtain ⟨hnone, haccounts⟩ :=
    firstOffence?_of_resolve_omitted (fun htaken => (hremaining htaken).1) h
  obtain ⟨hnoneOther, hothers⟩ :=
    firstOffence?_of_resolve_omitted (fun htaken => (hremaining htaken).2) hother
  have hlength : accounts.length = requiredCount keys + suppliedCount supplied keys := by
    rw [haccounts, length_of_firstOffence? program hnone]
  refine ⟨⟨?_, ?_⟩, ⟨?_, ?_⟩, ?_⟩
  · rw [map_fst_sentFrom, haccounts]
  · rw [map_fst_sentFrom, hothers]
  · omega
  · intro place key hkey hoptional
    exact contains_iff_of_length hnone haccounts hkey hoptional
  · intro hequal
    have halike : SupplyAlike supplied other keys := by
      intro place key hkey hoptional
      rw [contains_iff_of_length hnone haccounts hkey hoptional,
        contains_iff_of_length hnoneOther hothers hkey hoptional, hequal]
    exact ⟨halike, sentPlaces_congr hnone hnoneOther halike⟩

/-- The accounts of a transfer without the remaining one. -/
def transferAlone : Supplied := ⟨transferSupplied.addresses, []⟩

/-- Another payer and another vault. -/
def otherTransfer : Supplied := ⟨[("vault", "Safe"), ("payer", "Friend")], []⟩

/-- Two transfers send three accounts each: a payer, a vault and the program with a known
address. -/
theorem resolve_omitted_places_transfer :
    ((ofKeys .omitted true transferKeys).resolve transferAlone "Program" =
        .ok [⟨"Payer", true, true⟩, ⟨"Vault", true, false⟩, ⟨"1111", false, false⟩] ∧
      (ofKeys .omitted true transferKeys).resolve otherTransfer "Other" =
        .ok [⟨"Friend", true, true⟩, ⟨"Safe", true, false⟩, ⟨"1111", false, false⟩]) ∧
    SupplyAlike transferAlone otherTransfer transferKeys ∧
    sentPlaces transferAlone "Program" transferKeys = [0, 1, 3] ∧
    sentPlaces otherTransfer "Other" transferKeys = [0, 1, 3] := by
  have h : (ofKeys .omitted true transferKeys).resolve transferAlone "Program" =
      .ok [⟨"Payer", true, true⟩, ⟨"Vault", true, false⟩, ⟨"1111", false, false⟩] := rfl
  have hother : (ofKeys .omitted true transferKeys).resolve otherTransfer "Other" =
      .ok [⟨"Friend", true, true⟩, ⟨"Safe", true, false⟩, ⟨"1111", false, false⟩] := rfl
  have hplaces : sentPlaces transferAlone "Program" transferKeys = [0, 1, 3] := rfl
  obtain ⟨-, -, hequal⟩ := resolve_omitted_places (fun _ => ⟨rfl, rfl⟩) h hother
  obtain ⟨halike, hsame⟩ := hequal rfl
  exact ⟨⟨h, hother⟩, halike, hplaces, hsame.symm.trans hplaces⟩

end Calls

end AccountPlan

end CanonicalIdl
