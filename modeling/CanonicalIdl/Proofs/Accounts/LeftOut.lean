import CanonicalIdl.Proofs.Accounts.KeptPlaces
import CanonicalIdl.Proofs.Accounts.OrderedPrefix

/-!
# Accounts that are left out

The two treatments of missing optional accounts agree.  What is sent where they are left out
is what is sent where every account keeps its place, less the accounts at the places of the
keys that are left out.  The treatments differ in what makes a call fail: only where accounts
are left out does the order of the optional keys matter.

Main results:

- Theorem `filterMap_sentFor?_eq_withoutLeftOut`: keys of which none offends lack no address,
  and the accounts sent for them are those at their places, less those that are left out.
- Theorem `offenceBehind?_of_supplied`: where all optional keys are supplied, a key offends for
  want of an address only.
- Theorem `resolve_omitted_eq_withoutLeftOut`: how the two treatments of a call agree.
-/

namespace CanonicalIdl

namespace AccountPlan

variable (supplied : Supplied) (program : String)

/-! ## Keys that are left out -/

/-- The key is optional and nobody supplies it. -/
def isLeftOut (key : AccountKey) : Bool := key.optional && !supplied.contains key.name

/-- The accounts at the places of some keys, without those of the keys that are left out. -/
def withoutLeftOut (keys : List AccountKey) (places : List AccountMeta) : List AccountMeta :=
  ((keys.zip places).filter fun place => !isLeftOut supplied place.1).map Prod.snd

variable {supplied}

theorem isLeftOut_eq_false_iff {key : AccountKey} :
    isLeftOut supplied key = false ↔
      (key.optional = true → supplied.contains key.name = true) := by
  cases hoptional : key.optional <;> simp [isLeftOut, hoptional]

/-- The optional keys that are not supplied are those that are left out. -/
theorem skippedNames_eq_nil_iff {keys : List AccountKey} :
    skippedNames supplied keys = [] ↔ ∀ key ∈ keys, isLeftOut supplied key = false := by
  rw [skippedNames, List.map_eq_nil_iff, List.filter_eq_nil_iff]
  exact forall₂_congr fun key _ => Bool.not_eq_true (isLeftOut supplied key) ▸ Iff.rfl

/-- Where no key is left out, nothing is taken away. -/
theorem withoutLeftOut_map {keys : List AccountKey} {place : AccountKey → AccountMeta}
    (h : ∀ key ∈ keys, isLeftOut supplied key = false) :
    withoutLeftOut supplied keys (keys.map place) = keys.map place := by
  induction keys with
  | nil => rfl
  | cons key rest ih =>
    obtain ⟨hkey, hrest⟩ := List.forall_mem_cons.mp h
    have hother := ih hrest
    rw [withoutLeftOut] at hother ⊢
    rw [List.map_cons, List.zip_cons_cons, List.filter_cons_of_pos (by simp [hkey]),
      List.map_cons, hother]

/-! ## One key -/

/-- A key that does not offend has an address at its place. -/
theorem lacksAddress_of_offence?_eq_none {earlier : List AccountKey} {key : AccountKey}
    (h : offence? supplied earlier key = none) : lacksAddress supplied key = false := by
  cases hoptional : key.optional with
  | true => simp [lacksAddress, hoptional]
  | false =>
    by_cases haddress : supplied.contains key.name ∨ key.known.isSome
    · rcases haddress with hsupplied | hknown
      · simp [lacksAddress, hsupplied]
      · simp [lacksAddress, Option.isNone_eq_false_iff.mpr hknown]
    · simp [offence?, hoptional, haddress] at h

/-- For a key that does not offend the account at its place is sent, or none if the key is left
out. -/
theorem sentFor?_of_offence?_eq_none {earlier : List AccountKey} {key : AccountKey}
    (h : offence? supplied earlier key = none) :
    sentFor? supplied program key =
      if isLeftOut supplied key then none else some (placed supplied program key) := by
  cases hget : supplied.get? key.name with
  | some address => simp [sentFor?, placed, isLeftOut, Supplied.contains, hget]
  | none =>
    cases hoptional : key.optional with
    | true => simp [sentFor?, isLeftOut, Supplied.contains, hget, hoptional]
    | false =>
      cases hknown : key.known with
      | none => simp [offence?, Supplied.contains, hget, hoptional, hknown] at h
      | some known => simp [sentFor?, placed, isLeftOut, hget, hoptional, hknown]

/-- Behind keys of which none is left out, a key offends only if it lacks an address. -/
theorem offence?_of_supplied {earlier : List AccountKey}
    (h : ∀ other ∈ earlier, isLeftOut supplied other = false) (key : AccountKey) :
    offence? supplied earlier key =
      if lacksAddress supplied key then some (.missingRequired key.name) else none := by
  have hskipped := skippedNames_eq_nil_iff.mpr h
  cases hoptional : key.optional with
  | true => simp [offence?, lacksAddress, hoptional, hskipped]
  | false =>
    cases hsupplied : supplied.contains key.name <;> cases hknown : key.known <;>
      simp [offence?, lacksAddress, hoptional, hsupplied, hknown]

/-! ## Runs of keys -/

/-- Keys of which none offends lack no address, and the accounts sent for them are those at
their places, less those that are left out. -/
theorem filterMap_sentFor?_eq_withoutLeftOut {earlier keys : List AccountKey}
    (h : offenceBehind? supplied earlier keys = none) :
    keys.find? (lacksAddress supplied) = none ∧
      keys.filterMap (sentFor? supplied program) =
        withoutLeftOut supplied keys (keys.map (placed supplied program)) := by
  induction keys generalizing earlier with
  | nil => exact ⟨rfl, rfl⟩
  | cons key rest ih =>
    rw [offenceBehind?, Option.or_eq_none_iff] at h
    obtain ⟨hfind, hsent⟩ := ih h.2
    have hlacks := lacksAddress_of_offence?_eq_none h.1
    refine ⟨by rw [List.find?_cons, hlacks, hfind], ?_⟩
    rw [withoutLeftOut] at hsent ⊢
    rw [List.filterMap_cons, sentFor?_of_offence?_eq_none program h.1, List.map_cons,
      List.zip_cons_cons, List.filter_cons, hsent]
    cases isLeftOut supplied key <;> rfl

/-- Where all optional keys are supplied, a key offends for want of an address only. -/
theorem offenceBehind?_of_supplied {earlier keys : List AccountKey}
    (hearlier : ∀ key ∈ earlier, isLeftOut supplied key = false)
    (h : ∀ key ∈ keys, isLeftOut supplied key = false) :
    offenceBehind? supplied earlier keys =
      (keys.find? (lacksAddress supplied)).map fun key => .missingRequired key.name := by
  induction keys generalizing earlier with
  | nil => rfl
  | cons key rest ih =>
    obtain ⟨hkey, hrest⟩ := List.forall_mem_cons.mp h
    have hbefore : ∀ other ∈ earlier ++ [key], isLeftOut supplied other = false :=
      List.forall_mem_append.mpr ⟨hearlier, List.forall_mem_singleton.mpr hkey⟩
    rw [offenceBehind?, offence?_of_supplied hearlier key, ih hbefore hrest, List.find?_cons]
    cases lacksAddress supplied key <;> rfl

/-! ## Calls -/

variable (supplied)

/-- The remaining accounts that a call sends: those of the caller, where the instruction takes
them and declares accounts at all. -/
def remainingBehind (remaining : Bool) (keys : List AccountKey) : List AccountMeta :=
  if remaining = true ∧ keys ≠ [] then supplied.remaining else []

/-- A call sends what the steps for the keys send, and the remaining accounts behind that. -/
theorem resolve_ofKeys (missing : MissingOptionals) (remaining : Bool) (keys : List AccountKey) :
    (ofKeys missing remaining keys).resolve supplied program =
      followedBy (resolveSteps missing supplied program (stepsFor missing keys))
        (.ok (remainingBehind supplied remaining keys)) := by
  have htail : resolveSteps missing supplied program
      (if remaining && !keys.isEmpty then [.extendRemaining] else []) =
      .ok (remainingBehind supplied remaining keys) := by
    cases remaining <;> cases keys <;>
      simp [remainingBehind, resolveSteps, resolveStep, bind, Except.bind, pure, Except.pure]
  rw [resolve, ofKeys, resolveSteps_append, htail]

/-- The single block of slots where every account keeps its place. -/
theorem resolveSteps_replaced (keys : List AccountKey) :
    resolveSteps .replaced supplied program (stepsFor .replaced keys) =
      match keys.find? (lacksAddress supplied) with
      | some key => .error (.missingRequired key.name)
      | none => .ok (keys.map (placed supplied program)) := by
  rw [stepsFor, resolveSteps_cons, resolveStep, resolveFixed_replaced]
  cases keys.find? (lacksAddress supplied) with
  | some key => rfl
  | none => exact congrArg Except.ok (List.append_nil _)

/-- The two treatments of missing optional accounts agree.  Where a call that leaves them out
succeeds, so does the call that keeps their places, and it sends the same accounts but for those
at the places of the optional keys that are not supplied; the accounts behind the places are the
same.  Where every optional key is supplied, both calls have the same result. -/
theorem resolve_omitted_eq_withoutLeftOut (remaining : Bool) (keys : List AccountKey) :
    (∀ accounts, (ofKeys .omitted remaining keys).resolve supplied program = .ok accounts →
      ∃ places behind,
        (ofKeys .replaced remaining keys).resolve supplied program = .ok (places ++ behind) ∧
          places.length = keys.length ∧
          accounts = withoutLeftOut supplied keys places ++ behind) ∧
    ((∀ key ∈ keys, key.optional = true → supplied.contains key.name = true) →
      (ofKeys .omitted remaining keys).resolve supplied program =
        (ofKeys .replaced remaining keys).resolve supplied program) := by
  have homitted : resolveSteps .omitted supplied program (stepsFor .omitted keys) =
      ruleBehind supplied program [] keys := resolveSteps_omittingSteps supplied program keys
  rw [resolve_ofKeys, resolve_ofKeys, homitted, resolveSteps_replaced, ruleBehind]
  constructor
  · intro accounts haccounts
    cases hoffence : offenceBehind? supplied [] keys with
    | some error =>
      rw [hoffence] at haccounts
      cases haccounts
    | none =>
      obtain ⟨hfind, hsent⟩ := filterMap_sentFor?_eq_withoutLeftOut program hoffence
      rw [hoffence, hsent] at haccounts
      rw [hfind]
      refine ⟨keys.map (placed supplied program), remainingBehind supplied remaining keys, rfl,
        List.length_map _, ?_⟩
      exact (Except.ok.inj haccounts).symm
  · intro hsupplied
    have hkept : ∀ key ∈ keys, isLeftOut supplied key = false := fun key hkey =>
      isLeftOut_eq_false_iff.mpr (hsupplied key hkey)
    have hoffence := offenceBehind?_of_supplied (List.forall_mem_nil _) hkept
    rw [hoffence]
    cases hfind : keys.find? (lacksAddress supplied) with
    | some key => rfl
    | none =>
      rw [hfind] at hoffence
      rw [Option.map_none, (filterMap_sentFor?_eq_withoutLeftOut program hoffence).2,
        withoutLeftOut_map hkept]

/-- A payer, two optional accounts and a program with a known address. -/
def transferKeys : List AccountKey :=
  [⟨"payer", true, true, false, [], none⟩, ⟨"vault", true, false, true, [], none⟩,
    ⟨"referrer", true, false, true, [], none⟩,
    ⟨"systemProgram", false, false, false, [], some (.fixed "1111")⟩]

/-- The payer, the first optional account and a remaining account. -/
def transferSupplied : Supplied :=
  ⟨[("payer", "Payer"), ("vault", "Vault")], [⟨"Witness", false, true⟩]⟩

/-- A transfer without a referrer sends all places but that of the referrer, and a transfer with
one sends the same accounts either way. -/
theorem resolve_omitted_eq_withoutLeftOut_transfer :
    (ofKeys .omitted true transferKeys).resolve transferSupplied "Program" =
        .ok [⟨"Payer", true, true⟩, ⟨"Vault", true, false⟩, ⟨"1111", false, false⟩,
          ⟨"Witness", false, true⟩] ∧
      (∃ places behind,
        (ofKeys .replaced true transferKeys).resolve transferSupplied "Program" =
            .ok (places ++ behind) ∧
          places.length = transferKeys.length ∧
          [⟨"Payer", true, true⟩, ⟨"Vault", true, false⟩, ⟨"1111", false, false⟩,
            ⟨"Witness", false, true⟩] =
            withoutLeftOut transferSupplied transferKeys places ++ behind) ∧
      (ofKeys .omitted true transferKeys).resolve (transferSupplied.insert "referrer" "Friend")
          "Program" =
        (ofKeys .replaced true transferKeys).resolve (transferSupplied.insert "referrer" "Friend")
          "Program" :=
  ⟨rfl, (resolve_omitted_eq_withoutLeftOut transferSupplied "Program" true transferKeys).1 _ rfl,
    (resolve_omitted_eq_withoutLeftOut (transferSupplied.insert "referrer" "Friend") "Program" true
      transferKeys).2 (by decide)⟩

end AccountPlan

end CanonicalIdl
