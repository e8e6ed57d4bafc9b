import CanonicalIdl.Accounts.Plan

/-!
# The ordered prefix of optional accounts

Where missing optional accounts are left out, the program tells the accounts apart by
their number, so those that are supplied must be a prefix of the optional ones.  The rule
is about the account keys in order and knows nothing of plans: a key offends by what
stands in front of it, and the first key that offends decides the call.

Main results:

- Theorem `firstOffence?_eq_some_iff`: the scan finds the first key that offends.
- Theorem `resolveSteps_laterSteps`: the steps behind some keys do what the rule says, the
  names of the optional keys so far being what a plan keeps of those in front.
- Theorem `resolve_omitted`: a plan that leaves accounts out is exactly the rule.
-/

namespace CanonicalIdl

namespace AccountPlan

variable (supplied : Supplied) (program : String)

/-! ## The rule -/

/-- The names of the optional keys that are not supplied. -/
def skippedNames (keys : List AccountKey) : List String :=
  (keys.filter fun key => key.optional && !supplied.contains key.name).map (·.name)

/-- How a key offends behind the keys in front of it, if it does. -/
def offence? (earlier : List AccountKey) (key : AccountKey) : Option Error :=
  if key.optional then
    if supplied.contains key.name ∧ skippedNames supplied earlier ≠ [] then
      some (.outOfOrder key.name (skippedNames supplied earlier))
    else none
  else if supplied.contains key.name ∨ key.known.isSome then none
  else some (.missingRequired key.name)

/-- The offence of the first of some keys that offends, where other keys stand in front. -/
def offenceBehind? (earlier : List AccountKey) : List AccountKey → Option Error
  | [] => none
  | key :: rest => (offence? supplied earlier key).or (offenceBehind? (earlier ++ [key]) rest)

/-- The offence of the first key that offends. -/
def firstOffence? (keys : List AccountKey) : Option Error := offenceBehind? supplied [] keys

/-- The account that is sent for a key: the supplied address, or the known one of a required
key. -/
def sentFor? (key : AccountKey) : Option AccountMeta :=
  let known := if key.optional then none else key.known.map (·.address program)
  ((supplied.get? key.name).or known).map fun address => ⟨address, key.writable, key.signer⟩

/-! ## The first offence -/

/-- No key offends if none does behind those in front of it. -/
theorem offenceBehind?_eq_none_iff {earlier keys : List AccountKey} :
    offenceBehind? supplied earlier keys = none ↔
      ∀ before key after, keys = before ++ key :: after →
        offence? supplied (earlier ++ before) key = none := by
  induction keys generalizing earlier with
  | nil => simp [offenceBehind?]
  | cons first rest ih =>
    rw [offenceBehind?, Option.or_eq_none_iff, ih]
    constructor
    · rintro ⟨hfirst, hrest⟩ before key after hsplit
      cases before with
      | nil =>
        rw [List.nil_append, List.cons.injEq] at hsplit
        rw [List.append_nil, ← hsplit.1]
        exact hfirst
      | cons head before =>
        rw [List.cons_append, List.cons.injEq] at hsplit
        obtain ⟨rfl, hsplit⟩ := hsplit
        have hkey := hrest before key after hsplit
        rwa [List.append_assoc] at hkey
    · intro h
      constructor
      · simpa using h [] first rest rfl
      · intro before key after hsplit
        rw [List.append_assoc]
        exact h (first :: before) key after (by rw [hsplit, List.cons_append])

theorem offenceBehind?_eq_some_iff {earlier keys : List AccountKey} {error : Error} :
    offenceBehind? supplied earlier keys = some error ↔
      ∃ before key after, keys = before ++ key :: after ∧
        offenceBehind? supplied earlier before = none ∧
        offence? supplied (earlier ++ before) key = some error := by
  induction keys generalizing earlier with
  | nil => simp [offenceBehind?]
  | cons first rest ih =>
    rw [offenceBehind?]
    constructor
    · intro h
      cases hfirst : offence? supplied earlier first with
      | some found =>
        rw [hfirst, Option.some_or] at h
        refine ⟨[], first, rest, rfl, rfl, ?_⟩
        rw [List.append_nil, hfirst, h]
      | none =>
        rw [hfirst, Option.none_or, ih] at h
        obtain ⟨before, key, after, rfl, hbefore, hkey⟩ := h
        refine ⟨first :: before, key, after, rfl, ?_, ?_⟩
        · rw [offenceBehind?, hfirst, Option.none_or, hbefore]
        · rwa [List.append_assoc] at hkey
    · rintro ⟨before, key, after, hsplit, hbefore, hkey⟩
      cases before with
      | nil =>
        rw [List.nil_append, List.cons.injEq] at hsplit
        rw [List.append_nil, ← hsplit.1] at hkey
        rw [hkey, Option.some_or]
      | cons head before =>
        rw [List.cons_append, List.cons.injEq] at hsplit
        obtain ⟨rfl, rfl⟩ := hsplit
        rw [offenceBehind?, Option.or_eq_none_iff] at hbefore
        rw [hbefore.1, Option.none_or, ih]
        refine ⟨before, key, after, rfl, hbefore.2, ?_⟩
        rwa [List.append_assoc]

/-- The scan finds the first key that offends: no key in front of it does. -/
theorem firstOffence?_eq_some_iff {keys : List AccountKey} {error : Error} :
    firstOffence? supplied keys = some error ↔
      ∃ before key after, keys = before ++ key :: after ∧
        firstOffence? supplied before = none ∧ offence? supplied before key = some error :=
  offenceBehind?_eq_some_iff supplied

/-- The scan finds nothing where no key offends. -/
theorem firstOffence?_eq_none_iff {keys : List AccountKey} :
    firstOffence? supplied keys = none ↔
      ∀ before key after, keys = before ++ key :: after → offence? supplied before key = none :=
  offenceBehind?_eq_none_iff supplied

/-! ## Parts of a call -/

/-- The accounts of one part of a call and behind them those of the next.  The first part that
fails decides. -/
def followedBy (front back : Except Error (List AccountMeta)) : Except Error (List AccountMeta) :=
  front.bind fun first => back.map (first ++ ·)

@[simp] theorem error_followedBy (error : Error) (back : Except Error (List AccountMeta)) :
    followedBy (.error error) back = .error error := rfl

@[simp] theorem ok_followedBy (first second : List AccountMeta) :
    followedBy (.ok first) (.ok second) = .ok (first ++ second) := rfl

@[simp] theorem nil_followedBy (back : Except Error (List AccountMeta)) :
    followedBy (.ok []) back = back := by
  cases back <;> rfl

/-- The results of three parts may be put together from the front or from the back. -/
theorem followedBy_assoc (front middle back : Except Error (List AccountMeta)) :
    followedBy (followedBy front middle) back = followedBy front (followedBy middle back) := by
  cases front with
  | error error => rfl
  | ok first =>
    cases middle with
    | error error => rfl
    | ok second =>
      cases back with
      | error error => rfl
      | ok third => simp

/-! ## What the rule says about a call -/

/-- The accounts that the rule sends for some keys, where other keys stand in front. -/
def ruleBehind (earlier keys : List AccountKey) : Except Error (List AccountMeta) :=
  match offenceBehind? supplied earlier keys with
  | some error => .error error
  | none => .ok (keys.filterMap (sentFor? supplied program))

@[simp] theorem ruleBehind_nil (earlier : List AccountKey) :
    ruleBehind supplied program earlier [] = .ok [] := rfl

theorem ruleBehind_of_offence {earlier : List AccountKey} {key : AccountKey} {error : Error}
    (h : offence? supplied earlier key = some error) (rest : List AccountKey) :
    ruleBehind supplied program earlier (key :: rest) = .error error := by
  rw [ruleBehind, offenceBehind?, h, Option.some_or]

/-- A key that does not offend is sent what stands for it. -/
theorem ruleBehind_of_none {earlier : List AccountKey} {key : AccountKey}
    (h : offence? supplied earlier key = none) (rest : List AccountKey) :
    ruleBehind supplied program earlier (key :: rest) =
      followedBy (.ok (sentFor? supplied program key).toList)
        (ruleBehind supplied program (earlier ++ [key]) rest) := by
  rw [ruleBehind, ruleBehind, offenceBehind?, h, Option.none_or, List.filterMap_cons]
  cases offenceBehind? supplied (earlier ++ [key]) rest with
  | some error => rfl
  | none => cases sentFor? supplied program key <;> rfl

/-- The rule goes through keys in order: what stands behind is judged with what stands in
front. -/
theorem ruleBehind_append (earlier front back : List AccountKey) :
    ruleBehind supplied program earlier (front ++ back) =
      followedBy (ruleBehind supplied program earlier front)
        (ruleBehind supplied program (earlier ++ front) back) := by
  induction front generalizing earlier with
  | nil => rw [List.nil_append, List.append_nil, ruleBehind_nil, nil_followedBy]
  | cons key rest ih =>
    rw [List.cons_append]
    cases h : offence? supplied earlier key with
    | some error =>
      rw [ruleBehind_of_offence supplied program h, ruleBehind_of_offence supplied program h,
        error_followedBy]
    | none =>
      rw [ruleBehind_of_none supplied program h, ruleBehind_of_none supplied program h, ih,
        followedBy_assoc, List.append_assoc, List.singleton_append]

/-- One key in front of others. -/
theorem ruleBehind_cons (earlier : List AccountKey) (key : AccountKey) (rest : List AccountKey) :
    ruleBehind supplied program earlier (key :: rest) =
      followedBy (ruleBehind supplied program earlier [key])
        (ruleBehind supplied program (earlier ++ [key]) rest) :=
  ruleBehind_append supplied program earlier [key] rest

/-! ## One step of a plan -/

/-- The names of the optional keys, which is what a plan keeps of the keys so far. -/
def optionalNames (keys : List AccountKey) : List String :=
  (keys.filter (·.optional)).map (·.name)

theorem optionalNames_append_required {earlier : List AccountKey} {key : AccountKey}
    (h : key.optional = false) : optionalNames (earlier ++ [key]) = optionalNames earlier := by
  simp [optionalNames, h]

theorem optionalNames_append_optional {earlier : List AccountKey} {key : AccountKey}
    (h : key.optional = true) :
    optionalNames (earlier ++ [key]) = optionalNames earlier ++ [key.name] := by
  simp [optionalNames, h]

/-- What a plan keeps is enough to tell the optional keys that are not supplied. -/
theorem filter_optionalNames (keys : List AccountKey) :
    (optionalNames keys).filter (!supplied.contains ·) = skippedNames supplied keys := by
  rw [optionalNames, skippedNames, List.filter_map, List.filter_filter]
  congr 2
  funext key
  exact Bool.and_comm _ _

/-- A required account is sent as the rule says, whatever stands in front of it. -/
theorem resolveRequired_eq_rule {key : AccountKey} (h : key.optional = false)
    (earlier : List AccountKey) :
    (resolveRequired supplied program (.ofKey key)).map ([·]) =
      ruleBehind supplied program earlier [key] := by
  cases hget : supplied.get? key.name with
  | some address =>
    have hnone : offence? supplied earlier key = none := by
      simp [offence?, h, Supplied.contains, hget]
    rw [ruleBehind_of_none supplied program hnone]
    simp [resolveRequired, AccountSlot.ofKey, sentFor?, sent, hget, h, Except.map]
  | none =>
    cases hknown : key.known with
    | some known =>
      have hnone : offence? supplied earlier key = none := by simp [offence?, h, hknown]
      rw [ruleBehind_of_none supplied program hnone]
      simp [resolveRequired, AccountSlot.ofKey, sentFor?, sent, hget, h, hknown, Except.map]
    | none =>
      have hsome : offence? supplied earlier key = some (.missingRequired key.name) := by
        simp [offence?, h, hknown, Supplied.contains, hget]
      rw [ruleBehind_of_offence supplied program hsome]
      simp [resolveRequired, AccountSlot.ofKey, hget, hknown, Except.map]

/-- An optional account is sent as the rule says, where the plan keeps the names of the
optional keys in front of it. -/
theorem resolveStep_pushIfSupplied {key : AccountKey} (h : key.optional = true)
    (earlier : List AccountKey) :
    resolveStep .omitted supplied program (.pushIfSupplied (.ofKey key) (optionalNames earlier)) =
      ruleBehind supplied program earlier [key] := by
  rw [resolveStep, filter_optionalNames]
  cases hget : supplied.get? key.name with
  | none =>
    have hnone : offence? supplied earlier key = none := by
      simp [offence?, h, Supplied.contains, hget]
    rw [ruleBehind_of_none supplied program hnone]
    simp [AccountSlot.ofKey, sentFor?, hget, h]
  | some address =>
    cases hskipped : skippedNames supplied earlier with
    | nil =>
      have hnone : offence? supplied earlier key = none := by simp [offence?, h, hskipped]
      rw [ruleBehind_of_none supplied program hnone]
      simp [AccountSlot.ofKey, sentFor?, sent, hget, h]
    | cons name names =>
      have hsome : offence? supplied earlier key = some (.outOfOrder key.name (name :: names)) := by
        simp [offence?, h, Supplied.contains, hget, hskipped]
      rw [ruleBehind_of_offence supplied program hsome]
      simp [AccountSlot.ofKey, hget]

/-! ## Runs of steps -/

theorem resolveSteps_cons (missing : MissingOptionals) (step : PlanStep)
    (rest : List PlanStep) :
    resolveSteps missing supplied program (step :: rest) =
      followedBy (resolveStep missing supplied program step)
        (resolveSteps missing supplied program rest) := by
  rw [resolveSteps]
  cases resolveStep missing supplied program step with
  | error error => rfl
  | ok first => cases resolveSteps missing supplied program rest <;> rfl

/-- The steps of a plan may be carried out in two parts. -/
theorem resolveSteps_append (missing : MissingOptionals) (front back : List PlanStep) :
    resolveSteps missing supplied program (front ++ back) =
      followedBy (resolveSteps missing supplied program front)
        (resolveSteps missing supplied program back) := by
  induction front with
  | nil => exact (nil_followedBy _).symm
  | cons step rest ih =>
    rw [List.cons_append, resolveSteps_cons, resolveSteps_cons, ih, followedBy_assoc]

/-- The slots of required keys are sent as the rule says. -/
theorem resolveFixed_eq_rule {keys : List AccountKey} (h : ∀ key ∈ keys, key.optional = false)
    (earlier : List AccountKey) :
    resolveFixed .omitted supplied program (keys.map .ofKey) =
      ruleBehind supplied program earlier keys := by
  induction keys generalizing earlier with
  | nil => rfl
  | cons key rest ih =>
    have hkey := resolveRequired_eq_rule supplied program (h key List.mem_cons_self) earlier
    have hrest := ih (fun other hother => h other (List.mem_cons_of_mem key hother))
      (earlier ++ [key])
    have hslot : resolveSlot .omitted supplied program (.ofKey key) =
        resolveRequired supplied program (.ofKey key) := by simp [resolveSlot]
    rw [List.map_cons, resolveFixed, hrest, hslot, ruleBehind_cons, ← hkey]
    cases resolveRequired supplied program (.ofKey key) with
    | error error => rfl
    | ok first => cases ruleBehind supplied program (earlier ++ [key]) rest <;> rfl

/-- The steps for some keys do what the rule says, where the plan keeps the names of the
optional keys in front of them. -/
theorem resolveSteps_laterSteps (earlier keys : List AccountKey) :
    resolveSteps .omitted supplied program (laterSteps (optionalNames earlier) keys) =
      ruleBehind supplied program earlier keys := by
  induction keys generalizing earlier with
  | nil => rfl
  | cons key rest ih =>
    rw [laterSteps]
    split
    · next hoptional =>
      rw [← optionalNames_append_optional hoptional, resolveSteps_cons, ih,
        resolveStep_pushIfSupplied supplied program hoptional, ← ruleBehind_cons]
    · next hoptional =>
      have hrequired : key.optional = false := by simpa using hoptional
      rw [← optionalNames_append_required hrequired, resolveSteps_cons, ih,
        resolveStep, resolveRequired_eq_rule supplied program hrequired earlier,
        ← ruleBehind_cons]

/-- The fixed slots and the steps behind them do what the rule says of all keys. -/
theorem resolveSteps_omittingSteps (keys : List AccountKey) :
    resolveSteps .omitted supplied program (omittingSteps keys) =
      ruleBehind supplied program [] keys := by
  have hfront : ∀ key ∈ keys.takeWhile (!·.optional), key.optional = false := by
    intro key hkey
    simpa using List.all_eq_true.mp List.all_takeWhile key hkey
  have hnames : optionalNames (keys.takeWhile (!·.optional)) = [] := by
    rw [optionalNames, List.map_eq_nil_iff, List.filter_eq_nil_iff]
    intro key hkey
    simp [hfront key hkey]
  have hback := resolveSteps_laterSteps supplied program (keys.takeWhile (!·.optional))
    (keys.dropWhile (!·.optional))
  rw [hnames] at hback
  rw [omittingSteps, resolveSteps_cons, resolveStep, hback,
    resolveFixed_eq_rule supplied program hfront []]
  conv => rhs; rw [← List.takeWhile_append_dropWhile (p := (!·.optional)) (l := keys)]
  rw [ruleBehind_append, List.nil_append]

/-- A plan that leaves accounts out is exactly the rule: the first key that offends makes the
error, and where none does the accounts of the keys are sent in order and behind them, where
the instruction takes them and declares accounts at all, the caller's remaining accounts. -/
theorem resolve_omitted (remaining : Bool) (keys : List AccountKey) :
    (ofKeys .omitted remaining keys).resolve supplied program =
      match firstOffence? supplied keys with
      | some error => .error error
      | none => .ok (keys.filterMap (sentFor? supplied program) ++
          if remaining = true ∧ keys ≠ [] then supplied.remaining else []) := by
  have htail : resolveSteps .omitted supplied program
      (if remaining && !keys.isEmpty then [.extendRemaining] else []) =
      .ok (if remaining = true ∧ keys ≠ [] then supplied.remaining else []) := by
    cases remaining <;> cases keys <;>
      simp [resolveSteps, resolveStep, bind, Except.bind, pure, Except.pure]
  rw [resolve, ofKeys, stepsFor, resolveSteps_append, resolveSteps_omittingSteps, htail,
    ruleBehind, firstOffence?]
  cases offenceBehind? supplied [] keys <;> rfl

end AccountPlan

end CanonicalIdl
