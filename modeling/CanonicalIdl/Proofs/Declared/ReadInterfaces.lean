import CanonicalIdl.Proofs.Declared.ReadParts

/-!
# Interfaces that were read

An interface that was read from a document in which no object has a key twice can be written
and read back: whatever a record keeps uninterpreted has keys that the record does not know.

Main results:

- Theorem `isReadable_of_readInterface`: an interface that was read is readable.
-/

namespace CanonicalIdl

open Json Document

/-! ## Readable records -/

/-- A definition that can be read back, of which all that it keeps has a property. -/
structure TypeDefinition.Keeps {τ : Type} (definition : TypeDefinition τ) (P : Document → Prop) :
    Prop where
  body : definition.body.IsReadable
  extra : definition.extra.Keeps P Declared.definitionKeys

mutual

/-- What the slots of an account item keep uninterpreted. -/
def AccountItem.extras : AccountItem → List Extra
  | .reference slot => [slot.extra]
  | .collection _ members => AccountItem.extrasOf members

/-- What the slots of some account items keep uninterpreted. -/
def AccountItem.extrasOf : List AccountItem → List Extra
  | [] => []
  | item :: rest => AccountItem.extras item ++ AccountItem.extrasOf rest

end

mutual

/-- What an item keeps is what its references keep. -/
theorem AccountItem.extras_eq_map : (item : AccountItem) → item.extras = item.slots.map (·.extra)
  | .reference _ => rfl
  | .collection _ members => AccountItem.extrasOf_eq_map members

theorem AccountItem.extrasOf_eq_map : (items : List AccountItem) →
    AccountItem.extrasOf items = (AccountItem.slotsOfItems items).map (·.extra)
  | [] => rfl
  | item :: rest => by
    rw [AccountItem.extrasOf, AccountItem.slotsOfItems, List.map_append,
      AccountItem.extras_eq_map item, AccountItem.extrasOf_eq_map rest]

end

/-- What items keep is what each of them keeps. -/
theorem AccountItem.forall_mem_extrasOf {Q : Extra → Prop} {items : List AccountItem} :
    (∀ extra ∈ AccountItem.extrasOf items, Q extra) ↔
      ∀ item ∈ items, ∀ extra ∈ item.extras, Q extra := by
  induction items with
  | nil => simp [extrasOf]
  | cons item rest ih => rw [extrasOf, List.forall_mem_append, List.forall_mem_cons, ih]

mutual

/-- What a readable item keeps has the property. -/
theorem AccountItem.IsReadable.holds {P : Document → Prop} : (item : AccountItem) →
    item.IsReadable P → ∀ extra ∈ item.extras, extra.Holds P
  | .reference _, h => List.forall_mem_singleton.mpr h.1.holds
  | .collection _ members, h => AccountItem.AreReadable.holds members h

theorem AccountItem.AreReadable.holds {P : Document → Prop} : (items : List AccountItem) →
    AccountItem.AreReadable P items → ∀ extra ∈ AccountItem.extrasOf items, extra.Holds P
  | [], _ => by simp [AccountItem.extrasOf]
  | item :: rest, h => List.forall_mem_append.mpr
    ⟨AccountItem.IsReadable.holds item h.1, AccountItem.AreReadable.holds rest h.2⟩

end

namespace Declared

/-- The keys that an instruction knows. -/
def instructionKeys : List String :=
  ["name", "docs", "accounts", "args", "discriminator", "legacyOptionalAccountsStrategy"]

/-- The keys that an account knows. -/
def accountKeys : List String := ["name", "discriminator", "docs", "type"]

/-- The keys that an interface knows. -/
def interfaceKeys : List String :=
  ["address", "version", "name", "instructions", "accounts", "types", "errors", "metadata"]

/-- An instruction that can be read back, of which all that it keeps has a property. -/
structure Instruction.IsReadable (P : Document → Prop) (instruction : Instruction) : Prop where
  accounts : ∀ item ∈ instruction.accounts, item.IsReadable P
  extra : instruction.extra.Keeps P instructionKeys

/-- An account that can be read back, of which all that it keeps has a property. -/
structure Account.Keeps (account : Account) (P : Document → Prop) : Prop where
  body : ∀ body ∈ account.body, body.IsReadable
  extra : account.extra.Keeps P accountKeys

/-- An instruction that can be read, if perhaps as another one: a slot of it may be taken for a
collection. -/
structure Instruction.IsAcceptable (P : Document → Prop) (instruction : Instruction) : Prop where
  slots : ∀ extra ∈ AccountItem.extrasOf instruction.accounts, extra.Keeps P slotKeys
  extra : instruction.extra.Keeps P instructionKeys

/-- An interface of which the instructions have a property and all else can be read back. -/
structure Interface.HasParts (P : Document → Prop) (Q : Instruction → Prop)
    (interface : Interface) : Prop where
  instructions : ∀ instruction ∈ interface.instructions, Q instruction
  accounts : ∀ account ∈ interface.accounts, account.Keeps P
  types : ∀ definition ∈ interface.types, definition.Keeps P
  metadata : ∀ metadata ∈ interface.metadata, metadata.extra.Keeps P metadataKeys
  extra : interface.extra.Keeps P interfaceKeys

/-- An interface that can be read, if perhaps as another one. -/
abbrev Interface.IsAcceptable (P : Document → Prop) : Interface → Prop :=
  Interface.HasParts P (Instruction.IsAcceptable P)

/-- An interface that can be read back, of which all that it keeps has a property. -/
abbrev Interface.IsReadable (P : Document → Prop) : Interface → Prop :=
  Interface.HasParts P (Instruction.IsReadable P)

/-- Everything that an instruction keeps uninterpreted. -/
def Instruction.extras (instruction : Instruction) : List Extra :=
  instruction.extra :: AccountItem.extrasOf instruction.accounts

/-- Everything that an interface keeps uninterpreted. -/
def Interface.extras (interface : Interface) : List Extra :=
  interface.extra :: (interface.metadata.toList.map (·.extra) ++
    interface.instructions.flatMap Instruction.extras ++ interface.accounts.map (·.extra) ++
    interface.types.map (·.extra))

/-- What holds of all that the parts of an interface keep holds of all that it keeps. -/
theorem Interface.HasParts.holds {P : Document → Prop} {Q : Instruction → Prop}
    {interface : Interface} (h : interface.HasParts P Q)
    (hQ : ∀ instruction, Q instruction → ∀ extra ∈ instruction.extras, extra.Holds P) :
    ∀ extra ∈ interface.extras, extra.Holds P := by
  simp only [Interface.extras, List.forall_mem_cons, List.forall_mem_append, List.forall_mem_map,
    List.mem_flatMap, Option.mem_toList]
  refine ⟨h.extra.holds, ⟨⟨fun metadata hmem => (h.metadata metadata hmem).holds, ?_⟩,
    fun account hmem => (h.accounts account hmem).extra.holds⟩,
    fun definition hmem => (h.types definition hmem).extra.holds⟩
  rintro extra ⟨instruction, hmem, hextra⟩
  exact hQ instruction (h.instructions instruction hmem) extra hextra

theorem Interface.IsReadable.holds {P : Document → Prop} {interface : Interface}
    (h : interface.IsReadable P) : ∀ extra ∈ interface.extras, extra.Holds P :=
  HasParts.holds h fun instruction hinstruction => List.forall_mem_cons.mpr
    ⟨hinstruction.extra.holds, AccountItem.AreReadable.holds instruction.accounts
      (AccountItem.areReadable_iff.mpr hinstruction.accounts)⟩

theorem Interface.IsAcceptable.holds {P : Document → Prop} {interface : Interface}
    (h : interface.IsAcceptable P) : ∀ extra ∈ interface.extras, extra.Holds P :=
  HasParts.holds h fun _ hinstruction => List.forall_mem_cons.mpr
    ⟨hinstruction.extra.holds, fun extra hextra => (hinstruction.slots extra hextra).holds⟩

/-- A member with an unknown key is kept with an instruction. -/
theorem PartialInstruction.step_kept (p : PartialInstruction) (key : String) (value : Document)
    (h : key ∉ instructionKeys) :
    p.step key value = value.read.map fun read => { p with extra := p.extra ++ [(key, read)] } := by
  simp only [instructionKeys, List.mem_cons, List.not_mem_nil, or_false, not_or] at h
  simp [step, h]

/-- So it is with an account. -/
theorem PartialAccount.step_kept (p : PartialAccount) (key : String) (value : Document)
    (h : key ∉ accountKeys) :
    p.step key value = value.read.map fun read => { p with extra := p.extra ++ [(key, read)] } := by
  simp only [accountKeys, List.mem_cons, List.not_mem_nil, or_false, not_or] at h
  simp [step, h]

/-- So it is with an interface. -/
theorem PartialInterface.step_kept (p : PartialInterface) (key : String) (value : Document)
    (h : key ∉ interfaceKeys) :
    p.step key value = value.read.map fun read => { p with extra := p.extra ++ [(key, read)] } := by
  simp only [interfaceKeys, List.mem_cons, List.not_mem_nil, or_false, not_or] at h
  simp [step, h]

/-! ## Members that are kept while a record is read -/

/-- Members that a record may keep. -/
def AreKept (P : Document → Prop) (known : List String) (members : List (String × Json)) : Prop :=
  ∀ member ∈ members, member.1 ∉ known ∧ (ofJson member.2).Everywhere P

variable {d : Document} {P R : Document → Prop}

theorem areKept_nil {known : List String} : AreKept P known [] := by simp [AreKept]

/-- A member of an unknown key is kept behind the others. -/
theorem AreKept.append {known : List String} {members : List (String × Json)}
    (h : AreKept P known members) {key : String} {value : Document} {read : Json}
    (hkey : key ∉ known) (hparts : value.Everywhere P) (hread : value.read = .ok read) :
    AreKept P known (members ++ [(key, read)]) :=
  List.forall_mem_append.mpr ⟨h, List.forall_mem_singleton.mpr ⟨hkey, hparts.of_read hread⟩⟩

/-- What a record keeps while its members are read: a member that it knows leaves what is kept as
it is and keeps a property of the other parts, and any other member is kept behind the rest. -/
theorem areKept_of_members {σ : Type} {step : σ → String → Document → Reading σ}
    {known : List String} {I : σ → Prop} {start state : σ}
    {ms : List (Except Malformation String × Document)} {ending : Ending}
    (extra : σ → List (String × Json)) (add : σ → List (String × Json) → σ)
    (hkept : ∀ p key value, key ∉ known →
      step p key value = value.read.map fun read => add p [(key, read)])
    (hadd : ∀ p members, I p → I (add p members) ∧ extra (add p members) = extra p ++ members)
    (hstart : I start) (hnil : extra start = [])
    (hparts : (Document.object ms ending).Everywhere P)
    (h : members step start ms ending = .ok state)
    (hknown : ∀ key ∈ known, ∀ value before after, (.ok key, value) ∈ ms → I before →
      step before key value = .ok after → I after ∧ extra after = extra before) :
    I state ∧ AreKept P known (extra state) := by
  refine foldMembers_induct (P := fun p => I p ∧ AreKept P known (extra p))
    ⟨hstart, hnil ▸ areKept_nil⟩ ?_ (foldMembers_of_members h)
  rintro key value before after hmember ⟨hbefore, hextra⟩ hstep
  by_cases hkey : key ∈ known
  · obtain ⟨hafter, hsame⟩ := hknown key hkey value before after hmember hbefore hstep
    exact ⟨hafter, hsame ▸ hextra⟩
  · rw [hkept _ _ _ hkey] at hstep
    obtain ⟨read, hread, rfl⟩ := map_eq_ok.mp hstep
    obtain ⟨hafter, hmembers⟩ := hadd before [(key, read)] hbefore
    exact ⟨hafter, hmembers ▸ hextra.append hkey (hparts.member hmember) hread⟩

/-! ## Records -/

/-- A list of which every item is read. -/
theorem forall_of_list {α : Type} {Q : α → Prop} {read : Document → Reading α} {given : List α}
    (hread : ∀ part, part.Everywhere P → ∀ a, read part = .ok a → Q a)
    (hparts : d.Everywhere P) (h : d.list read = .ok given) :
    ∀ found ∈ some given, ∀ a ∈ found, Q a := by
  rintro found hfound a ha
  obtain rfl := Option.some.inj hfound
  obtain ⟨part, hpart, ha⟩ := mem_of_list h hparts ha
  exact hread part hpart a ha

/-- What can be left out of a record is none of its parts where it is left out. -/
theorem forall_mem_getD {α β : Type} {P : α → Prop} [Membership α β] {given : Option β}
    {default : β} (hdefault : ∀ a ∈ default, P a) (h : ∀ found ∈ given, ∀ a ∈ found, P a) :
    ∀ a ∈ given.getD default, P a := by
  cases given with
  | none => exact hdefault
  | some found => exact h found rfl

/-- A definition keeps what holds all through the document that it is read from. -/
theorem keeps_of_readDefinition (hP : OfLeaves P) {definition : Definition}
    (hparts : d.Everywhere P) (h : readDefinition d = .ok definition) : definition.Keeps P := by
  unfold readDefinition at h
  split at h
  · next ms ending =>
    obtain ⟨p, hp, h⟩ := bind_eq_ok.mp h
    obtain ⟨name, -, h⟩ := bind_eq_ok.mp h
    obtain ⟨body, hbody, h⟩ := bind_eq_ok.mp h
    obtain ⟨hbodies, hextra⟩ := areKept_of_members
      (I := fun p : PartialDefinition => ∀ body ∈ p.body, body.IsReadable)
      PartialDefinition.extra (fun p members => { p with extra := p.extra ++ members })
      PartialDefinition.step_kept (fun _ _ hbodies => ⟨hbodies, rfl⟩) (by simp) rfl hparts hp
      fun key hkey value before after hmember hbodies hstep => by
        simp only [definitionKeys, List.mem_cons, List.not_mem_nil, or_false] at hkey
        rcases hkey with rfl | rfl | rfl | rfl
        all_goals obtain ⟨-, given, hgiven, rfl⟩ := once_map_eq_ok hstep
        · exact ⟨hbodies, rfl⟩
        · exact ⟨hbodies, rfl⟩
        · exact ⟨hbodies, rfl⟩
        · exact ⟨by simpa using isReadable_of_readBody hgiven, rfl⟩
    rw [← Except.ok.inj h]
    exact ⟨hbodies body (required_eq_ok hbody), Extra.keeps_ofMembers hP hextra⟩
  · cases h

/-- What holds of every account item that is read holds of the items of an instruction. -/
theorem parts_of_readInstruction {Q : AccountItem → Prop} (hP : OfLeaves P)
    (hparts : d.Everywhere P)
    (hitem : ∀ part, part.Everywhere R → ∀ item, readItem part = .ok item → Q item)
    (hitems : d.Everywhere R) {instruction : Instruction}
    (h : readInstruction d = .ok instruction) :
    (∀ item ∈ instruction.accounts, Q item) ∧ instruction.extra.Keeps P instructionKeys := by
  unfold readInstruction at h
  split at h
  · next ms ending =>
    obtain ⟨p, hp, h⟩ := bind_eq_ok.mp h
    obtain ⟨name, -, h⟩ := bind_eq_ok.mp h
    obtain ⟨haccounts, hextra⟩ := areKept_of_members
      (I := fun p : PartialInstruction => ∀ items ∈ p.accounts, ∀ item ∈ items, Q item)
      PartialInstruction.extra (fun p members => { p with extra := p.extra ++ members })
      PartialInstruction.step_kept (fun _ _ haccounts => ⟨haccounts, rfl⟩) (by simp) rfl hparts hp
      fun key hkey value before after hmember haccounts hstep => by
        simp only [instructionKeys, List.mem_cons, List.not_mem_nil, or_false] at hkey
        rcases hkey with rfl | rfl | rfl | rfl | rfl | rfl
        all_goals obtain ⟨-, given, hgiven, rfl⟩ := once_map_eq_ok hstep
        · exact ⟨haccounts, rfl⟩
        · exact ⟨haccounts, rfl⟩
        · exact ⟨forall_of_list hitem (hitems.member hmember) hgiven, rfl⟩
        · exact ⟨haccounts, rfl⟩
        · exact ⟨haccounts, rfl⟩
        · exact ⟨haccounts, rfl⟩
    rw [← Except.ok.inj h]
    exact ⟨forall_mem_getD (by simp) haccounts, Extra.keeps_ofMembers hP hextra⟩
  · cases h

/-- An instruction that was read can be read back. -/
theorem isReadable_of_readInstruction (hP : OfLeaves P) (htidy : d.Everywhere (IsTidy P))
    {instruction : Instruction} (h : readInstruction d = .ok instruction) :
    instruction.IsReadable P :=
  have ⟨haccounts, hextra⟩ := parts_of_readInstruction hP htidy.of_isTidy
    (fun _ hpart _ => isReadable_of_readItem hP hpart) htidy h
  ⟨haccounts, hextra⟩

/-- The slots of an instruction that was read keep what no slot knows. -/
theorem isAcceptable_of_readInstruction (hP : OfLeaves P) (hparts : d.Everywhere P)
    {instruction : Instruction} (h : readInstruction d = .ok instruction) :
    instruction.IsAcceptable P :=
  have ⟨haccounts, hextra⟩ := parts_of_readInstruction
    (Q := fun item => ∀ extra ∈ item.extras, extra.Keeps P slotKeys) hP hparts
    (fun _ hpart _ hitem => by
      rw [AccountItem.extras_eq_map, List.forall_mem_map]
      exact keeps_extra_of_readItem hP hpart hitem) hparts h
  ⟨AccountItem.forall_mem_extrasOf.mpr haccounts, hextra⟩

/-- So does an account. -/
theorem keeps_of_readAccount (hP : OfLeaves P) {account : Account}
    (hparts : d.Everywhere P) (h : readAccount d = .ok account) : account.Keeps P := by
  unfold readAccount at h
  split at h
  · next ms ending =>
    obtain ⟨p, hp, h⟩ := bind_eq_ok.mp h
    obtain ⟨name, -, h⟩ := bind_eq_ok.mp h
    obtain ⟨hbodies, hextra⟩ := areKept_of_members
      (I := fun p : PartialAccount => ∀ given ∈ p.body, ∀ body ∈ given, body.IsReadable)
      PartialAccount.extra (fun p members => { p with extra := p.extra ++ members })
      PartialAccount.step_kept (fun _ _ hbodies => ⟨hbodies, rfl⟩) (by simp) rfl hparts hp
      fun key hkey value before after hmember hbodies hstep => by
        simp only [accountKeys, List.mem_cons, List.not_mem_nil, or_false] at hkey
        rcases hkey with rfl | rfl | rfl | rfl
        all_goals obtain ⟨-, given, hgiven, rfl⟩ := once_map_eq_ok hstep
        · exact ⟨hbodies, rfl⟩
        · exact ⟨hbodies, rfl⟩
        · exact ⟨hbodies, rfl⟩
        · refine ⟨?_, rfl⟩
          rintro found hfound body hbody
          obtain rfl := Option.some.inj hfound
          obtain rfl := Option.mem_def.mp hbody
          exact isReadable_of_readBody (read_of_orNull hgiven)
    rw [← Except.ok.inj h]
    exact ⟨forall_mem_getD (by simp) hbodies, Extra.keeps_ofMembers hP hextra⟩
  · cases h

/-- So do metadata. -/
theorem keeps_of_readMetadata (hP : OfLeaves P) {metadata : Metadata} (hparts : d.Everywhere P)
    (h : readMetadata d = .ok metadata) : metadata.extra.Keeps P metadataKeys := by
  unfold readMetadata at h
  split at h
  · next ms ending =>
    obtain ⟨p, hp, h⟩ := bind_eq_ok.mp h
    obtain ⟨-, hextra⟩ := areKept_of_members (I := fun _ => True)
      PartialMetadata.extra (fun p members => { p with extra := p.extra ++ members })
      PartialMetadata.step_kept (fun _ _ _ => ⟨trivial, rfl⟩) trivial rfl hparts hp
      fun key hkey value before after _ _ hstep => by
        simp only [metadataKeys, List.mem_cons, List.not_mem_nil, or_false] at hkey
        rcases hkey with rfl | rfl | rfl | rfl
        all_goals
          obtain ⟨-, given, -, rfl⟩ := once_map_eq_ok hstep
          exact ⟨trivial, rfl⟩
    rw [← Except.ok.inj h]
    exact Extra.keeps_ofMembers hP hextra
  · cases h

/-! ## Interfaces -/

/-- What the members of an interface have given so far: its instructions have a property, and
all else can be read back. -/
structure PartialInterface.HasParts (P : Document → Prop) (Q : Instruction → Prop)
    (p : PartialInterface) : Prop where
  instructions : ∀ given ∈ p.instructions, ∀ instruction ∈ given, Q instruction
  accounts : ∀ given ∈ p.accounts, ∀ account ∈ given, account.Keeps P
  types : ∀ given ∈ p.types, ∀ definition ∈ given, definition.Keeps P
  metadata : ∀ given ∈ p.metadata, ∀ metadata ∈ given, metadata.extra.Keeps P metadataKeys
  extra : AreKept P interfaceKeys p.extra

theorem PartialInterface.hasParts_of_step {Q : Instruction → Prop} (hP : OfLeaves P)
    (hparts : d.Everywhere P)
    (hinstruction : ∀ part, part.Everywhere R → ∀ i, readInstruction part = .ok i → Q i)
    (hinstructions : d.Everywhere R) {p q : PartialInterface} {key : String}
    (hp : p.HasParts P Q) (h : p.step key d = .ok q) : q.HasParts P Q := by
  by_cases hkey : key ∈ interfaceKeys
  · simp only [interfaceKeys, List.mem_cons, List.not_mem_nil, or_false] at hkey
    rcases hkey with rfl | rfl | rfl | rfl | rfl | rfl | rfl | rfl
    all_goals obtain ⟨-, given, hgiven, rfl⟩ := once_map_eq_ok h
    · exact { hp with }
    · exact { hp with }
    · exact { hp with }
    · exact { hp with instructions := forall_of_list hinstruction hinstructions hgiven }
    · exact { hp with
        accounts := forall_of_list (fun _ hd _ => keeps_of_readAccount hP hd) hparts
          hgiven }
    · exact { hp with
        types := forall_of_list (fun _ hd _ => keeps_of_readDefinition hP hd) hparts
          hgiven }
    · exact { hp with }
    · refine { hp with metadata := ?_ }
      rintro found hfound metadata hmetadata
      obtain rfl := Option.some.inj hfound
      obtain rfl := Option.mem_def.mp hmetadata
      exact keeps_of_readMetadata hP hparts (read_of_orNull hgiven)
  · rw [PartialInterface.step_kept _ _ _ hkey] at h
    obtain ⟨read, hread, rfl⟩ := map_eq_ok.mp h
    exact { hp with extra := hp.extra.append hkey hparts hread }

/-- What holds of every instruction that is read holds of the instructions of an interface, and
all else of it can be read back. -/
theorem hasParts_of_readInterface {Q : Instruction → Prop} (hP : OfLeaves P)
    (hparts : d.Everywhere P)
    (hinstruction : ∀ part, part.Everywhere R → ∀ i, readInstruction part = .ok i → Q i)
    (hinstructions : d.Everywhere R) {interface : Interface}
    (h : readInterface d = .ok interface) : interface.HasParts P Q := by
  unfold readInterface at h
  split at h
  · next ms ending =>
    obtain ⟨p, hp, h⟩ := bind_eq_ok.mp h
    have hpartial : p.HasParts P Q :=
      foldMembers_induct (P := PartialInterface.HasParts P Q)
        ⟨by simp, by simp, by simp, by simp, areKept_nil⟩
        (fun key value before after hmember => PartialInterface.hasParts_of_step hP
          (hparts.member hmember) hinstruction (hinstructions.member hmember))
        (foldMembers_of_members hp)
    rw [← Except.ok.inj h]
    exact {
      instructions := forall_mem_getD (by simp) hpartial.instructions
      accounts := forall_mem_getD (by simp) hpartial.accounts
      types := forall_mem_getD (by simp) hpartial.types
      metadata := forall_mem_getD (by simp) hpartial.metadata
      extra := Extra.keeps_ofMembers hP hpartial.extra }
  · cases h

/-- An interface that was read can be read back. -/
theorem isReadable_of_readInterface (hP : OfLeaves P) {interface : Interface}
    (htidy : d.Everywhere (IsTidy P)) (h : readInterface d = .ok interface) :
    interface.IsReadable P :=
  hasParts_of_readInterface hP htidy.of_isTidy
    (fun _ hd _ => isReadable_of_readInstruction hP hd) htidy h

/-- What the records of an interface that was read keep uninterpreted has keys that they do not
know. -/
theorem isAcceptable_of_readInterface (hP : OfLeaves P) {interface : Interface}
    (hparts : d.Everywhere P) (h : readInterface d = .ok interface) : interface.IsAcceptable P :=
  hasParts_of_readInterface hP hparts (fun _ hd _ => isAcceptable_of_readInstruction hP hd)
    hparts h

end Declared

end CanonicalIdl
