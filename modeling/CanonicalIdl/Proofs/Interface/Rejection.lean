import CanonicalIdl.Proofs.Interface.Exactness
import CanonicalIdl.Proofs.Json.Nesting

/-!
# Interfaces that are rejected

What can be wrong with the text of a written interface is that its containers nest too deep or
that a record has a member twice that the reader knows.  Either is noticed: nothing that an
interface is written with is skipped, and no member that is known is read a second time.

Main results:

- Theorem `follows_readInterface`: an interface is read only if the reader follows it down to its
  deepest container.
- Theorem `get?_discriminator_of_readInterface`: and only if no account has a second discriminator.
-/

namespace CanonicalIdl

open Json Document Declared

variable {P : Document → Prop}

/-! ## Containers that nest too deep -/

/-- What a record keeps uninterpreted is read as a whole. -/
theorem follows_kept {σ : Type} {step : σ → String → Document → Reading σ} {known : List String}
    {add : σ → String → Json → σ} (hstep : ∀ state key value, key ∉ known →
      step state key value = value.read.map (add state key))
    {extra : Extra} (h : extra.Keeps P known) :
    ∀ member ∈ extra.entries, ∀ state, Follows (step state member.1) member.2 := by
  intro member hmember state room after hafter
  rw [hstep _ _ _ (h.avoids member hmember)] at hafter
  exact (follows_read member.2).map _ hafter

/-- To choose a form by trial, a value is read down to its deepest container. -/
theorem follows_fitting {α : Type} {choice : String} {ofJson? : Json → Option α} (value : Json) :
    Follows (fitting choice ofJson?) value := by
  intro room a h
  obtain ⟨found, hfound, -⟩ := fitting_eq_ok h
  exact follows_read value hfound

/-- The name of a variant is no container. -/
theorem follows_variantTag {τ : Type} {variants : List (String × τ)} (value : Json) :
    Follows (variantTag variants) value := by
  intro room tag h
  cases value with
  | array _ | object _ => cases room <;> cases h
  | null | bool _ | int _ | double _ | string _ => exact Nat.zero_le room

/-- A reader of tagged objects follows each of their members. -/
theorem follows_tagged {τ : Type} {expected : String} {variants : List (String × τ)}
    (members : List (String × Json)) : Follows (tagged expected variants) (.object members) := by
  refine follows_object (fun _ => ⟨_, rfl⟩) (fun _ => nofun) ?_
  intro member _ state room after hafter
  unfold taggedStep at hafter
  split at hafter
  · obtain ⟨tag, htag, -⟩ := bind_eq_ok.mp hafter
    obtain ⟨-, found, hfound, -⟩ := once_map_eq_ok (f := id) (b := tag) (by rw [htag]; rfl)
    exact follows_variantTag member.2 hfound
  · obtain ⟨read, hread, -⟩ := bind_eq_ok.mp hafter
    exact follows_read member.2 hread

/-- The reader of bodies follows a written body. -/
theorem follows_readBody (body : Body TypeTree) :
    Follows readBody (body.toJson TypeTree.toJson) := by
  intro room a h
  obtain ⟨found, hfound, -⟩ := bind_eq_ok.mp h
  cases body <;> exact follows_tagged _ hfound

theorem follows_readParameter (parameter : GenericParameter) :
    Follows readParameter parameter.toJson := by
  intro room a h
  obtain ⟨found, hfound, -⟩ := bind_eq_ok.mp h
  cases parameter <;> exact follows_tagged _ hfound

/-- The reader of fields follows the tree and the comments of a field. -/
theorem follows_readField (field : Field TypeTree) :
    Follows readField (field.toJson TypeTree.toJson) := by
  refine follows_object (fun _ => ⟨_, rfl⟩) (fun _ => nofun) ?_
  simp only [List.forall_mem_append, List.forall_mem_singleton, docsMember,
    forall_mem_listMember]
  exact ⟨⟨fun _ => follows_of_nesting_eq_zero rfl, fun _ _ => (follows_list_text _).once⟩,
    fun _ => (follows_fitting _).once⟩

/-- The members of an error are no containers. -/
theorem follows_readErrorCode (error : ErrorCode) : Follows readErrorCode error.toJson := by
  refine follows_object (fun _ => ⟨_, rfl⟩) (fun _ => nofun) ?_
  simp only [List.forall_mem_append, List.forall_mem_cons, forall_mem_optionalMember]
  exact ⟨⟨fun _ => follows_of_nesting_eq_zero rfl, fun _ => follows_of_nesting_eq_zero rfl,
    by simp⟩, fun _ _ _ => follows_of_nesting_eq_zero rfl⟩

/-- The reader of metadata follows what they keep uninterpreted. -/
theorem follows_readMetadata {metadata : Metadata} (h : metadata.extra.Keeps P metadataKeys) :
    Follows readMetadata metadata.toJson := by
  refine follows_object (fun _ => ⟨_, rfl⟩) (fun _ => nofun) ?_
  simp only [List.forall_mem_append, forall_mem_optionalMember]
  exact ⟨⟨⟨⟨fun _ _ _ => follows_of_nesting_eq_zero rfl,
    fun _ _ _ => follows_of_nesting_eq_zero rfl⟩, fun _ _ _ => follows_of_nesting_eq_zero rfl⟩,
    fun _ _ _ => follows_of_nesting_eq_zero rfl⟩, follows_kept PartialMetadata.step_kept h⟩

/-- The reader of definitions follows the body and what is kept uninterpreted. -/
theorem follows_readDefinition {definition : Definition}
    (h : definition.extra.Keeps P definitionKeys) :
    Follows readDefinition (definitionJson definition) := by
  refine follows_object (fun _ => ⟨_, rfl⟩) (fun _ => nofun) ?_
  simp only [List.forall_mem_append, List.forall_mem_singleton, docsMember,
    forall_mem_listMember]
  exact ⟨⟨⟨⟨fun _ => follows_of_nesting_eq_zero rfl, fun _ _ => (follows_list_text _).once⟩,
    fun _ _ => (follows_list_map fun _ _ => follows_readParameter _).once⟩,
    fun _ => (follows_readBody _).once⟩, follows_kept PartialDefinition.step_kept h⟩

theorem follows_list_byte (d : Discriminator) : Follows (list byte) d.toJson :=
  follows_list_map fun _ _ => follows_of_nesting_eq_zero rfl

/-- So does the reader of accounts, and it follows the discriminator. -/
theorem follows_readAccount {account : Account} (h : account.extra.Keeps P accountKeys) :
    Follows readAccount account.toJson := by
  refine follows_object (fun _ => ⟨_, rfl⟩) (fun _ => nofun) ?_
  simp only [List.forall_mem_append, List.forall_mem_singleton, docsMember,
    forall_mem_listMember, forall_mem_optionalMember]
  exact ⟨⟨⟨⟨fun _ => follows_of_nesting_eq_zero rfl,
    fun d _ _ => (follows_list_byte d).orNull.once⟩,
    fun _ _ => (follows_list_text _).once⟩, fun _ => (follows_readBody _).orNull.once⟩,
    follows_kept PartialAccount.step_kept h⟩

/-- The reader of instructions follows their accounts and arguments. -/
theorem follows_readInstruction {instruction : Instruction}
    (h : instruction.extra.Keeps P instructionKeys) :
    Follows readInstruction instruction.toJson := by
  refine follows_object (fun _ => ⟨_, rfl⟩) (fun _ => nofun) ?_
  simp only [List.forall_mem_append, List.forall_mem_cons, docsMember, forall_mem_listMember,
    forall_mem_optionalMember]
  refine ⟨⟨⟨⟨⟨⟨fun _ => follows_of_nesting_eq_zero rfl, by simp⟩,
    fun _ _ => (follows_list_text _).once⟩, fun d _ _ => (follows_list_byte d).orNull.once⟩,
    fun _ => (follows_list_map fun _ _ => follows_fitting _).once,
    fun _ => (follows_list_map fun field _ => follows_readField field).once, by simp⟩,
    fun member hmember _ => follows_of_nesting_eq_zero ?_⟩,
    follows_kept PartialInstruction.step_kept h⟩
  cases hflag : instruction.omitsMissing <;> simp [hflag, flagMember] at hmember
  rw [hmember]
  rfl

/-- An interface is read only if the reader follows it down to its deepest container. -/
theorem follows_readInterface {interface : Interface} (h : interface.declared.IsAcceptable P) :
    Follows readInterface interface.toJson := by
  refine follows_object (fun _ => ⟨_, rfl⟩) (fun _ => nofun) ?_
  simp only [List.forall_mem_append, List.forall_mem_singleton, forall_mem_listMember,
    forall_mem_optionalMember]
  exact ⟨⟨⟨⟨⟨⟨⟨⟨fun _ _ _ => follows_of_nesting_eq_zero rfl,
    fun _ _ _ => follows_of_nesting_eq_zero rfl⟩, fun _ _ _ => follows_of_nesting_eq_zero rfl⟩,
    fun _ => (follows_list_map fun instruction hmem => follows_readInstruction
      (h.instructions _ (List.mem_map_of_mem hmem)).extra).once⟩,
    fun _ _ => (follows_list_map fun account hmem => follows_readAccount
      (h.accounts _ (List.mem_map_of_mem hmem)).extra).once⟩,
    fun _ _ => (follows_list_map fun definition hmem => follows_readDefinition
      (h.types _ (List.mem_map_of_mem hmem)).extra).once⟩,
    fun _ _ => (follows_list_map fun error _ => follows_readErrorCode error).once⟩,
    fun metadata hmem _ => (follows_readMetadata (h.metadata metadata hmem)).orNull.once⟩,
    follows_kept PartialInterface.step_kept h.extra⟩

/-! ## Discriminators that are given twice -/

/-- A discriminator is given where none was before. -/
theorem Declared.PartialAccount.isSome_discriminator_of_step {before after : PartialAccount}
    {value : Document} (h : before.step "discriminator" value = .ok after) :
    ¬ before.discriminator.isSome = true ∧ after.discriminator.isSome = true := by
  obtain ⟨hnone, bytes, -, rfl⟩ := once_map_eq_ok h
  simp [hnone]

/-- No member takes a discriminator back. -/
theorem Declared.PartialAccount.isSome_discriminator_of_step_of_isSome
    {before after : PartialAccount} {key : String} {value : Document}
    (h : before.step key value = .ok after) (hgiven : before.discriminator.isSome = true) :
    after.discriminator.isSome = true := by
  by_cases hkey : key ∈ accountKeys
  · simp only [accountKeys, List.mem_cons, List.not_mem_nil, or_false] at hkey
    rcases hkey with rfl | rfl | rfl | rfl
    · obtain ⟨-, found, -, rfl⟩ := once_map_eq_ok h
      exact hgiven
    · exact (isSome_discriminator_of_step h).2
    · obtain ⟨-, found, -, rfl⟩ := once_map_eq_ok h
      exact hgiven
    · obtain ⟨-, found, -, rfl⟩ := once_map_eq_ok h
      exact hgiven
  · rw [step_kept _ _ _ hkey] at h
    obtain ⟨found, -, rfl⟩ := map_eq_ok.mp h
    exact hgiven

/-- An account that is read has one discriminator at most. -/
theorem get?_discriminator_of_readAccount {account : Account} {room : Nat}
    {read : Declared.Account} (h : readAccount (ofJsonWithin room account.toJson) = .ok read)
    (hsome : account.discriminator.isSome = true) : account.extra.get? "discriminator" = none := by
  obtain ⟨d, hd⟩ := Option.isSome_iff_exists.mp hsome
  cases room with
  | zero => cases h
  | succ room =>
    obtain ⟨p, hp, -⟩ := bind_eq_ok.mp h
    have hkeys : (keys (account.knownMembers ++ account.extra.entries)).Pairwise
        fun a b => a = "discriminator" → b ≠ "discriminator" :=
      pairwise_keys_of_foldMembers
        (fun _ _ _ hstep => PartialAccount.isSome_discriminator_of_step hstep)
        (fun _ _ _ _ hstep => PartialAccount.isSome_discriminator_of_step_of_isSome hstep)
        (foldMembers_of_members hp)
    rw [keys_append, List.pairwise_append] at hkeys
    refine lookup_eq_none_of_not_mem_keys fun hkept => ?_
    exact hkeys.2.2 "discriminator" (by simp [Account.knownMembers, keys, hd, optionalMember])
      _ hkept rfl rfl

/-- No account of an interface that is read has two discriminators. -/
theorem get?_discriminator_of_readInterface {interface : Interface} {room : Nat}
    {read : Declared.Interface} (h : readInterface (ofJsonWithin room interface.toJson) = .ok read)
    {account : Account} (hmem : account ∈ interface.accounts)
    (hsome : account.discriminator.isSome = true) : account.extra.get? "discriminator" = none := by
  -- the accounts are items of a list that is a member of the interface
  cases room with
  | zero => cases h
  | succ room =>
    obtain ⟨p, hp, -⟩ := bind_eq_ok.mp h
    have hread := exists_of_foldMembers_ofMembersWithin (foldMembers_of_members hp)
    simp only [List.forall_mem_append, forall_mem_listMember] at hread
    obtain ⟨⟨⟨⟨⟨-, haccounts⟩, -⟩, -⟩, -⟩, -⟩ := hread
    obtain ⟨before, after, hafter⟩ := haccounts (List.ne_nil_of_mem hmem)
    obtain ⟨-, found, hfound, -⟩ := once_map_eq_ok hafter
    obtain ⟨inside, -, hitems⟩ := exists_of_list_ofJsonWithin hfound
    obtain ⟨read, hread⟩ := hitems _ (List.mem_map_of_mem hmem)
    exact get?_discriminator_of_readAccount hread hsome

end CanonicalIdl
