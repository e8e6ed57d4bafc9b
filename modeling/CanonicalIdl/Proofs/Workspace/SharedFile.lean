import CanonicalIdl.Config
import CanonicalIdl.Proofs.Interface.Rereading
import CanonicalIdl.Proofs.Json.Nesting

/-!
# A configuration in the file of its interface

A file may hold a configuration and the interface that it names in one object: either reader
passes over what the other one knows.  The interface keeps the configuration uninterpreted,
in canonical form and behind its own members, so the configuration is still there when the
interface is written back.

Main results:

- Theorem `Config.Partial.step_comm`: the order of the members of a configuration does not
  matter.
- Theorem `Config.read_toJson`: a configuration that an interface keeps is read as it was.
-/

namespace CanonicalIdl

open Json Document

/-! ## Members in another order -/

namespace Json.Document

/-- A value seen as a document can be passed over. -/
theorem ignore_ofJson (value : Json) : (ofJson value).ignore = .ok () := by
  rw [ignore, ← ofJsonWithin_of_nesting_le value (Nat.le_refl _), skip_ofJsonWithin]

section Members

variable {σ : Type} {step : σ → String → Document → Reading σ}

/-- Members of different keys are read in any order, if each two of them are. -/
theorem foldMembers_perm {members more : List (String × Json)}
    (hcomm : ∀ {p q r : σ} {key key' : String} {value value' : Document}, key ≠ key' →
      step p key value = .ok q → step q key' value' = .ok r →
        ∃ s, step p key' value' = .ok s ∧ step s key value = .ok r)
    (hperm : members.Perm more) (hkeys : (keys members).Nodup) {start state : σ}
    (h : foldMembers step start (ofMembers members) = .ok state) :
    foldMembers step start (ofMembers more) = .ok state := by
  induction hperm generalizing start with
  | nil => exact h
  | cons member _ ih =>
    obtain ⟨next, hnext, hrest⟩ := bind_eq_ok.mp h
    exact bind_eq_ok.mpr ⟨next, hnext, ih (List.nodup_cons.mp hkeys).2 hrest⟩
  | swap second first rest =>
    obtain ⟨between, hfirst, h⟩ := bind_eq_ok.mp h
    obtain ⟨next, hsecond, hrest⟩ := bind_eq_ok.mp h
    have hne : first.1 ≠ second.1 := by
      rintro heq
      exact (List.nodup_cons.mp hkeys).1 (heq ▸ .head _)
    obtain ⟨other, hother, hsame⟩ := hcomm hne hfirst hsecond
    exact bind_eq_ok.mpr ⟨other, hother, bind_eq_ok.mpr ⟨next, hsame, hrest⟩⟩
  | trans hfirst _ ih ih' =>
    exact ih' ((hfirst.map Prod.fst).nodup_iff.mp hkeys) (ih hkeys h)

/-- Members that each give the same when changed give the same together. -/
theorem foldMembers_map {f : Json → Json} {members : List (String × Json)} {start state : σ}
    (hstep : ∀ member ∈ members, ∀ p q, step p member.1 (ofJson member.2) = .ok q →
      step p member.1 (ofJson (f member.2)) = .ok q)
    (h : foldMembers step start (ofMembers members) = .ok state) :
    foldMembers step start (ofMembers (members.map fun m => (m.1, f m.2))) = .ok state := by
  induction members generalizing start with
  | nil => exact h
  | cons member rest ih =>
    obtain ⟨hmember, hrest⟩ := List.forall_mem_cons.mp hstep
    obtain ⟨next, hnext, h⟩ := bind_eq_ok.mp h
    exact bind_eq_ok.mpr ⟨next, hmember start next hnext, ih hrest h⟩

/-- Members that are passed over do not matter. -/
theorem foldMembers_append_of_ignored {front : List (String × Json)} {start : σ}
    (hstep : ∀ member ∈ front, step start member.1 (ofJson member.2) = .ok start)
    (back : List (String × Json)) :
    foldMembers step start (ofMembers (front ++ back)) =
      foldMembers step start (ofMembers back) := by
  induction front with
  | nil => rfl
  | cons member rest ih =>
    obtain ⟨hmember, hrest⟩ := List.forall_mem_cons.mp hstep
    rw [List.cons_append, foldMembers_member _ hmember, ih hrest]

end Members

end Json.Document

namespace Config

/-! ## The order of members -/

/-- The keys that a configuration knows. -/
def knownKeys : List String :=
  ["programName", "idlDir", "idlGenerator", "programId", "anchorRemainingAccounts", "floatAsBytes",
    "typeAliases", "binaryVersion", "libVersion"]

namespace Partial

variable {p q r : Partial} {key key' : String} {value value' : Document}

theorem step_unknown (p : Partial) (value : Document) (h : key ∉ knownKeys) :
    p.step key value = value.ignore.map fun _ => p := by
  simp only [knownKeys, List.mem_cons, List.not_mem_nil, or_false, not_or] at h
  simp [step, h]

/-- The order of the members of a configuration does not matter. -/
theorem step_comm (hne : key ≠ key') (h : p.step key value = .ok q)
    (h' : q.step key' value' = .ok r) :
    ∃ s, p.step key' value' = .ok s ∧ s.step key value = .ok r := by
  by_cases hkey : key ∈ knownKeys
  · by_cases hkey' : key' ∈ knownKeys
    · simp only [knownKeys, List.mem_cons, List.not_mem_nil, or_false] at hkey hkey'
      -- two different fields, each of which is set without regard to the other
      rcases hkey with rfl | rfl | rfl | rfl | rfl | rfl | rfl | rfl | rfl <;>
      rcases hkey' with rfl | rfl | rfl | rfl | rfl | rfl | rfl | rfl | rfl <;>
      first
      | exact absurd rfl hne
      | obtain ⟨hfield, a, ha, rfl⟩ := once_map_eq_ok h
        obtain ⟨hfield', b, hb, rfl⟩ := once_map_eq_ok h'
        exact ⟨_, once_map_of_eq_ok hfield' hb, once_map_of_eq_ok hfield ha⟩
    · rw [step_unknown _ _ hkey'] at h'
      obtain ⟨u, hu, rfl⟩ := map_eq_ok.mp h'
      exact ⟨p, by rw [step_unknown _ _ hkey', hu]; rfl, h⟩
  · rw [step_unknown _ _ hkey] at h
    obtain ⟨u, hu, rfl⟩ := map_eq_ok.mp h
    exact ⟨r, h', by rw [step_unknown _ _ hkey, hu]; rfl⟩

end Partial

/-! ## Canonical form -/

section Canonical

variable {value : Json}

theorem canonical_of_text {s : String} (h : (ofJson value).text = .ok s) :
    canonical value = value := by
  cases value <;> first | rfl | cases h

theorem canonical_of_flag {b : Bool} (h : (ofJson value).flag = .ok b) :
    canonical value = value := by
  cases value <;> first | rfl | cases h

theorem canonical_of_readPath {s : String} (h : readPath (ofJson value) = .ok s) :
    canonical value = value := by
  cases value <;> first | rfl | cases h

theorem canonical_of_orNull_text {s : Option String} (h : (ofJson value).orNull text = .ok s) :
    canonical value = value := by
  cases value <;> first | rfl | cases h

theorem canonical_of_readGenerator {generator : Generator}
    (h : readGenerator (ofJson value) = .ok generator) : canonical value = value := by
  cases value with
  | object members =>
    cases members with
    | nil => rfl
    | cons member rest =>
      obtain ⟨name, content⟩ := member
      obtain ⟨found, -, h⟩ := bind_eq_ok.mp h
      cases content with
      | null =>
        rcases rest with _ | ⟨⟨key, value⟩, others⟩
        · rfl
        · cases h
      | bool _ | int _ | double _ | string _ | array _ | object _ => cases h
  | array items => cases h
  | null | bool _ | int _ | double _ | string _ => rfl

/-- Aliases are read from texts and kept in order. -/
theorem foldMembers_aliases {members : List (String × Json)} {start entries : AliasTable}
    (h : foldMembers
      (fun entries key value => value.text.map fun target => entries ++ [(key, target)])
      start (ofMembers members) = .ok entries) :
    ∃ texts : AliasTable, members = mapMembers Json.string texts ∧
      entries = start ++ texts := by
  induction members generalizing start with
  | nil => exact ⟨[], rfl, by rw [List.append_nil]; exact (Except.ok.inj h).symm⟩
  | cons member rest ih =>
    obtain ⟨key, value⟩ := member
    obtain ⟨next, hnext, h⟩ := bind_eq_ok.mp h
    obtain ⟨target, htarget, rfl⟩ := map_eq_ok.mp hnext
    obtain ⟨texts, rfl, rfl⟩ := ih h
    cases value with
    | string s =>
      obtain rfl : s = target := Except.ok.inj htarget
      exact ⟨(key, s) :: texts, rfl, by rw [List.append_assoc]; rfl⟩
    | null | bool _ | int _ | double _ | array _ | object _ => cases htarget

/-- A list of texts is read with its keys in order. -/
theorem readAliases_texts (texts : AliasTable) :
    readAliases (ofJson (.object (mapMembers Json.string texts))) = .ok (sortMembers texts) := by
  have hfold : ∀ (start : AliasTable) (texts : AliasTable), foldMembers
      (fun entries key value => value.text.map fun target => entries ++ [(key, target)])
      start (ofMembers (mapMembers Json.string texts)) = .ok (start ++ texts) := by
    intro start texts
    induction texts generalizing start with
    | nil => rw [List.append_nil]; rfl
    | cons entry rest ih =>
      rw [mapMembers, List.map_cons, foldMembers_member _ (by rfl), ← mapMembers, ih,
        List.append_assoc, List.singleton_append]
  rw [ofJson, readAliases, members_of_foldMembers (hfold [] texts), ok_map, List.nil_append]

/-- So it is in canonical form, where they are in order already. -/
theorem readAliases_canonical {aliases : AliasTable}
    (h : readAliases (ofJson value) = .ok aliases) :
    readAliases (ofJson (canonical value)) = .ok aliases := by
  cases value with
  | object members =>
    obtain ⟨entries, hentries, rfl⟩ := map_eq_ok.mp h
    obtain ⟨texts, rfl, htexts⟩ := foldMembers_aliases (foldMembers_of_members hentries)
    rw [List.nil_append] at htexts
    have hcanonical :
        canonicalMembers (mapMembers Json.string texts) = mapMembers Json.string texts := by
      rw [canonicalMembers_eq_map, mapMembers, List.map_map]
      rfl
    rw [canonical, hcanonical, sortMembers_mapMembers, readAliases_texts, htexts,
      sortMembers_of_sorted (sorted_sortMembers texts)]
  | null | bool _ | int _ | double _ | string _ | array _ => cases h

/-- A member of a configuration is read in canonical form as it stands. -/
theorem Partial.step_canonical {p q : Partial} {key : String}
    (h : p.step key (ofJson value) = .ok q) : p.step key (ofJson (canonical value)) = .ok q := by
  by_cases hkey : key ∈ knownKeys
  · simp only [knownKeys, List.mem_cons, List.not_mem_nil, or_false] at hkey
    rcases hkey with rfl | rfl | rfl | rfl | rfl | rfl | rfl | rfl | rfl
    all_goals obtain ⟨hfield, a, ha, rfl⟩ := once_map_eq_ok h
    · rwa [canonical_of_text ha]
    · rwa [canonical_of_readPath ha]
    · rwa [canonical_of_readGenerator ha]
    · rwa [canonical_of_orNull_text ha]
    · rwa [canonical_of_flag ha]
    · rwa [canonical_of_flag ha]
    · exact once_map_of_eq_ok hfield (readAliases_canonical ha)
    · rwa [canonical_of_orNull_text ha]
    · rwa [canonical_of_orNull_text ha]
  · rw [step_unknown _ _ hkey, ignore_ofJson] at h ⊢
    exact h

end Canonical

/-! ## What an interface keeps -/

theorem not_mem_knownKeys {key : String} (h : key ∈ Declared.interfaceKeys) : key ∉ knownKeys := by
  have hall : ∀ key ∈ Declared.interfaceKeys, key ∉ knownKeys := by decide
  exact hall key h

theorem extra_of_step {p p' : Declared.PartialInterface} {key : String} {value : Document}
    (hkey : key ∈ Declared.interfaceKeys) (h : p.step key value = .ok p') :
    p'.extra = p.extra := by
  simp only [Declared.interfaceKeys, List.mem_cons, List.not_mem_nil, or_false] at hkey
  rcases hkey with rfl | rfl | rfl | rfl | rfl | rfl | rfl | rfl
  all_goals
    obtain ⟨-, _, -, rfl⟩ := once_map_eq_ok h
    rfl

/-- The members that an interface does not know give the configuration that all of them give. -/
theorem exists_kept {ms : List (Except Malformation String × Document)}
    {p p' : Declared.PartialInterface} {q q' : Partial}
    (hinterface : foldMembers Declared.PartialInterface.step p ms = .ok p')
    (hconfig : foldMembers Partial.step q ms = .ok q') :
    ∃ kept, p'.extra = p.extra ++ kept ∧ foldMembers Partial.step q (ofMembers kept) = .ok q' ∧
      (keys kept).Sublist (ms.filterMap (·.1.toOption)) := by
  induction ms generalizing p q with
  | nil =>
    obtain rfl := Except.ok.inj hinterface
    exact ⟨[], by rw [List.append_nil], hconfig, List.Sublist.refl _⟩
  | cons member rest ih =>
    obtain ⟨fault | key, value⟩ := member
    · cases hinterface
    · obtain ⟨p₁, hp₁, hinterface⟩ := bind_eq_ok.mp hinterface
      obtain ⟨q₁, hq₁, hconfig⟩ := bind_eq_ok.mp hconfig
      obtain ⟨kept, hkept, hread, hkeys⟩ := ih hinterface hconfig
      by_cases hkey : key ∈ Declared.interfaceKeys
      · rw [Partial.step_unknown _ _ (not_mem_knownKeys hkey)] at hq₁
        obtain ⟨u, -, rfl⟩ := map_eq_ok.mp hq₁
        exact ⟨kept, by rw [hkept, extra_of_step hkey hp₁], hread, hkeys.cons _⟩
      · rw [Declared.PartialInterface.step_kept _ _ _ hkey] at hp₁
        obtain ⟨content, hcontent, rfl⟩ := map_eq_ok.mp hp₁
        rw [eq_ofJson_of_read value hcontent] at hq₁
        refine ⟨(key, content) :: kept, ?_, bind_eq_ok.mpr ⟨q₁, hq₁, hread⟩, hkeys.cons_cons _⟩
        rw [hkept, List.append_assoc, List.singleton_append]

/-- What an interface keeps uninterpreted is written behind the members that it knows. -/
theorem exists_front (interface : Interface) :
    ∃ front, interface.toJson = .object (front ++ interface.extra.entries) ∧
      ∀ member ∈ front, member.1 ∈ Declared.interfaceKeys := by
  refine ⟨_, rfl, ?_⟩
  simp only [List.forall_mem_append, List.forall_mem_singleton, forall_mem_optionalMember,
    forall_mem_listMember]
  simp [Declared.interfaceKeys]

/-- A configuration that an interface keeps uninterpreted is read from the written interface as
it was. -/
theorem read_toJson {d : Document} {config : Config} {raw : Declared.Interface}
    {interface : Interface} (hkeys : d.Everywhere HasDistinctKeys)
    (hconfig : read d = .ok config) (hraw : Declared.readInterface d = .ok raw)
    (hextra : interface.extra = raw.extra) : read (ofJson interface.toJson) = .ok config := by
  unfold Declared.readInterface at hraw
  split at hraw
  · next ms ending =>
    obtain ⟨p, hp, hraw⟩ := bind_eq_ok.mp hraw
    obtain ⟨q, hq, hrest⟩ := bind_eq_ok.mp hconfig
    obtain ⟨kept, hkept, hread, hsublist⟩ :=
      exists_kept (foldMembers_of_members hp) (foldMembers_of_members hq)
    have hdistinct : (ms.filterMap (·.1.toOption)).Nodup := hkeys.self
    have hnodup : (keys kept).Nodup := hdistinct.sublist hsublist
    have hraw' : raw.extra = Extra.ofMembers kept := by
      rw [← Except.ok.inj hraw]
      exact congrArg Extra.ofMembers hkept
    have hcanonical : foldMembers Partial.step {} (ofMembers (canonicalMembers kept)) = .ok q := by
      rw [canonicalMembers_eq_map]
      exact foldMembers_map (fun _ _ _ _ => Partial.step_canonical) hread
    have hentries : foldMembers Partial.step {} (ofMembers interface.extra.entries) = .ok q := by
      rw [hextra, hraw']
      refine @foldMembers_perm _ Partial.step _ _ Partial.step_comm (sortMembers_perm ?_).symm ?_
        _ _ hcanonical <;> rwa [keys_canonicalMembers]
    obtain ⟨front, hfront, hknown⟩ := exists_front interface
    have hignored : ∀ member ∈ front, Partial.step {} member.1 (ofJson member.2) = .ok {} := by
      intro member hmember
      rw [Partial.step_unknown _ _ (not_mem_knownKeys (hknown member hmember)), ignore_ofJson,
        ok_map]
    rw [hfront, ofJson, read, members_of_foldMembers
      ((foldMembers_append_of_ignored hignored _).trans hentries)]
    exact hrest
  · cases hraw

end Config

end CanonicalIdl
