import CanonicalIdl.Workspace.Adapt

/-!
# Runs on files held as a value

A run with file access is carried out step by step.  What it came to and the files that it left
behind are told from its steps: the configuration and the interface that it read, the result of
normalizing, and the one text that it wrote.

Main results:

- Theorem `carryOut_bind`: a run goes on from what its first step came to and left behind.
- Theorem `carryOut_writeText`: writing a text as a step of a run.
- Theorem `carryOut_load_eq_ok`: what a run that loads has read and normalized.
- Theorem `carryOut_adapt_eq_ok`: what a run that adapts has read, normalized and written.
- Theorem `write_of_write`: writing the same once more changes nothing.
-/

namespace CanonicalIdl

open Json Document

namespace Files

variable {α β : Type} {files after : Files}

/-- A run goes on from what its first step came to and left behind. -/
theorem carryOut_bind (run : Workspace (StateM Files) α) (next : α → Workspace (StateM Files) β) :
    files.carryOut (run >>= next) =
      match files.carryOut run with
      | (.ok a, between) => between.carryOut (next a)
      | (.error e, between) => (.error e, between) := by
  simp only [carryOut, ExceptT.run_bind, StateT.run_bind]
  rcases run.run.run files with ⟨e | a, between⟩ <;> rfl

theorem carryOut_bind_eq_ok {run : Workspace (StateM Files) α}
    {next : α → Workspace (StateM Files) β} {b : β} :
    files.carryOut (run >>= next) = (.ok b, after) ↔
      ∃ a between, files.carryOut run = (.ok a, between) ∧
        between.carryOut (next a) = (.ok b, after) := by
  rw [carryOut_bind]
  rcases files.carryOut run with ⟨e | a, between⟩
  · simp
  · constructor
    · intro h
      exact ⟨a, between, rfl, h⟩
    · rintro ⟨found, reached, hfirst, h⟩
      obtain ⟨hfound, rfl⟩ := Prod.mk.inj hfirst
      rwa [Except.ok.inj hfound]

theorem carryOut_pure_eq_ok {a b : α} :
    files.carryOut (pure a : Workspace (StateM Files) α) = (.ok b, after) ↔
      a = b ∧ after = files := by
  change ((Except.ok a : Except Failure α), files) = (.ok b, after) ↔ _
  simp [eq_comm]

theorem carryOut_decided_eq_ok {result : Except Failure α} {a : α} :
    files.carryOut (Workspace.decided result) = (.ok a, after) ↔
      result = .ok a ∧ after = files := by
  change (result, files) = (.ok a, after) ↔ _
  simp [eq_comm]

theorem mapError_eq_ok {ε ε' : Type} {f : ε → ε'} {result : Except ε α} {a : α} :
    result.mapError f = .ok a ↔ result = .ok a := by
  cases result with
  | error e =>
    change (Except.error (f e) : Except ε' α) = .ok a ↔ _
    simp
  | ok found =>
    change (Except.ok found : Except ε' α) = .ok a ↔ _
    simp

theorem carryOut_readText_eq_ok {path text : String} :
    files.carryOut (Workspace.readText path) = (.ok text, after) ↔
      files.read path = .ok text ∧ after = files := by
  change ((files.read path).mapError (Failure.io path), files) = (.ok text, after) ↔ _
  rw [Prod.mk.injEq, mapError_eq_ok, eq_comm (a := files)]

/-- A text is written as a whole or not at all. -/
theorem carryOut_writeText (files : Files) (path text : String) :
    files.carryOut (Workspace.writeText path text) =
      match files.write path text with
      | .ok written => (.ok (), written)
      | .error fault => (.error (.io path fault), files) := by
  simp only [carryOut, Workspace.writeText, ExceptT.run_mk, StateT.run_bind, writeText_run]
  cases files.write path text <;> rfl

theorem carryOut_writeText_eq_ok {path text : String} {u : Unit} :
    files.carryOut (Workspace.writeText path text) = (.ok u, after) ↔
      files.write path text = .ok after := by
  rw [carryOut_writeText]
  cases files.write path text <;> simp

theorem carryOut_readAs_eq_ok {read : Document → Except Fault α} {path : String} {a : α} :
    files.carryOut (Workspace.readAs read path) = (.ok a, after) ↔
      (∃ text, files.read path = .ok text ∧ parseWith read text = .ok a) ∧ after = files := by
  rw [Workspace.readAs, carryOut_bind_eq_ok]
  constructor
  · rintro ⟨text, between, hfirst, hsecond⟩
    obtain ⟨hread, rfl⟩ := carryOut_readText_eq_ok.mp hfirst
    obtain ⟨hparse, rfl⟩ := carryOut_decided_eq_ok.mp hsecond
    exact ⟨⟨text, hread, mapError_eq_ok.mp hparse⟩, rfl⟩
  · rintro ⟨⟨text, hread, hparse⟩, rfl⟩
    exact ⟨text, after, carryOut_readText_eq_ok.mpr ⟨hread, rfl⟩,
      carryOut_decided_eq_ok.mpr ⟨mapError_eq_ok.mpr hparse, rfl⟩⟩

/-- A configuration that was read from a file is checked. -/
theorem carryOut_readConfig_eq_ok {path : String} {config : Config} :
    files.carryOut (Workspace.readConfig path) = (.ok config, after) ↔
      (∃ text, files.read path = .ok text ∧ parseWith Config.read text = .ok config) ∧
        config.check = .ok () ∧ after = files := by
  rw [Workspace.readConfig, carryOut_bind_eq_ok]
  constructor
  · rintro ⟨found, between, hfirst, hsecond⟩
    obtain ⟨hread, rfl⟩ := carryOut_readAs_eq_ok.mp hfirst
    obtain ⟨u, between', hthird, hlast⟩ := carryOut_bind_eq_ok.mp hsecond
    obtain ⟨hcheck, rfl⟩ := carryOut_decided_eq_ok.mp hthird
    obtain ⟨rfl, rfl⟩ := carryOut_pure_eq_ok.mp hlast
    exact ⟨hread, hcheck, rfl⟩
  · rintro ⟨hread, hcheck, rfl⟩
    exact ⟨config, after, carryOut_readAs_eq_ok.mpr ⟨hread, rfl⟩, carryOut_bind_eq_ok.mpr
      ⟨(), after, carryOut_decided_eq_ok.mpr ⟨hcheck, rfl⟩, carryOut_pure_eq_ok.mpr ⟨rfl, rfl⟩⟩⟩

/-- The interface that a configuration names, read and normalized. -/
theorem carryOut_load_eq_ok {config : Config} {interface : Interface} :
    files.carryOut (Workspace.load config) = (.ok interface, after) ↔
      config.check = .ok () ∧
      (∃ text raw, files.read config.interfacePath = .ok text ∧
        parseWith Declared.readInterface text = .ok raw ∧
        (normalize config.settings (config.annotate raw)).result = .ok interface) ∧
      after = files := by
  rw [Workspace.load, carryOut_bind_eq_ok]
  constructor
  · rintro ⟨u, start, hfirst, hsecond⟩
    obtain ⟨hcheck, rfl⟩ := carryOut_decided_eq_ok.mp hfirst
    obtain ⟨raw, reached, hthird, hlast⟩ := carryOut_bind_eq_ok.mp hsecond
    obtain ⟨⟨text, htext, hraw⟩, rfl⟩ := carryOut_readAs_eq_ok.mp hthird
    obtain ⟨hresult, rfl⟩ := carryOut_decided_eq_ok.mp hlast
    exact ⟨hcheck, ⟨text, raw, htext, hraw, hresult⟩, rfl⟩
  · rintro ⟨hcheck, ⟨text, raw, htext, hraw, hresult⟩, rfl⟩
    exact ⟨(), after, carryOut_decided_eq_ok.mpr ⟨hcheck, rfl⟩, carryOut_bind_eq_ok.mpr
      ⟨raw, after, carryOut_readAs_eq_ok.mpr ⟨⟨text, htext, hraw⟩, rfl⟩,
        carryOut_decided_eq_ok.mpr ⟨hresult, rfl⟩⟩⟩

/-- The interface that a run which adapts has read, normalized and written. -/
theorem carryOut_adapt_eq_ok {config : Config} {interface : Interface} :
    files.carryOut (Workspace.adapt config) = (.ok interface, after) ↔
      config.check = .ok () ∧
      (∃ text raw, files.read config.interfacePath = .ok text ∧
        parseWith Declared.readInterface text = .ok raw ∧
        (normalize config.settings (config.annotate raw)).result = .ok interface) ∧
      files.write config.interfacePath interface.toJson.pretty = .ok after := by
  rw [Workspace.adapt, carryOut_bind_eq_ok]
  constructor
  · rintro ⟨found, between, hfirst, hsecond⟩
    obtain ⟨u, written, hwrite, hlast⟩ := carryOut_bind_eq_ok.mp hsecond
    obtain ⟨rfl, rfl⟩ := carryOut_pure_eq_ok.mp hlast
    obtain ⟨hcheck, hread, rfl⟩ := carryOut_load_eq_ok.mp hfirst
    exact ⟨hcheck, hread, carryOut_writeText_eq_ok.mp hwrite⟩
  · rintro ⟨hcheck, hread, hwrite⟩
    exact ⟨interface, files, carryOut_load_eq_ok.mpr ⟨hcheck, hread, rfl⟩,
      carryOut_bind_eq_ok.mpr ⟨(), after, carryOut_writeText_eq_ok.mpr hwrite,
        carryOut_pure_eq_ok.mpr ⟨rfl, rfl⟩⟩⟩

/-! ## Writing what is there -/

theorem replace_replace (files : Files) (place : List String) (bytes : ByteArray) :
    (files.replace place bytes).replace place bytes = files.replace place bytes := by
  simp only [replace, List.map_map, Files.mk.injEq, true_and, and_true]
  refine List.map_congr_left fun entry _ => ?_
  by_cases h : entry.1 = place <;> simp [h]

/-- Writing the same once more changes nothing. -/
theorem write_of_write {path text : String} (h : files.write path text = .ok after) :
    after.write path text = .ok after := by
  unfold write at h ⊢
  cases hplace : files.place path with
  | error fault => rw [hplace] at h; cases h
  | ok place =>
    rw [hplace] at h
    obtain rfl := Except.ok.inj h
    rw [place_replace, hplace]
    exact congrArg Except.ok (replace_replace files place text.toUTF8)

theorem place_of_write {path text : String} (h : files.write path text = .ok after)
    (other : String) : after.place other = files.place other := by
  unfold write at h
  split at h
  · obtain rfl := Except.ok.inj h
    exact place_replace files _ text.toUTF8 other
  · cases h

/-- Two paths to one place lead to one text. -/
theorem read_of_place_eq {path other : String} (h : files.place other = files.place path) :
    files.read other = files.read path := by
  rw [read, read, h]

/-- Writing one file leaves the text at another place as it was. -/
theorem textAt_replace {place other : List String} (bytes : ByteArray) (h : other ≠ place) :
    (files.replace place bytes).textAt other = files.textAt other := by
  rw [textAt, textAt, bytes?_replace, if_neg h]
  rfl

/-- Writing one file leaves another one as it was. -/
theorem read_of_write_of_place_ne {path other text : String}
    (h : files.write path text = .ok after) (hne : files.place other ≠ files.place path) :
    after.read other = files.read other := by
  rw [read, read, place_of_write h]
  unfold write at h
  cases hplace : files.place path with
  | error fault => rw [hplace] at h; cases h
  | ok place =>
    rw [hplace] at h hne
    obtain rfl := Except.ok.inj h
    cases hother : files.place other with
    | error fault => rfl
    | ok place' =>
      have hplaces : place' ≠ place := fun heq => hne (hother.trans (congrArg Except.ok heq))
      exact textAt_replace text.toUTF8 hplaces

end Files

end CanonicalIdl
