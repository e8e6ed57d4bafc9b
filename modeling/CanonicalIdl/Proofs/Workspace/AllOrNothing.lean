import CanonicalIdl.Proofs.Workspace.Runs

/-!
# All or nothing

Adapting reads the configuration and the interface, checks both and normalizes before it writes.
So a run that fails has changed no file, and a run that succeeds has changed the bytes of one: the
file of the program's name, directly in the configured directory, wherever that is.  A program
name that passed its check has no slash, and so it leads to no other directory.  Making an account
plan writes nothing.

Main results:

- Theorem `place_joinPath`: a file name joined to a directory stands directly in it.
- Theorem `WritesNothing.bind`: a run whose steps write nothing writes nothing.
- Theorem `carryOut_adaptFile_allOrNothing`: what adapting and planning do to the files.
-/

namespace CanonicalIdl.Files

open Json

/-! ## Paths into a directory -/

/-- A path leads to a directory; the empty path leads to the working directory. -/
def LeadsTo (files : Files) (path : String) (place : List String) : Prop :=
  files.followAll (parts path) (files.start path) = .ok (.directory place)

/-- Only a slash starts another name. -/
theorem splitPath_of_no_slash {text : List Char} (h : '/' ∉ text) (name : List Char) :
    splitPath name text = [String.ofList (name.reverse ++ text)] := by
  induction text generalizing name with
  | nil => rw [splitPath, List.append_nil]
  | cons c rest ih =>
    rw [List.mem_cons, not_or] at h
    obtain ⟨hc, hrest⟩ := h
    have hslash : (c == '/') = false := beq_false_of_ne (Ne.symm hc)
    rw [splitPath, hslash, if_neg (by simp), ih hrest, List.reverse_cons, List.append_assoc]
    rfl

/-- A slash cuts a path in two. -/
theorem splitPath_slash (front back name : List Char) :
    splitPath name (front ++ '/' :: back) = splitPath name front ++ splitPath [] back := by
  induction front generalizing name with
  | nil => rfl
  | cons c rest ih =>
    rw [List.cons_append, splitPath, splitPath]
    split
    · rw [ih, List.cons_append]
    · exact ih (c :: name)

/-- The parts of a path are those in front of a last slash and the name behind it. -/
theorem parts_slash {path front name : String} (h : '/' ∉ name.toList)
    (hpath : path.toList = front.toList ++ '/' :: name.toList) :
    parts path = parts front ++ [name] := by
  rw [parts, hpath, splitPath_slash, splitPath_of_no_slash h, List.reverse_nil, List.nil_append,
    String.ofList_toList, parts]

variable {files : Files}

/-- Following more names goes on from where the first ones lead. -/
theorem followAll_append (front back : List String) (position : Position) :
    files.followAll (front ++ back) position =
      match files.followAll front position with
      | .ok reached => files.followAll back reached
      | .error fault => .error fault := by
  induction front generalizing position with
  | nil => rfl
  | cons name rest ih =>
    rw [List.cons_append, followAll, followAll]
    cases files.follow name position with
    | ok reached => exact ih reached
    | error fault => rfl

theorem followAll_append_eq_ok {front back : List String} {position target : Position} :
    files.followAll (front ++ back) position = .ok target ↔
      ∃ reached, files.followAll front position = .ok reached ∧
        files.followAll back reached = .ok target := by
  rw [followAll_append]
  cases files.followAll front position with
  | ok reached => simp
  | error fault => simp

theorem followAll_singleton (name : String) (position : Position) :
    files.followAll [name] position = files.follow name position := by
  rw [followAll]
  cases files.follow name position <;> rfl

/-- A proper name leads to a file only from the directory in which the file stands. -/
theorem follow_eq_file {name : String} {position : Position} {place : List String}
    (hname : name ≠ "" ∧ name ≠ "." ∧ name ≠ "..")
    (h : files.follow name position = .ok (.file place)) :
    ∃ directory, position = .directory directory ∧ place = directory ++ [name] := by
  obtain ⟨hempty, hdot, hdots⟩ := hname
  cases position with
  | file reached => cases h
  | directory directory =>
    refine ⟨directory, rfl, ?_⟩
    rw [follow, enter, if_neg hempty] at h
    split at h
    · cases h
    · rw [if_neg hdot, if_neg hdots, lookIn] at h
      split at h
      · cases h
      · simp only at h
        split at h
        · cases h
          rfl
        · split at h <;> cases h

/-- What is put behind a path does not change where it starts. -/
theorem start_append {path : String} (h : path ≠ "") (rest : String) :
    files.start (path ++ rest) = files.start path := by
  have hne : path.toList ≠ [] := fun hnil => h (String.toList_inj.mp hnil)
  obtain ⟨c, tail, hpath⟩ := List.exists_cons_of_ne_nil hne
  rw [start, start, String.toList_append, hpath, List.cons_append, List.head?_cons, List.head?_cons]

/-- A path behind which a proper name leads to a file leads to the directory of the file. -/
theorem exists_directory_of_followAll {front : List String} {name : String} {position : Position}
    {place : List String} (hname : name ≠ "" ∧ name ≠ "." ∧ name ≠ "..")
    (h : files.followAll (front ++ [name]) position = .ok (.file place)) :
    ∃ base, files.followAll front position = .ok (.directory base) ∧ place = base ++ [name] := by
  obtain ⟨reached, hfront, hlast⟩ := followAll_append_eq_ok.mp h
  rw [followAll_singleton] at hlast
  obtain ⟨base, rfl, hplace⟩ := follow_eq_file hname hlast
  exact ⟨base, hfront, hplace⟩

/-- A proper name that is joined to a directory leads to a file directly in it. -/
theorem place_joinPath {directory name : String} {place : List String}
    (hslash : '/' ∉ name.toList) (hname : name ≠ "" ∧ name ≠ "." ∧ name ≠ "..")
    (h : files.place (Config.joinPath directory name) = .ok place) :
    ∃ base, files.LeadsTo directory base ∧ place = base ++ [name] := by
  have hhead : ¬ name.toList.head? = some '/' := by
    intro hhead
    exact hslash (List.mem_of_mem_head? hhead)
  have hfollow := followAll_of_locate (locate_of_place h)
  rw [Config.joinPath, if_neg hhead] at hfollow
  by_cases hempty : directory = ""
  · -- the name stands alone and starts in the working directory
    subst hempty
    have hparts : parts name = [] ++ [name] := by
      rw [parts, splitPath_of_no_slash hslash, List.reverse_nil, List.nil_append,
        String.ofList_toList, List.nil_append]
    rw [if_pos (.inl rfl), String.empty_append, hparts, start, if_neg hhead] at hfollow
    obtain ⟨base, hbase, hplace⟩ := exists_directory_of_followAll hname hfollow
    obtain rfl := Position.directory.inj (Except.ok.inj hbase)
    exact ⟨files.working, rfl, hplace⟩
  · by_cases hlast : directory.toList.getLast? = some '/'
    · -- the last part of the directory is empty and leads no further
      obtain ⟨front, hfront⟩ := List.getLast?_eq_some_iff.mp hlast
      have hdirectory : parts directory = parts (String.ofList front) ++ [""] :=
        parts_slash (by simp) (by simp [hfront])
      have hpath : parts (directory ++ name) = parts (String.ofList front) ++ [name] :=
        parts_slash hslash (by simp [hfront])
      rw [if_pos (.inr hlast), hpath, start_append hempty] at hfollow
      obtain ⟨base, hbase, hplace⟩ := exists_directory_of_followAll hname hfollow
      refine ⟨base, ?_, hplace⟩
      rw [LeadsTo, hdirectory]
      exact followAll_append_eq_ok.mpr ⟨_, hbase, rfl⟩
    · have hpath : parts (directory ++ "/" ++ name) = parts directory ++ [name] :=
        parts_slash hslash (by simp)
      rw [if_neg (by simp [hempty, hlast]), hpath, String.append_assoc,
        start_append hempty] at hfollow
      exact exists_directory_of_followAll hname hfollow

/-! ## Runs that write nothing -/

/-- Whatever a run comes to, it leaves the files as they were. -/
def WritesNothing {α : Type} (run : Workspace (StateM Files) α) : Prop :=
  ∀ files : Files, (files.carryOut run).2 = files

namespace WritesNothing

variable {α β : Type}

/-- A run whose steps write nothing writes nothing. -/
theorem bind {run : Workspace (StateM Files) α} {next : α → Workspace (StateM Files) β}
    (hrun : WritesNothing run) (hnext : ∀ a, WritesNothing (next a)) :
    WritesNothing (run >>= next) := by
  intro files
  have hfirst := hrun files
  rw [carryOut_bind]
  revert hfirst
  rcases files.carryOut run with ⟨e | a, between⟩
  · exact id
  · rintro rfl
    exact hnext a between

theorem decided (result : Except Failure α) : WritesNothing (Workspace.decided result) :=
  fun _ => rfl

theorem pure (a : α) : WritesNothing (Pure.pure a : Workspace (StateM Files) α) :=
  fun _ => rfl

theorem readText (path : String) : WritesNothing (Workspace.readText path) :=
  fun _ => rfl

theorem readAs (read : Document → Except Fault α) (path : String) :
    WritesNothing (Workspace.readAs read path) :=
  (readText path).bind fun _ => decided _

theorem readConfig (path : String) : WritesNothing (Workspace.readConfig path) :=
  (readAs Config.read path).bind fun config => (decided config.check).bind fun _ => pure config

/-- Reading and normalizing an interface writes nothing. -/
theorem load (config : Config) : WritesNothing (Workspace.load config) :=
  (decided config.check).bind fun _ =>
    (readAs Declared.readInterface config.interfacePath).bind fun _ => decided _

/-- Making an account plan writes nothing. -/
theorem planInstruction (config : Config) (name : String) :
    WritesNothing (Workspace.planInstruction config name) := by
  refine (load config).bind fun interface => ?_
  split
  · exact pure _
  · exact decided _

end WritesNothing

/-! ## All or nothing -/

/-- A run that fails leaves the files as they were. -/
def AllOrNothing {α : Type} (run : Workspace (StateM Files) α) : Prop :=
  ∀ {files after : Files} {error : Failure},
    files.carryOut run = (.error error, after) → after = files

namespace AllOrNothing

variable {α β : Type}

/-- Steps that write nothing may stand in front. -/
theorem behind {run : Workspace (StateM Files) α} {next : α → Workspace (StateM Files) β}
    (hrun : WritesNothing run) (hnext : ∀ a, AllOrNothing (next a)) :
    AllOrNothing (run >>= next) := by
  intro files after error h
  have hfirst := hrun files
  rw [carryOut_bind] at h
  revert h hfirst
  rcases files.carryOut run with ⟨e | a, between⟩
  · rintro h rfl
    exact (Prod.mk.inj h).2.symm
  · rintro h rfl
    exact hnext a h

/-- Nothing fails behind a text that was written. -/
theorem writeText (path text : String) (a : α) :
    AllOrNothing (do Workspace.writeText path text; Pure.pure a) := by
  intro files after error h
  rw [carryOut_bind, carryOut_writeText] at h
  cases hwrite : files.write path text with
  | ok written =>
    rw [hwrite] at h
    cases h
  | error fault =>
    rw [hwrite] at h
    exact (Prod.mk.inj h).2.symm

theorem adapt (config : Config) : AllOrNothing (Workspace.adapt config) :=
  behind (.load config) fun interface => writeText _ _ interface

/-- Adapting that fails has written nothing. -/
theorem adaptFile (path : String) : AllOrNothing (Workspace.adaptFile path) :=
  behind (.readConfig path) adapt

end AllOrNothing

/-- Writing changes the bytes of the file that the path leads to and of no other one. -/
theorem bytes?_of_write {files after : Files} {path text : String}
    (h : files.write path text = .ok after) :
    ∃ place, files.place path = .ok place ∧ after.bytes? place = some text.toUTF8 ∧
      ∀ other, other ≠ place → after.bytes? other = files.bytes? other := by
  unfold write at h
  split at h
  · next place hplace =>
    obtain rfl := Except.ok.inj h
    obtain ⟨old, hold⟩ := Option.isSome_iff_exists.mp (isSome_bytes?_of_place hplace)
    refine ⟨place, hplace, ?_, fun other hother => ?_⟩
    · rw [bytes?_replace, if_pos rfl, hold, Option.map_some]
    · rw [bytes?_replace, if_neg hother]
  · cases h

/-- A checked program name is the proper name of a file. -/
theorem place_interfacePath {files : Files} {config : Config} {place : List String}
    (hcheck : config.check = .ok ()) (h : files.place config.interfacePath = .ok place) :
    ∃ base, files.LeadsTo config.directory base ∧
      place = base ++ [config.programName ++ ".json"] := by
  have hslash : '/' ∉ (config.programName ++ ".json").toList := by
    rw [String.toList_append, List.mem_append, not_or]
    exact ⟨fun hmem => (Config.isFileStem_of_check hcheck '/' hmem).1 rfl, by decide⟩
  have hlong : ∀ short : String, short.toList.length < 5 →
      config.programName ++ ".json" ≠ short := by
    rintro short hshort rfl
    rw [String.toList_append, List.length_append] at hshort
    exact absurd hshort (by simp)
  exact place_joinPath hslash
    ⟨hlong "" (by decide), hlong "." (by decide), hlong ".." (by decide)⟩ h

/-- A run that adapts and fails has changed no file.  One that succeeds has changed at most the
file of the program's name directly in the configured directory, which holds the result then.
Making an account plan changes no file, whether it fails or not. -/
theorem carryOut_adaptFile_allOrNothing (files : Files) (path : String) :
    (match files.carryOut (Workspace.adaptFile path) with
      | (.error _, after) => after = files
      | (.ok interface, after) =>
        ∃ config base, files.carryOut (Workspace.readConfig path) = (.ok config, files) ∧
          files.LeadsTo config.directory base ∧
          after.bytes? (base ++ [config.programName ++ ".json"]) =
            some interface.toJson.pretty.toUTF8 ∧
          ∀ place, place ≠ base ++ [config.programName ++ ".json"] →
            after.bytes? place = files.bytes? place) ∧
      (∀ config name, (files.carryOut (Workspace.planInstruction config name)).2 = files) ∧
      ∀ name, (files.carryOut (Workspace.planInstructionFile path name)).2 = files := by
  refine ⟨?_, fun config name => WritesNothing.planInstruction config name files, fun name =>
    (WritesNothing.readConfig path).bind (WritesNothing.planInstruction · name) files⟩
  cases h : files.carryOut (Workspace.adaptFile path) with
  | mk result after =>
    cases result with
    | error e => exact AllOrNothing.adaptFile path h
    | ok interface =>
      obtain ⟨config, between, hconfig, hadapt⟩ := carryOut_bind_eq_ok.mp h
      obtain ⟨-, -, rfl⟩ := carryOut_readConfig_eq_ok.mp hconfig
      obtain ⟨hcheck, -, hwrite⟩ := carryOut_adapt_eq_ok.mp hadapt
      obtain ⟨place, hplace, hbytes, hothers⟩ := bytes?_of_write hwrite
      obtain ⟨base, hbase, rfl⟩ := place_interfacePath hcheck hplace
      exact ⟨config, base, hconfig, hbase, hbytes, hothers⟩

end CanonicalIdl.Files
