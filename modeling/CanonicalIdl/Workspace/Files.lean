import CanonicalIdl.Failure

/-!
# Files

A file system without links: files with their bytes, each at the end of the names that lead to it
from the root, and directories.  A directory is there if it is listed, if it is the working
directory, or if some file or one of these stands in it.  Absolute paths are followed name by name
from the root and all others from the working directory.  A file is read as a text if its bytes
are UTF-8.

Main results:

- Theorem `content?_ofList`: files that are given by their texts have these texts.
- Theorem `read_eq_ok_iff`: what is read is the text whose bytes stand at the place.
- Theorem `bytes?_replace`: writing changes the bytes at one place only.
- Theorem `place_replace`: writing leaves every path leading where it led.
- Theorem `read_of_write`: a file that was written holds what was written.
-/

namespace CanonicalIdl

/-- A file system, seen from a working directory. -/
structure Files where
  /-- The names that lead from the root to the working directory. -/
  working : List String
  /-- Directories, in which no file has to stand. -/
  directories : List (List String)
  /-- The bytes of each file, by the names that lead to it from the root. -/
  entries : List (List String × ByteArray)
  /-- What the system refuses: to read the file at a place, or to look for a name in the
  directory at a place. -/
  refusals : List (List String × FileFault)

namespace Files

/-- Cut a path at its slashes, where `name` is the current name, last character first. -/
def splitPath (name : List Char) : List Char → List String
  | [] => [String.ofList name.reverse]
  | c :: rest =>
    if c == '/' then String.ofList name.reverse :: splitPath [] rest
    else splitPath (c :: name) rest

/-- The parts of a path between its slashes. -/
def parts (path : String) : List String :=
  splitPath [] path.toList

/-- A working directory for files of which no place is given. -/
def ownDirectory : List String := ["tmp", "workspace"]

/-- Files by their texts and by relative paths without empty, `.` or `..` parts. -/
def ofList (files : List (String × String)) : Files where
  working := ownDirectory
  directories := []
  entries := files.map fun (path, text) => (ownDirectory ++ parts path, text.toUTF8)
  refusals := []

/-- The bytes of the file at a place. -/
def bytes? (files : Files) (place : List String) : Option ByteArray :=
  files.entries.lookup place

/-- The text of a file, by the names that lead to it from the working directory. -/
def content? (files : Files) (names : List String) : Option String :=
  (files.bytes? (files.working ++ names)).bind String.fromUTF8?

/-- Whether a directory is at a place. -/
def isDirectory (files : Files) (place : List String) : Bool :=
  (files.working :: files.directories).any place.isPrefixOf ||
    files.entries.any fun entry => place.isPrefixOf entry.1 && place != entry.1

/-- Where a path leads to. -/
inductive Position where
  | directory (place : List String)
  | file (place : List String)
  deriving Repr, DecidableEq

/-- The longest name of a file, in bytes. -/
def longestName : Nat := 255

/-- The length from which a path is too long, in bytes. -/
def pathLimit : Nat := 4096

/-- What a proper name leads to in a directory. -/
def lookIn (files : Files) (place : List String) (name : String) : Except FileFault Position :=
  if longestName < name.utf8ByteSize then .error .nameTooLong
  else
    let place := place ++ [name]
    if (files.bytes? place).isSome then .ok (.file place)
    else if files.isDirectory place then .ok (.directory place)
    else .error .missing

/-- One part of a path further on from a directory.  Above the root is the root itself. -/
def enter (files : Files) (place : List String) (part : String) : Except FileFault Position :=
  if part = "" then .ok (.directory place)
  else
    match files.refusals.lookup place with
    | some fault => .error fault
    | none =>
      if part = "." then .ok (.directory place)
      else if part = ".." then .ok (.directory place.dropLast)
      else files.lookIn place part

/-- One part of a path further on. -/
def follow (files : Files) (part : String) : Position → Except FileFault Position
  | .directory place => files.enter place part
  | .file _ => .error .notDirectory

/-- All parts of a path, one after another. -/
def followAll (files : Files) : List String → Position → Except FileFault Position
  | [], position => .ok position
  | part :: rest, position =>
    match files.follow part position with
    | .ok position => followAll files rest position
    | .error fault => .error fault

/-- Where a path starts. -/
def start (files : Files) (path : String) : Position :=
  .directory (if path.toList.head? = some '/' then [] else files.working)

/-- Where a path leads to. -/
def locate (files : Files) (path : String) : Except FileFault Position :=
  if path.toList.any (·.toNat == 0) then .error .nulInName
  else if pathLimit ≤ path.utf8ByteSize then .error .nameTooLong
  else if path = "" then .error .missing
  else files.followAll (parts path) (files.start path)

/-- The place of the file that a path leads to. -/
def place (files : Files) (path : String) : Except FileFault (List String) :=
  match files.locate path with
  | .ok (.file place) => .ok place
  | .ok (.directory _) => .error .directory
  | .error fault => .error fault

/-- A path may leave the working directory and come back, or start at the root. -/
example :
    (ofList [("idl/pool.json", "")]).place "../workspace/idl/pool.json" =
        .ok ["tmp", "workspace", "idl", "pool.json"] ∧
      (ofList [("idl/pool.json", "")]).place "/tmp/../tmp/workspace/idl/pool.json" =
        .ok ["tmp", "workspace", "idl", "pool.json"] :=
  ⟨rfl, rfl⟩

/-- Bytes as a text. -/
def textOf (bytes : ByteArray) : Except FileFault String :=
  match String.fromUTF8? bytes with
  | some text => .ok text
  | none => .error .notText

/-- The text of the file at a place. -/
def textAt (files : Files) (place : List String) : Except FileFault String :=
  match files.refusals.lookup place, files.bytes? place with
  | some fault, _ => .error fault
  | none, some bytes => textOf bytes
  | none, none => .error .missing

/-- The text of the file that a path leads to. -/
def read (files : Files) (path : String) : Except FileFault String :=
  match files.place path with
  | .ok place => files.textAt place
  | .error fault => .error fault

/-- The files with other bytes at a place. -/
def replace (files : Files) (place : List String) (bytes : ByteArray) : Files :=
  { files with
    entries := files.entries.map fun entry => if entry.1 = place then (entry.1, bytes) else entry }

/-- Write a text into the file that a path leads to. -/
def write (files : Files) (path text : String) : Except FileFault Files :=
  match files.place path with
  | .ok place => .ok (files.replace place text.toUTF8)
  | .error fault => .error fault

/-! ## Texts and bytes -/

/-- A text is decoded from its bytes. -/
@[simp] theorem fromUTF8?_toByteArray (text : String) :
    String.fromUTF8? text.toByteArray = some text := by
  rw [String.fromUTF8?, dif_pos text.isValidUTF8]
  rfl

/-- Bytes are the text that they come from. -/
theorem textOf_eq_ok_iff {bytes : ByteArray} {text : String} :
    textOf bytes = .ok text ↔ bytes = text.toUTF8 := by
  constructor
  · intro h
    unfold textOf String.fromUTF8? at h
    split at h
    · next found hfound =>
      split at hfound
      · obtain rfl := Option.some.inj hfound
        rw [← Except.ok.inj h]
        rfl
      · cases hfound
    · cases h
  · rintro rfl
    rw [textOf, String.toUTF8_eq_toByteArray, fromUTF8?_toByteArray]

/-- Files that are given by their texts have these texts. -/
theorem content?_ofList (given : List (String × String)) (names : List String) :
    (ofList given).content? names = (given.find? (parts ·.1 = names)).map (·.2) := by
  rw [content?, bytes?, ofList]
  induction given with
  | nil => rfl
  | cons first rest ih =>
    by_cases h : parts first.1 = names
    · subst h
      simp
    · have hne : (ownDirectory ++ names == ownDirectory ++ parts first.1) = false := by
        simpa using Ne.symm h
      rw [List.map_cons, List.lookup_cons, hne, List.find?_cons_of_neg (by simpa using h)]
      exact ih

/-- The text at a place is the one whose bytes stand there. -/
theorem textAt_eq_ok_iff {files : Files} {place : List String} {text : String} :
    files.textAt place = .ok text ↔
      files.refusals.lookup place = none ∧ files.bytes? place = some text.toUTF8 := by
  unfold textAt
  split
  · next fault hrefused => simp [hrefused]
  · next bytes hallowed hbytes => simp [hallowed, hbytes, textOf_eq_ok_iff]
  · next hallowed hbytes => simp [hbytes]

/-- What is read is the text whose bytes stand at the place that the path leads to. -/
theorem read_eq_ok_iff {files : Files} {path text : String} :
    files.read path = .ok text ↔
      ∃ place, files.place path = .ok place ∧ files.refusals.lookup place = none ∧
        files.bytes? place = some text.toUTF8 := by
  unfold read
  cases files.place path with
  | ok place => simp [textAt_eq_ok_iff]
  | error fault => simp

/-- Bytes that are not UTF-8 are no text. -/
example :
    ({ ofList [] with entries := [(["pool.json"], ByteArray.mk #[0xff])] } : Files).read
      "/pool.json" = .error .notText :=
  rfl

/-! ## Reading what was written -/

/-- Other bytes stand at the place that was written, and nowhere else. -/
theorem bytes?_replace (files : Files) (place other : List String) (bytes : ByteArray) :
    (files.replace place bytes).bytes? other =
      if other = place then (files.bytes? other).map fun _ => bytes
      else files.bytes? other := by
  obtain ⟨working, directories, entries, refusals⟩ := files
  simp only [bytes?, replace]
  induction entries with
  | nil => simp
  | cons entry rest ih =>
    obtain ⟨key, value⟩ := entry
    simp only [List.map_cons]
    by_cases hk : key = place
    · subst hk
      by_cases ho : other = key
      · subst ho
        simp
      · have hb : (other == key) = false := by simpa using ho
        simp [List.lookup_cons, ih, hb, ho]
    · by_cases ho : other = key
      · subst ho
        simp [hk]
      · have hb : (other == key) = false := by simpa using ho
        simp [hk, List.lookup_cons, ih, hb]

/-- Other bytes leave the tree of files as it is. -/
theorem isDirectory_replace (files : Files) (place other : List String) (bytes : ByteArray) :
    (files.replace place bytes).isDirectory other = files.isDirectory other := by
  simp only [isDirectory, replace, List.any_map]
  congr 2
  funext entry
  by_cases h : entry.1 = place <;> simp [h]

theorem enter_replace (files : Files) (place base : List String) (part : String)
    (bytes : ByteArray) :
    (files.replace place bytes).enter base part = files.enter base part := by
  have hsome : ∀ other, ((files.replace place bytes).bytes? other).isSome =
      (files.bytes? other).isSome := by
    intro other
    rw [bytes?_replace]
    split <;> simp
  have hlook : (files.replace place bytes).lookIn base part = files.lookIn base part := by
    simp only [lookIn, hsome, isDirectory_replace]
  rw [enter, enter, hlook]
  rfl

/-- Writing a file leaves every name leading where it led. -/
theorem followAll_replace (files : Files) (place : List String) (bytes : ByteArray)
    (names : List String) (position : Position) :
    (files.replace place bytes).followAll names position =
      files.followAll names position := by
  induction names generalizing position with
  | nil => rfl
  | cons part rest ih =>
    have hstep : (files.replace place bytes).follow part position =
        files.follow part position := by
      cases position with
      | directory inside => exact enter_replace files place inside part bytes
      | file _ => rfl
    simp [followAll, hstep, ih]

/-- Other bytes leave every path leading where it led. -/
theorem place_replace (files : Files) (place : List String) (bytes : ByteArray) (path : String) :
    (files.replace place bytes).place path = files.place path := by
  have hstart : (files.replace place bytes).start path = files.start path := rfl
  simp only [Files.place, locate, followAll_replace, hstart]

/-- A position at a file is at one that is there. -/
def Holds (files : Files) : Position → Prop
  | .file place => (files.bytes? place).isSome
  | .directory _ => True

section Reached

variable {files : Files} {position reached : Position}

/-- What is found under a name is there. -/
theorem holds_of_lookIn {place : List String} {name : String}
    (h : files.lookIn place name = .ok reached) : files.Holds reached := by
  simp only [lookIn] at h
  split at h
  · cases h
  · split at h
    · next hfile =>
      cases h
      exact hfile
    · split at h <;> cases h
      trivial

theorem holds_of_follow {part : String} (h : files.follow part position = .ok reached) :
    files.Holds reached := by
  cases position with
  | file place => cases h
  | directory place =>
    simp only [follow, enter] at h
    split at h
    · cases h
      trivial
    · split at h
      · cases h
      · split at h
        · cases h
          trivial
        · split at h
          · cases h
            trivial
          · exact holds_of_lookIn h

/-- What names lead to is there if they start from what is. -/
theorem holds_of_followAll {names : List String} (hposition : files.Holds position)
    (h : files.followAll names position = .ok reached) : files.Holds reached := by
  induction names generalizing position with
  | nil =>
    cases h
    exact hposition
  | cons part rest ih =>
    rw [followAll] at h
    split at h
    · next found hfound => exact ih (holds_of_follow hfound) h
    · cases h

/-- A path that leads somewhere is followed name by name. -/
theorem followAll_of_locate {path : String} (h : files.locate path = .ok reached) :
    files.followAll (parts path) (files.start path) = .ok reached := by
  unfold locate at h
  split at h
  · cases h
  · split at h
    · cases h
    · split at h
      · cases h
      · exact h

/-- A place that a path leads to is that of a file. -/
theorem locate_of_place {path : String} {place : List String}
    (h : files.place path = .ok place) : files.locate path = .ok (.file place) := by
  unfold Files.place at h
  split at h
  · next found hfound => rw [hfound, Except.ok.inj h]
  · cases h
  · cases h

/-- A path that leads to a file leads to one that is there. -/
theorem isSome_bytes?_of_place {path : String} {place : List String}
    (h : files.place path = .ok place) : (files.bytes? place).isSome := by
  have hstart : files.Holds (files.start path) := trivial
  exact holds_of_followAll hstart (followAll_of_locate (locate_of_place h))

end Reached

/-- A file that could be read and was written holds what was written. -/
theorem read_of_write {files written : Files} {path old text : String}
    (hread : files.read path = .ok old) (h : files.write path text = .ok written) :
    written.read path = .ok text := by
  obtain ⟨place, hplace, hallowed, hbytes⟩ := read_eq_ok_iff.mp hread
  rw [write, hplace] at h
  obtain rfl := Except.ok.inj h
  refine read_eq_ok_iff.mpr ⟨place, ?_, hallowed, ?_⟩
  · rw [place_replace, hplace]
  · rw [bytes?_replace, if_pos rfl, hbytes, Option.map_some]

end Files

end CanonicalIdl
