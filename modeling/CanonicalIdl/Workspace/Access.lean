import CanonicalIdl.Workspace.Files

/-!
# Access to files

What a run needs of a file system: reading and writing the text of a file.  Files held as a
value are one file system.

Main results:

- Theorem `readText_run`, `writeText_run`: access to files held as a value reads and
  writes that value.
-/

namespace CanonicalIdl

/-- A file system with its effects in `m`. -/
class FileAccess (m : Type → Type) where
  /-- The text of a file. -/
  readText : String → m (Except FileFault String)
  /-- Write a file, in exchange for its earlier text. -/
  writeText : String → String → m (Except FileFault Unit)

instance : FileAccess (StateM Files) where
  readText path := fun files => (files.read path, files)
  writeText path text := fun files =>
    match files.write path text with
    | .ok written => (.ok (), written)
    | .error fault => (.error fault, files)

namespace Files

/-- Reading gives the text of the file and changes nothing. -/
@[simp] theorem readText_run (files : Files) (path : String) :
    (FileAccess.readText path : StateM Files (Except FileFault String)).run files =
      (files.read path, files) := rfl

/-- Writing goes to the file that the path leads to; if it leads to none, nothing changes. -/
theorem writeText_run (files : Files) (path text : String) :
    (FileAccess.writeText path text : StateM Files (Except FileFault Unit)).run files =
      match files.write path text with
      | .ok written => (.ok (), written)
      | .error fault => (.error fault, files) := rfl

end Files

end CanonicalIdl
