import RasterStore.Path
import RasterStore.Storage

/-!
# Files

The files that datasets are stored in, as values: the directories there are, and the bytes of each
file. What a path leads to is found by following its names (`FileSystem.locate`); a file that is
found is known by the path without detours from then on.

A storage over a file holds a copy of its bytes. `FileSystem.attach` brings the copy up to date
before it is used and `FileSystem.save` puts it back afterwards, so that all storages over one file
see each other's writes.
-/

namespace RasterStore

/-- Directories, and files with their bytes, by path. -/
structure FileSystem where
  directories : List String
  files : List (String × ByteArray) := []

/-- What a name stands for in a directory. -/
inductive DirectoryEntry where
  | directory (path : String)
  | file (path : String) (bytes : ByteArray)
  /-- Nothing so far. The path is that of a file made under the name. -/
  | vacant (path : String)

/-- What the system says of a path at which nothing is. -/
def noSuchFile : String :=
  "No such file or directory (os error 2)"

/-- What the system says of a path that leads on from a file. -/
def notADirectory : String :=
  "Not a directory (os error 20)"

/-- What the system says of a name longer than `nameLimit`, or a path that reaches `pathLimit`. -/
def nameTooLong : String :=
  "File name too long (os error 36)"

/-- What is said of a path that holds the character that ends paths. -/
def nulInPath : String :=
  "file name contained an unexpected NUL byte"

/-- Number of bytes that a name can have. -/
def nameLimit : Nat := 255

/-- A path has fewer bytes than this. -/
def pathLimit : Nat := 4096

namespace FileSystem

/-- The bytes of the file with a path. -/
def find? (system : FileSystem) (path : String) : Option ByteArray :=
  system.files.lookup path

/-- Replaces the bytes of the file at a path, or adds the file. -/
def putIn (path : String) (bytes : ByteArray) :
    List (String × ByteArray) → List (String × ByteArray)
  | [] => [(path, bytes)]
  | (held, old) :: rest =>
    if held = path then (held, bytes) :: rest else (held, old) :: putIn path bytes rest

theorem lookup_putIn (path other : String) (bytes : ByteArray)
    (files : List (String × ByteArray)) :
    (putIn path bytes files).lookup other =
      if other = path then some bytes else files.lookup other := by
  induction files with
  | nil =>
    by_cases h : other = path
    · simp [putIn, h]
    · have differs : (other == path) = false := beq_false_of_ne h
      simp [putIn, List.lookup_cons, List.lookup_nil, h, differs]
  | cons file rest ih =>
    obtain ⟨held, old⟩ := file
    by_cases h : held = path
    · -- the file is there already, and gets the new bytes
      by_cases ho : other = path
      · simp [putIn, h, ho]
      · have differs : (other == path) = false := beq_false_of_ne ho
        simp [putIn, List.lookup_cons, h, ho, differs]
    · -- it is another file, and the rest is searched
      by_cases ho : other = held
      · simp [putIn, h, ho]
      · have differs : (other == held) = false := beq_false_of_ne ho
        simp [putIn, List.lookup_cons, h, differs, ih]

/-- The files after the one with a path got new bytes. -/
def put (system : FileSystem) (path : String) (bytes : ByteArray) : FileSystem :=
  { system with files := putIn path bytes system.files }

@[simp] theorem directories_put (system : FileSystem) (path : String) (bytes : ByteArray) :
    (system.put path bytes).directories = system.directories := rfl

theorem find?_put (system : FileSystem) (path other : String) (bytes : ByteArray) :
    (system.put path bytes).find? other =
      if other = path then some bytes else system.find? other :=
  lookup_putIn path other bytes system.files

/-! ## Following paths -/

/-- What a name stands for in the directory at a path. Of directories above the known ones no more
    is known than that they are there. -/
def entry (system : FileSystem) (directory name : String) : Except String DirectoryEntry :=
  if name == "." then .ok (.directory directory)
  else if name == ".." || system.directories.contains (pathIn directory name) then
    .ok (.directory (pathIn directory name))
  else if nameLimit < name.utf8ByteSize then .error nameTooLong
  else
    match system.find? (pathIn directory name) with
    | some bytes => .ok (.file (pathIn directory name) bytes)
    | none => .ok (.vacant (pathIn directory name))

/-- The directory that a row of names leads to from a directory on. -/
def enter (system : FileSystem) (directory : String) : List String → Except String String
  | [] => .ok directory
  | name :: rest => do
    match ← system.entry directory name with
    | .directory path => system.enter path rest
    | .file _ _ => .error notADirectory
    | .vacant _ => .error noSuchFile

/-- The directory in which the last name of a path is looked up. -/
def enclosing (system : FileSystem) (path : String) : Except String String :=
  if path == "" then .error noSuchFile
  else if path.toList.contains '\x00' then .error nulInPath
  else if pathLimit ≤ path.utf8ByteSize then .error nameTooLong
  else system.enter (startOf path) (pathNames path).dropLast

/-- What is at a path. -/
def locate (system : FileSystem) (path : String) : Except String DirectoryEntry := do
  let directory ← system.enclosing path
  match ← system.entry directory (lastName path) with
  | .file held bytes =>
    if endsInSlash path then .error notADirectory else .ok (.file held bytes)
  | other => .ok other

/-- The file at a path. -/
def fileAt (system : FileSystem) (path : String) : Except String (String × ByteArray) := do
  match ← system.locate path with
  | .file held bytes => .ok (held, bytes)
  | .directory _ => .error isADirectory
  | .vacant _ => .error noSuchFile

/-- The path of the file that is made, or emptied, at a path. -/
def placeFor (system : FileSystem) (path : String) : Except String String := do
  let directory ← system.enclosing path
  -- a file cannot be made where only a directory can be, whatever is there
  if endsInSlash path then .error isADirectory
  else
    match ← system.entry directory (lastName path) with
    | .file held _ | .vacant held => .ok held
    | .directory _ => .error isADirectory

theorem entry_put_of_directory {system : FileSystem} {directory name reached : String}
    (held : String) (bytes : ByteArray)
    (h : system.entry directory name = .ok (.directory reached)) :
    (system.put held bytes).entry directory name = .ok (.directory reached) := by
  unfold entry at h ⊢
  rw [directories_put]
  split at h
  · rename_i dot
    rw [if_pos dot, h]
  · rename_i dot
    rw [if_neg dot]
    split at h
    · rename_i known
      rw [if_pos known, h]
    · split at h
      · simp at h
      · split at h <;> simp at h

/-- New bytes in a file do not change which directory a row of names leads to. -/
theorem enter_put {system : FileSystem} (held : String) (bytes : ByteArray) (names : List String)
    {directory reached : String} (h : system.enter directory names = .ok reached) :
    (system.put held bytes).enter directory names = .ok reached := by
  induction names generalizing directory with
  | nil => exact h
  | cons name rest ih =>
    unfold enter at h ⊢
    -- each name on the way leads to a directory, and still does
    cases found : system.entry directory name with
    | error reason => simp [found, bind, Except.bind] at h
    | ok entry =>
      cases entry with
      | directory path =>
        rw [found] at h
        rw [entry_put_of_directory held bytes found]
        exact ih h
      | file path old => simp [found, bind, Except.bind] at h
      | vacant path => simp [found, bind, Except.bind] at h

theorem enclosing_put {system : FileSystem} {path directory : String} (held : String)
    (bytes : ByteArray) (h : system.enclosing path = .ok directory) :
    (system.put held bytes).enclosing path = .ok directory := by
  unfold enclosing at h ⊢
  split at h
  · simp at h
  · split at h
    · simp at h
    · split at h
      · simp at h
      · simp_all [enter_put]

/-- A name that a file is made under stands for that file afterwards. -/
theorem entry_put_self {system : FileSystem} {directory name held : String} (bytes : ByteArray)
    (h : system.entry directory name = .ok (.vacant held) ∨
      ∃ old, system.entry directory name = .ok (.file held old)) :
    (system.put held bytes).entry directory name = .ok (.file held bytes) := by
  unfold entry at h ⊢
  rw [directories_put]
  split at h
  · simp at h
  · rename_i dot
    rw [if_neg dot]
    split at h
    · simp at h
    · rename_i known
      rw [if_neg known]
      split at h
      · simp at h
      · rename_i short
        -- the file is where the name leads
        have same : pathIn directory name = held := by
          split at h <;> simp_all
        rw [if_neg short, same, find?_put, if_pos rfl]

/-- Where a file was made it is found. -/
theorem fileAt_put {system : FileSystem} {path held : String} (bytes : ByteArray)
    (h : system.placeFor path = .ok held) :
    (system.put held bytes).fileAt path = .ok (held, bytes) := by
  unfold placeFor at h
  cases place : system.enclosing path with
  | error reason => simp [place, bind, Except.bind] at h
  | ok directory =>
    -- no file is placed under a name that ends in a slash
    have noSlash : endsInSlash path = false := by
      cases slash : endsInSlash path with
      | false => rfl
      | true => simp [place, slash, bind, Except.bind] at h
    have made : (system.put held bytes).entry directory (lastName path) =
        .ok (.file held bytes) := by
      refine entry_put_self bytes ?_
      cases found : system.entry directory (lastName path) with
      | error reason => simp [place, found, noSlash, bind, Except.bind] at h
      | ok entry => cases entry <;> simp_all [bind, Except.bind]
    simp [fileAt, locate, enclosing_put held bytes place, made, noSlash, bind, Except.bind]

/-! ## Storages over files -/

/-- The outcome, with the reason of a failure as that of a file that could not be opened. -/
def opening {α : Type} (path : String) : Except String α → Except RasterError α
  | .ok value => .ok value
  | .error reason => .error (.openFailed path reason)

/-- Opens the file at a path. A directory can be opened for reading. -/
def openStorage (system : FileSystem) (path : String) (update : Bool) :
    Except RasterError Storage := do
  match ← opening path (system.locate path) with
  | .file held bytes => .ok ⟨.file held, bytes, update⟩
  | .directory _ =>
    if update then .error (.openFailed path isADirectory)
    else .ok ⟨.directory path, ByteArray.empty, false⟩
  | .vacant _ => .error (.openFailed path noSuchFile)

/-- Makes an empty file at a path, emptying the one that is there, and opens it for update. -/
def createStorage (path : String) : Action FileSystem Storage := do
  let system ← get
  let held ← opening path (system.placeFor path)
  set (system.put held ByteArray.empty)
  pure ⟨.file held, ByteArray.empty, true⟩

/-- The first bytes of the file at a path, at most `count`. -/
def readStart (system : FileSystem) (path : String) (count : Nat) :
    Except RasterError ByteArray := do
  let (_, bytes) ← opening path (system.fileAt path)
  pure (bytes.slice 0 count)

/-- The storage with the bytes that its file has now. -/
def attach (system : FileSystem) (storage : Storage) : Storage :=
  match storage.medium with
  | .file path => { storage with bytes := (system.find? path).getD storage.bytes }
  | _ => storage

/-- The files after those of a storage were put back. -/
def save (system : FileSystem) (storage : Storage) : FileSystem :=
  match storage.medium with
  | .file path => system.put path storage.bytes
  | _ => system

/-- Runs a step on a storage and puts its file back, also if the step fails. -/
def onStorage {α : Type} (storage : Storage) (act : Action Storage α) :
    Action FileSystem α := fun system =>
  match act storage with
  | (outcome, reached) => (outcome, system.save reached)

end FileSystem

end RasterStore
