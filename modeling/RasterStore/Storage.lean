import RasterStore.Action
import RasterStore.Bytes

/-!
# Storage

A storage is a string of bytes with positioned reads and writes, kept in memory or in a file. It is
a value: reading does not change it, and writing returns the storage as it is afterwards. A read
gives the whole range or fails; a write beyond the end fills the gap with zeros.

Memory and files differ in what they refuse: no range of a file can end at 2 ^ 63 or beyond, a file
open for reading cannot change its length, and memory cannot be read beyond its end even where
nothing is asked for.
-/

namespace RasterStore

/-- What holds the bytes of a storage. -/
inductive Medium where
  | memory
  /-- The file at a path. -/
  | file (path : String)
  /-- A directory, which can be opened for reading but not be read. -/
  | directory (path : String)
deriving DecidableEq

/-- A string of bytes with positioned reads and writes. -/
structure Storage where
  medium : Medium
  bytes : ByteArray
  writable : Bool

/-- What the system says of an argument that it refuses. -/
def invalidArgument : String :=
  "Invalid argument (os error 22)"

/-- What is said of a file length that the system cannot express. -/
def lengthOutOfRange : String :=
  "number too large to fit in target type"

/-- What the system says of a directory that is used as a file. -/
def isADirectory : String :=
  "Is a directory (os error 21)"

/-- The length of a file, and the end of a range that is read or written in it, stay below this. -/
def offsetLimit : Nat :=
  byteLimit 8 / 2

namespace Storage

/-- Storage in memory. -/
def inMemory (bytes : ByteArray) (writable : Bool) : Storage :=
  ⟨.memory, bytes, writable⟩

/-- Number of bytes. -/
def length (storage : Storage) : Nat :=
  storage.bytes.size

/-- There are no bytes. -/
def isEmpty (storage : Storage) : Bool :=
  storage.length == 0

/-- The `count` bytes from `offset` on. -/
def read (storage : Storage) (offset count : Nat) : Except RasterError ByteArray :=
  match storage.medium with
  | .memory =>
    -- an empty read behind the end fails here, but not in a file
    if offset + count ≤ storage.length then .ok (storage.bytes.slice offset count)
    else
      .error (.io none (s!"short read of {count} bytes at offset {offset} " ++
        s!"(length {storage.length})"))
  | .file _ =>
    if offsetLimit ≤ offset + count then .error (.io none invalidArgument)
    else if count = 0 then .ok ByteArray.empty
    else if offset + count ≤ storage.length then .ok (storage.bytes.slice offset count)
    else .error (.io none "failed to fill whole buffer")
  | .directory _ => .error (.io none isADirectory)

/-- The bytes with zeros added up to a length that is not reached yet. -/
def extended (bytes : ByteArray) (length : Nat) : ByteArray :=
  if bytes.size < length then bytes ++ ByteArray.zeros (length - bytes.size) else bytes

/-- The bytes with exactly the given length: cut off, or extended by zeros. -/
def resized (bytes : ByteArray) (length : Nat) : ByteArray :=
  if length < bytes.size then bytes.slice 0 length else extended bytes length

/-- The bytes after a write. -/
def written (bytes : ByteArray) (offset : Nat) (data : ByteArray) : ByteArray :=
  (extended bytes (offset + data.size)).overwrite offset data

/-- Writes bytes from `offset` on. -/
def write (offset : Nat) (data : ByteArray) : Action Storage Unit := fun storage =>
  match storage with
  | ⟨.memory, bytes, true⟩ => (.ok (), ⟨.memory, written bytes offset data, true⟩)
  | ⟨.memory, bytes, false⟩ =>
    (.error (.noWriteAccess "MemStorage::write_all_at"), ⟨.memory, bytes, false⟩)
  | ⟨medium, bytes, false⟩ =>
    (.error (.noWriteAccess "FileStorage::write_all_at"), ⟨medium, bytes, false⟩)
  | ⟨medium, bytes, true⟩ =>
    if offsetLimit ≤ offset + data.size then
      (.error (.io none invalidArgument), ⟨medium, bytes, true⟩)
    else if data.size = 0 then (.ok (), ⟨medium, bytes, true⟩)
    else (.ok (), ⟨medium, written bytes offset data, true⟩)

/-- Writes several pieces in order; the first failure ends it. -/
def writeAll : List (Nat × ByteArray) → Action Storage Unit
  | [] => pure ()
  | (offset, data) :: rest => do
    write offset data
    writeAll rest

/-- Cuts off or extends the storage to exactly `length` bytes. -/
def setLength (length : Nat) : Action Storage Unit := fun storage =>
  match storage with
  -- memory changes its length even where it cannot be written
  | ⟨.memory, bytes, writable⟩ => (.ok (), ⟨.memory, resized bytes length, writable⟩)
  | ⟨medium, bytes, writable⟩ =>
    if offsetLimit ≤ length then (.error (.io none lengthOutOfRange), ⟨medium, bytes, writable⟩)
    else if writable then (.ok (), ⟨medium, resized bytes length, writable⟩)
    else (.error (.io none invalidArgument), ⟨medium, bytes, writable⟩)

/-- Brings everything written to its final place. Writes of this model are final at once. -/
def flush : Action Storage Unit :=
  pure ()

end Storage

end RasterStore
