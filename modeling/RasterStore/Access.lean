/-!
# Access and opening options

A dataset is open for reading or for update. The options for opening one are flags, which also
come packed into the bits of a number, the drivers to consider and the capacity of its block cache.
-/

namespace RasterStore

/-- What a dataset and its bands may be used for. -/
inductive Access where
  | readOnly
  | update
deriving DecidableEq

def Access.text : Access → String
  | readOnly => "ReadOnly"
  | update => "Update"

/-- Flags for opening a dataset. -/
structure OpenFlags where
  /-- Open for update instead of for reading. -/
  update : Bool := false
  /-- Consider raster drivers. -/
  raster : Bool := false
  /-- Report a failure to open as an error. -/
  verbose : Bool := false
deriving DecidableEq

namespace OpenFlags

/-- The flags in the bits of a number; other bits are ignored. -/
def ofBits (bits : Nat) : OpenFlags :=
  { update := bits.testBit 0, raster := bits.testBit 1, verbose := bits.testBit 6 }

/-- The number whose bits are the flags. -/
def toBits (flags : OpenFlags) : Nat :=
  (if flags.update then 0x01 else 0) + (if flags.raster then 0x02 else 0) +
    (if flags.verbose then 0x40 else 0)

/-- The access that the flags ask for. -/
def access (flags : OpenFlags) : Access :=
  if flags.update then .update else .readOnly

/-- The flags that ask for an access and for nothing else. -/
def ofAccess : Access → OpenFlags
  | .update => { update := true }
  | .readOnly => {}

@[simp] theorem ofBits_toBits (flags : OpenFlags) : ofBits flags.toBits = flags := by
  obtain ⟨update, raster, verbose⟩ := flags
  cases update <;> cases raster <;> cases verbose <;> rfl

@[simp] theorem access_ofAccess (access : Access) : (ofAccess access).access = access := by
  cases access <;> rfl

end OpenFlags

/-- How to open a dataset. -/
structure OpenOptions where
  flags : OpenFlags := {}
  /-- The drivers to try, by name and in order; all drivers if missing. -/
  allowed : Option (List String) := none
  /-- Capacity of the block cache; the configured one if missing. -/
  cacheBlocks : Option Nat := none

end RasterStore
