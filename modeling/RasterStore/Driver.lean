import RasterStore.Codec.Choice
import RasterStore.Format.Dted
import RasterStore.Format.Memory
import RasterStore.Format.Tiled
import RasterStore.OptionList
import RasterStore.SharedFiles

/-!
# Drivers

A driver creates and opens datasets of one format. A file's format is recognised by its first
bytes; opening a dataset asks the drivers in turn.
-/

namespace RasterStore

/-- The formats that datasets can have. -/
inductive Driver where
  | memory
  | tiled
  | dted
deriving DecidableEq

/-- A codec of one of the formats. -/
abbrev FormatCodec : Type :=
  MemoryCodec ⊕ TiledCodec ⊕ DtedCodec

instance : StoredCodec MemoryCodec where
  storage? _ := none
  withStorage codec _ := codec

instance : StoredCodec TiledCodec where
  storage? codec := some codec.storage
  withStorage codec storage := { codec with storage }

instance : StoredCodec DtedCodec where
  storage? codec := some codec.storage
  withStorage codec storage := { codec with storage }

namespace Driver

/-- All drivers, in the order in which they are asked. -/
def all : List Driver :=
  [memory, tiled, dted]

def shortName : Driver → String
  | memory => "MEM"
  | tiled => "GTiled"
  | dted => "DTED"

def longName : Driver → String
  | memory => "In Memory raster"
  | tiled => "Generic tiled raster"
  | dted => "DTED Elevation Raster"

/-- The driver with a short name, in any case of its letters. -/
def ofName (name : String) : Except RasterError Driver :=
  match all.find? (fun driver => sameName driver.shortName name) with
  | some driver => .ok driver
  | none => .error (.unknownDriver name)

/-- The driver with a number, counted from zero. -/
def ofIndex (index : Nat) : Except RasterError Driver :=
  match all[index]? with
  | some driver => .ok driver
  | none => .error (.unknownDriver s!"#{index}")

/-! ## Recognising files -/

/-- Number of bytes by which a file is recognised. -/
def probeBytes : Nat := 16

/-- The first bytes of a file are those of this format. -/
def recognises (driver : Driver) (start : ByteArray) : Bool :=
  match driver with
  | memory => false
  | tiled => start.startsWith Tiled.magic
  | dted => DtedCodec.hasTag start ["UHL", "VOL", "HDR"]

/-- The file at a path has this format. -/
def identifies (driver : Driver) (system : FileSystem) (path : String) :
    Except RasterError Bool := do
  let start ← system.readStart path probeBytes
  pure (driver.recognises start)

/-- The driver for the file at a path. -/
def identify (system : FileSystem) (path : String) : Except RasterError Driver := do
  let start ← system.readStart path probeBytes
  match all.find? (·.recognises start) with
  | some driver => pure driver
  | none => .error (.openFailed path "format not recognised")

/-- The first of the named drivers that recognises the file at a path, if any does. -/
def firstAllowed (system : FileSystem) (path : String) :
    List String → Except RasterError (Option Driver)
  | [] => .ok none
  | name :: rest => do
    let driver ← ofName name
    if ← driver.identifies system path then pure (some driver)
    else firstAllowed system path rest

/-- The driver for the file at a path, among the allowed ones if they are given. -/
def probe (system : FileSystem) (path : String) (options : OpenOptions) :
    Except RasterError Driver :=
  match options.allowed with
  | none => identify system path
  | some names => do
    match ← firstAllowed system path names with
    | some driver => pure driver
    | none =>
      let shown := quotedList names
      .error (.openFailed path s!"not recognised by any of {shown}")

/-! ## Opening -/

/-- Opens the file at a path with this driver. -/
def openDataset (driver : Driver) (system : FileSystem) (path : String) (options : OpenOptions)
    (environment : Option String) : Except RasterError (Dataset FormatCodec) :=
  match driver with
  | memory => .error (.notSupported "Driver::open")
  | tiled => do
    let storage ← system.openStorage path options.flags.update
    let (codec, raster, bands) ← TiledCodec.load storage
    Dataset.ofCodec (.inr (.inl codec)) raster bands options environment
  | dted => do
    let storage ← system.openStorage path options.flags.update
    let codec ← DtedCodec.load storage
    Dataset.ofCodec (.inr (.inr codec)) codec.raster [DtedCodec.band codec.raster.height] options
      environment

/-! ## Creating -/

/-- Names of the options for the block size. -/
def blockOptions : List String :=
  ["BLOCKXSIZE", "BLOCKYSIZE"]

/-- The block size set by the options; a missing side has its default. -/
def blockSize (options : OptionList) (default : Size) : Except RasterError Size := do
  options.checkKnown blockOptions
  let width ← options.getPositive "BLOCKXSIZE"
  let height ← options.getPositive "BLOCKYSIZE"
  pure ⟨width.getD default.width, height.getD default.height⟩

/-- Creates a dataset, open for update, with bands of one pixel type. Only the path of formats that
    are stored in files matters; a file that is there is emptied. -/
def createDataset (driver : Driver) (path : String) (raster : Size) (bandCount : Nat)
    (type : PixelType) (options : List (String × String)) (environment : Option String) :
    Action FileSystem (Dataset FormatCodec) := do
  let options ← OptionList.ofPairs options
  let opening : OpenOptions := { flags := OpenFlags.ofAccess .update }
  match driver with
  | memory =>
    let block ← blockSize options ⟨raster.width, 1⟩
    let bands := List.replicate bandCount (BandDescriptor.mk type block none)
    let codec ← MemoryCodec.create raster bands.toArray
    Dataset.ofCodec (.inl codec) raster bands opening environment
  | tiled =>
    let block ← blockSize options ⟨256, 256⟩
    let bands := List.replicate bandCount (BandDescriptor.mk type block none)
    -- from here on the file that was there is gone, whatever follows
    let storage ← FileSystem.createStorage path
    let codec ← FileSystem.onStorage storage (TiledCodec.create raster bands)
    Dataset.ofCodec (.inr (.inl codec)) raster bands opening environment
  | dted =>
    options.checkKnown []
    if bandCount ≠ 1 ∨ type ≠ .int16 then
      throw (.badArgument s!"DTED holds one Int16 band, not {bandCount} {type.name} band(s)")
    else
      let storage ← FileSystem.createStorage path
      let codec ← FileSystem.onStorage storage (DtedCodec.create raster)
      Dataset.ofCodec (.inr (.inr codec)) raster [DtedCodec.band raster.height] opening environment

end Driver

/-! ## Datasets in files -/

/-- Opens the file at a path, recognising its format. The reports say so if it failed and the
    caller wants to know. -/
def openFile (system : FileSystem) (path : String) (options : OpenOptions)
    (environment : Option String) : Except RasterError (Dataset FormatCodec) × List Notice :=
  let result := do
    let driver ← Driver.probe system path options
    driver.openDataset system path options environment
  match result with
  | .ok dataset => (.ok dataset, [])
  | .error error =>
    (.error error,
      if options.flags.verbose then [⟨.error, s!"failed to open {path}: {error.message}"⟩] else [])

end RasterStore
