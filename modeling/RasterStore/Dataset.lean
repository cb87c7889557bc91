import RasterStore.Access
import RasterStore.BlockStore
import RasterStore.CacheCapacity

/-!
# Datasets

A dataset is a raster of one or more bands, with a codec that stores it and a cache of blocks.
Changed blocks reach the codec when they are evicted, when the dataset is flushed and when it is
closed or dropped.
-/

namespace RasterStore

/-- A raster with its codec and its cached blocks. -/
structure Dataset (κ : Type) where
  /-- Short name of the format. -/
  driver : String
  access : Access
  store : BlockStore κ
  /-- The dataset was closed, so that dropping it has nothing left to do. -/
  closed : Bool := false

namespace Dataset

variable {κ α : Type}

/-- Number of bands. -/
def bandCount (dataset : Dataset κ) : Nat :=
  dataset.store.bands.size

/-- Width and height of every band. -/
def size (dataset : Dataset κ) : Size :=
  dataset.store.raster

/-- The descriptor of a band, counted from one. -/
def descriptor (dataset : Dataset κ) (band : Nat) : BandDescriptor :=
  dataset.store.descriptor band

/-- One line that shows what the dataset is. -/
def text (dataset : Dataset κ) : String :=
  let driver := quoted dataset.driver
  s!"Dataset \x7b driver: {driver}, raster_size: {dataset.size.text}, " ++
    s!"raster_count: {dataset.bandCount}, access: {dataset.access.text} \x7d"

/-- Runs a step on the blocks. -/
def onStore (act : Action (BlockStore κ) α) : Action (Dataset κ) α := fun dataset =>
  match dataset with
  | ⟨driver, access, store, closed⟩ =>
    match act store with
    | (outcome, reached) => (outcome, ⟨driver, access, reached, closed⟩)

/-- A refused argument of `ofCodec`. -/
def notADataset {β : Type} (reason : String) : Except RasterError β :=
  .error (.illegalArgument "from_codec" reason)

/-- The number of the first band with an empty block size, counted from one. -/
def emptyBlockBand? (bands : List BandDescriptor) : Option Nat :=
  (bands.findIdx? (·.block.isEmpty)).map (· + 1)

variable [Codec κ]

/-- A dataset around a codec. `environment` is the configured cache capacity, as text. -/
def ofCodec (codec : κ) (raster : Size) (bands : List BandDescriptor) (options : OpenOptions)
    (environment : Option String) : Except RasterError (Dataset κ) :=
  if raster.isEmpty then notADataset s!"empty raster size {raster.text}"
  else if bands.isEmpty then notADataset "a dataset needs at least one band"
  else
    match emptyBlockBand? bands with
    | some number => notADataset s!"band {number} has an empty block size"
    | none =>
      let (capacity, notice) := cacheCapacity options.cacheBlocks environment
      let reports : Reports := notice.elim {} ({} : Reports).note
      .ok
        { driver := Codec.name codec
          access := options.flags.access
          store := ⟨BlockCache.empty capacity, codec, bands.toArray, raster, reports⟩ }

/-- Checks the number of a band. -/
def checkBand (dataset : Dataset κ) (band : Nat) : Except RasterError Unit :=
  if band = 0 ∨ dataset.bandCount < band then
    .error (.illegalArgument "rasterband" s!"band {band} out of range 1..={dataset.bandCount}")
  else .ok ()

/-- Changes the capacity of the block cache, writing blocks back that have to go. -/
def setCacheBlocks (capacity : Nat) : Action (Dataset κ) Unit :=
  onStore (BlockStore.setCapacity capacity)

/-- Writes all dirty blocks back and flushes the codec, also if blocks failed; a failure of the
    blocks is the one that is told. -/
def flush : Action (Dataset κ) Unit := do
  let written ← (onStore BlockStore.flush).attempt
  -- also after a failure, so that the blocks that were written are safe
  let synced ← (onStore (BlockStore.onCodec Codec.flush)).attempt
  match written with
  | .ok () => synced
  | .error error => throw error

/-- Flushes the dataset when it is given up, unless it was closed; a failure is only reported. -/
def drop : Action (Dataset κ) Unit := do
  if (← get).closed then
    pure ()
  else
    match ← flush.attempt with
    | .ok () => pure ()
    | .error error =>
      let driver := (← get).driver
      onStore (BlockStore.modifyReports
        (·.note ⟨.error, s!"flushing {driver} dataset on drop: {error.message}"⟩))

/-- Flushes the dataset and gives it up, also if the flush failed. -/
def close : Action (Dataset κ) Unit := do
  let flushed ← flush.attempt
  modify ({ · with closed := true })
  drop
  liftM flushed

end Dataset

end RasterStore
