import RasterStore.Buffer
import RasterStore.Dataset
import RasterStore.Transfer

/-!
# Operations on a band

The operations of a dataset's band, counted from one: transfers of windows, access to single
blocks, filling, the no-data value, writing back. Each checks its arguments before it touches
anything; the operations that write check first that the dataset is open for update. No operation
goes on with blocks that cannot be held in memory.
-/

namespace RasterStore.Band

variable {κ : Type} [Codec κ]

/-- A refused argument. -/
def illegal {α : Type} (method reason : String) : Except RasterError α :=
  .error (.illegalArgument method reason)

/-- Ends the program if there are more pixels or bytes than a machine word counts. -/
def checkCount (count : Nat) : Except RasterError Unit :=
  if count < byteLimit 8 then .ok () else .error .capacityOverflow

/-- Ends the program if a byte string of this length cannot be held in memory. -/
def checkCapacity (length : Nat) : Except RasterError Unit :=
  if length < memoryLimit then .ok () else .error .capacityOverflow

/-- Ends the program if the blocks of a band cannot be held in memory. -/
def checkHeld (dataset : Dataset κ) (band : Nat) : Except RasterError Unit :=
  checkCapacity (dataset.descriptor band).blockBytes

/-- Refuses to write to a dataset that is open for reading. -/
def checkWritable (dataset : Dataset κ) (method : String) : Except RasterError Unit :=
  match dataset.access with
  | .readOnly => .error (.noWriteAccess method)
  | .update => .ok ()

/-- Refuses a block whose first pixel lies outside the raster. -/
def checkBlock (dataset : Dataset κ) (band : Nat) (method : String) (x y : Nat) :
    Except RasterError Unit :=
  let block := (dataset.descriptor band).block
  if dataset.size.width ≤ x * block.width then
    illegal method s!"block x index {x} out of range"
  else if dataset.size.height ≤ y * block.height then
    illegal method s!"block y index {y} out of range"
  else .ok ()

/-- The part of a block that lies inside the raster. -/
def validSize (dataset : Dataset κ) (band x y : Nat) : Except RasterError Size := do
  checkBlock dataset band "actual_block_size" x y
  pure ((dataset.descriptor band).validSize dataset.size x y)

/-! ## Windows -/

/-- Runs a transfer on the blocks of a dataset and a buffer. -/
def onBlocks {α : Type} (act : Action (BlockStore κ × ByteArray) α) :
    Action (Dataset κ × ByteArray) α := fun state =>
  match state with
  | (⟨driver, access, store, closed⟩, buffer) =>
    match act (store, buffer) with
    | (outcome, (reached, filled)) => (outcome, (⟨driver, access, reached, closed⟩, filled))

/-- Reads a window into a buffer. -/
def readRaw (band : Nat) (request : TransferRequest) (resampling : Resampling) :
    Action (Dataset κ × ByteArray) Unit := do
  let (dataset, buffer) ← get
  let window ← Window.check request dataset.size
  let layout ← BufferLayout.check request buffer.size
  checkHeld dataset band
  onBlocks (readWindow band window layout resampling)

/-- Writes a buffer into a window. -/
def writeRaw (band : Nat) (request : TransferRequest) (buffer : ByteArray) :
    Action (Dataset κ) Unit := do
  let dataset ← get
  checkWritable dataset "raster_io"
  let window ← Window.check request dataset.size
  let layout ← BufferLayout.check request buffer.size
  checkHeld dataset band
  Dataset.onStore (writeWindow band window layout buffer)

/-- Writes a buffer into a window. Only the nearest buffer pixel can be written. -/
def writeResampled (band : Nat) (request : TransferRequest) (resampling : Resampling)
    (buffer : ByteArray) : Action (Dataset κ) Unit := do
  checkWritable (← get) "raster_io"
  match resampling with
  | .nearest => writeRaw band request buffer
  | .average => throw (.notSupported "raster_io")

/-- The request for a packed buffer. -/
def packedRequest (x y : Int) (window size : Size) (type : PixelType) : TransferRequest :=
  { x, y, window, buffer := size, type }

/-- Reads a window into the pixels of a buffer. -/
def readInto (band : Nat) (x y : Int) (window size : Size) (type : PixelType)
    (resampling : Resampling) : Action (Dataset κ × ByteArray) Unit := do
  let (_, buffer) ← get
  checkCount size.area
  let pixels := buffer.size / type.bytes
  if pixels = size.area then
    readRaw band (packedRequest x y window size type) resampling
  else
    illegal "read_into_slice" s!"buffer of {pixels} pixels does not match size {size.text}"

/-- Reads a window into a new buffer of the given size and type. -/
def readAs (band : Nat) (x y : Int) (window size : Size) (type : PixelType)
    (resampling : Resampling) : Action (Dataset κ) Buffer := do
  let dataset ← get
  let request := packedRequest x y window size type
  checkCapacity (size.area * type.bytes)
  -- a refused request is refused before a buffer is made for it
  let _ ← Window.check request dataset.size
  let _ ← BufferLayout.check request (size.area * type.bytes)
  let bytes ← fun dataset =>
    match readInto band x y window size type resampling
        (dataset, (Buffer.zeros type size).bytes) with
    | (outcome, (reached, bytes)) => (outcome.map fun _ => bytes, reached)
  pure ⟨type, size, bytes⟩

/-- Reads a window into a new matrix with the given number of columns and rows. -/
def readMatrix (band : Nat) (x y : Int) (window size : Size) (type : PixelType)
    (resampling : Resampling) : Action (Dataset κ) PixelMatrix := do
  let buffer ← readAs band x y window size type resampling
  buffer.toMatrix

/-- Reads the whole band. -/
def readAll (band : Nat) (type : PixelType) : Action (Dataset κ) Buffer := do
  let size := (← get).size
  readAs band 0 0 size size type .nearest

/-- Writes a buffer into a window. -/
def write (band : Nat) (x y : Int) (window : Size) (buffer : Buffer) :
    Action (Dataset κ) Unit := do
  checkWritable (← get) "write"
  checkCount buffer.size.area
  if buffer.isComplete then
    writeRaw band (packedRequest x y window buffer.size buffer.type) buffer.bytes
  else
    illegal "write" s!"buffer of {buffer.pixels} pixels does not match size {buffer.size.text}"

/-! ## Blocks -/

/-- Refuses a buffer that does not have the size of a block. -/
def checkLength (dataset : Dataset κ) (band : Nat) (method : String) (length : Nat) :
    Except RasterError Unit := do
  let expected := (dataset.descriptor band).blockBytes
  checkCount expected
  if length = expected then checkHeld dataset band
  else illegal method s!"buffer of {length} bytes, block is {expected}"

/-- The bytes of a block, for a caller's buffer of `length` bytes. -/
def readBlock (band x y length : Nat) : Action (Dataset κ) ByteArray := do
  let dataset ← get
  checkBlock dataset band "read_block" x y
  checkLength dataset band "read_block" length
  Dataset.onStore (BlockStore.fetch ⟨band, x, y⟩ .read)

/-- A block in another pixel type. -/
def readBlockAs (band x y : Nat) (type : PixelType) : Action (Dataset κ) Buffer := do
  let dataset ← get
  -- the buffer for the block comes before all other checks
  checkHeld dataset band
  let descriptor := dataset.descriptor band
  let raw ← readBlock band x y descriptor.blockBytes
  let zeros := Buffer.zeros type descriptor.block
  pure { zeros with
    bytes := convertPixels descriptor.type type raw zeros.bytes descriptor.blockPixels }

/-- Replaces a block. -/
def writeBlock (band x y : Nat) (data : ByteArray) : Action (Dataset κ) Unit := do
  let dataset ← get
  checkWritable dataset "write_block"
  checkBlock dataset band "write_block" x y
  checkLength dataset band "write_block" data.size
  Dataset.onStore (BlockStore.change ⟨band, x, y⟩ .overwrite fun _ => data)

/-- Drops a block from the cache so that it is decoded again; only for datasets open for reading.
    Answers whether the block was held. -/
def invalidateBlock (band x y : Nat) : Action (Dataset κ) Bool := do
  let dataset ← get
  if dataset.access = .update then
    throw (.noWriteAccess "invalidate_block")
  else
    checkBlock dataset band "invalidate_block" x y
    Dataset.onStore (BlockStore.invalidate ⟨band, x, y⟩)

/-! ## Whole bands -/

/-- Sets every pixel to a value. -/
def fill (band : Nat) (value : Binary64) : Action (Dataset κ) Unit := do
  let dataset ← get
  checkWritable dataset "fill"
  checkHeld dataset band
  Dataset.onStore (fillBand band value)

/-- Writes the dirty blocks of the band back. -/
def flush (band : Nat) : Action (Dataset κ) Unit :=
  Dataset.onStore (BlockStore.flushBand band)

/-- Sets or clears the no-data value of a band: the codec records it, then the band's blocks are
    written back and dropped, so that those decoded later are padded with the new value. -/
def setNoData (band : Nat) (value : Option Binary64) : Action (Dataset κ) Unit := do
  checkWritable (← get) "set_no_data_value"
  Dataset.onStore do
    -- the codec comes first: if it refuses, nothing has changed
    BlockStore.onCodec (Codec.setNoData band value)
    modify fun store =>
      { store with bands := store.bands.modify (band - 1) ({ · with noData := value }) }
    BlockStore.flushBand band
    BlockStore.invalidateBand band

end RasterStore.Band
